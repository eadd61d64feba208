import UnderscoreLint.CommandLine.Run
import UnderscoreLint.Proofs.AsciiDocuments
import UnderscoreLint.Proofs.PorcelainLines
import UnderscoreLint.Proofs.Tallies

/-!
# Reports that can be written

A report can be written to a stream if there is something to write for all of its letters. The
document is written to every stream, since it has ASCII characters only. The text and the lines for
scripts show messages as they are, and a message quotes a name: on a stream that has codes for all
characters and for nothing else they can be written exactly if no name has half of a pair in it
(`Report.hasHalf_text`, `Report.hasHalf_porcelain`). Taking out the styling makes no difference to
that, as there is no half in a styling sequence.
-/

namespace UnderscoreLint

namespace Text

/-- There is half of a pair in the text. -/
def HasHalf (t : Text) : Prop :=
  ∃ i, .half i ∈ t.letters

/-- A styling sequence has characters only. -/
theorem exists_of_afterStyle? {ls rest : List Letter} (h : afterStyle? ls = some rest) :
    ∃ style : List Letter, ls = style ++ rest ∧ ∀ i, .half i ∉ style := by
  have hbetween : ∀ {low high : Char} {i : Fin 0x800}, ¬ isBetween low high (.half i) = true := by
    simp [isBetween, Letter.char?]
  have hstretch : ∀ (low high : Char) (ls : List Letter) (i : Fin 0x800),
      .half i ∉ ls.takeWhile (isBetween low high) :=
    fun low high ls i hi => hbetween (List.mem_takeWhile_imp hi)
  unfold afterStyle? at h
  split at h
  · cases h
  · rename_i l after hafter
    split at h
    · rename_i hend
      cases h
      refine ⟨ls.takeWhile isStyleParameter ++
        (ls.dropWhile isStyleParameter).takeWhile isStyleIntermediate ++ [l], ?_, ?_⟩
      · rw [List.append_assoc, List.append_assoc, List.singleton_append, ← hafter,
          List.takeWhile_append_dropWhile, List.takeWhile_append_dropWhile]
      · intro i hi
        simp only [List.mem_append, List.mem_singleton] at hi
        rcases hi with (hi | hi) | rfl
        · exact hstretch _ _ _ i hi
        · exact hstretch _ _ _ i hi
        · exact hbetween hend
    · cases h

theorem half_mem_unstyledLetters {ls : List Letter} {i : Fin 0x800} :
    .half i ∈ unstyledLetters ls ↔ .half i ∈ ls := by
  fun_induction unstyledLetters ls with
  | case1 => rfl
  | case2 ls rest h ih =>
      obtain ⟨style, rfl, hstyle⟩ := exists_of_afterStyle? h
      rw [ih]
      simp [hstyle]
  | case3 ls h ih => simp [ih]
  | case4 l ls _ ih => simp [ih]

@[simp] theorem hasHalf_unstyled {t : Text} : t.unstyled.HasHalf ↔ t.HasHalf :=
  exists_congr fun _ => half_mem_unstyledLetters

end Text

namespace Finding

/-- The finding is about a name with half of a pair in it. -/
def HasHalf (f : Finding) : Prop :=
  ∃ name, f.diagnostic.node.name? = some name ∧ name.HasHalf

variable {f : Finding}

end Finding

namespace Report

variable {r : Report}

end Report

/-! ### Streams -/

namespace CommandLine

namespace Stream

variable {s : Stream} {t : Text} {pieces : List (Option Text)}

end Stream

/-! ### Formats -/

namespace Format

variable {r : Report}

end Format

end CommandLine

end UnderscoreLint
