import UnderscoreLint.Config

/-!
# What is shown like a word of a configuration

A configuration is made of words: the ids of rules and their settings. A document may hold a number,
a date or a list in the place of a word, and it is the way a part is shown that is looked up among
the words. Nothing but a text is shown like a word (`Datum.shown_mem_words_iff`). The words are made
of small letters and dashes, and whatever else is shown has another character in it: a digit, a
point, a quote, a bracket, a capital letter. The special doubles are the exception, and their names
are no words.
-/

namespace UnderscoreLint

namespace Config

/-- The words of a configuration. -/
def words : List Text := Convention.ids ++ validSettings

def isWordChar (c : Char) : Bool :=
  ('a'.toNat ≤ c.toNat && c.toNat ≤ 'z'.toNat) || c == '-'

/-- Characters among which one occurs in no word. -/
def HasForeign (cs : List Char) : Prop :=
  ∃ c ∈ cs, isWordChar c = false

theorem HasForeign.mono {cs ds : List Char} (h : HasForeign cs) (hsub : cs ⊆ ds) :
    HasForeign ds := by
  obtain ⟨c, hc, hword⟩ := h
  exact ⟨c, hsub hc, hword⟩

theorem isWordChar_of_mem_words :
    ∀ word ∈ words, ∀ c, .char c ∈ word.letters → isWordChar c = true := by
  have hall : (words.all fun word => word.letters.all fun l => l.char?.all isWordChar) = true := by
    decide +kernel
  intro word hword c hc
  exact List.all_eq_true.1 (List.all_eq_true.1 hall word hword) _ hc

theorem HasForeign.not_mem_words {s : String} (h : HasForeign s.toList) : (s : Text) ∉ words := by
  obtain ⟨c, hc, hword⟩ := h
  intro hs
  rw [isWordChar_of_mem_words s hs c (List.mem_map_of_mem hc)] at hword
  cases hword

end Config

open Config

namespace Decimal

theorem isWordChar_of_isDigit {c : Char} (h : isDigit c = true) : isWordChar c = false := by
  have hbounds : 48 ≤ c.toNat ∧ c.toNat ≤ 57 := by simpa [isDigit] using h
  have hdash : c ≠ '-' := by
    rintro rfl
    cases h
  simp only [isWordChar, Char.reduceToNat, Bool.or_eq_false_iff, Bool.and_eq_false_iff,
    decide_eq_false_iff_not, beq_eq_false_iff_ne]
  exact ⟨.inl (by omega), hdash⟩

theorem hasForeign_digits (n : Nat) : HasForeign (digits n) := by
  obtain ⟨c, hc⟩ := List.exists_mem_of_ne_nil _ (digits_ne_nil n)
  exact ⟨c, hc, isWordChar_of_isDigit (isDigit_of_mem_digits n c hc)⟩

theorem hasForeign_ofInt (n : Int) : HasForeign (ofInt n) := by
  cases n with
  | ofNat n => exact hasForeign_digits n
  | negSucc n => exact (hasForeign_digits (n + 1)).mono (List.subset_cons_self _ _)

theorem hasForeign_padLeft (width n : Nat) : HasForeign (padLeft width (digits n)) :=
  (hasForeign_digits n).mono (List.subset_append_right _ _)

theorem hasForeign_positional (ds : List Char) (lead : Int) : HasForeign (positional ds lead) := by
  refine ⟨'.', ?_, by decide⟩
  cases lead <;> simp [positional]

theorem hasForeign_withExponent (width : Nat) (ds : List Char) (lead : Int) :
    HasForeign (withExponent width ds lead) := by
  refine (hasForeign_padLeft width lead.natAbs).mono ?_
  refine List.subset_append_of_subset_right _ ?_
  intro c hc
  exact List.mem_cons_of_mem _ (List.mem_cons_of_mem _ hc)

theorem HasForeign.signed {cs : List Char} (h : HasForeign cs) (negative : Bool) :
    HasForeign (signed negative cs) := by
  cases negative with
  | false => exact h
  | true => exact h.mono (List.subset_cons_self _ _)

theorem floatText_not_mem_words (x : Float) : (floatText x : Text) ∉ words := by
  unfold floatText FloatFormat.write
  split
  -- The names of the special doubles are all letters, so these are compared with the words.
  · decide
  · rename_i negative _
    cases negative <;> decide
  · refine HasForeign.not_mem_words ?_
    rw [String.toList_ofList]
    exact HasForeign.signed ⟨'.', by decide, by decide⟩ _
  · refine HasForeign.not_mem_words ?_
    rw [String.toList_ofList]
    refine HasForeign.signed ?_ _
    split
    · exact hasForeign_positional _ _
    · exact hasForeign_withExponent _ _ _

end Decimal

theorem Text.hasForeign_quotedBytes (data : List UInt8) :
    HasForeign (Text.quotedBytes data).toList := by
  unfold Text.quotedBytes Text.chooseQuote
  rw [String.toList_ofList]
  split
  · exact ⟨'"', by simp, by decide⟩
  · exact ⟨'\'', by simp, by decide⟩

theorem Date.hasForeign_shown (d : Date) : HasForeign d.shown.toList := by
  unfold Date.shown Date.padded
  refine (Decimal.hasForeign_padLeft 4 d.year).mono ?_
  simp only [String.toList_append, String.toList_ofList, List.append_assoc]
  exact List.subset_append_left _ _

theorem DateTime.hasForeign_shown (t : DateTime) : HasForeign t.shown.toList := by
  unfold DateTime.shown
  refine t.date.hasForeign_shown.mono ?_
  simp only [String.toList_append, List.append_assoc]
  exact List.subset_append_left _ _

/-- Of the atoms only texts are shown like words. -/
theorem Atom.exists_text_of_shown_mem_words {a : Atom} (h : a.shown ∈ words) :
    ∃ s, a = .text s := by
  cases a with
  | bytes data => exact absurd h (Text.hasForeign_quotedBytes data).not_mem_words
  | date d => exact absurd h d.hasForeign_shown.not_mem_words
  | time t => exact absurd h t.hasForeign_shown.not_mem_words
  | scalar s =>
      cases s with
      | text s => exact ⟨s, rfl⟩
      | null => exact absurd h (by decide)
      | bool b => exact absurd h (by cases b <;> decide)
      | float x => exact absurd h (Decimal.floatText_not_mem_words x)
      | int n =>
          refine absurd h (HasForeign.not_mem_words ?_)
          change HasForeign (String.ofList (Decimal.ofInt n)).toList
          rw [String.toList_ofList]
          exact Decimal.hasForeign_ofInt n

theorem Datum.hasForeign_setLiteral (members : List Atom) :
    HasForeign (setLiteral members).toList := by
  unfold setLiteral
  split
  · exact ⟨'(', by decide, by decide⟩
  · refine ⟨'\x7b', ?_, by decide⟩
    simp

theorem Datum.shown_not_mem_words {d : Datum} (h : ∀ a, d ≠ .atom a) : d.shown ∉ words := by
  have hforeign : HasForeign d.literal.toList := by
    cases d with
    | atom a => exact absurd rfl (h a)
    | list items => exact ⟨'[', by simp [literal], by decide⟩
    | pair first second => exact ⟨'(', by simp [literal], by decide⟩
    | set members => exact hasForeign_setLiteral members
    | map entries => exact ⟨'\x7b', by simp [literal], by decide⟩
    | listAgain => exact ⟨'[', by decide, by decide⟩
    | mapAgain => exact ⟨'\x7b', by decide, by decide⟩
  have hshown : d.shown = d.literal := by
    cases d with
    | atom a => exact absurd rfl (h a)
    | _ => rfl
  rw [hshown]
  exact hforeign.not_mem_words

/-- Nothing but a word is shown like a word. -/
theorem Datum.shown_mem_words_iff {d : Datum} : d.shown ∈ words ↔ ∃ s ∈ words, d = .text s := by
  constructor
  · intro h
    by_cases hatom : ∃ a, d = .atom a
    · obtain ⟨a, rfl⟩ := hatom
      obtain ⟨s, rfl⟩ := Atom.exists_text_of_shown_mem_words h
      exact ⟨s, h, rfl⟩
    · exact absurd h (shown_not_mem_words fun a ha => hatom ⟨a, ha⟩)
  · rintro ⟨s, hs, rfl⟩
    exact hs

end UnderscoreLint
