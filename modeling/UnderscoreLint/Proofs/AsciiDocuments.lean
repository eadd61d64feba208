import UnderscoreLint.Proofs.JsonStrings
import UnderscoreLint.Proofs.Numerals
import UnderscoreLint.Report.Document

/-!
# Documents in ASCII

A JSON text has ASCII characters only, whatever the value has in its texts and names: a letter that
is not printable ASCII is written by the code units of its character, or by its own if it is half of
a pair. The proof follows the printer, from the digits of a number and the letters of a text to
lists and mappings.
-/

namespace UnderscoreLint

/-- The characters are all of ASCII. -/
def IsAscii (cs : List Char) : Prop :=
  ∀ c ∈ cs, c.toNat < 0x80

namespace IsAscii

variable {c : Char} {cs cs' : List Char}

@[simp] theorem nil : IsAscii [] := by
  simp [IsAscii]

@[simp] theorem cons_iff : IsAscii (c :: cs) ↔ c.toNat < 0x80 ∧ IsAscii cs := by
  simp [IsAscii]

@[simp] theorem append_iff : IsAscii (cs ++ cs') ↔ IsAscii cs ∧ IsAscii cs' := by
  simp [IsAscii, or_imp, forall_and]

theorem mono (h : IsAscii cs) (hsub : cs' ⊆ cs) : IsAscii cs' :=
  fun c hc => h c (hsub hc)

theorem replicate (n : Nat) (h : c.toNat < 0x80) : IsAscii (List.replicate n c) := by
  intro c' hc'
  rwa [List.eq_of_mem_replicate hc']

end IsAscii

/-! ### Numbers -/

namespace Decimal

variable {ds : List Char}

theorem isAscii_digits (n : Nat) : IsAscii (digits n) := by
  intro c hc
  have hdigit : isDigit c = true := isDigit_of_mem_digits n c hc
  simp only [isDigit, Bool.and_eq_true, decide_eq_true_eq] at hdigit
  have hle : c.toNat ≤ '9'.toNat := hdigit.2
  exact Nat.lt_of_le_of_lt hle (by decide)

theorem isAscii_ofInt (n : Int) : IsAscii (ofInt n) := by
  cases n <;> simp [ofInt, isAscii_digits]

theorem isAscii_padLeft (width : Nat) (h : IsAscii ds) : IsAscii (padLeft width ds) :=
  IsAscii.append_iff.2 ⟨.replicate _ (by decide), h⟩

theorem isAscii_signed (negative : Bool) (h : IsAscii ds) : IsAscii (signed negative ds) := by
  cases negative <;> simpa [signed] using h

theorem isAscii_positional (h : IsAscii ds) (lead : Int) : IsAscii (positional ds lead) := by
  have hzeros : ∀ n, IsAscii (zeros n) := fun n => .replicate n (by decide)
  cases lead with
  | ofNat n =>
      have hwhole : IsAscii (ds.take (n + 1)) := h.mono (List.take_subset _ _)
      have hfraction : IsAscii
          (if ds.drop (n + 1) = [] then ['0'] else ds.drop (n + 1)) := by
        split
        · simp
        · exact h.mono (List.drop_subset _ _)
      rw [positional, IsAscii.append_iff, IsAscii.append_iff, IsAscii.cons_iff]
      exact ⟨⟨hwhole, hzeros _⟩, by decide, hfraction⟩
  | negSucc n => simp [positional, hzeros, h]

theorem isAscii_withExponent (width : Nat) (h : IsAscii ds) (lead : Int) :
    IsAscii (withExponent width ds lead) := by
  have hexponent : IsAscii
      ('e' :: (if lead < 0 then '-' else '+') :: padLeft width (digits lead.natAbs)) := by
    split <;> simp [isAscii_padLeft, isAscii_digits]
  rcases ds with _ | ⟨d, _ | ⟨d', ds⟩⟩
  · exact hexponent
  · exact IsAscii.append_iff.2 ⟨h, hexponent⟩
  · obtain ⟨hd, hds⟩ := IsAscii.cons_iff.1 h
    have hmantissa : IsAscii (d :: '.' :: d' :: ds) :=
      IsAscii.cons_iff.2 ⟨hd, IsAscii.cons_iff.2 ⟨by decide, hds⟩⟩
    exact IsAscii.append_iff.2 ⟨hmantissa, hexponent⟩

theorem FloatFormat.isAscii_json_write (x : Float) : IsAscii (FloatFormat.json.write x) := by
  have hstrip : ∀ n, IsAscii (stripZeros (digits n)) := by
    intro n
    refine (isAscii_digits n).mono fun c hc => ?_
    exact List.mem_reverse.1 ((List.dropWhile_sublist _).subset (List.mem_reverse.1 hc))
  unfold FloatFormat.write
  split
  · simp [json]
  · exact isAscii_signed _ (by simp [json])
  · exact isAscii_signed _ (by simp)
  · refine isAscii_signed _ ?_
    split
    · exact isAscii_positional (hstrip _) _
    · exact isAscii_withExponent _ (hstrip _) _

end Decimal

/-! ### Values -/

namespace Json

theorem isAscii_hexDigits (width n : Nat) : IsAscii (Text.hexDigits width n) := by
  have hdigit : ∀ d < 16, (Text.hexDigit d).toNat < 0x80 := by decide
  induction width generalizing n with
  | zero => exact IsAscii.nil
  | succ width ih =>
      exact IsAscii.append_iff.2 ⟨ih _, by simpa using hdigit _ (Nat.mod_lt n (by decide))⟩

theorem isAscii_writeUnit (u : Nat) : IsAscii (writeUnit u) := by
  simp [writeUnit, isAscii_hexDigits]

theorem isAscii_writeChar (c : Char) : IsAscii (writeChar c) := by
  have hunits : IsAscii ((Text.Surrogate.split c).flatMap writeUnit) := by
    intro c' hc'
    obtain ⟨u, -, hu⟩ := List.mem_flatMap.1 hc'
    exact isAscii_writeUnit u c' hu
  by_cases hc : c ∈ lettered
  · have hlettered : ∀ c ∈ lettered, IsAscii (writeChar c) := by simp [lettered, writeChar]
    exact hlettered c hc
  · rw [writeChar_of_not_lettered hc]
    split
    · rename_i hprintable
      exact IsAscii.cons_iff.2 ⟨by omega, .nil⟩
    · exact hunits

theorem isAscii_writeString (t : Text) : IsAscii (writeString t) := by
  have hletters : IsAscii (t.letters.flatMap writeLetter) := by
    intro c hc
    obtain ⟨l, -, hl⟩ := List.mem_flatMap.1 hc
    cases l with
    | char c' => exact isAscii_writeChar c' c hl
    | half i => exact isAscii_writeUnit _ c hl
  simp [writeString, hletters]

theorem isAscii_writeScalar (s : Scalar) : IsAscii (writeScalar s) := by
  cases s with
  | null => simp [writeScalar]
  | bool b => cases b <;> simp [writeScalar]
  | int n => exact Decimal.isAscii_ofInt n
  | float x => exact Decimal.FloatFormat.isAscii_json_write x
  | text t => exact isAscii_writeString t

theorem isAscii_newLine (depth : Nat) : IsAscii (newLine depth) :=
  IsAscii.cons_iff.2 ⟨by decide, .replicate _ (by decide)⟩

mutual

theorem isAscii_writeValue (depth : Nat) : (v : Value) → IsAscii (writeValue depth v)
  | .scalar s => isAscii_writeScalar s
  | .list [] => by simp [writeValue]
  | .list (v :: rest) => by
      simp [writeValue, isAscii_newLine, isAscii_writeValue (depth + 1) v,
        isAscii_writeItems (depth + 1) rest]
  | .map entries => isAscii_writeMap depth entries
  | .record entries => isAscii_writeMap depth entries

theorem isAscii_writeItems (depth : Nat) : (items : List Value) → IsAscii (writeItems depth items)
  | [] => IsAscii.nil
  | v :: rest => by
      simp [writeItems, isAscii_newLine, isAscii_writeValue depth v, isAscii_writeItems depth rest]

theorem isAscii_writeMap (depth : Nat) :
    (entries : List (Text × Value)) → IsAscii (writeMap depth entries)
  | [] => by simp [writeMap]
  | (name, v) :: rest => by
      simp [writeMap, isAscii_newLine, isAscii_writeString, isAscii_writeValue (depth + 1) v,
        isAscii_writeEntries (depth + 1) rest]

theorem isAscii_writeEntries (depth : Nat) :
    (entries : List (Text × Value)) → IsAscii (writeEntries depth entries)
  | [] => IsAscii.nil
  | (name, v) :: rest => by
      simp [writeEntries, isAscii_newLine, isAscii_writeString, isAscii_writeValue depth v,
        isAscii_writeEntries depth rest]

end

end Json

end UnderscoreLint
