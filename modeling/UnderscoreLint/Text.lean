/-!
# Texts

A text is a sequence of letters. A letter is a character, or half of a pair of code units that
would have to stand together to mean a character. Halves come into a text by escapes that name
them; no file can hold one as it is, and so a text with a half in it cannot be written out.

Strings are the texts without halves, and are taken for texts wherever these are expected. Texts are
ordered by the codes of their letters.
-/

namespace UnderscoreLint

/-- A letter of a text. -/
inductive Letter where
  | char (c : Char)
  /-- Half of a pair of code units, the high ones before the low ones. -/
  | half (i : Fin 0x800)
  deriving Repr, Inhabited

namespace Letter

/-- The first code of a half. -/
def firstHalf : Nat := 0xd800

/-- The code of a letter. -/
def code : Letter → Nat
  | .char c => c.toNat
  | .half i => firstHalf + i.val

/-- The letter of a code. -/
def ofCode (n : Nat) : Letter :=
  if h : firstHalf ≤ n ∧ n - firstHalf < 0x800 then .half ⟨n - firstHalf, h.2⟩
  else .char (Char.ofNat n)

/-- The character of a letter that is one. -/
def char? : Letter → Option Char
  | .char c => some c
  | .half _ => none

theorem code_injective {a b : Letter} (h : a.code = b.code) : a = b := by
  -- no character has the code of a half
  have hdiffer : ∀ (c : Char) (i : Fin 0x800), c.toNat ≠ firstHalf + i.val := by
    intro c i
    have hvalid : c.toNat < 0xd800 ∨ 0xdfff < c.toNat ∧ c.toNat < 0x110000 := c.valid
    unfold firstHalf
    omega
  cases a with
  | char c =>
      cases b with
      | char d => exact congrArg _ (Char.toNat_inj.1 h)
      | half i => exact absurd h (hdiffer c i)
  | half i =>
      cases b with
      | char c => exact absurd h.symm (hdiffer c i)
      | half j => exact congrArg _ (Fin.ext (Nat.add_left_cancel h))

-- letters are compared by their codes, which are numbers and quickly evaluated
instance : DecidableEq Letter := fun a b =>
  decidable_of_iff (a.code = b.code) ⟨code_injective, congrArg code⟩

end Letter

/-- A sequence of letters. -/
structure Text where
  letters : List Letter
  deriving DecidableEq, Repr, Inhabited

namespace Text

/-- A string as a text. -/
@[coe] def ofString (s : String) : Text :=
  ⟨s.toList.map .char⟩

instance : Coe String Text := ⟨ofString⟩

instance : Append Text := ⟨fun s t => ⟨s.letters ++ t.letters⟩⟩

/-- The order of texts by the codes of their letters. -/
instance : LT Text := ⟨fun s t => s.letters.map Letter.code < t.letters.map Letter.code⟩

instance (s t : Text) : Decidable (s < t) :=
  inferInstanceAs (Decidable (s.letters.map Letter.code < t.letters.map Letter.code))

/-- Texts one after the other. -/
def join (ts : List Text) : Text :=
  ⟨ts.flatMap letters⟩

/-- Texts one after the other, with another one between two of them. -/
def intercalate (between : Text) (ts : List Text) : Text :=
  ⟨between.letters.intercalate (ts.map letters)⟩

/-- The text with the replacement character in the place of each half. -/
def legible (t : Text) : String :=
  String.ofList (t.letters.map fun l => l.char?.getD '\ufffd')

@[ext] protected theorem ext {s t : Text} (h : s.letters = t.letters) : s = t := by
  cases s
  cases t
  exact congrArg _ h

@[simp] theorem letters_ofString (s : String) : (s : Text).letters = s.toList.map .char := rfl

@[simp] theorem letters_append (s t : Text) : (s ++ t).letters = s.letters ++ t.letters := rfl

@[simp] theorem ofString_inj {s t : String} : (s : Text) = t ↔ s = t := by
  constructor
  · intro h
    have hletters := congrArg letters h
    exact String.toList_inj.1 ((List.map_inj_right fun _ _ => Letter.char.inj).1 hletters)
  · rintro rfl
    rfl

theorem eq_empty_iff {t : Text} : t = "" ↔ t.letters = [] :=
  Text.ext_iff

@[simp] theorem intercalate_nil (between : Text) : intercalate between [] = "" := rfl

@[simp] theorem intercalate_singleton (between t : Text) : intercalate between [t] = t :=
  Text.ext (by simp [intercalate])

@[simp] theorem intercalate_cons_cons (between s t : Text) (ts : List Text) :
    intercalate between (s :: t :: ts) = s ++ between ++ intercalate between (t :: ts) :=
  Text.ext (by simp [intercalate, List.intercalate_cons_cons])

theorem lt_irrefl (t : Text) : ¬ t < t :=
  List.lt_irrefl (t.letters.map Letter.code)

theorem lt_trans {s t u : Text} (hst : s < t) (htu : t < u) : s < u :=
  List.lt_trans hst htu

theorem lt_or_gt_of_ne {s t : Text} (h : s ≠ t) : s < t ∨ t < s := by
  refine Decidable.byContradiction fun hnone => h ?_
  have hcodes : s.letters.map Letter.code = t.letters.map Letter.code :=
    List.le_antisymm (List.not_lt.1 fun hlt => hnone (.inr hlt))
      (List.not_lt.1 fun hlt => hnone (.inl hlt))
  exact Text.ext ((List.map_inj_right fun _ _ => Letter.code_injective).1 hcodes)

theorem append_right_inj (s : Text) {t u : Text} : s ++ t = s ++ u ↔ t = u := by
  rw [Text.ext_iff, letters_append, letters_append, List.append_cancel_left_eq, Text.ext_iff]

theorem append_assoc (s t u : Text) : s ++ t ++ u = s ++ (t ++ u) :=
  Text.ext (List.append_assoc _ _ _)

end Text

end UnderscoreLint
