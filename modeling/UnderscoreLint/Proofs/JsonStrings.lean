import Mathlib.Data.List.Chain
import UnderscoreLint.Json.Printer
import UnderscoreLint.Json.Reader

/-!
# Reading strings back

A text is written letter by letter, each as itself, behind a backslash, or by its code units, and it
is read unit by unit. `readUnits_writeLetter` says that reading one written letter leaves its units
behind, whatever was read before and whatever follows. So the units of a text are found again, and
they are joined to its letters (`join_flatMap_units`): the units of one letter are never mixed up
with those of the next. The exception is a text in which the two halves of a pair stand next to each
other as letters, since these would be read as one character. `Text.IsJoined` leaves it out; no
string is such a text.
-/

namespace UnderscoreLint

/-- No first half of a pair stands right before a second one. -/
def Text.IsJoined (t : Text) : Prop :=
  t.letters.IsChain fun a b =>
    ¬ (Surrogate.isHigh a.code = true ∧ Surrogate.isLow b.code = true)

namespace Text.Surrogate

/-- The code units of a letter. -/
def units : Letter → List Nat
  | .char c => split c
  | .half i => [(Letter.half i).code]

/-- No character is one half of a pair. -/
theorem toNat_not_half (c : Char) :
    c.toNat < 0xd800 ∨ 0xe000 ≤ c.toNat ∧ c.toNat < 0x110000 :=
  c.valid

theorem not_isHigh_toNat (c : Char) : isHigh c.toNat = false := by
  have hc := toNat_not_half c
  simp only [isHigh, Bool.and_eq_false_iff, decide_eq_false_iff_not]
  omega

theorem ofCode_toNat (c : Char) : Letter.ofCode c.toNat = .char c := by
  have hc := toNat_not_half c
  have hhalf : ¬ (Letter.firstHalf ≤ c.toNat ∧ c.toNat - Letter.firstHalf < 0x800) := by
    unfold Letter.firstHalf
    omega
  rw [Letter.ofCode, dif_neg hhalf, Char.ofNat_toNat]

theorem ofCode_code (i : Fin 0x800) : Letter.ofCode (Letter.half i).code = .half i := by
  have hcode : (Letter.half i).code - Letter.firstHalf = i.val := Nat.add_sub_cancel_left ..
  have hhalf : Letter.firstHalf ≤ (Letter.half i).code ∧
      (Letter.half i).code - Letter.firstHalf < 0x800 :=
    ⟨Nat.le_add_right .., hcode ▸ i.isLt⟩
  rw [Letter.ofCode, dif_pos hhalf]
  exact congrArg _ (Fin.ext hcode)

/-- A unit that is not the first of a pair with the next one stands for itself. -/
theorem join_cons_of_not_pair {u : Nat} {us : List Nat}
    (h : ∀ v, us.head? = some v → ¬ (isHigh u = true ∧ isLow v = true)) :
    join (u :: us) = .ofCode u :: join us := by
  cases us with
  | nil => rfl
  | cons v us =>
      have hpair : ¬ (isHigh u && isLow v) = true := by
        rw [Bool.and_eq_true]
        exact h v rfl
      rw [join, if_neg hpair]

theorem join_split_append (c : Char) (us : List Nat) :
    join (split c ++ us) = .char c :: join us := by
  unfold split
  simp only
  split
  · rw [List.singleton_append, join_cons_of_not_pair (by simp [not_isHigh_toNat]), ofCode_toNat]
  · rename_i hlarge
    have hc := toNat_not_half c
    have hpair : isHigh (0xd800 + (c.toNat - 0x10000) / 0x400) = true ∧
        isLow (0xdc00 + (c.toNat - 0x10000) % 0x400) = true := by
      simp only [isHigh, isLow, Bool.and_eq_true, decide_eq_true_eq]
      omega
    have hcode : 0x10000 + (0xd800 + (c.toNat - 0x10000) / 0x400 - 0xd800) * 0x400 +
        (0xdc00 + (c.toNat - 0x10000) % 0x400 - 0xdc00) = c.toNat := by
      omega
    simp only [List.cons_append, List.nil_append, join, hpair, Bool.and_self, if_true, pair, hcode,
      Char.ofNat_toNat]

/-- The units of a letter start with the second half of a pair only if the letter is one. -/
theorem isLow_code_of_head? {l : Letter} {us : List Nat} {v : Nat}
    (h : (units l ++ us).head? = some v) (hlow : isLow v = true) : isLow l.code = true := by
  cases l with
  | half i =>
      cases h
      exact hlow
  | char c =>
      -- a character has no unit that is a second half, unless a first half is in front of it
      have hc := toNat_not_half c
      simp only [units, split] at h
      simp only [isLow, Bool.and_eq_true, decide_eq_true_eq] at hlow
      split at h <;> cases h <;> omega

theorem join_flatMap_units {t : Text} (h : t.IsJoined) :
    join (t.letters.flatMap units) = t.letters := by
  obtain ⟨ls⟩ := t
  dsimp only
  induction ls with
  | nil => rfl
  | cons l ls ih =>
      have hrest : join (ls.flatMap units) = ls := ih (List.IsChain.tail h)
      rw [List.flatMap_cons]
      cases l with
      | char c => rw [units, join_split_append, hrest]
      | half i =>
          rw [units, List.singleton_append, join_cons_of_not_pair, ofCode_code, hrest]
          rintro v hv ⟨hhigh, hlow⟩
          cases ls with
          | nil => cases hv
          | cons l' ls =>
              rw [List.flatMap_cons] at hv
              exact (List.isChain_cons_cons.1 h).1 ⟨hhigh, isLow_code_of_head? hv hlow⟩

end Text.Surrogate

namespace Json

open Text.Surrogate

theorem hexValue?_hexDigit : ∀ d < 16, hexValue? (Text.hexDigit d) = some d := by
  decide

theorem readUnits_writeUnit {u : Nat} (hu : u < 0x10000) (opening : List Char) {rest : List Char}
    (hrest : rest ≠ []) (units : List Nat) :
    readUnits opening (writeUnit u ++ rest) units = readUnits opening rest (u :: units) := by
  obtain ⟨e, rest, rfl⟩ := List.exists_cons_of_ne_nil hrest
  have hunit : hexUnit? (Text.hexDigit (u / 16 / 16 / 16 % 16)) (Text.hexDigit (u / 16 / 16 % 16))
      (Text.hexDigit (u / 16 % 16)) (Text.hexDigit (u % 16)) = some u := by
    have hdigit : ∀ n, hexValue? (Text.hexDigit (n % 16)) = some (n % 16) :=
      fun n => hexValue?_hexDigit _ (Nat.mod_lt n (by decide))
    simp only [hexUnit?, hdigit, Option.some.injEq]
    omega
  simp only [writeUnit, Text.hexDigits, List.nil_append, List.cons_append, readUnits, hunit]

theorem lt_of_mem_split {c : Char} {u : Nat} (h : u ∈ split c) : u < 0x10000 := by
  have hc := toNat_not_half c
  unfold split at h
  simp only at h
  split at h
  · rw [List.mem_singleton.1 h]
    assumption
  · simp only [List.mem_cons, List.not_mem_nil, or_false] at h
    omega

/-- The characters that are written by a letter behind a backslash. -/
def lettered : List Char := ['"', '\\', '\n', '\r', '\t', '\x08', '\x0c']

theorem exists_letter {c : Char} (h : c ∈ lettered) : ∃ letter, letter ≠ 'u' ∧
    writeChar c = ['\\', letter] ∧ escaped? letter = some c ∧ split c = [c.toNat] := by
  simp only [lettered, List.mem_cons, List.not_mem_nil, or_false] at h
  rcases h with rfl | rfl | rfl | rfl | rfl | rfl | rfl <;> exact ⟨_, by decide, rfl, rfl, rfl⟩

theorem writeChar_of_not_lettered {c : Char} (h : c ∉ lettered) :
    writeChar c =
      if 0x20 ≤ c.toNat ∧ c.toNat < 0x7f then [c] else (split c).flatMap writeUnit := by
  simp only [lettered, List.mem_cons, List.not_mem_nil, or_false, not_or] at h
  simp only [writeChar, h, if_false]

theorem readUnits_letter {letter c : Char} (hletter : letter ≠ 'u') (h : escaped? letter = some c)
    (opening rest : List Char) (units : List Nat) :
    readUnits opening ('\\' :: letter :: rest) units =
      readUnits opening rest (c.toNat :: units) := by
  simp [readUnits, h, hletter]

theorem readUnits_plain {c : Char} (hquote : c ≠ '"') (hbackslash : c ≠ '\\')
    (hprintable : 0x20 ≤ c.toNat) (opening rest : List Char) (units : List Nat) :
    readUnits opening (c :: rest) units = readUnits opening rest (c.toNat :: units) := by
  have hcontrol : ¬ c.toNat < 0x20 := Nat.not_lt.2 hprintable
  simp [readUnits, hbackslash, hcontrol]

theorem readUnits_flatMap_writeUnit {us : List Nat} (hus : ∀ u ∈ us, u < 0x10000)
    (opening : List Char) {rest : List Char} (hrest : rest ≠ []) (units : List Nat) :
    readUnits opening (us.flatMap writeUnit ++ rest) units =
      readUnits opening rest (us.reverse ++ units) := by
  induction us generalizing units with
  | nil => rfl
  | cons u us ih =>
      obtain ⟨hu, hus⟩ := List.forall_mem_cons.1 hus
      rw [List.flatMap_cons, List.append_assoc, readUnits_writeUnit hu opening (by simp [hrest]),
        ih hus, List.reverse_cons, List.append_assoc]
      rfl

theorem readUnits_writeChar (c : Char) (opening : List Char) {rest : List Char} (hrest : rest ≠ [])
    (units : List Nat) :
    readUnits opening (writeChar c ++ rest) units =
      readUnits opening rest ((split c).reverse ++ units) := by
  by_cases hc : c ∈ lettered
  · obtain ⟨letter, hletter, hwritten, hescaped, hsplit⟩ := exists_letter hc
    rw [hwritten, hsplit]
    exact readUnits_letter hletter hescaped opening rest units
  · rw [writeChar_of_not_lettered hc]
    split
    · rename_i hprintable
      have hsplit : split c = [c.toNat] := if_pos (by omega)
      simp only [lettered, List.mem_cons, not_or] at hc
      rw [hsplit]
      exact readUnits_plain hc.1 hc.2.1 hprintable.1 opening rest units
    · exact readUnits_flatMap_writeUnit (fun u hu => lt_of_mem_split hu) opening hrest units

theorem readUnits_writeLetter (l : Letter) (opening : List Char) {rest : List Char}
    (hrest : rest ≠ []) (us : List Nat) :
    readUnits opening (writeLetter l ++ rest) us =
      readUnits opening rest ((units l).reverse ++ us) := by
  cases l with
  | char c => exact readUnits_writeChar c opening hrest us
  | half i =>
      have hcode : (Letter.half i).code < 0x10000 := by
        have hi := i.isLt
        simp only [Letter.code, Letter.firstHalf]
        omega
      exact readUnits_writeUnit hcode opening hrest us

theorem readUnits_flatMap_writeLetter (ls : List Letter) (opening rest : List Char)
    (us : List Nat) :
    readUnits opening (ls.flatMap writeLetter ++ '"' :: rest) us =
      .ok (us.reverse ++ ls.flatMap units, rest) := by
  induction ls generalizing us with
  | nil => simp [readUnits]
  | cons l ls ih =>
      rw [List.flatMap_cons, List.append_assoc, readUnits_writeLetter l opening (by simp), ih]
      simp

/-- A written text is read as that text, whatever follows it. -/
theorem readString_flatMap_writeLetter {t : Text} (h : t.IsJoined) (rest : List Char) :
    readString (t.letters.flatMap writeLetter ++ '"' :: rest) = .ok (t, rest) := by
  rw [readString, readUnits_flatMap_writeLetter]
  change Except.ok (Text.mk (join (t.letters.flatMap units)), rest) = _
  rw [join_flatMap_units h]

end Json

theorem Text.isJoined_ofString (s : String) : (s : Text).IsJoined := by
  have hchars : ∀ a ∈ (s : Text).letters, Surrogate.isHigh a.code = false := by
    intro a ha
    obtain ⟨c, -, rfl⟩ := List.mem_map.1 ha
    exact Surrogate.not_isHigh_toNat c
  refine List.Pairwise.isChain (List.pairwise_of_forall_mem_list fun a ha b _ => ?_)
  simp [hchars a ha]

end UnderscoreLint
