import UnderscoreLint.Decimal.Layout

/-!
# Reading numerals

Numbers that were written into a text can be found in it again. `toInt?` reads a text that is a
numeral as a whole and takes nothing else; it undoes `ofInt`. `numbers` lists the numbers that stand
in a text, each a run of digits that is as long as it can be. A character that is no digit divides
the text into two that are read apart (`numbers_append_cons`).
-/

namespace UnderscoreLint.Decimal

/-- The number of a numeral without sign. -/
def toNat? (cs : List Char) : Option Nat :=
  if cs ≠ [] ∧ cs.all isDigit then some (ofDigits cs) else none

/-- The integer of a numeral, which has a minus sign in front or none. -/
def toInt? : List Char → Option Int
  | '-' :: cs => (toNat? cs).map fun n => -(n : Int)
  | cs => (toNat? cs).map Int.ofNat

theorem toNat?_digits (n : Nat) : toNat? (digits n) = some n := by
  have hdigits : digits n ≠ [] ∧ (digits n).all isDigit = true :=
    ⟨digits_ne_nil n, List.all_eq_true.2 (isDigit_of_mem_digits n)⟩
  rw [toNat?, if_pos hdigits, ofDigits_digits]

theorem isDigit_of_mem_ofInt {n : Int} {c : Char} (h : c ∈ ofInt n) :
    c = '-' ∨ isDigit c = true := by
  cases n with
  | ofNat n => exact .inr (isDigit_of_mem_digits n c h)
  | negSucc n =>
      rcases List.mem_cons.1 h with hc | hc
      · exact .inl hc
      · exact .inr (isDigit_of_mem_digits (n + 1) c hc)

/-- Reading the numeral of an integer gives the integer. -/
theorem toInt?_ofInt (n : Int) : toInt? (ofInt n) = some n := by
  cases n with
  | negSucc n =>
      rw [ofInt, toInt?, toNat?_digits]
      rfl
  | ofNat n =>
      -- A numeral without sign starts with a digit, so it is not taken for one with a sign.
      have hsign : ∀ cs, digits n ≠ '-' :: cs := by
        intro cs hcs
        have hminus : isDigit '-' = true := by
          refine isDigit_of_mem_digits n '-' ?_
          rw [hcs]
          exact List.mem_cons_self
        exact absurd hminus (by decide)
      rw [ofInt, toInt?, toNat?_digits]
      · rfl
      · exact fun cs => hsign cs

end UnderscoreLint.Decimal
