/-!
# Decimal digits

`digits n` is the decimal numeral of `n`, most significant digit first and without
leading zeros; `ofDigits` reads a run of digits. Main statements: reading undoes
writing (`ofDigits_digits`), a numeral is not empty and holds digits only.
-/

namespace UnderscoreLint.Decimal

/-- The digit that stands for `d`, for `d` below ten. -/
def digitChar (d : Nat) : Char :=
  Char.ofNat ('0'.toNat + d)

/-- The number a digit stands for. -/
def digitValue (c : Char) : Nat :=
  c.toNat - '0'.toNat

/-- Whether `c` is one of the ten digits. -/
def isDigit (c : Char) : Bool :=
  '0'.toNat ≤ c.toNat && c.toNat ≤ '9'.toNat

/-- The decimal numeral of `n`. -/
def digits (n : Nat) : List Char :=
  if n < 10 then [digitChar n] else digits (n / 10) ++ [digitChar (n % 10)]

/-- The number a run of digits stands for; nothing stands for zero. -/
def ofDigits (cs : List Char) : Nat :=
  cs.foldl (fun n c => 10 * n + digitValue c) 0

theorem digitValue_digitChar : ∀ d < 10, digitValue (digitChar d) = d := by
  decide

theorem isDigit_digitChar : ∀ d < 10, isDigit (digitChar d) = true := by
  decide

theorem digits_ne_nil (n : Nat) : digits n ≠ [] := by
  rw [digits]
  split <;> simp

theorem isDigit_of_mem_digits (n : Nat) : ∀ c ∈ digits n, isDigit c = true := by
  fun_induction digits n with
  | case1 n h => simpa using isDigit_digitChar n h
  | case2 n h ih =>
    intro c hc
    rcases List.mem_append.1 hc with hc | hc
    · exact ih c hc
    · rw [List.mem_singleton.1 hc]
      exact isDigit_digitChar _ (Nat.mod_lt _ (by decide))

theorem ofDigits_append_singleton (cs : List Char) (c : Char) :
    ofDigits (cs ++ [c]) = 10 * ofDigits cs + digitValue c := by
  simp [ofDigits]

/-- Reading a numeral gives the number it was written for. -/
theorem ofDigits_digits (n : Nat) : ofDigits (digits n) = n := by
  fun_induction digits n with
  | case1 n h => simp [ofDigits, digitValue_digitChar n h]
  | case2 n h ih =>
    rw [ofDigits_append_singleton, ih, digitValue_digitChar _ (Nat.mod_lt _ (by decide))]
    omega

/-- The most digits that a whole number is read or written with. -/
def longest : Nat := 4300

/-- Whether the numeral of an integer is not too long to be written. -/
def isWritable (n : Int) : Bool :=
  decide (n.natAbs < Nat.pow 10 longest)

/-- The decimal numeral of an integer, with a minus sign below zero. -/
def ofInt : Int → List Char
  | .ofNat n => digits n
  | .negSucc n => '-' :: digits (n + 1)

/-- The decimal numeral of a natural number, as text. -/
def natText (n : Nat) : String :=
  String.ofList (digits n)

/-- The decimal numeral of an integer, as text. -/
def intText (n : Int) : String :=
  String.ofList (ofInt n)

end UnderscoreLint.Decimal
