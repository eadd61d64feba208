import Mathlib.Data.List.DropRight
import Mathlib.Data.List.TakeDrop
import UnderscoreLint.Json.Printer
import UnderscoreLint.Json.Reader

/-!
# Reading numbers back

A number is read as far as it goes, so it can only be found again if what follows it does not go on
with it: `Delimited rest` says so. The numeral of an integer is then read as that integer, as long
as it is not longer than any integer may be (`readScalar_ofInt`).

How a double is written is a matter of its size: with a point, with an exponent, or by a word. All
of these are texts that are read as a double, to the last character (`readScalar_write`). The
reader takes no point without digits around it, so this rests on the shortest decimal of a double
being no zero (`coefficient_shortest`). Which double comes out is not said here.
-/

namespace UnderscoreLint

namespace Decimal

theorem digits_zero : digits 0 = ['0'] := by
  rw [digits]
  rfl

theorem digitChar_ne_zero : ∀ d < 10, d ≠ 0 → digitChar d ≠ '0' := by
  decide

theorem exists_digits_eq_cons {n : Nat} (h : n ≠ 0) : ∃ d ds, digits n = d :: ds ∧ d ≠ '0' := by
  fun_induction digits n with
  | case1 n hn => exact ⟨_, [], rfl, digitChar_ne_zero n hn h⟩
  | case2 n hn ih =>
      obtain ⟨d, ds, hds, hd⟩ := ih (by omega)
      exact ⟨d, ds ++ [digitChar (n % 10)], by rw [hds, List.cons_append], hd⟩

theorem length_digits_le {n k : Nat} (hk : k ≠ 0) (h : n < Nat.pow 10 k) :
    (digits n).length ≤ k := by
  induction k generalizing n with
  | zero => exact absurd rfl hk
  | succ k ih =>
      rw [digits]
      split
      · simp
      · rename_i hn
        have hk : k ≠ 0 := by
          rintro rfl
          exact hn h
        have hlength := ih hk (n := n / 10) (Nat.div_lt_of_lt_mul (Nat.mul_comm .. ▸ h))
        rw [List.length_append, List.length_singleton]
        omega

/-- Digits of which the first is no zero. -/
def IsSignificant (ds : List Char) : Prop :=
  (∃ d rest, ds = d :: rest ∧ d ≠ '0') ∧ ∀ c ∈ ds, isDigit c = true

theorem isSignificant_digits {n : Nat} (h : n ≠ 0) : IsSignificant (digits n) :=
  ⟨exists_digits_eq_cons h, isDigit_of_mem_digits n⟩

theorem IsSignificant.stripZeros {ds : List Char} (h : IsSignificant ds) :
    IsSignificant (stripZeros ds) := by
  obtain ⟨⟨d, rest, rfl, hd⟩, hdigits⟩ := h
  have hfront : Decimal.stripZeros (d :: rest) <+: d :: rest := List.rdropWhile_prefix _ _
  refine ⟨?_, fun c hc => hdigits c (hfront.subset hc)⟩
  cases hds : Decimal.stripZeros (d :: rest) with
  | nil =>
      have hzeros := List.rdropWhile_eq_nil_iff.1 hds d List.mem_cons_self
      exact absurd (of_decide_eq_true hzeros) hd
  | cons c cs =>
      rw [hds] at hfront
      rw [(List.cons_prefix_cons.1 hfront).1]
      exact ⟨d, cs, rfl, hd⟩

/-! ### The shortest decimal -/

theorem Ratio.scale_den_pos {r : Ratio} (h : 0 < r.den) {base : Nat} (hbase : 0 < base) (k : Int) :
    0 < (r.scale base k).den := by
  cases k with
  | ofNat k => exact h
  | negSucc k => exact Nat.mul_pos h (Nat.pow_pos hbase)

theorem Ratio.scale_num_pos {r : Ratio} (h : 0 < r.num) {base : Nat} (hbase : 0 < base) (k : Int) :
    0 < (r.scale base k).num := by
  cases k with
  | ofNat k => exact Nat.mul_pos h (Nat.pow_pos hbase)
  | negSucc k => exact h

theorem Scientific.ratio_zero_num (step : Int) : (Scientific.mk 0 step).ratio.num = 0 := by
  cases step with
  | ofNat k => exact Nat.zero_mul _
  | negSucc k => rfl

theorem Neighbourhood.low_num_pos {mantissa : Nat} (h : mantissa ≠ 0) (exponent : Int) :
    0 < (Neighbourhood.of mantissa exponent).low.num := by
  apply Ratio.scale_num_pos
  · dsimp only
    split <;> omega
  · decide

/-- Zero does not read back as a positive double. -/
theorem Neighbourhood.not_holds_zero {n : Neighbourhood} (h : 0 < n.low.num) (step : Int) :
    n.holds ⟨0, step⟩ = false := by
  have hden : 0 < (Scientific.mk 0 step).ratio.den :=
    Ratio.scale_den_pos (r := ⟨0, 1⟩) Nat.one_pos (by decide) step
  have hpos : 0 < n.low.num * (Scientific.mk 0 step).ratio.den := Nat.mul_pos h hden
  have hzero := Scientific.ratio_zero_num step
  unfold holds Ratio.le Ratio.lt
  rw [hzero, Nat.zero_mul]
  split
  · rw [decide_eq_false (Nat.not_le.2 hpos), Bool.false_and]
  · rw [decide_eq_false (Nat.not_lt_zero _), Bool.false_and]

theorem Ratio.floor_le_roundHalfEven (r : Ratio) : r.floor ≤ r.roundHalfEven := by
  unfold floor roundHalfEven
  dsimp only
  split_ifs <;> omega

theorem Neighbourhood.coefficient_nearestOnGrid {n : Neighbourhood} (h : 0 < n.low.num)
    {step : Int} {d : Scientific} (hd : n.nearestOnGrid step = some d) : d.coefficient ≠ 0 := by
  have hbelow : ∀ k, n.holds ⟨k, step⟩ = true → k ≠ 0 := by
    rintro k hk rfl
    rw [not_holds_zero h] at hk
    cases hk
  unfold nearestOnGrid at hd
  dsimp only at hd
  split at hd
  · rename_i hfloor _
    have hround := Ratio.floor_le_roundHalfEven (n.value.scale 10 (-step))
    have hne := hbelow _ hfloor
    cases hd
    dsimp only
    omega
  · rename_i hfloor _
    cases hd
    exact hbelow _ hfloor
  · cases hd
    exact Nat.succ_ne_zero _
  · cases hd

/-- The shortest decimal of a double is no zero, unless none is found within seventeen digits. -/
theorem coefficient_shortest {mantissa : Nat} (h : mantissa ≠ 0) (exponent : Int) :
    shortest mantissa exponent = ⟨0, 0⟩ ∨ (shortest mantissa exponent).coefficient ≠ 0 := by
  unfold shortest
  dsimp only
  cases hfound : (List.range 17).findSome? fun (i : Nat) =>
      (Neighbourhood.of mantissa exponent).nearestOnGrid
        ((Neighbourhood.of mantissa exponent).value.magnitude - i) with
  | none => exact .inl rfl
  | some d =>
      obtain ⟨i, -, hd⟩ := List.exists_of_findSome?_eq_some hfound
      exact .inr (Neighbourhood.coefficient_nearestOnGrid (Neighbourhood.low_num_pos h exponent) hd)

theorem signed_append (negative : Bool) (cs rest : List Char) :
    signed negative cs ++ rest = signed negative (cs ++ rest) := by
  cases negative <;> rfl

end Decimal

namespace Json

open Decimal

/-! ### Numerals -/

/-- What does not go on with a number that stands before it. -/
def Delimited (rest : List Char) : Prop :=
  ∀ c ∈ rest.head?, isDigit c = false ∧ c ≠ '.' ∧ c ≠ 'e' ∧ c ≠ 'E'

/-- The digits before the point of a number: one zero, or digits that do not start with one. -/
def IsWhole (ds : List Char) : Prop :=
  ds = ['0'] ∨ IsSignificant ds

theorem isWhole_digits (n : Nat) : IsWhole (digits n) := by
  by_cases h : n = 0
  · subst h
    exact .inl digits_zero
  · exact .inr (isSignificant_digits h)

theorem IsWhole.exists_cons {ds : List Char} (h : IsWhole ds) :
    ∃ d rest, ds = d :: rest ∧ isDigit d = true := by
  rcases h with rfl | ⟨⟨d, rest, rfl, -⟩, hdigits⟩
  · exact ⟨'0', [], rfl, by decide⟩
  · exact ⟨d, rest, rfl, hdigits d List.mem_cons_self⟩

theorem takeDigits_append {ds rest : List Char} (hds : ∀ c ∈ ds, isDigit c = true)
    (hrest : ∀ c ∈ rest.head?, isDigit c = false) : takeDigits (ds ++ rest) = (ds, rest) := by
  have hnone : rest.takeWhile isDigit = [] ∧ rest.dropWhile isDigit = rest := by
    cases rest with
    | nil => exact ⟨rfl, rfl⟩
    | cons c rest =>
        have hc := hrest c rfl
        simp [hc]
  rw [takeDigits, List.span_eq_takeWhile_dropWhile, List.takeWhile_append_of_pos hds,
    List.dropWhile_append_of_pos hds, hnone.1, hnone.2, List.append_nil]

theorem takeWhole_append {ds rest : List Char} (hds : IsWhole ds)
    (hrest : ∀ c ∈ rest.head?, isDigit c = false) :
    takeWhole (ds ++ rest) = some (ds, rest) := by
  rcases hds with rfl | ⟨⟨d, ds, rfl, hd⟩, hdigits⟩
  · rfl
  · obtain ⟨hdigit, hdigits⟩ := List.forall_mem_cons.1 hdigits
    simp [takeWhole, hdigit, takeDigits_append hdigits hrest]

theorem takeFraction_of_delimited {rest : List Char} (h : Delimited rest) :
    takeFraction rest = ([], rest) := by
  cases rest with
  | nil => rfl
  | cons c rest =>
      have hpoint := (h c rfl).2.1
      simp [takeFraction, hpoint]

theorem takeFraction_append {ds rest : List Char} (hne : ds ≠ []) (hds : ∀ c ∈ ds, isDigit c = true)
    (hrest : ∀ c ∈ rest.head?, isDigit c = false) :
    takeFraction ('.' :: (ds ++ rest)) = (ds, rest) := by
  simp [takeFraction, takeDigits_append hds hrest]

theorem takeExponent_of_delimited {rest : List Char} (h : Delimited rest) :
    takeExponent rest = (none, rest) := by
  cases rest with
  | nil => rfl
  | cons c rest =>
      obtain ⟨-, -, hlower, hupper⟩ := h c rfl
      simp [takeExponent, hlower, hupper]

theorem takeExponent_append {sign : Char} (hsign : sign = '+' ∨ sign = '-') {ds : List Char}
    (hne : ds ≠ []) (hds : ∀ c ∈ ds, isDigit c = true) :
    ∃ k, ∀ rest : List Char, (∀ c ∈ rest.head?, isDigit c = false) →
      takeExponent ('e' :: sign :: (ds ++ rest)) = (some k, rest) := by
  rcases hsign with rfl | rfl
  · refine ⟨1 * ofDigits ds, fun rest hrest => ?_⟩
    simp [takeExponent, takeDigits_append hds hrest]
  · refine ⟨-1 * ofDigits ds, fun rest hrest => ?_⟩
    simp [takeExponent, takeDigits_append hds hrest]

section Numerals

variable {negative : Bool} {whole tail rest rest' fraction : List Char} {exponent : Option Int}

theorem takeNumeral_signed (hwhole : IsWhole whole) (htail : ∀ c ∈ tail.head?, isDigit c = false)
    (hfraction : takeFraction tail = (fraction, rest'))
    (hexponent : takeExponent rest' = (exponent, rest)) :
    takeNumeral (signed negative (whole ++ tail)) =
      some (⟨negative, whole, fraction, exponent⟩, rest) := by
  have htaken := takeWhole_append hwhole htail
  cases negative with
  | true => simp [takeNumeral, signed, htaken, hfraction, hexponent]
  | false =>
      -- A digit stands in front, so no sign is taken.
      obtain ⟨d, ds, hds, hd⟩ := hwhole.exists_cons
      have hminus : ∀ cs, whole ++ tail ≠ '-' :: cs := by
        rintro cs hcs
        rw [hds, List.cons_append, List.cons.injEq] at hcs
        rw [hcs.1] at hd
        exact absurd hd (by decide)
      simp [takeNumeral, signed, htaken, hfraction, hexponent]

/-- No word is taken for a number. -/
theorem find?_words_signed {d : Char} (hd : isDigit d = true) (cs : List Char) :
    (words.find? fun w => w.1.isPrefixOf (signed negative (d :: cs))) = none := by
  have hword : ∀ c ∈ ['n', 't', 'f', 'N', 'I', '-'], isDigit c = false := by simp [isDigit]
  have hne : ∀ c ∈ ['n', 't', 'f', 'N', 'I', '-'], c ≠ d := by
    rintro c hc rfl
    rw [hword c hc] at hd
    cases hd
  simp only [List.forall_mem_cons] at hne
  cases negative <;> simp [words, signed, hne]

theorem readScalar_signed (hwhole : IsWhole whole) (htail : ∀ c ∈ tail.head?, isDigit c = false)
    (hfraction : takeFraction tail = (fraction, rest'))
    (hexponent : takeExponent rest' = (exponent, rest)) :
    readScalar (signed negative (whole ++ tail)) =
      (Numeral.scalar ⟨negative, whole, fraction, exponent⟩).map fun s => (.scalar s, rest) := by
  obtain ⟨d, ds, hds, hd⟩ := hwhole.exists_cons
  have hword : (words.find? fun w => w.1.isPrefixOf (signed negative (whole ++ tail))) = none := by
    rw [hds]
    exact find?_words_signed hd (ds ++ tail)
  rw [readScalar, hword, takeNumeral_signed hwhole htail hfraction hexponent]
  simp only
  cases Numeral.scalar ⟨negative, whole, fraction, exponent⟩ <;> rfl

end Numerals

theorem ofInt_eq_signed (n : Int) : ofInt n = signed (decide (n < 0)) (digits n.natAbs) := by
  cases n with
  | ofNat n => rfl
  | negSucc n => simp [ofInt, signed, Int.negSucc_lt_zero]

/-- The numeral of an integer is read as that integer, as long as it is not too long. -/
theorem readScalar_ofInt {n : Int} (h : isWritable n = true) {rest : List Char}
    (hrest : Delimited rest) : readScalar (ofInt n ++ rest) = .ok (.scalar (.int n), rest) := by
  rw [isWritable, decide_eq_true_eq] at h
  have hlength : ¬ longest < (digits n.natAbs).length :=
    Nat.not_lt.2 (length_digits_le (by decide) h)
  have hsign : (if decide (n < 0) then -(n.natAbs : Int) else n.natAbs) = n := by
    split
    · rename_i hneg
      have := of_decide_eq_true hneg
      omega
    · rename_i hneg
      have := of_decide_eq_false (Bool.eq_false_iff.2 hneg)
      omega
  rw [ofInt_eq_signed, signed_append, readScalar_signed (isWhole_digits _)
    (fun c hc => (hrest c hc).1) (takeFraction_of_delimited hrest)
    (takeExponent_of_delimited hrest), Numeral.scalar]
  simp only [if_neg hlength, ofDigits_digits, hsign]
  rfl

/-! ### Doubles -/

/-- A text that is read as a double, whatever follows it. -/
def IsDouble (cs : List Char) : Prop :=
  ∃ x, ∀ rest, Delimited rest → readScalar (cs ++ rest) = .ok (.scalar (.float x), rest)

/-- An exponent as it is written. -/
def IsExponent (cs : List Char) : Prop :=
  ∃ sign ds, (sign = '+' ∨ sign = '-') ∧ ds ≠ [] ∧ (∀ c ∈ ds, isDigit c = true) ∧
    cs = 'e' :: sign :: ds

theorem IsExponent.exists_takeExponent {cs : List Char} (h : IsExponent cs) :
    ∃ k, ∀ rest, Delimited rest → takeExponent (cs ++ rest) = (some k, rest) := by
  obtain ⟨sign, ds, hsign, hne, hds, rfl⟩ := h
  obtain ⟨k, hk⟩ := takeExponent_append hsign hne hds
  exact ⟨k, fun rest hrest => hk rest fun c hc => (hrest c hc).1⟩

theorem IsExponent.head_append {cs : List Char} (h : IsExponent cs) (rest : List Char) :
    ∀ c ∈ (cs ++ rest).head?, c = 'e' := by
  obtain ⟨sign, ds, -, -, -, rfl⟩ := h
  intro c hc
  cases hc
  rfl

section Doubles

variable {negative : Bool} {whole tail fraction exponent : List Char}

/-- What stands behind the whole part of a double is read as its fraction and its exponent. -/
theorem isDouble_of_take (fraction : List Char) (k : Option Int) (hwhole : IsWhole whole)
    (htail : ∀ rest, Delimited rest → (∀ c ∈ (tail ++ rest).head?, isDigit c = false) ∧
      ∃ rest', takeFraction (tail ++ rest) = (fraction, rest') ∧ takeExponent rest' = (k, rest))
    (hdouble : fraction ≠ [] ∨ k ≠ none) : IsDouble (signed negative (whole ++ tail)) := by
  refine ⟨readDecimal negative (ofDigits (whole ++ fraction)) (k.getD 0 - fraction.length), ?_⟩
  intro rest hrest
  obtain ⟨hhead, rest', hfraction, hexponent⟩ := htail rest hrest
  rw [signed_append, List.append_assoc, readScalar_signed hwhole hhead hfraction hexponent]
  cases fraction with
  | cons c cs => rfl
  | nil =>
      cases k with
      | some k => rfl
      | none => simp at hdouble

theorem isDouble_of_fraction (hwhole : IsWhole whole) (hne : fraction ≠ [])
    (hfraction : ∀ c ∈ fraction, isDigit c = true) :
    IsDouble (signed negative (whole ++ '.' :: fraction)) := by
  apply isDouble_of_take fraction none hwhole
  · intro rest hrest
    refine ⟨?_, rest, takeFraction_append hne hfraction fun c hc => (hrest c hc).1,
      takeExponent_of_delimited hrest⟩
    intro c hc
    cases hc
    decide
  · exact .inl hne

theorem isDouble_of_fraction_exponent (hwhole : IsWhole whole) (hne : fraction ≠ [])
    (hfraction : ∀ c ∈ fraction, isDigit c = true) (hexponent : IsExponent exponent) :
    IsDouble (signed negative (whole ++ '.' :: (fraction ++ exponent))) := by
  obtain ⟨k, hk⟩ := hexponent.exists_takeExponent
  apply isDouble_of_take fraction (some k) hwhole
  · intro rest hrest
    rw [List.cons_append, List.append_assoc]
    refine ⟨?_, exponent ++ rest, takeFraction_append hne hfraction ?_, hk rest hrest⟩
    · intro c hc
      cases hc
      decide
    · intro c hc
      rw [hexponent.head_append rest c hc]
      decide
  · exact .inl hne

theorem isDouble_of_exponent (hwhole : IsWhole whole) (hexponent : IsExponent exponent) :
    IsDouble (signed negative (whole ++ exponent)) := by
  obtain ⟨k, hk⟩ := hexponent.exists_takeExponent
  apply isDouble_of_take [] (some k) hwhole
  · intro rest hrest
    have hhead := hexponent.head_append rest
    refine ⟨?_, exponent ++ rest, ?_, hk rest hrest⟩
    · intro c hc
      rw [hhead c hc]
      decide
    · obtain ⟨sign, ds, -, -, -, rfl⟩ := hexponent
      rfl
  · exact .inr (Option.some_ne_none k)

theorem isDouble_positional {ds : List Char} (hds : IsSignificant ds) (lead : Int) :
    IsDouble (signed negative (positional ds lead)) := by
  obtain ⟨⟨d, rest, rfl, hd⟩, hdigits⟩ := hds
  have hzeros : ∀ n, ∀ c ∈ zeros n, isDigit c = true := by
    intro n c hc
    rw [List.eq_of_mem_replicate hc]
    decide
  cases lead with
  | ofNat n =>
      have hwhole : IsWhole ((d :: rest).take (n + 1) ++ zeros (n + 1 - (d :: rest).length)) := by
        refine .inr ⟨⟨d, _, rfl, hd⟩, ?_⟩
        intro c hc
        rcases List.mem_append.1 hc with hc | hc
        · exact hdigits c (List.mem_of_mem_take hc)
        · exact hzeros _ c hc
      apply isDouble_of_fraction hwhole
      · split
        · simp
        · assumption
      · split
        · simp [isDigit]
        · exact fun c hc => hdigits c (List.mem_of_mem_drop hc)
  | negSucc n =>
      have hwhole : IsWhole ['0'] := .inl rfl
      apply isDouble_of_fraction hwhole
      · simp
      · intro c hc
        rcases List.mem_append.1 hc with hc | hc
        · exact hzeros _ c hc
        · exact hdigits c hc

theorem isDouble_withExponent {ds : List Char} (hds : IsSignificant ds) (width : Nat) (lead : Int) :
    IsDouble (signed negative (withExponent width ds lead)) := by
  obtain ⟨⟨d, rest, rfl, hd⟩, hdigits⟩ := hds
  obtain ⟨hdigit, hrest⟩ := List.forall_mem_cons.1 hdigits
  have hwhole : IsWhole [d] := .inr ⟨⟨d, [], rfl, hd⟩, by simpa using hdigit⟩
  have hexponent : IsExponent ('e' :: (if lead < 0 then '-' else '+') ::
      padLeft width (digits lead.natAbs)) := by
    refine ⟨_, _, ?_, ?_, ?_, rfl⟩
    · split
      · exact .inr rfl
      · exact .inl rfl
    · simp [padLeft, digits_ne_nil]
    · intro c hc
      rcases List.mem_append.1 hc with hc | hc
      · rw [List.eq_of_mem_replicate hc]
        decide
      · exact isDigit_of_mem_digits _ c hc
  cases rest with
  | nil => exact isDouble_of_exponent hwhole hexponent
  | cons c rest =>
      exact isDouble_of_fraction_exponent hwhole (List.cons_ne_nil c rest) hrest hexponent

end Doubles

theorem isDouble_word {word : List Char} {x : Float}
    (h : ∀ rest, (words.find? fun w => w.1.isPrefixOf (word ++ rest)) = some (word, .float x)) :
    IsDouble word := by
  refine ⟨x, fun rest _ => ?_⟩
  rw [readScalar, h rest]
  simp

/-- Every double is written so that it is read as a double, to the last character. -/
theorem isDouble_write (x : Float) : IsDouble (FloatFormat.json.write x) := by
  have hzero : ∀ negative, IsDouble (signed negative ['0', '.', '0']) := by
    intro negative
    have hwhole : IsWhole ['0'] := .inl rfl
    exact isDouble_of_fraction hwhole (by simp) (by simp [isDigit])
  unfold FloatFormat.write
  split
  · exact isDouble_word (x := 0.0 / 0.0) fun rest => by simp [words, FloatFormat.json]
  · rename_i negative _
    cases negative with
    | false =>
        exact isDouble_word (x := 1.0 / 0.0) fun rest => by simp [words, FloatFormat.json, signed]
    | true =>
        exact isDouble_word (x := -1.0 / 0.0) fun rest => by simp [words, FloatFormat.json, signed]
  · exact hzero _
  · rename_i negative mantissa exponent hmantissa _
    rcases coefficient_shortest hmantissa exponent with hnone | hne
    · rw [hnone]
      dsimp only
      rw [digits_zero]
      exact hzero negative
    · have hds := (isSignificant_digits hne).stripZeros
      dsimp only
      split
      · exact isDouble_positional hds _
      · exact isDouble_withExponent hds _ _

end Json

end UnderscoreLint
