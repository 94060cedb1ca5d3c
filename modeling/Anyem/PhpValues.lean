import Anyem.FloatNumbers
import Anyem.Resource

/-!
# Loosely typed values

The counter of the retry loop comes out of a text file, so it is whatever PHP
makes of a text: `NULL`, a number or a string. `--` turns a numeric string into
a number and leaves other strings alone, and `>= 0` compares by the type it
finds. Counting down gets below zero from some of these values only. This is PHP
7 and 8; before, hexadecimal strings were numeric as well.
-/

namespace PhpValues

open FloatNumbers Resource

/-- What differs between the versions 7 and 8 of PHP, as far as the source
depends on it. -/
structure Php where
  /-- PHP 8, unlike PHP 7, compares a string that is not numeric with a number as a
  string, lets white space stand behind a number, and throws on an undefined
  constant. -/
  eight : Bool
  /-- `--` takes the empty string for zero, as the engine does; else it leaves
  the empty string alone like other strings that are not numeric. -/
  emptyIsZero : Bool
  /-- A float written into a string. -/
  showFloat : FloatNumber → Bytes

inductive Number where
  | int (n : ℤ)
  | float (x : FloatNumber)
  deriving DecidableEq

inductive Value where
  | null
  | number (n : Number)
  | string (s : Bytes)
  deriving DecidableEq

section NumericStrings

def isDigit (b : UInt8) : Bool := decide (48 ≤ b ∧ b ≤ 57)

/-- White space around a number: blank, tab, the line ends and the form feeds. -/
def isSpace (b : UInt8) : Bool := decide (b = 32 ∨ 9 ≤ b ∧ b ≤ 13)

def digitsValue (digits : Bytes) : ℕ := digits.foldl (fun n b => 10 * n + (b.toNat - 48)) 0

/-- Whether a minus sign stands in front, and what stands behind the sign. -/
def scanSign : Bytes → Bool × Bytes
  | 45 :: s => (true, s)
  | 43 :: s => (false, s)
  | s => (false, s)

/-- The digits behind a point, if there is a point. -/
def scanFraction : Bytes → Option Bytes × Bytes
  | 46 :: s => (some (s.takeWhile isDigit), s.dropWhile isDigit)
  | s => (none, s)

/-- An exponent, if one with digits stands in front. -/
def scanExponent : Bytes → Option ℤ × Bytes
  | [] => (none, [])
  | b :: s =>
    let t := (scanSign s).2
    if (b = 69 ∨ b = 101) ∧ t.takeWhile isDigit ≠ [] then
      let e : ℤ := digitsValue (t.takeWhile isDigit)
      (some (if (scanSign s).1 then -e else e), t.dropWhile isDigit)
    else (none, b :: s)

/-- A whole number is an integer as long as 64 bits hold it. -/
def wholeNumber (n : ℤ) : Number :=
  if -2 ^ 63 ≤ n ∧ n < 2 ^ 63 then .int n else .float (binary64.round n)

/-- The number at the front of a string, with what is left of the string. -/
def scanNumber (s : Bytes) : Option (Number × Bytes) :=
  let (negative, s₁) := scanSign (s.dropWhile isSpace)
  let sign : ℤ := if negative then -1 else 1
  let whole := s₁.takeWhile isDigit
  let (fraction, s₂) := scanFraction (s₁.dropWhile isDigit)
  let digits := whole ++ fraction.getD []
  if digits = [] then none
  else match fraction, scanExponent s₂ with
    | none, (none, rest) => some (wholeNumber (sign * digitsValue whole), rest)
    | fraction, (exponent, rest) =>
      let scale : ℤ := exponent.getD 0 - (fraction.getD []).length
      some (.float (binary64.round (sign * digitsValue digits * 10 ^ scale)), rest)

/-- The number that a numeric string stands for. -/
def numeric (php : Php) (s : Bytes) : Option Number :=
  match scanNumber s with
  | none => none
  | some (n, rest) =>
    if rest = [] ∨ php.eight = true ∧ rest.all isSpace = true then some n else none

/-- The number that arithmetic takes a string for before PHP 8. -/
def leadingNumber (s : Bytes) : Number :=
  match scanNumber s with
  | none => .int 0
  | some (n, _) => n

end NumericStrings

namespace Number

/-- The value of `--`. Below the least integer it is a float. -/
def decrement : Number → Number
  | .int n => if n = -2 ^ 63 then .float ((FloatNumber.finite n).pred binary64) else .int (n - 1)
  | .float x => .float (x.pred binary64)

def nonneg : Number → Bool
  | .int n => decide (0 ≤ n)
  | .float x => x.nonneg

/-- The number is, or is cut to, an integer that is not negative. -/
def isMicroseconds : Number → Bool
  | .int n => decide (0 ≤ n)
  | .float (.finite q) => decide (-1 < q ∧ q < 2 ^ 63)
  | .float (.infinite _) => false

/-- An integer, or a float that is not too large to be counted down. -/
def CountsDown : Number → Prop
  | .int _ => True
  | .float x => x.CountsDown binary64

end Number

namespace Value

variable (php : Php)

/-- The value of `--`. -/
def decrement : Value → Value
  | .null => .null
  | .number n => .number n.decrement
  | .string s =>
    if s = [] ∧ php.emptyIsZero = true then .number (.int (-1))
    else match numeric php s with
      | some n => .number n.decrement
      | none => .string s

/-- The comparison `>= 0`. -/
def atLeastZero : Value → Bool
  | .null => true
  | .number n => n.nonneg
  | .string s =>
    match numeric php s with
    | some n => n.nonneg
    | none =>
      if php.eight then decide (¬ s < ascii "0") else (leadingNumber s).nonneg

/-- Adding a string that is not numeric, before PHP 8: adding zero. -/
def plusZero : Value → Value
  | .null => .number (.int 0)
  | .number n => .number n
  | .string s => .number (leadingNumber s)

/-- The number that arithmetic and number parameters take a value for. PHP 8
throws at a string without a number in front. -/
def operand : Value → Option Number
  | .null => some (.int 0)
  | .number n => some n
  | .string s =>
    match scanNumber s with
    | some (n, _) => some n
    | none => if php.eight then none else some (.int 0)

/-- `usleep` goes on with the value. PHP 8 throws at what is no number of
microseconds, the versions before it warn. -/
def canSleep (v : Value) : Bool :=
  match v.operand php with
  | none => false
  | some n => !php.eight || n.isMicroseconds

/-- The value inside a string. -/
def text : Value → Bytes
  | .null => []
  | .number (.int n) => ascii (toString n)
  | .number (.float x) => php.showFloat x
  | .string s => s

/-- Counting the value down gets below zero: a number that is not too large, a
string that stands for one, or a string that `--` leaves alone and that compares
below zero as it is. -/
def CountsDown : Value → Prop
  | .null => False
  | .number n => n.CountsDown
  | .string s =>
    s = [] ∧ php.emptyIsZero = true ∨
      match numeric php s with
      | some n => n.CountsDown
      | none => atLeastZero php (.string s) = false

section Counting

variable {php}

theorem float_counts (x : FloatNumber) (n : ℕ) :
    ((decrement php)^[n]) (.number (.float x)) =
      .number (.float (((FloatNumber.pred binary64)^[n]) x)) := by
  induction n generalizing x with
  | zero => rfl
  | succ n ih => exact ih (x.pred binary64)

/-- An integer that is not negative loses one at every step. -/
theorem int_counts (n : ℕ) :
    ((decrement php)^[n + 1]) (.number (.int n)) = .number (.int (-1)) := by
  induction n with
  | zero => rfl
  | succ n ih =>
    have next : decrement php (.number (.int (n + 1 : ℕ))) = .number (.int n) := by
      have inside : ¬ ((n + 1 : ℕ) : ℤ) = -2 ^ 63 := by omega
      rw [decrement, Number.decrement, if_neg inside]
      push_cast
      rw [add_sub_cancel_right]
    rw [Function.iterate_succ_apply, next, ih]

/-- One step takes a negative integer further down, out of the integers at last. -/
theorem negative_counts {n : ℤ} (negative : n < 0) :
    (decrement php (.number (.int n))).atLeastZero php = false := by
  by_cases least : n = -2 ^ 63
  · have low : (FloatNumber.finite n).AtMost 0 := by
      change (n : ℚ) ≤ 0
      exact_mod_cast negative.le
    rw [decrement, Number.decrement, if_pos least]
    exact FloatNumber.pred_negative low
  · rw [decrement, Number.decrement, if_neg least]
    exact decide_eq_false (by omega)

theorem number_countsDown_iff (m : Number) :
    m.CountsDown ↔ ∃ n, (((decrement php)^[n + 1]) (.number m)).atLeastZero php = false := by
  cases m with
  | int m =>
    refine iff_of_true trivial ?_
    rcases lt_or_ge m 0 with negative | nonneg
    · exact ⟨0, negative_counts negative⟩
    · obtain ⟨n, rfl⟩ := Int.eq_ofNat_of_zero_le nonneg
      exact ⟨n, by rw [int_counts]; rfl⟩
  | float x =>
    simp only [float_counts]
    exact FloatNumber.countsDown_iff

theorem string_step {s : Bytes} (counted : ¬ (s = [] ∧ php.emptyIsZero = true)) {m : Number}
    (isNumeric : numeric php s = some m) (n : ℕ) :
    ((decrement php)^[n + 1]) (.string s) = ((decrement php)^[n + 1]) (.number m) := by
  have first : decrement php (.string s) = decrement php (.number m) := by
    simp only [decrement, if_neg counted, isNumeric]
  rw [Function.iterate_succ_apply, Function.iterate_succ_apply, first]

theorem string_fixed {s : Bytes} (counted : ¬ (s = [] ∧ php.emptyIsZero = true))
    (text : numeric php s = none) : decrement php (.string s) = .string s := by
  simp only [decrement, if_neg counted, text]

/-- The values from which counting down gets below zero. -/
theorem countsDown_iff (v : Value) :
    v.CountsDown php ↔ ∃ n, (((decrement php)^[n + 1]) v).atLeastZero php = false := by
  cases v with
  | null =>
    refine iff_of_false id ?_
    rintro ⟨n, below⟩
    rw [Function.iterate_fixed rfl] at below
    cases below
  | number m => exact number_countsDown_iff m
  | string s =>
    by_cases empty : s = [] ∧ php.emptyIsZero = true
    · refine iff_of_true (Or.inl empty) ⟨0, ?_⟩
      rw [Function.iterate_one, decrement, if_pos empty]
      rfl
    · cases found : numeric php s with
      | some m =>
        simp only [CountsDown, found, or_iff_right empty, string_step empty found]
        exact number_countsDown_iff m
      | none =>
        simp only [CountsDown, found, or_iff_right empty]
        simp only [Function.iterate_fixed (string_fixed empty found), exists_const]

/-- A number with a comment behind it is no numeric string, and PHP 8 finds it
above zero. -/
example (showFloat : FloatNumber → Bytes) :
    ¬ (Value.string (ascii "5 # comment")).CountsDown ⟨true, true, showFloat⟩ := by
  rintro (⟨empty, -⟩ | below)
  · cases empty
  · cases below

end Counting

end Value

end PhpValues
