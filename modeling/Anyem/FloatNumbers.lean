import Mathlib.Algebra.Order.Floor.Ring
import Mathlib.Data.Int.Log
import Mathlib.Data.Rat.Floor
import Mathlib.Tactic.Linarith
import Mathlib.Tactic.NormNum
import Mathlib.Tactic.Positivity
import Mathlib.Tactic.Ring

/-!
# Floating-point numbers counted down

A finite number of a binary format is a rational on the format's grid, and every
operation rounds its exact result to the nearest point, to the even one of two.
Counting down by one goes below zero when it starts below a bound just above
the power of two where the grid stops to hold all integers. From there on the
rounding gives back what was taken away, and the count never ends.
-/

namespace FloatNumbers

/-- The integer nearest to a rational, the even one if there are two. -/
def roundEven (x : ℚ) : ℤ :=
  if x - ⌊x⌋ < 1 / 2 ∨ x - ⌊x⌋ = 1 / 2 ∧ Even ⌊x⌋ then ⌊x⌋ else ⌊x⌋ + 1

section RoundEven

variable {x : ℚ} {k : ℤ}

/-- A bound for both candidates that rounding can choose. -/
theorem roundEven_le_of_lt (below : x < k + 1 / 2) : roundEven x ≤ k := by
  have low := Int.floor_le x
  rw [roundEven]
  split
  · have near : (⌊x⌋ : ℚ) < (k + 1 : ℤ) := by push_cast; linarith
    have := Int.cast_lt.mp near
    omega
  · rename_i far
    have half : 1 / 2 ≤ x - ⌊x⌋ := by
      by_contra less
      exact far (Or.inl (by linarith))
    have near : (⌊x⌋ : ℚ) < k := by linarith
    have := Int.cast_lt.mp near
    omega

theorem le_roundEven_of_lt (above : k - 1 / 2 < x) : k ≤ roundEven x := by
  have high := Int.lt_floor_add_one x
  rw [roundEven]
  split
  · rename_i near
    have half : x - ⌊x⌋ ≤ 1 / 2 := by
      rcases near with less | ⟨same, -⟩
      · exact less.le
      · exact same.le
    have near : (k - 1 : ℤ) < (⌊x⌋ : ℚ) := by push_cast; linarith
    have := Int.cast_lt.mp near
    omega
  · have near : (k - 1 : ℤ) < (⌊x⌋ + 1 : ℚ) := by push_cast; linarith
    have : (k - 1 : ℤ) < ⌊x⌋ + 1 := by exact_mod_cast near
    omega

theorem roundEven_le (below : x ≤ k) : roundEven x ≤ k :=
  roundEven_le_of_lt (by linarith)

theorem le_roundEven (above : k ≤ x) : k ≤ roundEven x :=
  le_roundEven_of_lt (by linarith)

/-- An even integer keeps both of its halves. -/
theorem roundEven_le_of_even (even : Even k) (below : x ≤ k + 1 / 2) : roundEven x ≤ k := by
  rcases below.lt_or_eq with less | same
  · exact roundEven_le_of_lt less
  · have floor : ⌊x⌋ = k := by
      rw [Int.floor_eq_iff]
      constructor <;> linarith
    rw [roundEven, if_pos (Or.inr ⟨by rw [floor]; linarith, floor ▸ even⟩), floor]

theorem le_roundEven_of_even (even : Even k) (above : k - 1 / 2 ≤ x) : k ≤ roundEven x := by
  rcases above.lt_or_eq with less | same
  · exact le_roundEven_of_lt less
  · have floor : ⌊x⌋ = k - 1 := by
      rw [Int.floor_eq_iff]
      push_cast
      constructor <;> linarith
    have odd : ¬ Even ⌊x⌋ := by
      rw [floor, Int.even_sub_one]
      exact fun not => not even
    rw [roundEven, if_neg, floor]
    · omega
    · rintro (less | ⟨-, even'⟩)
      · rw [floor] at less
        push_cast at less
        linarith
      · exact odd even'

end RoundEven

/-- A binary format: the bits of a significand, the exponent of the finest grid
and the largest finite number. -/
structure Format where
  precision : ℕ
  minExponent : ℤ
  largest : ℚ
  two_le : 2 ≤ precision
  minExponent_le : minExponent ≤ 0
  room : (2 : ℚ) ^ precision + 4 ≤ largest

/-- The format of IEEE 754 doubles. -/
def binary64 : Format where
  precision := 53
  minExponent := -1074
  largest := (2 ^ 53 - 1) * 2 ^ 971
  two_le := by decide
  minExponent_le := by decide
  room := by
    have large : (2 : ℚ) ^ 1 ≤ 2 ^ 971 := pow_le_pow_right₀ (by norm_num) (by norm_num)
    generalize (2 : ℚ) ^ 971 = power at large ⊢
    norm_num at large ⊢
    linarith

inductive FloatNumber where
  | finite (q : ℚ)
  | infinite (negative : Bool)
  deriving DecidableEq

namespace Format

variable (f : Format)

/-- The exponent of the grid around a number. -/
def gridExponent (q : ℚ) : ℤ := max (Int.log 2 |q| - (f.precision - 1)) f.minExponent

/-- The point of the grid nearest to a number. -/
def onGrid (q : ℚ) : ℚ := roundEven (q / 2 ^ f.gridExponent q) * 2 ^ f.gridExponent q

def round (q : ℚ) : FloatNumber :=
  if f.largest < f.onGrid q then .infinite false
  else if f.onGrid q < -f.largest then .infinite true
  else .finite (f.onGrid q)

variable {f} {q : ℚ}

theorem onGrid_le {k : ℤ} {c : ℚ} (rounded : roundEven (q / 2 ^ f.gridExponent q) ≤ k)
    (scaled : k * 2 ^ f.gridExponent q ≤ c) : f.onGrid q ≤ c := by
  have power : (0 : ℚ) < 2 ^ f.gridExponent q := zpow_pos (by norm_num) _
  have cast : (roundEven (q / 2 ^ f.gridExponent q) : ℚ) ≤ k := by exact_mod_cast rounded
  exact (mul_le_mul_of_nonneg_right cast power.le).trans scaled

theorem le_onGrid {k : ℤ} {c : ℚ} (rounded : k ≤ roundEven (q / 2 ^ f.gridExponent q))
    (scaled : c ≤ k * 2 ^ f.gridExponent q) : c ≤ f.onGrid q := by
  have power : (0 : ℚ) < 2 ^ f.gridExponent q := zpow_pos (by norm_num) _
  have cast : (k : ℚ) ≤ roundEven (q / 2 ^ f.gridExponent q) := by exact_mod_cast rounded
  exact scaled.trans (mul_le_mul_of_nonneg_right cast power.le)

/-- In the first binade above the power of the precision the grid has step two. -/
theorem gridExponent_eq_one (low : (2 : ℚ) ^ f.precision ≤ q)
    (high : q < (2 : ℚ) ^ (f.precision + 1)) : f.gridExponent q = 1 := by
  have positive : 0 < q := lt_of_lt_of_le (by positivity) low
  have bits := f.two_le
  have finest := f.minExponent_le
  have above : (f.precision : ℤ) ≤ Int.log 2 q := by
    rw [← Int.zpow_le_iff_le_log (by decide) positive]
    exact_mod_cast low
  have below : Int.log 2 q < (f.precision + 1 : ℕ) := by
    rw [← Int.lt_zpow_iff_log_lt (by decide) positive]
    exact_mod_cast high
  rw [gridExponent, abs_of_pos positive]
  omega

/-- Below the power of the precision the grid holds all integers. -/
theorem gridExponent_nonpos (positive : 0 < q) (high : q < (2 : ℚ) ^ f.precision) :
    f.gridExponent q ≤ 0 := by
  have finest := f.minExponent_le
  have below : Int.log 2 q < f.precision := by
    rw [← Int.lt_zpow_iff_log_lt (by decide) positive]
    exact_mod_cast high
  rw [gridExponent, abs_of_pos positive]
  omega

theorem onGrid_nonpos (nonpos : q ≤ 0) : f.onGrid q ≤ 0 := by
  have power : (0 : ℚ) < 2 ^ f.gridExponent q := zpow_pos (by norm_num) _
  have scaled : q / 2 ^ f.gridExponent q ≤ (0 : ℤ) := by
    rw [Int.cast_zero]
    exact div_nonpos_of_nonpos_of_nonneg nonpos power.le
  exact onGrid_le (roundEven_le scaled) (by simp)

/-- From minus one down a number is not rounded up to zero. -/
theorem onGrid_neg (low : q ≤ -1) : f.onGrid q < 0 := by
  have power : (0 : ℚ) < 2 ^ f.gridExponent q := zpow_pos (by norm_num) _
  have size : (1 : ℚ) ≤ |q| := by
    rw [abs_of_neg (by linarith)]
    linarith
  have positive : 0 < |q| := by linarith
  have log : 0 ≤ Int.log 2 |q| := by
    rw [← Int.zpow_le_iff_le_log (by decide) positive]
    simpa using size
  have bits := f.two_le
  have finest := f.minExponent_le
  have within : (2 : ℚ) ^ f.gridExponent q ≤ |q| := by
    have at_log := Int.zpow_log_le_self (b := 2) (by decide) positive
    have fine : f.gridExponent q ≤ Int.log 2 |q| := by
      rw [gridExponent]
      omega
    exact (zpow_le_zpow_right₀ (by norm_num) fine).trans (by exact_mod_cast at_log)
  have scaled : q / 2 ^ f.gridExponent q ≤ (-1 : ℤ) := by
    rw [abs_of_neg (by linarith)] at within
    rw [div_le_iff₀ power]
    push_cast
    linarith
  have bound := onGrid_le (f := f) (roundEven_le scaled) le_rfl
  push_cast at bound
  linarith

/-- The power of the precision is even on its own grid of step two. -/
theorem exists_half : ∃ h : ℤ, Even h ∧ (2 : ℚ) ^ f.precision = h * 2 := by
  obtain ⟨p, hp⟩ := Nat.exists_eq_add_of_le f.two_le
  refine ⟨2 ^ (p + 1), ?_, ?_⟩
  · rw [pow_succ]
    exact even_two.mul_left _
  · rw [hp, add_comm 2 p]
    push_cast
    ring

theorem four_le : (4 : ℚ) ≤ 2 ^ f.precision := by
  have power : (2 : ℚ) ^ 2 ≤ 2 ^ f.precision := pow_le_pow_right₀ (by norm_num) f.two_le
  linarith

/-- Rounding does not pass an integer up to the power of the precision. -/
theorem onGrid_le_integer {n : ℕ} (bounded : n ≤ 2 ^ f.precision) (below : q ≤ n) :
    f.onGrid q ≤ n := by
  rcases le_or_gt q 0 with nonpos | positive
  · exact (onGrid_nonpos nonpos).trans (Nat.cast_nonneg n)
  have bounded' : (n : ℚ) ≤ 2 ^ f.precision := by exact_mod_cast bounded
  rcases lt_or_ge q (2 ^ f.precision) with less | least
  · -- The integer is a point of the grid around the smaller number.
    have fine := gridExponent_nonpos positive less
    obtain ⟨e, he⟩ := Int.eq_ofNat_of_zero_le (neg_nonneg.mpr fine)
    have exponent : f.gridExponent q = -(e : ℤ) := by omega
    have unit : (2 : ℚ) ^ e * 2 ^ (-(e : ℤ)) = 1 := by
      rw [zpow_neg, zpow_natCast]
      exact mul_inv_cancel₀ (by positivity)
    refine onGrid_le (k := n * 2 ^ e) (roundEven_le ?_) ?_
    · rw [exponent, zpow_neg, zpow_natCast, div_inv_eq_mul]
      push_cast
      exact mul_le_mul_of_nonneg_right below (by positivity)
    · rw [exponent]
      push_cast
      rw [mul_assoc, unit, mul_one]
  · obtain ⟨h, -, half⟩ := exists_half (f := f)
    have exponent : f.gridExponent q = 1 := by
      refine gridExponent_eq_one least ?_
      rw [pow_succ]
      linarith [four_le (f := f)]
    refine onGrid_le (k := h) (roundEven_le ?_) ?_
    · rw [exponent, zpow_one]
      linarith
    · rw [exponent, zpow_one]
      linarith

/-- One above the power of the precision rounds down to it. -/
theorem onGrid_le_power (below : q ≤ 2 ^ f.precision + 1) : f.onGrid q ≤ 2 ^ f.precision := by
  rcases le_or_gt q (2 ^ f.precision) with less | above
  · have bound := onGrid_le_integer (f := f) (n := 2 ^ f.precision) le_rfl
      (by exact_mod_cast less)
    exact_mod_cast bound
  · obtain ⟨h, even, half⟩ := exists_half (f := f)
    have exponent : f.gridExponent q = 1 := by
      refine gridExponent_eq_one above.le ?_
      rw [pow_succ]
      linarith [four_le (f := f)]
    refine onGrid_le (k := h) (roundEven_le_of_even even ?_) ?_
    · rw [exponent, zpow_one]
      linarith
    · rw [exponent, zpow_one]
      linarith

theorem onGrid_le_of_lt (below : q < 2 ^ f.precision + 3) :
    f.onGrid q ≤ 2 ^ f.precision + 2 := by
  rcases lt_or_ge q (2 ^ f.precision) with less | least
  · linarith [onGrid_le_power (f := f) (q := q) (by linarith)]
  · obtain ⟨h, -, half⟩ := exists_half (f := f)
    have exponent : f.gridExponent q = 1 := by
      refine gridExponent_eq_one least ?_
      rw [pow_succ]
      linarith [four_le (f := f)]
    refine onGrid_le (k := h + 1) (roundEven_le_of_lt ?_) ?_
    · rw [exponent, zpow_one]
      push_cast
      linarith
    · rw [exponent, zpow_one]
      push_cast
      linarith

/-- Three above the power of the precision rounds up, and so does all beyond. -/
theorem le_onGrid_of_le (above : 2 ^ f.precision + 3 ≤ q) : 2 ^ f.precision + 4 ≤ f.onGrid q := by
  have four := four_le (f := f)
  obtain ⟨h, even, half⟩ := exists_half (f := f)
  rcases lt_or_ge q (2 ^ (f.precision + 1)) with near | far
  · have exponent : f.gridExponent q = 1 := gridExponent_eq_one (by linarith) near
    refine le_onGrid (k := h + 2) (le_roundEven_of_even (even.add even_two) ?_) ?_
    · rw [exponent, zpow_one]
      push_cast
      linarith
    · rw [exponent, zpow_one]
      push_cast
      linarith
  · -- In a higher binade the number stays above the power it starts from.
    have positive : 0 < q := by linarith [(pow_pos two_pos _ : (0 : ℚ) < 2 ^ (f.precision + 1))]
    have bits := f.two_le
    have finest := f.minExponent_le
    have log : ((f.precision + 1 : ℕ) : ℤ) ≤ Int.log 2 q := by
      rw [← Int.zpow_le_iff_le_log (by decide) positive]
      exact_mod_cast far
    have exponent : f.gridExponent q = Int.log 2 q - (f.precision - 1) := by
      rw [gridExponent, abs_of_pos positive]
      omega
    have start : (h : ℚ) * 2 ^ f.gridExponent q = 2 ^ Int.log 2 q := by
      have sum : Int.log 2 q = f.gridExponent q + f.precision - 1 := by omega
      rw [sum, zpow_sub_one₀ two_ne_zero, zpow_add₀ two_ne_zero, zpow_natCast, half]
      ring
    have below := Int.zpow_log_le_self (b := 2) (by decide) positive
    push_cast at below
    refine le_onGrid (k := h) (le_roundEven ?_) ?_
    · rw [le_div_iff₀ (zpow_pos two_pos _), start]
      exact below
    · rw [start]
      have least : (2 : ℚ) ^ (f.precision + 1) ≤ 2 ^ Int.log 2 q := by
        exact_mod_cast zpow_le_zpow_right₀ (one_le_two : (1 : ℚ) ≤ 2) log
      rw [pow_succ] at least
      linarith

end Format

namespace FloatNumber

variable (f : Format)

/-- The number less one. -/
def pred : FloatNumber → FloatNumber
  | .finite q => f.round (q - 1)
  | .infinite negative => .infinite negative

def nonneg : FloatNumber → Bool
  | .finite q => decide (0 ≤ q)
  | .infinite negative => !negative

/-- The number is low enough for counting down by one to get below zero. -/
def CountsDown : FloatNumber → Prop
  | .finite q => q < 2 ^ f.precision + 4
  | .infinite negative => negative = true

/-- The number is at most a rational. -/
def AtMost (c : ℚ) : FloatNumber → Prop
  | .finite q => q ≤ c
  | .infinite negative => negative = true

variable {f} {x : FloatNumber}

theorem round_atMost {q c : ℚ} (grid : f.onGrid q ≤ c) (small : c ≤ f.largest) :
    (f.round q).AtMost c := by
  rw [Format.round, if_neg (by linarith)]
  split
  · rfl
  · exact grid

theorem pred_atMost_of_countsDown (low : x.CountsDown f) :
    (x.pred f).AtMost (2 ^ f.precision + 2) := by
  cases x with
  | infinite negative => exact low
  | finite q =>
    have low' : q < 2 ^ f.precision + 4 := low
    refine round_atMost (Format.onGrid_le_of_lt (by linarith)) ?_
    linarith [f.room]

theorem pred_atMost_power (low : x.AtMost (2 ^ f.precision + 2)) :
    (x.pred f).AtMost (2 ^ f.precision) := by
  cases x with
  | infinite negative => exact low
  | finite q =>
    have low' : q ≤ 2 ^ f.precision + 2 := low
    refine round_atMost (Format.onGrid_le_power (by linarith)) ?_
    linarith [f.room]

theorem pred_atMost {n : ℕ} (bounded : n + 1 ≤ 2 ^ f.precision)
    (low : x.AtMost (n + 1 : ℕ)) : (x.pred f).AtMost n := by
  cases x with
  | infinite negative => exact low
  | finite q =>
    have low' : q ≤ (n + 1 : ℕ) := low
    push_cast at low'
    have within : (n : ℚ) + 1 ≤ 2 ^ f.precision := by exact_mod_cast bounded
    refine round_atMost (Format.onGrid_le_integer (by omega) (by linarith)) ?_
    linarith [f.room]

theorem pred_negative (low : x.AtMost 0) : (x.pred f).nonneg = false := by
  cases x with
  | infinite negative =>
    have low' : negative = true := low
    rw [low']
    rfl
  | finite q =>
    have low' : q ≤ 0 := low
    have negative : f.onGrid (q - 1) < 0 := Format.onGrid_neg (by linarith)
    have small : ¬ f.largest < f.onGrid (q - 1) := by
      have power : (0 : ℚ) < 2 ^ f.precision := by positivity
      linarith [f.room]
    rw [pred, Format.round, if_neg small]
    split
    · rfl
    · exact decide_eq_false (not_le.mpr negative)

/-- From an integer on the grid the count takes one step for each unit. -/
theorem counts_from {n : ℕ} (bounded : n ≤ 2 ^ f.precision) (low : x.AtMost n) :
    (((pred f)^[n + 1]) x).nonneg = false := by
  induction n generalizing x with
  | zero => exact pred_negative (by simpa using low)
  | succ n ih =>
    rw [Function.iterate_succ_apply]
    exact ih (by omega) (pred_atMost bounded low)

theorem counts_down (low : x.CountsDown f) : ∃ n, (((pred f)^[n + 1]) x).nonneg = false := by
  have start := pred_atMost_power (pred_atMost_of_countsDown low)
  refine ⟨2 ^ f.precision + 2, ?_⟩
  rw [Function.iterate_succ_apply, Function.iterate_succ_apply]
  exact counts_from le_rfl (by exact_mod_cast start)

theorem countsDown_of_pred (low : (x.pred f).CountsDown f) : x.CountsDown f := by
  cases x with
  | infinite negative => exact low
  | finite q =>
    change q < 2 ^ f.precision + 4
    by_contra high
    have grid := Format.le_onGrid_of_le (f := f) (q := q - 1) (by linarith)
    have positive : ¬ f.onGrid (q - 1) < -f.largest := by
      have power : (0 : ℚ) < 2 ^ f.precision := by positivity
      linarith [f.room]
    rw [pred, Format.round, if_neg positive] at low
    split at low
    · cases low
    · exact absurd low (not_lt.mpr grid)

theorem nonneg_of_not_countsDown (high : ¬ x.CountsDown f) : x.nonneg = true := by
  cases x with
  | infinite negative =>
    cases negative with
    | true => exact False.elim (high rfl)
    | false => rfl
  | finite q =>
    have high' : 2 ^ f.precision + 4 ≤ q := not_lt.mp high
    have power : (0 : ℚ) < 2 ^ f.precision := by positivity
    exact decide_eq_true (by linarith)

/-- Counting down by one gets below zero exactly from a number below the bound. -/
theorem countsDown_iff : x.CountsDown f ↔ ∃ n, (((pred f)^[n + 1]) x).nonneg = false := by
  refine ⟨counts_down, ?_⟩
  rintro ⟨n, below⟩
  have kept : ∀ m (y : FloatNumber), (((pred f)^[m]) y).CountsDown f → y.CountsDown f := by
    intro m
    induction m with
    | zero => exact fun y low => low
    | succ m ih =>
      intro y low
      rw [Function.iterate_succ_apply] at low
      exact countsDown_of_pred (ih _ low)
  apply kept (n + 1)
  by_contra high
  rw [nonneg_of_not_countsDown high] at below
  cases below

end FloatNumber

end FloatNumbers
