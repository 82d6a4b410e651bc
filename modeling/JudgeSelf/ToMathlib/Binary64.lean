import Mathlib.Data.Int.Log
import Mathlib.Data.Rat.Floor
import Mathlib.Tactic.Linarith
import Mathlib.Tactic.NormNum
import Mathlib.Tactic.Positivity

/-! # Binary floating-point numbers

The numbers of IEEE 754 binary64: rationals with a significand of 53 bits and a sign, infinities and NaN.
Results are rounded to the nearest number, ties to even.
-/

namespace Rat

/-- The nearest integer, ties to even. -/
def roundEven (q : ℚ) : ℤ :=
  if q - ⌊q⌋ < 1 / 2 ∨ q - ⌊q⌋ = 1 / 2 ∧ ⌊q⌋ % 2 = 0 then ⌊q⌋ else ⌊q⌋ + 1

variable {q : ℚ} {k : ℤ}

theorem abs_roundEven_sub_le (q : ℚ) : |(q.roundEven : ℚ) - q| ≤ 1 / 2 := by
  have lower := Int.floor_le q
  have upper := Int.lt_floor_add_one q
  rw [roundEven, abs_le]
  split
  · next below => rcases below with less | ⟨tie, _⟩ <;> constructor <;> linarith
  · next above =>
    have more : 1 / 2 ≤ q - ⌊q⌋ := not_lt.mp fun less => above (.inl less)
    push_cast
    constructor <;> linarith

theorem le_roundEven (le : k ≤ q) : k ≤ q.roundEven := by
  have floor := Int.le_floor.mpr le
  rw [roundEven]
  split <;> omega

theorem roundEven_le (le : q ≤ k) : q.roundEven ≤ k := by
  have below := (Int.floor_le q).trans le
  rw [roundEven]
  split
  · exact_mod_cast below
  · next above =>
    have strict : (⌊q⌋ : ℚ) < k := by
      refine lt_of_le_of_ne below fun same => above (.inl ?_)
      rw [same]
      linarith
    exact_mod_cast strict

theorem roundEven_intCast (k : ℤ) : (k : ℚ).roundEven = k := le_antisymm (roundEven_le le_rfl) (le_roundEven le_rfl)

end Rat

namespace Binary64

/-- The weight of the last bit of the significand, as an exponent. -/
def lastBit (q : ℚ) : ℤ := max (-1074) (Int.log 2 |q| - 52)

/-- The nearest number, with no bound on the exponent. -/
def nearest (q : ℚ) : ℚ := (q / 2 ^ lastBit q).roundEven * 2 ^ lastBit q

variable {q : ℚ} {n : ℤ}

private theorem scale_pos (u : ℤ) : (0 : ℚ) < 2 ^ u := zpow_pos (by norm_num) u

theorem abs_nearest_sub_le (q : ℚ) : |nearest q - q| ≤ 2 ^ lastBit q / 2 := by
  have scale := scale_pos (lastBit q)
  have close := Rat.abs_roundEven_sub_le (q / 2 ^ lastBit q)
  have same : nearest q - q = ((q / 2 ^ lastBit q).roundEven - q / 2 ^ lastBit q) * 2 ^ lastBit q := by
    rw [nearest, sub_mul, div_mul_cancel₀ _ scale.ne']
  rw [same, abs_mul, abs_of_pos scale]
  calc |((q / 2 ^ lastBit q).roundEven : ℚ) - q / 2 ^ lastBit q| * 2 ^ lastBit q ≤ 1 / 2 * 2 ^ lastBit q :=
        mul_le_mul_of_nonneg_right close scale.le
    _ = 2 ^ lastBit q / 2 := by ring

/-- Below the 53 bits of the significand all integers are numbers. -/
theorem lastBit_le_zero (bound : |q| < 2 ^ 53) : lastBit q ≤ 0 := by
  refine max_le (by decide) ?_
  by_cases zero : |q| = 0
  · rw [zero, Int.log_of_right_le_zero 2 le_rfl]
    decide
  · have positive : 0 < |q| := lt_of_le_of_ne (abs_nonneg q) (Ne.symm zero)
    have log : Int.log 2 |q| < 53 := (Int.lt_zpow_iff_log_lt (by decide) positive).mp (by exact_mod_cast bound)
    omega

/-- The error relative to a normal number. -/
theorem abs_nearest_sub_le_of_normal (normal : 2 ^ (-1022 : ℤ) ≤ |q|) : |nearest q - q| ≤ |q| / 2 ^ 53 := by
  have positive : 0 < |q| := lt_of_lt_of_le (scale_pos _) normal
  have log : -1022 ≤ Int.log 2 |q| := (Int.zpow_le_iff_le_log (by decide) positive).mp (by exact_mod_cast normal)
  have bit : lastBit q = Int.log 2 |q| - 52 := max_eq_right (by omega)
  have least : (2 : ℚ) ^ Int.log 2 |q| ≤ |q| := by exact_mod_cast Int.zpow_log_le_self (b := 2) (by decide) positive
  have scale : (2 : ℚ) ^ lastBit q = 2 ^ Int.log 2 |q| / 2 ^ 52 := by
    rw [bit, zpow_sub₀ (by norm_num)]
    norm_num
  calc |nearest q - q| ≤ 2 ^ lastBit q / 2 := abs_nearest_sub_le q
    _ = 2 ^ Int.log 2 |q| / 2 ^ 53 := by rw [scale]; ring
    _ ≤ |q| / 2 ^ 53 := by gcongr

/-- A multiple of a power of two with a significand that fits is a number. -/
theorem nearest_of_fits {k : ℤ} {u : ℤ} (least : -1074 ≤ u) (fits : |k| ≤ 2 ^ 53) :
    nearest (k * 2 ^ u) = k * 2 ^ u := by
  obtain ⟨j, whole⟩ : ∃ j : ℤ, (k * 2 ^ u : ℚ) = j * 2 ^ lastBit (k * 2 ^ u) := by
    rcases eq_or_ne k 0 with rfl | nonzero
    · exact ⟨0, by simp⟩
    have positive : 0 < |(k * 2 ^ u : ℚ)| := abs_pos.mpr (mul_ne_zero (mod_cast nonzero) (scale_pos u).ne')
    have size : |(k * 2 ^ u : ℚ)| = |k| * 2 ^ u := by
      rw [abs_mul, abs_of_pos (scale_pos u), Int.cast_abs]
    rcases lt_or_eq_of_le fits with less | power
    · have log : Int.log 2 |(k * 2 ^ u : ℚ)| < 53 + u := by
        refine (Int.lt_zpow_iff_log_lt (by decide) positive).mp ?_
        rw [size, Nat.cast_ofNat, zpow_add₀ (by norm_num)]
        exact mul_lt_mul_of_pos_right (mod_cast less) (scale_pos u)
      have bit : lastBit (k * 2 ^ u) ≤ u := max_le least (by omega)
      refine ⟨k * 2 ^ (u - lastBit (k * 2 ^ u)).toNat, ?_⟩
      generalize lastBit (k * 2 ^ u) = v at bit
      have shift : (2 : ℚ) ^ u = 2 ^ (u - v).toNat * 2 ^ v := by
        rw [← zpow_natCast, ← zpow_add₀ (by norm_num), Int.toNat_of_nonneg (by omega), sub_add_cancel]
      rw [shift]
      push_cast
      ring
    · have log : Int.log 2 |(k * 2 ^ u : ℚ)| = 53 + u := by
        have whole : |(k * 2 ^ u : ℚ)| = ((2 : ℕ) : ℚ) ^ (53 + u) := by
          rw [size, Nat.cast_ofNat, zpow_add₀ (by norm_num), power]
          norm_num
        rw [whole, Int.log_zpow (by decide)]
      have bit : lastBit (k * 2 ^ u) = u + 1 := by
        rw [lastBit, log]
        omega
      obtain ⟨half, even⟩ : ∃ half : ℤ, k = 2 * half := by
        rcases abs_choice k with same | same
        · exact ⟨2 ^ 52, by omega⟩
        · exact ⟨-2 ^ 52, by omega⟩
      refine ⟨half, ?_⟩
      rw [bit, zpow_add_one₀ (by norm_num), even]
      push_cast
      ring
  rw [nearest]
  generalize lastBit (k * 2 ^ u) = v at whole
  rw [whole, mul_div_cancel_right₀ _ (scale_pos v).ne', Rat.roundEven_intCast]

/-- Rounding again changes nothing. -/
theorem nearest_nearest (q : ℚ) : nearest (nearest q) = nearest q := by
  refine nearest_of_fits (le_max_left _ _) ?_
  have scale := scale_pos (lastBit q)
  have below : |q| / 2 ^ lastBit q ≤ 2 ^ 53 := by
    rw [div_le_iff₀ scale]
    rcases eq_or_ne q 0 with rfl | nonzero
    · rw [abs_zero]
      positivity
    · have log := Int.lt_zpow_succ_log_self (b := 2) (by decide) |q|
      rw [Nat.cast_ofNat] at log
      calc |q| ≤ 2 ^ (Int.log 2 |q| + 1) := log.le
        _ ≤ 2 ^ (53 + lastBit q) := zpow_le_zpow_right₀ (by norm_num) (by unfold lastBit; omega)
        _ = 2 ^ 53 * 2 ^ lastBit q := by rw [zpow_add₀ (by norm_num)]; norm_num
  have close : |q / 2 ^ lastBit q| ≤ ((2 ^ 53 : ℤ) : ℚ) := by
    rw [abs_div, abs_of_pos scale]
    exact_mod_cast below
  obtain ⟨lower, upper⟩ := abs_le.mp close
  exact abs_le.mpr ⟨Rat.le_roundEven (by exact_mod_cast lower), Rat.roundEven_le upper⟩

/-- The integers are multiples of the last bit of a number that small. -/
private theorem exists_mul_lastBit (bound : |q| < 2 ^ 53) (n : ℤ) : ∃ m : ℤ, (n : ℚ) = m * 2 ^ lastBit q := by
  have bit := lastBit_le_zero bound
  have shift : (2 : ℚ) ^ (-lastBit q).toNat * 2 ^ lastBit q = 1 := by
    rw [← zpow_natCast, Int.toNat_of_nonneg (by omega), ← zpow_add₀ (by norm_num), neg_add_cancel, zpow_zero]
  refine ⟨n * 2 ^ (-lastBit q).toNat, ?_⟩
  push_cast
  rw [mul_assoc, shift, mul_one]

theorem le_nearest (bound : |q| < 2 ^ 53) (le : n ≤ q) : n ≤ nearest q := by
  have scale := scale_pos (lastBit q)
  obtain ⟨m, whole⟩ := exists_mul_lastBit bound n
  rw [whole, ← le_div_iff₀ scale] at le
  rw [nearest, whole]
  exact mul_le_mul_of_nonneg_right (mod_cast Rat.le_roundEven le) scale.le

theorem nearest_le (bound : |q| < 2 ^ 53) (le : q ≤ n) : nearest q ≤ n := by
  have scale := scale_pos (lastBit q)
  obtain ⟨m, whole⟩ := exists_mul_lastBit bound n
  rw [whole, ← div_le_iff₀ scale] at le
  rw [nearest, whole]
  exact mul_le_mul_of_nonneg_right (mod_cast Rat.roundEven_le le) scale.le

theorem nearest_intCast (bound : |n| < 2 ^ 53) : nearest n = n := by
  have small : |(n : ℚ)| < 2 ^ 53 := by exact_mod_cast bound
  exact le_antisymm (nearest_le small le_rfl) (le_nearest small le_rfl)

theorem nearest_nonneg (nonneg : 0 ≤ q) : 0 ≤ nearest q := by
  have scale := scale_pos (lastBit q)
  refine mul_nonneg ?_ scale.le
  have least : ((0 : ℤ) : ℚ) ≤ q / 2 ^ lastBit q := by
    rw [Int.cast_zero]
    exact div_nonneg nonneg scale.le
  exact_mod_cast Rat.le_roundEven least

/-- What a number is without its sign. -/
structure Magnitude where
  value : ℚ
  nonneg : 0 ≤ value
  representable : nearest value = value
  bounded : value < 2 ^ 1024
deriving DecidableEq, Repr

end Binary64

inductive Binary64
  | finite (negative : Bool) (magnitude : Binary64.Magnitude)
  | infinite (negative : Bool)
  | nan
deriving DecidableEq, Repr

namespace Binary64

/-- The number nearest to a rational of the given sign. -/
def ofRat (negative : Bool) (q : ℚ) : Binary64 :=
  if bounded : nearest |q| < 2 ^ 1024 then
    .finite negative ⟨nearest |q|, nearest_nonneg (abs_nonneg q), nearest_nearest |q|, bounded⟩
  else .infinite negative

instance : Zero Binary64 := ⟨.finite false ⟨0, le_rfl, by decide +kernel, by norm_num⟩⟩

/-- The rational that a finite number stands for. -/
def value? : Binary64 → Option ℚ
  | .finite negative magnitude => some (if negative then -magnitude.value else magnitude.value)
  | .infinite _ | .nan => none

def IsFinite (x : Binary64) : Prop := x.value?.isSome

instance (x : Binary64) : Decidable x.IsFinite := inferInstanceAs (Decidable (_ = true))

protected def mul : Binary64 → Binary64 → Binary64
  | .finite n x, .finite m y => ofRat (n ^^ m) (x.value * y.value)
  | .finite n x, .infinite m | .infinite n, .finite m x => if x.value = 0 then .nan else .infinite (n ^^ m)
  | .infinite n, .infinite m => .infinite (n ^^ m)
  | .nan, _ | _, .nan => .nan

instance : Mul Binary64 := ⟨Binary64.mul⟩

theorem finite_mul_finite (n m : Bool) (x y : Magnitude) :
    finite n x * finite m y = ofRat (n ^^ m) (x.value * y.value) := rfl

theorem value?_ofRat (negative : Bool) (bounded : nearest |q| < 2 ^ 1024) :
    (ofRat negative q).value? = some (if negative then -nearest |q| else nearest |q|) := by
  rw [ofRat, dif_pos bounded]
  rfl

theorem nearest_zero : nearest 0 = 0 := by
  have whole := @nearest_intCast 0 (by norm_num)
  exact_mod_cast whole

/-- A number that is not negative is its magnitude; its sign may still be that of a negative zero. -/
private theorem eq_value_of_nonneg {negative : Bool} {magnitude : Magnitude} {p : ℚ}
    (same : (Binary64.finite negative magnitude).value? = some p) (nonneg : 0 ≤ p) :
    magnitude.value = p ∧ (negative → p = 0) := by
  have positive := magnitude.nonneg
  obtain rfl := Option.some.inj same
  cases negative with
  | false => exact ⟨rfl, fun sign => Bool.noConfusion sign⟩
  | true =>
    rw [if_pos rfl] at nonneg ⊢
    exact ⟨by linarith, fun _ => by linarith⟩

/-- Products of numbers that are not negative are rounded. -/
theorem value?_mul {x y : Binary64} {p q : ℚ} (left : x.value? = some p) (right : y.value? = some q) (nonneg : 0 ≤ p)
    (nonneg' : 0 ≤ q) (bounded : nearest (p * q) < 2 ^ 1024) : (x * y).value? = some (nearest (p * q)) := by
  obtain ⟨n, m⟩ | n | _ := x
  · obtain ⟨k, l⟩ | k | _ := y
    · obtain ⟨rfl, sign⟩ := eq_value_of_nonneg left nonneg
      obtain ⟨rfl, sign'⟩ := eq_value_of_nonneg right nonneg'
      have product : |m.value * l.value| = m.value * l.value := abs_of_nonneg (mul_nonneg nonneg nonneg')
      rw [finite_mul_finite, value?_ofRat _ (by rwa [product]), product]
      split
      · next negative =>
        have zero : m.value * l.value = 0 := by
          cases n with
          | true => rw [sign rfl, zero_mul]
          | false => rw [sign' (by simpa using negative), mul_zero]
        rw [zero, nearest_zero, neg_zero]
      · rfl
    · contradiction
    · contradiction
  · contradiction
  · contradiction

end Binary64
