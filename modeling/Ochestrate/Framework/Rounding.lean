import Mathlib.Data.Int.Log
import Mathlib.Data.Rat.Floor
import Mathlib.Tactic.Linarith
import Mathlib.Tactic.Ring

/-!
# Rounding to a binary number format

A format has a number of bits and a smallest exponent. `BinaryFormat.round` is
the number of the format that is nearest to a rational, and of two the one with
an even last bit; the arithmetic of a format rounds the exact result. There is
no largest number, so the results are those of the format as long as they are
finite.

`round_mono` says that rounding keeps the order. So a bound that is in the
format itself bounds what is rounded (`le_round`, `round_le`).
-/

namespace Ochestrate

/-! ## The nearest integer -/

/-- The nearest integer, and of two the even one. -/
def nearestEven (q : Rat) : Int :=
  if q - ⌊q⌋ < 1 / 2 then ⌊q⌋
  else if 1 / 2 < q - ⌊q⌋ then ⌊q⌋ + 1
  else if 2 ∣ ⌊q⌋ then ⌊q⌋
  else ⌊q⌋ + 1

theorem floor_le_nearestEven (q : Rat) : ⌊q⌋ ≤ nearestEven q := by
  unfold nearestEven
  split_ifs <;> omega

theorem nearestEven_le_floor (q : Rat) : nearestEven q ≤ ⌊q⌋ + 1 := by
  unfold nearestEven
  split_ifs <;> omega

@[simp] theorem nearestEven_intCast (n : Int) : nearestEven n = n := by
  rw [nearestEven, Int.floor_intCast, sub_self, if_pos (by norm_num)]

theorem nearestEven_zero : nearestEven 0 = 0 := nearestEven_intCast 0

theorem nearestEven_mono {x y : Rat} (h : x ≤ y) : nearestEven x ≤ nearestEven y := by
  rcases (Int.floor_mono h).lt_or_eq with hlt | heq
  · calc nearestEven x ≤ ⌊x⌋ + 1 := nearestEven_le_floor x
      _ ≤ ⌊y⌋ := hlt
      _ ≤ nearestEven y := floor_le_nearestEven y
  · -- Between two integers only the distance from the lower one counts.
    unfold nearestEven
    rw [heq]
    split_ifs <;> first | omega | linarith

/-- The integers on both sides of zero are rounded to alike. -/
theorem nearestEven_neg (q : Rat) : nearestEven (-q) = -nearestEven q := by
  by_cases hint : (⌊q⌋ : Rat) = q
  · rw [← hint, ← Int.cast_neg, nearestEven_intCast, nearestEven_intCast]
  · have hlt : (⌊q⌋ : Rat) < q := lt_of_le_of_ne (Int.floor_le q) hint
    have hfloor : ⌊-q⌋ = -⌊q⌋ - 1 := by
      rw [Int.floor_eq_iff]
      have hupper := Int.lt_floor_add_one q
      push_cast
      constructor <;> linarith
    unfold nearestEven
    rw [hfloor]
    push_cast
    split_ifs <;> first | omega | linarith

/-! ## The formats -/

structure BinaryFormat where
  precision : Nat
  precision_pos : 0 < precision
  minExponent : Int

namespace BinaryFormat

variable (F : BinaryFormat)

/-- The exponent of the numbers around a rational. -/
def exponent (q : Rat) : Int := max (Int.log 2 |q|) F.minExponent

/-- The distance of the numbers with an exponent. -/
def spacing (e : Int) : Rat := (2 : Rat) ^ (e - F.precision + 1)

/-- The nearest number of the format. -/
def round (q : Rat) : Rat := nearestEven (q / F.spacing (F.exponent q)) * F.spacing (F.exponent q)

def add (x y : Rat) : Rat := F.round (x + y)

def sub (x y : Rat) : Rat := F.round (x - y)

def mul (x y : Rat) : Rat := F.round (x * y)

theorem spacing_pos (e : Int) : 0 < F.spacing e := zpow_pos (by decide) _

/-- The first power of two past an exponent, in units of its spacing. -/
theorem pow_mul_spacing (e : Int) : ((2 ^ F.precision : Int) : Rat) * F.spacing e = 2 ^ (e + 1) := by
  rw [spacing, Int.cast_pow, Int.cast_ofNat, ← zpow_natCast, ← zpow_add₀ (by decide)]
  congr 1
  omega

theorem pow_pred_mul_spacing (e : Int) : ((2 ^ (F.precision - 1) : Int) : Rat) * F.spacing e = 2 ^ e := by
  have hpos := F.precision_pos
  rw [spacing, Int.cast_pow, Int.cast_ofNat, ← zpow_natCast, ← zpow_add₀ (by decide)]
  congr 1
  omega

@[simp] theorem round_zero : F.round 0 = 0 := by
  rw [round, zero_div, nearestEven_zero, Int.cast_zero, zero_mul]

theorem round_neg (q : Rat) : F.round (-q) = -F.round q := by
  rw [round, round, exponent, exponent, abs_neg, neg_div, nearestEven_neg, Int.cast_neg, neg_mul]

theorem round_nonneg {q : Rat} (h : 0 ≤ q) : 0 ≤ F.round q := by
  have hscaled : 0 ≤ q / F.spacing (F.exponent q) := div_nonneg h (F.spacing_pos _).le
  have hnearest : 0 ≤ nearestEven (q / F.spacing (F.exponent q)) := nearestEven_zero ▸ nearestEven_mono hscaled
  exact mul_nonneg (Int.cast_nonneg hnearest) (F.spacing_pos _).le

/-- A number is rounded to no more than the next power of two. -/
theorem round_le_pow {q : Rat} (h : 0 < q) : F.round q ≤ 2 ^ (F.exponent q + 1) := by
  have hlog : q < (2 : Rat) ^ (Int.log 2 |q| + 1) := by
    rw [abs_of_pos h]
    exact Int.lt_zpow_succ_log_self (by decide) q
  have hexponent : (2 : Rat) ^ (Int.log 2 |q| + 1) ≤ 2 ^ (F.exponent q + 1) :=
    zpow_le_zpow_right₀ (by decide) (by rw [exponent]; omega)
  have hscaled : q / F.spacing (F.exponent q) ≤ ((2 ^ F.precision : Int) : Rat) := by
    rw [div_le_iff₀ (F.spacing_pos _), pow_mul_spacing]
    exact (hlog.trans_le hexponent).le
  have hnearest : nearestEven (q / F.spacing (F.exponent q)) ≤ 2 ^ F.precision := by
    have hmono := nearestEven_mono hscaled
    rwa [nearestEven_intCast] at hmono
  rw [← F.pow_mul_spacing, round]
  exact mul_le_mul_of_nonneg_right (Int.cast_le.2 hnearest) (F.spacing_pos _).le

/-- A number is rounded to no less than the power of two under it. -/
theorem pow_le_round {q : Rat} (h : 0 < q) (hexponent : F.exponent q = Int.log 2 |q|) :
    2 ^ F.exponent q ≤ F.round q := by
  have hlog : (2 : Rat) ^ F.exponent q ≤ q := by
    rw [hexponent, abs_of_pos h]
    exact Int.zpow_log_le_self (by decide) h
  have hscaled : ((2 ^ (F.precision - 1) : Int) : Rat) ≤ q / F.spacing (F.exponent q) := by
    rw [le_div_iff₀ (F.spacing_pos _), pow_pred_mul_spacing]
    exact hlog
  have hnearest : 2 ^ (F.precision - 1) ≤ nearestEven (q / F.spacing (F.exponent q)) := by
    have hmono := nearestEven_mono hscaled
    rwa [nearestEven_intCast] at hmono
  rw [← F.pow_pred_mul_spacing, round]
  exact mul_le_mul_of_nonneg_right (Int.cast_le.2 hnearest) (F.spacing_pos _).le

theorem round_mono_pos {x y : Rat} (hx : 0 < x) (h : x ≤ y) : F.round x ≤ F.round y := by
  have hlog : Int.log 2 |x| ≤ Int.log 2 |y| := by
    rw [abs_of_pos hx, abs_of_pos (hx.trans_le h)]
    exact Int.log_mono_right hx h
  by_cases heq : F.exponent x = F.exponent y
  · rw [round, round, heq]
    refine mul_le_mul_of_nonneg_right (Int.cast_le.2 (nearestEven_mono ?_)) (F.spacing_pos _).le
    exact div_le_div_of_nonneg_right h (F.spacing_pos _).le
  · -- Between the two there is the power of two that begins the exponent of `y`.
    have hlt : F.exponent x + 1 ≤ F.exponent y := by
      unfold exponent at *
      omega
    have hexponent : F.exponent y = Int.log 2 |y| := by
      unfold exponent at *
      omega
    calc F.round x ≤ 2 ^ (F.exponent x + 1) := F.round_le_pow hx
      _ ≤ 2 ^ F.exponent y := zpow_le_zpow_right₀ (by decide) hlt
      _ ≤ F.round y := F.pow_le_round (hx.trans_le h) hexponent

/-- Rounding keeps the order. -/
theorem round_mono {x y : Rat} (h : x ≤ y) : F.round x ≤ F.round y := by
  rcases lt_or_ge 0 x with hx | hx
  · exact F.round_mono_pos hx h
  · rcases lt_or_ge y 0 with hy | hy
    · have hneg := F.round_mono_pos (neg_pos.2 hy) (neg_le_neg h)
      rwa [round_neg, round_neg, neg_le_neg_iff] at hneg
    · have hround : F.round x ≤ 0 := by
        rw [← neg_nonneg, ← round_neg]
        exact F.round_nonneg (neg_nonneg.2 hx)
      exact hround.trans (F.round_nonneg hy)

/-! ## Numbers of the format -/

/-- A multiple of the spacing at its own exponent is a number of the format. -/
theorem round_eq_of_mul {q : Rat} {n : Int} (h : q = n * F.spacing (F.exponent q)) : F.round q = q := by
  have hscaled : q / F.spacing (F.exponent q) = n := by
    rw [div_eq_iff (F.spacing_pos _).ne']
    exact h
  rw [round, hscaled, nearestEven_intCast]
  exact h.symm

theorem round_round_pos {q : Rat} (h : 0 < q) : F.round (F.round q) = F.round q := by
  rcases (F.round_nonneg h.le).eq_or_lt with hzero | hpos
  · rw [← hzero, round_zero]
  have habs : |F.round q| = F.round q := abs_of_pos hpos
  have hlower : F.exponent q ≤ F.exponent (F.round q) := by
    by_cases hexponent : F.exponent q = Int.log 2 |q|
    · have hlog : F.exponent q ≤ Int.log 2 |F.round q| := by
        rw [habs, ← Int.zpow_le_iff_le_log (by decide) hpos]
        exact F.pow_le_round h hexponent
      exact hlog.trans (le_max_left ..)
    · unfold exponent at *
      omega
  have hupper : Int.log 2 |F.round q| ≤ F.exponent q + 1 := by
    rw [habs, ← Int.log_zpow (R := Rat) (b := 2) (by decide) (F.exponent q + 1)]
    exact Int.log_mono_right hpos (F.round_le_pow h)
  by_cases heq : F.exponent (F.round q) = F.exponent q
  · exact F.round_eq_of_mul (n := nearestEven (q / F.spacing (F.exponent q))) (by rw [heq, round])
  · -- Rounding up has reached the next power of two.
    have hnext : F.exponent (F.round q) = F.exponent q + 1 ∧ Int.log 2 |F.round q| = F.exponent q + 1 := by
      unfold exponent at *
      omega
    have hpow : F.round q = 2 ^ (F.exponent q + 1) := by
      refine le_antisymm (F.round_le_pow h) ?_
      have hlog := Int.zpow_log_le_self (b := 2) (by decide) hpos
      rw [← habs, hnext.2, habs] at hlog
      exact hlog
    refine F.round_eq_of_mul (n := 2 ^ (F.precision - 1)) ?_
    rw [pow_pred_mul_spacing, hnext.1]
    exact hpow

/-- What is rounded is a number of the format. -/
theorem round_round (q : Rat) : F.round (F.round q) = F.round q := by
  rcases lt_trichotomy q 0 with hneg | rfl | hpos
  · have hround := F.round_round_pos (neg_pos.2 hneg)
    rwa [round_neg, round_neg, neg_inj] at hround
  · rw [round_zero, round_zero]
  · exact F.round_round_pos hpos

variable {F}

/-- A bound that is a number of the format. -/
theorem le_round {bound q : Rat} (hbound : F.round bound = bound) (h : bound ≤ q) : bound ≤ F.round q :=
  hbound ▸ F.round_mono h

theorem round_le {bound q : Rat} (hbound : F.round bound = bound) (h : q ≤ bound) : F.round q ≤ bound :=
  hbound ▸ F.round_mono h

end BinaryFormat

/-- The format of the language's floats. -/
def binary64 : BinaryFormat := ⟨53, by decide, -1022⟩

end Ochestrate
