import Fabric.Binary64.Arith
import Fabric.Proofs.Rounding
import Mathlib.Algebra.Order.Field.Rat
import Mathlib.Tactic.FieldSimp
import Mathlib.Tactic.Linarith
import Mathlib.Tactic.NormNum
import Mathlib.Tactic.Positivity

/-!
# The precision of rounding

A magnitude has a rational value (`Magnitude.value`). A rounded quotient is a significand of 53 bits
at some scale (`nearestUnits_shape`), so it is off by at most half of its last place
(`nearestUnits_error`), which for numbers from one on is at most one part in `2 ^ 53`. `Rounds` says
so in the form in which rounded operations are chained: from a bound of at least one on the exact
number or on the rounded one follows a bound on the other that is greater by the factor `slack`.
Nothing is said of how small a number below such a bound is, so gradual underflow needs no case of
its own. Whole numbers of up to 53 bits are not rounded at all (`nearest_whole`).
-/

namespace Fabric.Binary64

/-! ## The error of rounding to a whole number -/

theorem roundHalfEven_error (n : Nat) {d : Nat} (hd : 0 < d) :
    2 * (roundHalfEven n d * d) ≤ 2 * n + d ∧ 2 * n ≤ 2 * (roundHalfEven n d * d) + d := by
  have hsplit := Nat.div_add_mod n d
  have hmod := Nat.mod_lt n hd
  unfold roundHalfEven
  simp only
  split
  · rw [Nat.mul_comm (n / d)]
    omega
  · rw [Nat.add_mul, Nat.one_mul, Nat.mul_comm (n / d)]
    omega

namespace Magnitude

/-! ## The shape of a rounded quotient -/

theorem lt_infinityOrdinal {k : Nat} (h : (ofOrdinal k).isInfinite = false) :
    k < infinityOrdinal := by
  have hmin : min k infinityOrdinal ≠ infinityOrdinal := beq_eq_false_iff_ne.1 h
  by_contra hnot
  exact hmin (Nat.min_eq_right (not_lt.1 hnot))

/-- A scale and a significand of up to 53 bits give the ordinal of their product, also where the
significand has just grown to the next power of two. -/
theorem units_ofOrdinal {scale q : Nat} (hq : q ≤ 2 * binadeSize)
    (hscale : scale = 0 ∨ binadeSize ≤ q) (hfin : scale * binadeSize + q < infinityOrdinal) :
    (ofOrdinal (scale * binadeSize + q)).units = q * 2 ^ scale := by
  have hpos : 0 < binadeSize := Nat.two_pow_pos 52
  have hordinal : (ofOrdinal (scale * binadeSize + q)).ordinal = scale * binadeSize + q :=
    Nat.min_eq_left hfin.le
  unfold units
  simp only [hordinal]
  generalize binadeSize = size at hpos hq hscale ⊢
  rw [Nat.mul_comm scale, Nat.mul_add_div hpos, Nat.mul_add_mod]
  rcases Nat.lt_or_ge q size with hlow | hhigh
  · obtain rfl : scale = 0 := hscale.resolve_right (not_le.2 hlow)
    rw [Nat.div_eq_of_lt hlow, Nat.mod_eq_of_lt hlow, if_pos rfl, Nat.pow_zero, Nat.mul_one]
  rcases Nat.lt_or_eq_of_le hq with hlow | rfl
  · have hdiv : q / size = 1 := Nat.div_eq_of_lt_le (by omega) (by omega)
    have hmod : q % size = q - size := by
      rw [Nat.mod_eq_sub_mod hhigh, Nat.mod_eq_of_lt (by omega)]
    rw [hdiv, hmod, if_neg (by omega), Nat.add_sub_cancel, Nat.add_sub_cancel' hhigh, Nat.pow_eq]
  · rw [Nat.mul_div_cancel _ hpos, Nat.mul_mod_left, if_neg (by omega), Nat.add_zero,
      show scale + 2 - 1 = scale + 1 from rfl, Nat.pow_eq, Nat.pow_succ]
    ring

theorem roundHalfEven_le {n d : Nat} (hd : 0 < d) :
    roundHalfEven n (d * 2 ^ excessBits (n / d)) ≤ 2 * binadeSize := by
  generalize hscale : excessBits (n / d) = scale
  have hscaled : 0 < d * 2 ^ scale := Nat.mul_pos hd (Nat.two_pow_pos scale)
  have hlt : n < 2 * binadeSize * (d * 2 ^ scale) := by
    have hlog : n / d < 2 ^ (53 + scale) := by
      apply lt_of_lt_of_le Nat.lt_log2_self (Nat.pow_le_pow_right (by decide) _)
      unfold excessBits at hscale
      omega
    rw [Nat.div_lt_iff_lt_mul hd, Nat.pow_add] at hlog
    calc n < 2 ^ 53 * 2 ^ scale * d := hlog
      _ = 2 * 2 ^ 52 * (d * 2 ^ scale) := by ring
  have herror := (roundHalfEven_error n hscaled).1
  generalize roundHalfEven n (d * 2 ^ scale) = q at herror ⊢
  generalize d * 2 ^ scale = unit at hscaled hlt herror
  by_contra hnot
  have hmul : (2 * binadeSize + 1) * unit ≤ q * unit := Nat.mul_le_mul_right _ (not_le.1 hnot)
  rw [Nat.succ_mul] at hmul
  omega

/-- A quotient is cut to 53 bits at some scale and rounded there. Unless nothing is cut off, it has
all of these bits. -/
theorem nearestUnits_shape (n : Nat) {d : Nat} (hd : 0 < d) : ∃ scale q,
    nearestUnits n d = ofOrdinal (scale * binadeSize + q) ∧ q = roundHalfEven n (d * 2 ^ scale) ∧
      q ≤ 2 * binadeSize ∧ (scale = 0 ∨ binadeSize ≤ q ∧ binadeSize * 2 ^ scale * d ≤ n) := by
  refine ⟨excessBits (n / d), _, rfl, rfl, roundHalfEven_le hd, ?_⟩
  rcases Nat.eq_zero_or_pos (excessBits (n / d)) with hzero | hpos
  · exact .inl hzero
  · exact .inr ⟨binadeSize_le_roundHalfEven hpos,
      (Nat.le_div_iff_mul_le hd).1 (binadeSize_mul_le hpos)⟩

/-- Rounding errs by at most half of some power of two, which is one unit or lies 53 bits below
both the exact number and the rounded one. -/
theorem nearestUnits_error {n d : Nat} (hd : 0 < d)
    (hfin : (nearestUnits n d).isInfinite = false) : ∃ scale,
      2 * ((nearestUnits n d).units * d) ≤ 2 * n + d * 2 ^ scale ∧
      2 * n ≤ 2 * ((nearestUnits n d).units * d) + d * 2 ^ scale ∧
      (scale = 0 ∨ binadeSize * 2 ^ scale ≤ (nearestUnits n d).units ∧
        binadeSize * 2 ^ scale * d ≤ n) := by
  obtain ⟨scale, q, hshape, hq, hle, hlarge⟩ := nearestUnits_shape n hd
  rw [hshape] at hfin ⊢
  rw [units_ofOrdinal hle (hlarge.imp id And.left) (lt_infinityOrdinal hfin)]
  have herror := roundHalfEven_error n (Nat.mul_pos hd (Nat.two_pow_pos scale))
  rw [← hq] at herror
  have hswap : q * 2 ^ scale * d = q * (d * 2 ^ scale) := by ring
  rw [hswap]
  refine ⟨scale, herror.1, herror.2, hlarge.imp id fun h => ⟨?_, h.2⟩⟩
  exact Nat.mul_le_mul_right _ h.1

/-- Only numbers beyond a large power of two are rounded to infinity. -/
theorem exists_scale_of_infinite {n d : Nat} (hd : 0 < d)
    (hinf : (nearestUnits n d).isInfinite = true) :
    ∃ scale, 2045 ≤ scale ∧ binadeSize * 2 ^ scale * d ≤ n := by
  obtain ⟨scale, q, hshape, -, hle, hlarge⟩ := nearestUnits_shape n hd
  have hordinal : infinityOrdinal ≤ scale * binadeSize + q := by
    rw [hshape] at hinf
    have hmin : min (scale * binadeSize + q) infinityOrdinal = infinityOrdinal :=
      beq_iff_eq.1 hinf
    exact hmin ▸ Nat.min_le_left _ _
  have hscale : 2045 ≤ scale := by
    by_contra hnot
    have hmul : scale * binadeSize ≤ 2044 * binadeSize :=
      Nat.mul_le_mul_right _ (Nat.le_of_lt_succ (not_le.1 hnot))
    have hpos : 0 < binadeSize := Nat.two_pow_pos 52
    unfold infinityOrdinal at hordinal
    omega
  exact ⟨scale, hscale, (hlarge.resolve_left (by omega)).2⟩

/-- A number of at least one unit is not rounded to zero. -/
theorem units_pos_of_le {n d : Nat} (hd : 0 < d) (hle : d ≤ n)
    (hfin : (nearestUnits n d).isInfinite = false) : 0 < (nearestUnits n d).units := by
  obtain ⟨scale, -, hhigh, rfl | ⟨hlarge, -⟩⟩ := nearestUnits_error hd hfin
  · rcases Nat.eq_zero_or_pos (nearestUnits n d).units with hzero | hpos
    · rw [hzero] at hhigh
      omega
    · exact hpos
  · exact Nat.lt_of_lt_of_le (Nat.mul_pos (Nat.two_pow_pos 52) (Nat.two_pow_pos scale)) hlarge

/-! ## Values -/

/-- The number that a finite magnitude stands for. -/
def value (m : Magnitude) : ℚ := m.units / unitsPerOne

theorem exists_unitsPerOne_part : ∃ part, 0 < part ∧ unitsPerOne = 2 ^ 53 * part := by
  obtain ⟨k, hk, hunits⟩ := exists_unitsPerOne
  obtain ⟨j, hj⟩ : ∃ j, k = 53 + j := ⟨k - 53, by omega⟩
  refine ⟨2 ^ j, Nat.two_pow_pos j, ?_⟩
  rw [hunits, hj, Nat.pow_add]

theorem unitsPerOne_pos : 0 < unitsPerOne := by
  obtain ⟨part, hpart, hunits⟩ := exists_unitsPerOne_part
  omega

theorem binadeSize_le_unitsPerOne : binadeSize ≤ unitsPerOne := by
  obtain ⟨part, hpart, hunits⟩ := exists_unitsPerOne_part
  have hsize : binadeSize = 2 ^ 52 := rfl
  omega

theorem value_nonneg (m : Magnitude) : 0 ≤ m.value := by
  unfold value
  positivity

theorem value_pos {m : Magnitude} (h : 0 < m.units) : 0 < m.value := by
  have hone : (0 : ℚ) < unitsPerOne := Nat.cast_pos.2 unitsPerOne_pos
  have hunits : (0 : ℚ) < m.units := Nat.cast_pos.2 h
  exact div_pos hunits hone

theorem value_le_iff {m : Magnitude} {y : ℚ} : m.value ≤ y ↔ (m.units : ℚ) ≤ y * unitsPerOne :=
  div_le_iff₀ (Nat.cast_pos.2 unitsPerOne_pos)

/-- A magnitude is no greater than a whole number exactly if that is not below its ceiling. -/
theorem ceil_le_iff {m : Magnitude} {n : Nat} : m.ceil ≤ n ↔ m.value ≤ n := by
  have hpos := unitsPerOne_pos
  have hceil : m.ceil ≤ n ↔ m.units ≤ n * unitsPerOne := by
    unfold ceil
    rw [← Nat.lt_succ_iff, Nat.div_lt_iff_lt_mul hpos, Nat.succ_mul]
    omega
  rw [hceil, value_le_iff]
  exact_mod_cast Iff.rfl

/-! ## Relative error -/

/-- A number below a power of two within the range is not rounded to infinity. -/
theorem isInfinite_nearestUnits {n d k : Nat} (hd : 0 < d) (hk : k ≤ 1023)
    (h : (n : ℚ) / (d * unitsPerOne) < 2 ^ k) : (nearestUnits n d).isInfinite = false := by
  by_contra hinf
  obtain ⟨scale, hscale, hn⟩ := exists_scale_of_infinite hd (Bool.not_eq_false _ ▸ hinf)
  obtain ⟨j, hj, hunits⟩ := exists_unitsPerOne
  have hd' : (0 : ℚ) < d := Nat.cast_pos.2 hd
  have hone : (0 : ℚ) < unitsPerOne := Nat.cast_pos.2 unitsPerOne_pos
  rw [div_lt_iff₀ (mul_pos hd' hone)] at h
  have hlt : n < 2 ^ k * (d * unitsPerOne) := by exact_mod_cast h
  have hpow : 2 ^ k * unitsPerOne ≤ binadeSize * 2 ^ scale := by
    have hsize : binadeSize = 2 ^ 52 := rfl
    rw [hunits, hsize, ← Nat.pow_add, ← Nat.pow_add]
    exact Nat.pow_le_pow_right (by decide) (by omega)
  have hmul := Nat.mul_le_mul_right d hpow
  rw [Nat.mul_assoc, Nat.mul_comm unitsPerOne d] at hmul
  omega

/-- The factor by which one rounding may miss. -/
def slack : ℚ := 1 + 1 / 2 ^ 53

theorem one_le_slack : 1 ≤ slack := by
  unfold slack
  norm_num

theorem slack_le_two : slack ≤ 2 := by
  unfold slack
  norm_num

/-- A magnitude is what a number is rounded to, as far as bounds from one on can tell: a bound on
one of the two bounds the other up to one factor of `slack`. -/
structure Rounds (m : Magnitude) (x : ℚ) : Prop where
  exact_le : ∀ {y : ℚ}, 1 ≤ y → m.value ≤ y → x ≤ y * slack
  value_le : ∀ {y : ℚ}, 1 ≤ y → x ≤ y → m.value ≤ y * slack

theorem rounds_nearestUnits {n d : Nat} (hd : 0 < d)
    (hfin : (nearestUnits n d).isInfinite = false) :
    (nearestUnits n d).Rounds (n / (d * unitsPerOne)) := by
  obtain ⟨scale, hlow, hhigh, hscale⟩ := nearestUnits_error hd hfin
  have hd' : (0 : ℚ) < d := Nat.cast_pos.2 hd
  have hone : (0 : ℚ) < unitsPerOne := Nat.cast_pos.2 unitsPerOne_pos
  have hsize : (2 : ℚ) ^ 52 ≤ unitsPerOne := by exact_mod_cast binadeSize_le_unitsPerOne
  -- Half of the last place is at most one part in two to the 53 of a bound on either number.
  have habsorbed : ∀ {y : ℚ}, 1 ≤ y → ((nearestUnits n d).units : ℚ) ≤ y * unitsPerOne ∨
      (n : ℚ) ≤ y * unitsPerOne * d → 2 ^ 52 * 2 ^ scale ≤ y * unitsPerOne := by
    intro y hy hbound
    rcases hscale with rfl | ⟨hunits, hn⟩
    · rw [pow_zero, mul_one]
      exact hsize.trans (le_mul_of_one_le_left hone.le hy)
    · have hunits' : (2 : ℚ) ^ 52 * 2 ^ scale ≤ (nearestUnits n d).units := by exact_mod_cast hunits
      have hn' : (2 : ℚ) ^ 52 * 2 ^ scale * d ≤ n := by exact_mod_cast hn
      rcases hbound with hbound | hbound
      · exact hunits'.trans hbound
      · exact le_of_mul_le_mul_right (hn'.trans hbound) hd'
  have hlow' : 2 * ((nearestUnits n d).units * d : ℚ) ≤ 2 * n + d * 2 ^ scale := by
    exact_mod_cast hlow
  have hhigh' : 2 * (n : ℚ) ≤ 2 * ((nearestUnits n d).units * d) + d * 2 ^ scale := by
    exact_mod_cast hhigh
  constructor
  · intro y hy hle
    rw [value_le_iff] at hle
    have hlast := mul_le_mul_of_nonneg_left (habsorbed hy (.inl hle)) hd'.le
    have hmul := mul_le_mul_of_nonneg_right hle hd'.le
    rw [div_le_iff₀ (mul_pos hd' hone)]
    unfold slack
    linarith
  · intro y hy hle
    rw [div_le_iff₀ (mul_pos hd' hone)] at hle
    have hlast := mul_le_mul_of_nonneg_left (habsorbed hy (.inr (by linarith))) hd'.le
    rw [value_le_iff]
    refine le_of_mul_le_mul_right ?_ hd'
    unfold slack
    linarith

/-! ## Operations -/

section Operations

variable {a b : Magnitude}

theorem units_pos (h : a.isZero = false) : 0 < a.units := by
  apply Nat.pos_of_ne_zero
  apply units_ne_zero
  rintro rfl
  cases h

theorem rounds_nearest {n d : Nat} (hd : 0 < d) (hfin : (nearest n d).isInfinite = false) :
    (nearest n d).Rounds (n / d) := by
  have hone : (unitsPerOne : ℚ) ≠ 0 := Nat.cast_ne_zero.2 (Nat.pos_iff_ne_zero.1 unitsPerOne_pos)
  have hrounds := rounds_nearestUnits hd hfin
  rw [Nat.cast_mul, mul_div_mul_right _ _ hone] at hrounds
  exact hrounds

/-- A number of at most 53 bits, none of them worth more than one, is rounded to itself. -/
theorem nearestUnits_exact {n t : Nat} (hn : n < 2 ^ 53) (ht : t ≤ 1074) :
    (nearestUnits (n * 2 ^ t) 1).isInfinite = false ∧
      (nearestUnits (n * 2 ^ t) 1).units = n * 2 ^ t := by
  obtain ⟨scale, q, hshape, hq, hle, hlarge⟩ := nearestUnits_shape (n * 2 ^ t) Nat.one_pos
  rw [Nat.one_mul] at hq
  -- What is cut off divides the place of the last bit, so nothing is lost.
  have hscale : scale ≤ t := by
    rcases hlarge with rfl | ⟨-, hlarge⟩
    · exact Nat.zero_le t
    · rw [Nat.mul_one] at hlarge
      have hlt : 2 ^ 52 * 2 ^ scale < 2 ^ 52 * 2 ^ (t + 1) := by
        calc 2 ^ 52 * 2 ^ scale ≤ n * 2 ^ t := hlarge
          _ < 2 ^ 53 * 2 ^ t := Nat.mul_lt_mul_of_pos_right hn (Nat.two_pow_pos t)
          _ = 2 ^ 52 * 2 ^ (t + 1) := by ring
      have hpow := (Nat.pow_lt_pow_iff_right (by decide)).1 (Nat.lt_of_mul_lt_mul_left hlt)
      omega
  have hexact : q * 2 ^ scale = n * 2 ^ t := by
    have hsplit : n * 2 ^ t = n * 2 ^ (t - scale) * 2 ^ scale := by
      rw [Nat.mul_assoc, ← Nat.pow_add, Nat.sub_add_cancel hscale]
    have hround := roundHalfEven_scale (n * 2 ^ (t - scale)) 1 (Nat.two_pow_pos scale)
    rw [Nat.one_mul, roundHalfEven_one, ← hsplit, ← hq] at hround
    rw [hround, ← hsplit]
  have hordinal : scale * binadeSize + q < infinityOrdinal := by
    have hmul : scale * binadeSize ≤ 1074 * binadeSize := Nat.mul_le_mul_right _ (by omega)
    have hpos : 0 < binadeSize := Nat.two_pow_pos 52
    unfold infinityOrdinal
    omega
  rw [hshape]
  constructor
  · have hmin : min (scale * binadeSize + q) infinityOrdinal = scale * binadeSize + q :=
      Nat.min_eq_left hordinal.le
    exact beq_eq_false_iff_ne.2 fun hinf => hordinal.ne (hmin.symm.trans hinf)
  · rw [units_ofOrdinal hle (hlarge.imp id And.left) hordinal, hexact]

/-- A whole number of at most 53 bits is rounded to itself. -/
theorem nearest_whole {n : Nat} (hn : n < 2 ^ 53) :
    (nearest n 1).isInfinite = false ∧ (nearest n 1).value = n := by
  obtain ⟨k, hk, hunits⟩ := exists_unitsPerOne
  obtain ⟨hfin, hexact⟩ := nearestUnits_exact hn hk.le
  have hnearest : nearest n 1 = nearestUnits (n * 2 ^ k) 1 := by
    unfold nearest
    rw [hunits]
  refine ⟨hnearest ▸ hfin, ?_⟩
  rw [hnearest, value, hexact, ← hunits, Nat.cast_mul]
  exact mul_div_cancel_right₀ _ (Nat.cast_ne_zero.2 (Nat.pos_iff_ne_zero.1 unitsPerOne_pos))

/-- A whole number is rounded with no more than the relative error, however small it is. -/
theorem nearest_whole_error {n : Nat} (hfin : (nearest n 1).isInfinite = false) :
    (n : ℚ) ≤ (nearest n 1).value * slack ∧ (nearest n 1).value ≤ n * slack := by
  have hslack := one_le_slack
  have hn : (0 : ℚ) ≤ n := Nat.cast_nonneg n
  rcases Nat.lt_or_ge n (2 ^ 53) with hsmall | hlarge
  · rw [(nearest_whole hsmall).2]
    exact ⟨le_mul_of_one_le_right hn hslack, le_mul_of_one_le_right hn hslack⟩
  have hrounds := rounds_nearest Nat.one_pos hfin
  rw [Nat.cast_one, div_one] at hrounds
  have hlarge' : (2 : ℚ) ^ 53 ≤ n := by exact_mod_cast hlarge
  refine ⟨hrounds.exact_le ?_ le_rfl, hrounds.value_le (by linarith) le_rfl⟩
  by_contra hnot
  have hbound := hrounds.exact_le le_rfl (not_le.1 hnot).le
  unfold slack at hbound
  linarith

theorem isInfinite_of_add (h : (a.add b).isInfinite = false) :
    a.isInfinite = false ∧ b.isInfinite = false := by
  rw [← Bool.or_eq_false_iff]
  by_contra hinf
  rw [add, if_pos (Bool.not_eq_false _ ▸ hinf)] at h
  cases h

theorem add_eq (ha : a.isInfinite = false) (hb : b.isInfinite = false) :
    a.add b = nearestUnits (a.units + b.units) 1 := by
  unfold add
  rw [ha, hb]
  rfl

theorem isInfinite_add {k : Nat} (ha : a.isInfinite = false) (hb : b.isInfinite = false)
    (hk : k ≤ 1023) (h : a.value + b.value < 2 ^ k) : (a.add b).isInfinite = false := by
  rw [add_eq ha hb]
  apply isInfinite_nearestUnits Nat.one_pos hk
  rw [Nat.cast_one, one_mul, Nat.cast_add, add_div]
  exact h

theorem rounds_add (hfin : (a.add b).isInfinite = false) :
    (a.add b).Rounds (a.value + b.value) := by
  obtain ⟨ha, hb⟩ := isInfinite_of_add hfin
  rw [add_eq ha hb] at hfin ⊢
  have hrounds := rounds_nearestUnits Nat.one_pos hfin
  rw [Nat.cast_one, one_mul, Nat.cast_add, add_div] at hrounds
  exact hrounds

theorem isInfinite_of_mul (h : (a.mul b).isInfinite = false) :
    a.isInfinite = false ∧ b.isInfinite = false := by
  rw [← Bool.or_eq_false_iff]
  by_contra hinf
  rw [mul, if_pos (Bool.not_eq_false _ ▸ hinf)] at h
  cases h

theorem mul_eq (ha : a.isInfinite = false) (hb : b.isInfinite = false) :
    a.mul b = nearestUnits (a.units * b.units) unitsPerOne := by
  unfold mul
  rw [ha, hb]
  rfl

theorem isInfinite_mul {k : Nat} (ha : a.isInfinite = false) (hb : b.isInfinite = false)
    (hk : k ≤ 1023) (h : a.value * b.value < 2 ^ k) : (a.mul b).isInfinite = false := by
  rw [mul_eq ha hb]
  apply isInfinite_nearestUnits unitsPerOne_pos hk
  rw [Nat.cast_mul, ← div_mul_div_comm]
  exact h

theorem rounds_mul (hfin : (a.mul b).isInfinite = false) :
    (a.mul b).Rounds (a.value * b.value) := by
  obtain ⟨ha, hb⟩ := isInfinite_of_mul hfin
  rw [mul_eq ha hb] at hfin ⊢
  have hrounds := rounds_nearestUnits unitsPerOne_pos hfin
  rw [Nat.cast_mul, ← div_mul_div_comm] at hrounds
  exact hrounds

/-- The product with a number of at least one does not vanish. -/
theorem units_mul_pos (ha : 1 ≤ a.value) (hb : 0 < b.units)
    (hfin : (a.mul b).isInfinite = false) : 0 < (a.mul b).units := by
  obtain ⟨ha', hb'⟩ := isInfinite_of_mul hfin
  rw [mul_eq ha' hb'] at hfin ⊢
  refine units_pos_of_le unitsPerOne_pos ?_ hfin
  have hone : unitsPerOne ≤ a.units := by
    have hunits := (le_div_iff₀ (Nat.cast_pos.2 unitsPerOne_pos)).1 ha
    rw [one_mul] at hunits
    exact_mod_cast hunits
  exact Nat.le_trans hone (Nat.le_mul_of_pos_right _ hb)

theorem rounds_div (ha : a.isInfinite = false) (hb : b.isInfinite = false)
    (hzero : b.isZero = false) (hfin : (a.div b).isInfinite = false) :
    (a.div b).Rounds (a.value / b.value) := by
  have hdiv : a.div b = nearest a.units b.units := by
    unfold div
    rw [ha, hb, hzero]
    rfl
  rw [hdiv] at hfin ⊢
  have hone : (unitsPerOne : ℚ) ≠ 0 := Nat.cast_ne_zero.2 (Nat.pos_iff_ne_zero.1 unitsPerOne_pos)
  have hvalue : a.value / b.value = a.units / b.units := div_div_div_cancel_right₀ hone _ _
  rw [hvalue]
  exact rounds_nearest (units_pos hzero) hfin

theorem isInfinite_of_sqrt (h : a.sqrt.isInfinite = false) : a.isInfinite = false := by
  by_contra hinf
  rw [sqrt, if_pos (Bool.not_eq_false _ ▸ hinf)] at h
  cases h

/-- A root counted in half units and cut, with a quarter unit for a rest, is bounded by a whole
number of half units only if the root itself is. -/
theorem le_sq_of_sqrt_le {square bound : Nat}
    (h : 2 * Nat.sqrt square + (if Nat.sqrt square * Nat.sqrt square = square then 0 else 1) ≤
      2 * bound) : square ≤ bound ^ 2 := by
  rw [Nat.pow_two]
  split at h
  · rename_i hexact
    calc square = Nat.sqrt square * Nat.sqrt square := hexact.symm
      _ ≤ bound * bound := Nat.mul_le_mul (by omega) (by omega)
  · calc square ≤ (Nat.sqrt square + 1) * (Nat.sqrt square + 1) := (Nat.lt_succ_sqrt square).le
      _ ≤ bound * bound := Nat.mul_le_mul (by omega) (by omega)

/-- A rounded root that does not exceed a whole number bounds what the root is taken of. -/
theorem value_le_of_sqrt_le {n : Nat} (hn : 1 ≤ n) (hfin : a.sqrt.isInfinite = false)
    (hle : a.sqrt.value ≤ n) : a.value ≤ (n * slack) ^ 2 := by
  have ha := isInfinite_of_sqrt hfin
  have hroot : a.sqrt = nearestUnits (2 * Nat.sqrt (4 * (a.units * unitsPerOne)) +
      if Nat.sqrt (4 * (a.units * unitsPerOne)) * Nat.sqrt (4 * (a.units * unitsPerOne)) =
        4 * (a.units * unitsPerOne) then 0 else 1) 4 := by
    unfold sqrt
    rw [if_neg (by rw [ha]; decide)]
  rw [hroot] at hfin hle
  have hbelow := (rounds_nearestUnits (by decide) hfin).exact_le (by exact_mod_cast hn) hle
  obtain ⟨part, hpart, hunits⟩ := exists_unitsPerOne_part
  have hone : (0 : ℚ) < unitsPerOne := Nat.cast_pos.2 unitsPerOne_pos
  have hslack : slack * unitsPerOne = (unitsPerOne + part : ℕ) := by
    unfold slack
    rw [hunits]
    push_cast
    ring
  have hsquare : 4 * (a.units * unitsPerOne) ≤ (2 * n * (unitsPerOne + part)) ^ 2 := by
    apply le_sq_of_sqrt_le
    rw [div_le_iff₀ (mul_pos (by norm_num) hone), mul_assoc, mul_left_comm slack, hslack] at hbelow
    have hnat : (n : ℚ) * ((4 : ℕ) * (unitsPerOne + part : ℕ)) =
        (2 * (2 * n * (unitsPerOne + part)) : ℕ) := by
      push_cast
      ring
    rw [hnat] at hbelow
    exact_mod_cast hbelow
  have hsquare' : (4 * (a.units * unitsPerOne) : ℚ) ≤ (2 * n * (slack * unitsPerOne)) ^ 2 := by
    rw [hslack]
    exact_mod_cast hsquare
  rw [value_le_iff]
  refine le_of_mul_le_mul_right ?_ (mul_pos (show (0 : ℚ) < 4 by norm_num) hone)
  linarith

end Operations

end Magnitude

/-! ## Positive values -/

section PositiveValues

variable {a b : Magnitude} {x : Binary64}

theorem ofInt_ok {n : Nat} (h : ofInt n = .ok x) :
    x = .signed false (.nearest n 1) ∧ (Magnitude.nearest n 1).isInfinite = false := by
  have hnearest : nearestInt n = .signed false (.nearest n 1) := by
    unfold nearestInt
    rw [decide_eq_false (not_lt.2 (Int.natCast_nonneg n)), Int.natAbs_natCast]
  unfold ofInt at h
  rw [hnearest] at h
  split at h
  · rename_i hfinite
    unfold isFinite at hfinite
    rw [Bool.not_eq_true'] at hfinite
    exact ⟨(Except.ok.inj h).symm, hfinite⟩
  · cases h

theorem quotientOfInts_ok {n d : Nat} (hd : 0 < d) (h : quotientOfInts n d = .ok x) :
    x = .signed false (.nearest n d) := by
  have hsign : ∀ k : Nat, decide ((k : Int) < 0) = false := by
    intro k
    exact decide_eq_false (not_lt.2 (Int.natCast_nonneg k))
  unfold quotientOfInts at h
  rw [if_neg (by omega), hsign, hsign, Int.natAbs_natCast, Int.natAbs_natCast] at h
  simp only at h
  split at h
  · exact (Except.ok.inj h).symm
  · cases h

theorem isZero_of_quotient (h : (signed false a).quotient (signed false b) = .ok x) :
    b.isZero = false := by
  by_contra hzero
  have hordinal : b.ordinal = 0 := beq_iff_eq.1 (Bool.not_eq_false _ ▸ hzero)
  have hsame : (signed false b).same zero = true := by
    unfold same place? zero
    simp [hordinal, Magnitude.zero]
  unfold quotient at h
  rw [if_pos hsame] at h
  cases h

theorem quotient_ok (ha : a.isInfinite = false) (hb : b.isInfinite = false)
    (h : (signed false a).quotient (signed false b) = .ok x) : b.isZero = false ∧
      ∃ q : Magnitude, x = .signed false q ∧ (q.isInfinite = false →
        q.Rounds (a.value / b.value)) := by
  have hzero := isZero_of_quotient h
  unfold quotient at h
  split at h
  · cases h
  · refine ⟨hzero, a.div b, ?_, Magnitude.rounds_div ha hb hzero⟩
    rw [← Except.ok.inj h, div, ha, hb, hzero, Bool.and_false, Bool.and_false]
    rfl

theorem mul_signed (ha : a.isInfinite = false) (hb : b.isInfinite = false) :
    (signed false a).mul (signed false b) = .signed false (a.mul b) := by
  rw [mul, ha, hb, Bool.and_false, Bool.false_and]
  rfl

theorem ceil_ok {m : Magnitude} {c : Int} (h : (signed false m).ceil = .ok c) :
    m.isInfinite = false ∧ c = m.ceil := by
  unfold ceil at h
  simp only at h
  split at h
  · cases h
  · rename_i hinf
    exact ⟨Bool.not_eq_true _ ▸ hinf, (Except.ok.inj h).symm⟩

end PositiveValues

end Fabric.Binary64
