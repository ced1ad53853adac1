import Fabric.Proofs.Precision

/-!
# The order of rounded numbers

Rounding keeps the order of quotients (`nearestUnits_mono`), so a bound that is itself a magnitude
is not crossed (`units_le_nearestUnits`, `nearestUnits_le_units`). A quotient is rounded to infinity
exactly from `overflowLimit` on, half a place above the greatest finite magnitude
(`nearestUnits_isInfinite`), and so each operation on finite magnitudes overflows exactly where its
exact result reaches this limit (`mul_isInfinite`, `div_isInfinite`).
-/

namespace Fabric.Binary64

/-! ## Rounding to a whole number -/

theorem roundHalfEven_mono {n n' : Nat} (h : n ≤ n') (d : Nat) :
    roundHalfEven n d ≤ roundHalfEven n' d := by
  have hdiv : n / d ≤ n' / d := Nat.div_le_div_right h
  have hsplit := Nat.div_add_mod n d
  have hsplit' := Nat.div_add_mod n' d
  unfold roundHalfEven
  simp only
  rcases Nat.lt_or_eq_of_le hdiv with hlt | heq
  · split <;> split <;> omega
  · -- With the same whole part, the order is that of what is left.
    rw [← heq] at hsplit' ⊢
    split <;> split <;> omega

/-- Quotients may have different divisors. -/
theorem roundHalfEven_mono_quotient {n d n' d' : Nat} (hd : 0 < d) (hd' : 0 < d')
    (h : n * d' ≤ n' * d) : roundHalfEven n d ≤ roundHalfEven n' d' := by
  rw [← roundHalfEven_scale n d hd', ← roundHalfEven_scale n' d' hd, Nat.mul_comm d' d]
  exact roundHalfEven_mono h _

theorem div_le_div_quotient {n d n' d' : Nat} (hd : 0 < d) (hd' : 0 < d') (h : n * d' ≤ n' * d) :
    n / d ≤ n' / d' := by
  rw [Nat.le_div_iff_mul_le hd']
  refine Nat.le_of_mul_le_mul_right ?_ hd
  calc n / d * d' * d = n / d * d * d' := Nat.mul_right_comm ..
    _ ≤ n * d' := Nat.mul_le_mul_right _ (Nat.div_mul_le_self n d)
    _ ≤ n' * d := h

theorem excessBits_mono {units units' : Nat} (h : units ≤ units') :
    excessBits units ≤ excessBits units' := by
  have hlog : Nat.log2 units ≤ Nat.log2 units' := by
    rcases Nat.eq_zero_or_pos units with rfl | hpos
    · exact Nat.zero_le _
    · rw [Nat.le_log2 (by omega)]
      exact (Nat.log2_self_le (by omega)).trans h
  unfold excessBits
  omega

namespace Magnitude

/-! ## Rounding to a magnitude -/

theorem ordinal_ofOrdinal_mono {k k' : Nat} (h : k ≤ k') :
    (ofOrdinal k).ordinal ≤ (ofOrdinal k').ordinal :=
  min_le_min_right infinityOrdinal h

/-- Rounding keeps the order. -/
theorem nearestUnits_mono {n d n' d' : Nat} (hd : 0 < d) (hd' : 0 < d') (h : n * d' ≤ n' * d) :
    (nearestUnits n d).ordinal ≤ (nearestUnits n' d').ordinal := by
  have hscale := excessBits_mono (div_le_div_quotient hd hd' h)
  have hlow := @roundHalfEven_le n d hd
  have hhigh := @binadeSize_le_roundHalfEven n' d'
  unfold nearestUnits
  simp only [Nat.pow_eq]
  apply ordinal_ofOrdinal_mono
  generalize excessBits (n / d) = scale at hscale hlow ⊢
  generalize excessBits (n' / d') = scale' at hscale hhigh ⊢
  rcases Nat.lt_or_eq_of_le hscale with hlt | rfl
  · -- At a greater scale even the least significand is worth twice as much as any.
    have hmul : (scale + 1) * binadeSize ≤ scale' * binadeSize := Nat.mul_le_mul_right _ hlt
    have hfull := hhigh (by omega)
    rw [Nat.succ_mul] at hmul
    omega
  · have hround : roundHalfEven n (d * 2 ^ scale) ≤ roundHalfEven n' (d' * 2 ^ scale) := by
      refine roundHalfEven_mono_quotient (Nat.mul_pos hd (Nat.two_pow_pos scale))
        (Nat.mul_pos hd' (Nat.two_pow_pos scale)) ?_
      rw [← Nat.mul_assoc, ← Nat.mul_assoc]
      exact Nat.mul_le_mul_right _ h
    omega

theorem ordinal_inj {a b : Magnitude} (h : a.ordinal = b.ordinal) : a = b := by
  cases a
  cases b
  cases h
  rfl

/-- Magnitudes are ordered as their units are. -/
theorem units_le_of_ordinal_le {a b : Magnitude} (h : a.ordinal ≤ b.ordinal) :
    a.units ≤ b.units := by
  by_contra hnot
  have hmono := @nearestUnits_mono b.units 1 a.units 1 Nat.one_pos Nat.one_pos (by omega)
  rw [nearestUnits_units, nearestUnits_units] at hmono
  rw [ordinal_inj (le_antisymm h hmono)] at hnot
  exact hnot le_rfl

/-- A magnitude that is not above a number is not above what the number is rounded to. -/
theorem units_le_nearestUnits {a : Magnitude} {n d : Nat} (hd : 0 < d) (h : a.units * d ≤ n) :
    a.units ≤ (nearestUnits n d).units := by
  have hmono := @nearestUnits_mono a.units 1 n d Nat.one_pos hd (by omega)
  rw [nearestUnits_units] at hmono
  exact units_le_of_ordinal_le hmono

theorem nearestUnits_ordinal_le {a : Magnitude} {n d : Nat} (hd : 0 < d) (h : n ≤ a.units * d) :
    (nearestUnits n d).ordinal ≤ a.ordinal := by
  have hmono := @nearestUnits_mono n d a.units 1 hd Nat.one_pos (by omega)
  rwa [nearestUnits_units] at hmono

theorem isInfinite_eq_true {a : Magnitude} : a.isInfinite = true ↔ a.ordinal = infinityOrdinal :=
  beq_iff_eq

/-- What is not above a finite magnitude is finite. -/
theorem isInfinite_of_ordinal_le {a b : Magnitude} (h : a.ordinal ≤ b.ordinal)
    (hb : b.isInfinite = false) : a.isInfinite = false := by
  have hbelow := b.ordinal_le
  have hne := beq_eq_false_iff_ne.1 hb
  exact beq_eq_false_iff_ne.2 (by omega)

/-! ## Overflow -/

/-- Half of the last place of the greatest finite magnitudes. -/
def halfLastPlace : Nat := Nat.pow 2 970

/-- The least number that is rounded to infinity. -/
def overflowLimit : Nat := (2 ^ 54 - 1) * halfLastPlace

-- The exponents are named, lest the powers are expanded.
theorem exists_halfLastPlace : ∃ k, k = 970 ∧ halfLastPlace = 2 ^ k := ⟨_, rfl, Nat.pow_eq ..⟩

theorem exists_overflowLimit : ∃ k, k = 2044 ∧
    overflowLimit * unitsPerOne = (2 ^ 54 - 1) * 2 ^ k := by
  obtain ⟨j, hj, hunits⟩ := exists_unitsPerOne
  obtain ⟨i, hi, hpow⟩ := exists_halfLastPlace
  refine ⟨i + j, by omega, ?_⟩
  rw [overflowLimit, hpow, hunits, Nat.mul_assoc, ← Nat.pow_add]

theorem le_of_isInfinite {n d : Nat} (hd : 0 < d) (hinf : (nearestUnits n d).isInfinite = true) :
    overflowLimit * unitsPerOne * d ≤ n := by
  obtain ⟨k, hk, hlimit⟩ := exists_overflowLimit
  obtain ⟨scale, q, hshape, hq, hle, hlarge⟩ := nearestUnits_shape n hd
  have hordinal : infinityOrdinal ≤ scale * binadeSize + q := by
    rw [hshape, isInfinite_eq_true] at hinf
    exact hinf ▸ Nat.min_le_left _ _
  have hsize : binadeSize = 2 ^ 52 := rfl
  have hscale : k + 1 ≤ scale := by
    by_contra hnot
    have hmul : scale * binadeSize ≤ 2044 * binadeSize := Nat.mul_le_mul_right _ (by omega)
    unfold infinityOrdinal at hordinal
    omega
  obtain ⟨-, hn⟩ := hlarge.resolve_left (by omega)
  rw [hlimit]
  rcases Nat.lt_or_eq_of_le hscale with hlt | rfl
  · have hpow : (2 ^ 54 - 1) * 2 ^ k ≤ binadeSize * 2 ^ scale := by
      calc (2 ^ 54 - 1) * 2 ^ k ≤ 2 ^ 54 * 2 ^ k := Nat.mul_le_mul_right _ (Nat.sub_le _ _)
        _ = binadeSize * 2 ^ (k + 2) := by
          rw [hsize, ← Nat.pow_add, ← Nat.pow_add, show 54 + k = 52 + (k + 2) by omega]
        _ ≤ binadeSize * 2 ^ scale :=
          Nat.mul_le_mul_left _ (Nat.pow_le_pow_right (by decide) hlt)
    exact (Nat.mul_le_mul_right d hpow).trans hn
  · -- At the greatest scale of finite magnitudes, the significand was rounded up to 54 bits.
    have hfull : 2 ^ 53 ≤ q := by
      have hmul : (k + 1) * binadeSize = 2045 * binadeSize := by rw [hk]
      unfold infinityOrdinal at hordinal
      omega
    have herror := (roundHalfEven_error n (Nat.mul_pos hd (Nat.two_pow_pos (k + 1)))).1
    rw [← hq] at herror
    have hunit : d * 2 ^ (k + 1) = 2 * (2 ^ k * d) := by
      rw [Nat.pow_succ, Nat.mul_comm (2 ^ k) 2, Nat.mul_left_comm, Nat.mul_comm d]
    rw [hunit] at herror
    rw [Nat.mul_assoc]
    have hmul := Nat.mul_le_mul_right (2 * (2 ^ k * d)) hfull
    generalize q * (2 * (2 ^ k * d)) = rounded at herror hmul
    generalize 2 ^ k * d = half at herror hmul ⊢
    omega

/-- A quotient is rounded to infinity exactly from the limit on. -/
theorem nearestUnits_isInfinite {n d : Nat} (hd : 0 < d) :
    (nearestUnits n d).isInfinite = true ↔ overflowLimit * unitsPerOne * d ≤ n := by
  refine ⟨le_of_isInfinite hd, fun h => ?_⟩
  have hmono := @nearestUnits_mono (overflowLimit * unitsPerOne) 1 n d Nat.one_pos hd (by omega)
  have hleast : (nearestUnits (overflowLimit * unitsPerOne) 1).ordinal = infinityOrdinal := by
    decide +kernel
  rw [isInfinite_eq_true]
  exact le_antisymm (nearestUnits n d).ordinal_le (hleast ▸ hmono)

theorem nearest_isInfinite {n d : Nat} (hd : 0 < d) :
    (nearest n d).isInfinite = true ↔ overflowLimit * d ≤ n := by
  unfold nearest
  rw [nearestUnits_isInfinite hd, Nat.mul_right_comm]
  exact Nat.mul_le_mul_right_iff unitsPerOne_pos

/-- The greatest finite magnitude. -/
def greatest : Magnitude := ⟨infinityOrdinal - 1, Nat.sub_le _ _⟩

theorem units_le_greatest {a : Magnitude} (h : a.isInfinite = false) :
    a.units ≤ greatest.units := by
  have hbelow := a.ordinal_le
  have hne := beq_eq_false_iff_ne.1 h
  exact units_le_of_ordinal_le (Nat.le_sub_one_of_lt (by omega))

/-- Finite magnitudes lie below the limit, and so do the next whole numbers. -/
theorem ceil_lt_overflowLimit {a : Magnitude} (h : a.isInfinite = false) :
    a.ceil < overflowLimit := by
  have hgreatest : greatest.ceil < overflowLimit := by decide +kernel
  exact Nat.lt_of_le_of_lt (Nat.div_le_div_right (Nat.add_le_add_right (units_le_greatest h) _))
    hgreatest

section Operations

variable {a b : Magnitude}

theorem mul_isInfinite (ha : a.isInfinite = false) (hb : b.isInfinite = false) :
    (a.mul b).isInfinite = true ↔ overflowLimit ≤ a.value * b.value := by
  have hone : (0 : ℚ) < unitsPerOne := Nat.cast_pos.2 unitsPerOne_pos
  rw [mul_eq ha hb, nearestUnits_isInfinite unitsPerOne_pos]
  unfold value
  rw [div_mul_div_comm, le_div_iff₀ (mul_pos hone hone), ← mul_assoc]
  exact_mod_cast Iff.rfl

theorem div_eq (ha : a.isInfinite = false) (hb : b.isInfinite = false) (hzero : b.isZero = false) :
    a.div b = nearest a.units b.units := by
  unfold div
  rw [ha, hb, hzero]
  rfl

theorem div_isInfinite (ha : a.isInfinite = false) (hb : b.isInfinite = false)
    (hzero : b.isZero = false) :
    (a.div b).isInfinite = true ↔ overflowLimit * b.value ≤ a.value := by
  have hone : (0 : ℚ) < unitsPerOne := Nat.cast_pos.2 unitsPerOne_pos
  rw [div_eq ha hb hzero, nearest_isInfinite (units_pos hzero)]
  unfold value
  rw [← mul_div_assoc, div_le_div_iff_of_pos_right hone]
  exact_mod_cast Iff.rfl

/-- One more than a finite magnitude is finite. -/
theorem add_one_isInfinite (ha : a.isInfinite = false) :
    ((nearest 1 1).add a).isInfinite = false := by
  have hfin : (nearest 1 1).isInfinite = false := (@nearest_whole 1 (by decide)).1
  have hone : (nearest 1 1).units + greatest.units < overflowLimit * unitsPerOne := by
    decide +kernel
  have hunits := units_le_greatest ha
  rw [add_eq hfin ha, Bool.eq_false_iff, ne_eq, nearestUnits_isInfinite Nat.one_pos]
  generalize greatest.units = bound at hone hunits
  generalize overflowLimit * unitsPerOne = limit at hone ⊢
  omega

/-- The root of a finite magnitude is finite. -/
theorem sqrt_isInfinite (ha : a.isInfinite = false) : a.sqrt.isInfinite = false := by
  have hone : unitsPerOne ≤ greatest.units := by decide +kernel
  have hlimit : greatest.units + 1 ≤ overflowLimit * unitsPerOne := by decide +kernel
  have hunits := units_le_greatest ha
  generalize greatest.units = bound at hone hlimit hunits
  have hsquare : 4 * (a.units * unitsPerOne) ≤ (2 * bound) ^ 2 := by
    rw [Nat.mul_pow, Nat.pow_two bound]
    exact Nat.mul_le_mul_left 4 (Nat.mul_le_mul hunits hone)
  have hroot := Nat.sqrt_le_sqrt hsquare
  rw [Nat.sqrt_eq'] at hroot
  unfold sqrt
  rw [ha, if_neg Bool.false_ne_true, Bool.eq_false_iff]
  simp only
  rw [ne_eq, nearestUnits_isInfinite (by decide)]
  generalize overflowLimit * unitsPerOne = limit at hlimit ⊢
  split <;> omega

/-! ## Magnitudes of at least one -/

theorem units_nearest_one : (nearest 1 1).units = unitsPerOne := by decide +kernel

theorem one_le_nearestUnits {n d : Nat} (hd : 0 < d) (h : unitsPerOne * d ≤ n) :
    unitsPerOne ≤ (nearestUnits n d).units := by
  rw [← units_nearest_one] at h ⊢
  exact units_le_nearestUnits hd h

theorem one_le_nearest {n : Nat} (h : 1 ≤ n) : unitsPerOne ≤ (nearest n 1).units := by
  refine one_le_nearestUnits Nat.one_pos ?_
  rw [Nat.mul_one]
  exact Nat.le_mul_of_pos_left _ h

theorem one_le_add (ha : a.isInfinite = false) (hb : b.isInfinite = false)
    (h : unitsPerOne ≤ a.units) : unitsPerOne ≤ (a.add b).units := by
  rw [add_eq ha hb]
  refine one_le_nearestUnits Nat.one_pos ?_
  omega

theorem one_le_mul (ha : a.isInfinite = false) (hb : b.isInfinite = false)
    (h : unitsPerOne ≤ a.units) (h' : unitsPerOne ≤ b.units) :
    unitsPerOne ≤ (a.mul b).units := by
  rw [mul_eq ha hb]
  exact one_le_nearestUnits unitsPerOne_pos (Nat.mul_le_mul h h')

theorem isZero_of_units_pos (h : 0 < a.units) : a.isZero = false := by
  rw [Bool.eq_false_iff]
  intro hzero
  have hordinal : a.ordinal = zero.ordinal := beq_iff_eq.1 hzero
  rw [ordinal_inj hordinal, units_zero] at h
  exact absurd h (Nat.lt_irrefl 0)

/-- Division by at least one keeps a magnitude finite. -/
theorem isInfinite_div (ha : a.isInfinite = false) (hb : unitsPerOne ≤ b.units) :
    (a.div b).isInfinite = false := by
  have hzero := isZero_of_units_pos (Nat.lt_of_lt_of_le unitsPerOne_pos hb)
  cases hinf : b.isInfinite with
  | true =>
    unfold div
    rw [ha, hzero, hinf]
    rfl
  | false =>
    rw [div_eq ha hinf hzero]
    refine isInfinite_of_ordinal_le (nearestUnits_ordinal_le ?_ (Nat.mul_le_mul_left _ hb)) ha
    exact Nat.lt_of_lt_of_le unitsPerOne_pos hb

end Operations

end Magnitude

end Fabric.Binary64
