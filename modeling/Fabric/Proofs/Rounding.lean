import Fabric.Binary64.Shortest
import Mathlib.Tactic.Ring

/-!
# Rounding and scientific notation

Rounding depends on the quotient alone (`nearestUnits_congr`), gives a magnitude back from its own
units (`nearestUnits_units`), and is infinite or zero far outside the range. So the bounds beyond
which `ofScientific` does not expand an exponent change no result (`ofScientific_eq`), a decimal is
read alike with and without zeros at its end (`ofScientific_shift`), and the shortest decimal of a
magnitude reads back (`ofScientific_shortest`).
-/

namespace Fabric.Binary64

/-! ## Rounding to a whole number -/

/-- Rounding sees the quotient only. -/
theorem roundHalfEven_scale (n d : Nat) {k : Nat} (hk : 0 < k) :
    roundHalfEven (n * k) (d * k) = roundHalfEven n d := by
  have hlt : 2 * (n % d * k) < d * k ↔ 2 * (n % d) < d := by
    rw [← Nat.mul_assoc]
    exact Nat.mul_lt_mul_right hk
  have heq : 2 * (n % d * k) = d * k ↔ 2 * (n % d) = d := by
    rw [← Nat.mul_assoc]
    exact Nat.mul_left_inj (Nat.pos_iff_ne_zero.1 hk)
  unfold roundHalfEven
  simp only [Nat.mul_div_mul_right n d hk, Nat.mul_mod_mul_right, hlt, heq]

theorem roundHalfEven_one (n : Nat) : roundHalfEven n 1 = n := by
  unfold roundHalfEven
  simp [Nat.mod_one]

theorem div_le_roundHalfEven (n d : Nat) : n / d ≤ roundHalfEven n d := by
  unfold roundHalfEven
  simp only
  split <;> omega

namespace Magnitude

/-! ## Rounding to a magnitude -/

theorem nearestUnits_scale (n d : Nat) {k : Nat} (hk : 0 < k) :
    nearestUnits (n * k) (d * k) = nearestUnits n d := by
  unfold nearestUnits
  simp only [Nat.mul_div_mul_right n d hk]
  rw [Nat.mul_right_comm d k, roundHalfEven_scale _ _ hk]

/-- Equal quotients round to the same magnitude. -/
theorem nearestUnits_congr {n d n' d' : Nat} (hd : 0 < d) (hd' : 0 < d')
    (h : n * d' = n' * d) : nearestUnits n d = nearestUnits n' d' := by
  rw [← nearestUnits_scale n d hd', ← nearestUnits_scale n' d' hd, h, Nat.mul_comm d d']

theorem log2_eq {n k : Nat} (hle : 2 ^ k ≤ n) (hlt : n < 2 ^ (k + 1)) : Nat.log2 n = k := by
  have hn : n ≠ 0 := by
    have hpos := Nat.two_pow_pos k
    omega
  have hlow := (Nat.le_log2 hn).2 hle
  have hhigh := (Nat.log2_lt hn).2 hlt
  omega

theorem ofOrdinal_ordinal (m : Magnitude) : ofOrdinal m.ordinal = m := by
  unfold ofOrdinal
  simp only [Nat.min_eq_left m.ordinal_le]

/-- A magnitude is the nearest to its own units. -/
theorem nearestUnits_units (m : Magnitude) : nearestUnits m.units 1 = m := by
  have hsplit := Nat.div_add_mod m.ordinal binadeSize
  have hfraction : m.ordinal % binadeSize < 2 ^ 52 := Nat.mod_lt _ (Nat.two_pow_pos 52)
  have hsize : binadeSize = 2 ^ 52 := rfl
  unfold nearestUnits units
  simp only [Nat.div_one, Nat.one_mul]
  by_cases hbinade : m.ordinal / binadeSize = 0
  · -- In the lowest binade the units are the ordinal, and nothing is cut off.
    rw [if_pos hbinade]
    have hexcess : excessBits (m.ordinal % binadeSize) = 0 := by
      unfold excessBits
      by_cases hzero : m.ordinal % binadeSize = 0
      · rw [hzero]
        decide
      · have hlog := (Nat.log2_lt hzero).2 hfraction
        omega
    rw [hexcess, Nat.zero_mul, Nat.zero_add, Nat.pow_eq, Nat.pow_zero, roundHalfEven_one]
    rw [hbinade, Nat.mul_zero, Nat.zero_add] at hsplit
    rw [hsplit, ofOrdinal_ordinal]
  · rw [if_neg hbinade]
    obtain ⟨k, hk⟩ := Nat.exists_eq_succ_of_ne_zero hbinade
    have hexcess : excessBits ((binadeSize + m.ordinal % binadeSize) * Nat.pow 2 k) = k := by
      unfold excessBits
      have hpos := Nat.two_pow_pos k
      have hlog : Nat.log2 ((binadeSize + m.ordinal % binadeSize) * 2 ^ k) = 52 + k := by
        refine log2_eq ?_ ?_
        · rw [Nat.pow_add]
          exact Nat.mul_le_mul_right _ (by omega)
        · rw [Nat.add_right_comm, Nat.pow_add]
          exact Nat.mul_lt_mul_of_pos_right (by omega) hpos
      rw [Nat.pow_eq, hlog]
      omega
    rw [hk, Nat.succ_eq_add_one, Nat.add_sub_cancel, hexcess]
    have hround := roundHalfEven_scale (binadeSize + m.ordinal % binadeSize) 1 (Nat.two_pow_pos k)
    rw [Nat.one_mul, roundHalfEven_one] at hround
    rw [Nat.pow_eq, hround]
    have hordinal : k * binadeSize + (binadeSize + m.ordinal % binadeSize) = m.ordinal := by
      rw [hk, Nat.succ_eq_add_one, Nat.mul_add, Nat.mul_comm binadeSize k] at hsplit
      omega
    rw [hordinal, ofOrdinal_ordinal]

/-- Where bits are cut off, all 53 that are left are in use. -/
theorem binadeSize_mul_le {units : Nat} (h : 0 < excessBits units) :
    binadeSize * 2 ^ excessBits units ≤ units := by
  have hne : units ≠ 0 := by
    rintro rfl
    exact absurd h (by decide)
  have hself := Nat.log2_self_le hne
  have hexponent : Nat.log2 units = 52 + excessBits units := by
    unfold excessBits at h ⊢
    omega
  rwa [hexponent, Nat.pow_add] at hself

theorem binadeSize_le_roundHalfEven {n d : Nat} (h : 0 < excessBits (n / d)) :
    binadeSize ≤ roundHalfEven n (d * 2 ^ excessBits (n / d)) := by
  apply le_trans _ (div_le_roundHalfEven _ _)
  rw [← Nat.div_div_eq_div_mul, Nat.le_div_iff_mul_le (Nat.two_pow_pos _)]
  exact binadeSize_mul_le h

/-- Beyond the greatest finite magnitude everything rounds to infinity. -/
theorem nearestUnits_of_large {n d k : Nat} (hk : 2098 ≤ k) (h : 2 ^ k ≤ n / d) :
    nearestUnits n d = infinity := by
  have hne : n / d ≠ 0 := Nat.pos_iff_ne_zero.1 (Nat.lt_of_lt_of_le (Nat.two_pow_pos k) h)
  have hlog : k ≤ Nat.log2 (n / d) := (Nat.le_log2 hne).2 h
  have hscale : 2046 ≤ excessBits (n / d) := by
    unfold excessBits
    omega
  have hround := @binadeSize_le_roundHalfEven n d (by omega)
  unfold nearestUnits
  simp only [Nat.pow_eq]
  generalize excessBits (n / d) = scale at hscale hround ⊢
  have hordinal : infinityOrdinal ≤ scale * binadeSize + roundHalfEven n (d * 2 ^ scale) := by
    have hmul : 2046 * binadeSize ≤ scale * binadeSize := Nat.mul_le_mul_right _ hscale
    unfold infinityOrdinal
    omega
  unfold ofOrdinal infinity
  simp only [Nat.min_eq_right hordinal]

/-- Below half of the smallest magnitude everything rounds to zero. -/
theorem nearestUnits_of_small {n d : Nat} (h : 2 * n < d) : nearestUnits n d = zero := by
  have hdiv : n / d = 0 := Nat.div_eq_of_lt (by omega)
  have hmod : n % d = n := Nat.mod_eq_of_lt (by omega)
  have hexcess : excessBits 0 = 0 := by decide
  unfold nearestUnits
  simp only [hdiv, hexcess, Nat.zero_mul, Nat.zero_add, Nat.pow_eq, Nat.pow_zero, Nat.mul_one]
  unfold roundHalfEven
  simp only [hdiv, hmod]
  rw [if_pos (Or.inl h)]
  rfl

/-! ## Scientific notation -/

/-- One is a power of two units. -/
theorem exists_unitsPerOne : ∃ k, k = 1074 ∧ unitsPerOne = 2 ^ k := ⟨_, rfl, Nat.pow_eq ..⟩

/-- Every decimal is rounded exactly once; the bounds on its exponent only spare the expansion. -/
theorem ofScientific_eq {c : Nat} (hc : c ≠ 0) (e : Int) :
    ofScientific c e = nearest (c * 10 ^ e.toNat) (10 ^ (-e).toNat) := by
  obtain ⟨k, hk, hunits⟩ := exists_unitsPerOne
  unfold ofScientific
  rw [if_neg hc]
  split
  · rename_i hlarge
    -- Ten to the 311 is far above two to the 1024.
    have hten : Nat.pow 2 1024 ≤ Nat.pow 10 311 := by decide +kernel
    have hpow : 2 ^ 1024 ≤ 10 ^ e.toNat :=
      le_trans hten (Nat.pow_le_pow_right (by decide) (show 311 ≤ e.toNat by omega))
    have hone : (-e).toNat = 0 := by omega
    unfold nearest
    rw [hone, Nat.pow_zero, nearestUnits_of_large (show 2098 ≤ 1024 + k by omega)]
    rw [Nat.div_one, hunits, Nat.pow_add]
    exact Nat.mul_le_mul_right _ (le_trans hpow (Nat.le_mul_of_pos_left _ (Nat.pos_of_ne_zero hc)))
  · split
    · rename_i hsmall
      have hwhole : e.toNat = 0 := by omega
      have hlog : c < 2 ^ (Nat.log2 c + 1) := Nat.lt_log2_self
      have hpow : 10 ^ (333 + Nat.log2 c) ≤ 10 ^ (-e).toNat :=
        Nat.pow_le_pow_right (by decide) (by omega)
      have hten : Nat.pow 2 1076 ≤ Nat.pow 10 333 := by decide +kernel
      have hlow : 2 ^ Nat.log2 c ≤ 10 ^ Nat.log2 c := Nat.pow_le_pow_left (by decide) _
      unfold nearest
      rw [hwhole, Nat.pow_zero, Nat.mul_one, hunits, nearestUnits_of_small]
      calc 2 * (c * 2 ^ k) < 2 * (2 ^ (Nat.log2 c + 1) * 2 ^ k) :=
            Nat.mul_lt_mul_of_pos_left
              (Nat.mul_lt_mul_of_pos_right hlog (Nat.two_pow_pos k)) (by decide)
        _ = 2 ^ (k + 2) * 2 ^ Nat.log2 c := by ring
        _ ≤ 10 ^ 333 * 10 ^ Nat.log2 c := by
            rw [hk]
            exact Nat.mul_le_mul hten hlow
        _ = 10 ^ (333 + Nat.log2 c) := (Nat.pow_add ..).symm
        _ ≤ 10 ^ (-e).toNat := hpow
    · split
      · rename_i hnonneg
        have hone : (-e).toNat = 0 := by omega
        rw [hone, Nat.pow_eq, Nat.pow_zero]
      · have hwhole : e.toNat = 0 := by omega
        rw [hwhole, Nat.pow_zero, Nat.mul_one, Nat.pow_eq]

theorem ofScientific_zero (e : Int) : ofScientific 0 e = zero := by
  unfold ofScientific
  rw [if_pos rfl]

/-- Zeros at the end of a coefficient may be kept or given to the exponent. -/
theorem ofScientific_shift (c : Nat) (e : Int) (k : Nat) :
    ofScientific (c * 10 ^ k) (e - k) = ofScientific c e := by
  by_cases hc : c = 0
  · rw [hc, Nat.zero_mul, ofScientific_zero, ofScientific_zero]
  · have hck : c * 10 ^ k ≠ 0 :=
      Nat.mul_ne_zero hc (Nat.pos_iff_ne_zero.1 (Nat.pow_pos (by decide)))
    rw [ofScientific_eq hck, ofScientific_eq hc]
    unfold nearest
    refine nearestUnits_congr (Nat.pow_pos (by decide)) (Nat.pow_pos (by decide)) ?_
    have hexponents : k + (e - k).toNat + (-e).toNat = e.toNat + (-(e - k)).toNat := by omega
    calc c * 10 ^ k * 10 ^ (e - k).toNat * unitsPerOne * 10 ^ (-e).toNat
        = c * unitsPerOne * 10 ^ (k + (e - k).toNat + (-e).toNat) := by
          rw [Nat.pow_add, Nat.pow_add]
          ring
      _ = c * 10 ^ e.toNat * unitsPerOne * 10 ^ (-(e - k)).toNat := by
          rw [hexponents, Nat.pow_add]
          ring

/-! ## The shortest decimal -/

theorem units_ne_zero {m : Magnitude} (h : m ≠ zero) : m.units ≠ 0 := by
  intro hzero
  have hself := nearestUnits_units m
  rw [hzero] at hself
  exact h (hself.symm.trans (by decide))

/-- The exact expansion of a magnitude reads back. -/
theorem ofScientific_expansion {m : Magnitude} (h : m ≠ zero) :
    ofScientific m.expansion.coefficient m.expansion.exponent = m := by
  obtain ⟨k, hk, hunits⟩ := exists_unitsPerOne
  have hcoefficient : m.units * 5 ^ k ≠ 0 :=
    Nat.mul_ne_zero (units_ne_zero h) (Nat.pos_iff_ne_zero.1 (Nat.pow_pos (by decide)))
  have hexpansion : m.expansion = ⟨m.units * 5 ^ k, -k⟩ := by
    rw [hk]
    rfl
  rw [hexpansion, ofScientific_eq hcoefficient]
  refine Eq.trans ?_ (nearestUnits_units m)
  unfold nearest
  refine nearestUnits_congr (Nat.pow_pos (by decide)) Nat.one_pos ?_
  have hwhole : (-(k : Int)).toNat = 0 := by omega
  have htens : (- -(k : Int)).toNat = k := by omega
  have hten : (10 : Nat) ^ k = 5 ^ k * 2 ^ k := by rw [← Nat.mul_pow]
  rw [hwhole, htens, hten, hunits]
  ring

/-- The shortest decimal of a magnitude reads back. -/
theorem ofScientific_shortest {m : Magnitude} (h : m ≠ zero) :
    ofScientific m.shortest.coefficient m.shortest.exponent = m := by
  unfold shortest
  cases hfind : m.shortCandidates.find? m.readsBack with
  | none => exact ofScientific_expansion h
  | some d =>
    have hreads : m.readsBack d = true := List.find?_some hfind
    exact of_decide_eq_true hreads

end Magnitude

end Fabric.Binary64
