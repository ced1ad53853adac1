import Fabric.Proofs.GridGrowth
import Mathlib.Data.Nat.Factorization.Basic
import Mathlib.Data.Rat.Floor

/-!
# The shape of the smallest grid

The height of a grid is solved from the area and the perimeter that a grid of any real height has at
the aspect ratio; only then is the width rounded up. So a grid of a lower height, at the width that
the ratio gives it exactly, has no room for the circuit (`layout_smallest`). Its width is rounded up
too, which may be what makes it large enough (`layout_not_smallest`).

The bounds are whole numbers, which rounding does not cross, so the comparison of the blocks is
exact. That of the pads is exact where the width is whole: no bit of such a ratio is lost when it is
scaled (`exists_significand`).
-/

namespace Fabric

namespace Binary64

namespace Magnitude

/-! ## Whole bounds -/

variable {a b : Magnitude} {k : Nat}

theorem value_le_value (h : a.ordinal ≤ b.ordinal) : a.value ≤ b.value := by
  have hunits : (a.units : ℚ) ≤ b.units := by exact_mod_cast units_le_of_ordinal_le h
  exact div_le_div_of_nonneg_right hunits (Nat.cast_nonneg _)

/-- Rounding does not cross a whole number of up to 53 bits. -/
theorem nearestUnits_le_whole {n d : Nat} (hd : 0 < d) (hk : k < 2 ^ 53)
    (h : n ≤ k * unitsPerOne * d) :
    (nearestUnits n d).isInfinite = false ∧ (nearestUnits n d).value ≤ k := by
  obtain ⟨hfin, hvalue⟩ := nearest_whole hk
  have hmono : (nearestUnits n d).ordinal ≤ (nearest k 1).ordinal :=
    nearestUnits_mono hd Nat.one_pos (by rwa [Nat.mul_one])
  exact ⟨isInfinite_of_ordinal_le hmono hfin, hvalue ▸ value_le_value hmono⟩

theorem nearest_le_whole {n d : Nat} (hd : 0 < d) (hk : k < 2 ^ 53) (h : n ≤ k * d) :
    (nearest n d).isInfinite = false ∧ (nearest n d).value ≤ k := by
  refine nearestUnits_le_whole hd hk ?_
  rw [Nat.mul_right_comm]
  exact Nat.mul_le_mul_right _ h

theorem mul_le_whole (ha : a.isInfinite = false) (hb : b.isInfinite = false) (hk : k < 2 ^ 53)
    (h : a.value * b.value ≤ k) : (a.mul b).isInfinite = false ∧ (a.mul b).value ≤ k := by
  have hone : (0 : ℚ) < unitsPerOne := Nat.cast_pos.2 unitsPerOne_pos
  rw [mul_eq ha hb]
  refine nearestUnits_le_whole unitsPerOne_pos hk ?_
  unfold value at h
  rw [div_mul_div_comm, div_le_iff₀ (mul_pos hone hone), ← mul_assoc] at h
  exact_mod_cast h

theorem div_le_whole (ha : a.isInfinite = false) (hb : b.isInfinite = false)
    (hzero : b.isZero = false) (hk : k < 2 ^ 53) (h : a.value ≤ k * b.value) :
    (a.div b).isInfinite = false ∧ (a.div b).value ≤ k := by
  have hone : (0 : ℚ) < unitsPerOne := Nat.cast_pos.2 unitsPerOne_pos
  rw [div_eq ha hb hzero]
  refine nearest_le_whole (units_pos hzero) hk ?_
  unfold value at h
  rw [← mul_div_assoc, div_le_div_iff_of_pos_right hone] at h
  exact_mod_cast h

/-- The root of what is not above a square is not above its root. -/
theorem sqrt_le_whole (ha : a.isInfinite = false) (hk : k < 2 ^ 53) (h : a.value ≤ (k : ℚ) ^ 2) :
    a.sqrt.isInfinite = false ∧ a.sqrt.value ≤ k := by
  rw [value_le_iff] at h
  have hunits : a.units ≤ k ^ 2 * unitsPerOne := by exact_mod_cast h
  have hsquare : 4 * (a.units * unitsPerOne) ≤ 2 * k * unitsPerOne * (2 * k * unitsPerOne) := by
    calc 4 * (a.units * unitsPerOne) ≤ 4 * (k ^ 2 * unitsPerOne * unitsPerOne) :=
          Nat.mul_le_mul_left 4 (Nat.mul_le_mul_right _ hunits)
      _ = 2 * k * unitsPerOne * (2 * k * unitsPerOne) := by ring
  have hroot := halfRoot_mono hsquare
  rw [Nat.sqrt_eq, if_pos rfl, Nat.add_zero] at hroot
  unfold sqrt
  rw [if_neg (by rw [ha]; exact Bool.false_ne_true)]
  refine nearestUnits_le_whole (by decide) hk (hroot.trans (le_of_eq ?_))
  ring

/-! ## Whole widths -/

/-- What a number gives a product of few bits with has few bits itself. -/
theorem exists_significand {u n b e : Nat} (hn : 0 < n) (h : u * n = b * 2 ^ e) :
    ∃ c t, u = c * 2 ^ t ∧ c ≤ b ∧ t ≤ e := by
  obtain ⟨j, o, hodd, rfl⟩ := Nat.exists_eq_two_pow_mul_odd hn.ne'
  have hcoprime : o.Coprime (2 ^ e) := (Nat.coprime_two_right.2 hodd).pow_right e
  -- The odd part of `n` goes into `b`, and the rest of `n` only shifts the bits.
  have hdvd : o ∣ b := hcoprime.dvd_of_dvd_mul_right (h ▸ (Dvd.intro_left _ rfl).mul_left u)
  obtain ⟨c, rfl⟩ := hdvd
  have hpos : 0 < o := hodd.pos
  have hcancel : u * 2 ^ j = c * 2 ^ e := by
    refine Nat.eq_of_mul_eq_mul_right hpos ?_
    rw [Nat.mul_assoc, h]
    ring
  have hle : c ≤ o * c := Nat.le_mul_of_pos_left c hpos
  rcases Nat.le_total j e with hj | hj
  · refine ⟨c, e - j, ?_, hle, Nat.sub_le e j⟩
    refine Nat.eq_of_mul_eq_mul_right (Nat.two_pow_pos j) ?_
    rw [hcancel, Nat.mul_assoc, ← Nat.pow_add, Nat.sub_add_cancel hj]
  · have hfew : u * 2 ^ (j - e) = c := by
      refine Nat.eq_of_mul_eq_mul_right (Nat.two_pow_pos e) ?_
      rw [← hcancel, Nat.mul_assoc, ← Nat.pow_add, Nat.sub_add_cancel hj]
    refine ⟨u, 0, by rw [Nat.pow_zero, Nat.mul_one], ?_, Nat.zero_le e⟩
    exact (hfew ▸ Nat.le_mul_of_pos_right u (Nat.two_pow_pos _)).trans hle

theorem units_of_value {m : Magnitude} (h : m.value = k) : m.units = k * unitsPerOne := by
  have hone : (unitsPerOne : ℚ) ≠ 0 := Nat.cast_ne_zero.2 (Nat.pos_iff_ne_zero.1 unitsPerOne_pos)
  unfold value at h
  rw [div_eq_iff hone] at h
  exact_mod_cast h

/-- Where a height gives a whole width, the slots of that height are counted exactly, unless they
take more than 53 bits. -/
theorem slots_exact {m : Magnitude} {n width slots : Nat} (hn : 0 < n) (hfin : m.isInfinite = false)
    (hwidth : (n : ℚ) * m.value = width) (hslots : 0 < slots)
    (hfew : slots * (n + width) < 2 ^ 53) :
    (n : ℚ) * ((nearest slots 1).mul ((nearest 1 1).add m)).value = slots * (n + width) := by
  have hone : (unitsPerOne : ℚ) ≠ 0 := Nat.cast_ne_zero.2 (Nat.pos_iff_ne_zero.1 unitsPerOne_pos)
  obtain ⟨e, he, hunits⟩ := exists_unitsPerOne
  -- Times `n`, the sides at a height of one are the whole number `n + width`, of few bits.
  have hsides : (unitsPerOne + m.units) * n = (n + width) * unitsPerOne := by
    unfold value at hwidth
    rw [← mul_div_assoc, div_eq_iff hone] at hwidth
    have hwidth' : n * m.units = width * unitsPerOne := by exact_mod_cast hwidth
    rw [Nat.add_mul, Nat.add_mul, Nat.mul_comm m.units, hwidth', Nat.mul_comm n]
  obtain ⟨c, t, hc, hle, ht⟩ :=
    exists_significand hn (hsides.trans (congrArg ((n + width) * ·) hunits))
  have hproduct : slots * c < 2 ^ 53 := (Nat.mul_le_mul_left slots hle).trans_lt hfew
  have hslots_few : slots < 2 ^ 53 := (Nat.le_mul_of_pos_right slots (by omega)).trans_lt hfew
  have hc_few : c < 2 ^ 53 := (Nat.le_mul_of_pos_left c hslots).trans_lt hproduct
  obtain ⟨hslots_fin, hslots_value⟩ := nearest_whole hslots_few
  have hsum : (nearest 1 1).add m = nearestUnits (c * 2 ^ t) 1 := by
    rw [add_eq (@nearest_whole 1 (by decide)).1 hfin, units_nearest_one, hc]
  obtain ⟨hsum_fin, hsum_units⟩ := nearestUnits_exact hc_few (ht.trans he.le)
  have hmul : (nearest slots 1).mul ((nearest 1 1).add m) =
      nearestUnits (slots * c * 2 ^ t) 1 := by
    rw [hsum, mul_eq hslots_fin hsum_fin, units_of_value hslots_value, hsum_units]
    refine nearestUnits_congr unitsPerOne_pos Nat.one_pos ?_
    ring
  rw [hmul, value, (nearestUnits_exact hproduct (ht.trans he.le)).2, ← mul_div_assoc,
    div_eq_iff hone]
  have hexact : n * (slots * c * 2 ^ t) = slots * (n + width) * unitsPerOne := by
    rw [Nat.mul_assoc slots (n + width), ← hsides, hc]
    ring
  exact_mod_cast hexact

/-! ## Lower bounds -/

theorem one_le_value {m : Magnitude} (h : unitsPerOne ≤ m.units) : 1 ≤ m.value := by
  have hone : (0 : ℚ) < unitsPerOne := Nat.cast_pos.2 unitsPerOne_pos
  unfold value
  rw [one_le_div hone]
  exact_mod_cast h

/-- The slots of a height are counted with at most three roundings too few. -/
theorem le_slots {m : Magnitude} {slots : Nat} (hfin : m.isInfinite = false) (hslots : 0 < slots)
    (hproduct : ((nearest slots 1).mul ((nearest 1 1).add m)).isInfinite = false) :
    slots * (1 + m.value) ≤
      ((nearest slots 1).mul ((nearest 1 1).add m)).value * slack ^ 3 := by
  have hslack := one_le_slack
  obtain ⟨hone_fin, hone⟩ := @nearest_whole 1 (by decide)
  obtain ⟨hslots_fin, hsum_fin⟩ := isInfinite_of_mul hproduct
  have hsum_pos := one_le_add hone_fin hfin (one_le_nearest le_rfl)
  have hproduct_pos := one_le_mul hslots_fin hsum_fin (one_le_nearest hslots) hsum_pos
  have hsum := (rounds_add hsum_fin).exact_le (one_le_value hsum_pos) le_rfl
  rw [hone, Nat.cast_one] at hsum
  have hexact := (rounds_mul hproduct).exact_le (one_le_value hproduct_pos) le_rfl
  generalize (nearest 1 1).add m = sides at hsum hexact ⊢
  calc (slots : ℚ) * (1 + m.value)
      ≤ (nearest slots 1).value * slack * (sides.value * slack) :=
        mul_le_mul (nearest_whole_error hslots_fin).1 hsum (add_nonneg zero_le_one m.value_nonneg)
          (mul_nonneg (value_nonneg _) (by linarith))
    _ = (nearest slots 1).value * sides.value * slack ^ 2 := by ring
    _ ≤ ((nearest slots 1).mul sides).value * slack * slack ^ 2 :=
        mul_le_mul_of_nonneg_right hexact (by positivity)
    _ = ((nearest slots 1).mul sides).value * slack ^ 3 := by ring

end Magnitude

end Binary64

open Binary64 (Magnitude)
open Binary64.Magnitude (slack one_le_slack)

/-! ## Aspect ratios -/

namespace Number

variable {r : Number} {a : ℚ} {n k : Nat} {x : Binary64}

theorem Ratio.toReal_exact (h : r.Ratio a) (hle : a ≤ 2 ^ 16) (hx : r.toReal = .ok x) :
    ∃ m : Magnitude, x = .signed false m ∧ m.isInfinite = false ∧ m.value = a := by
  cases h with
  | @whole d hd =>
    obtain ⟨d', hd'⟩ := Int.eq_ofNat_of_zero_le hd.le
    have hint : Binary64.ofInt d.value = .ok x := hx
    rw [hd'] at hint hle ⊢
    obtain ⟨rfl, hfin⟩ := Binary64.ofInt_ok hint
    have hfew : d' < 2 ^ 53 := by
      have hle' : d' ≤ 2 ^ 16 := by exact_mod_cast hle
      omega
    rw [Int.cast_natCast]
    exact ⟨_, rfl, hfin, (Magnitude.nearest_whole hfew).2⟩
  | @real m hzero hfin =>
    cases hx
    exact ⟨m, rfl, hfin, rfl⟩

/-- Where a whole number times a ratio is not below another, neither is it below their quotient. -/
theorem Ratio.divideInto_le (h : r.Ratio a) (hn : n < 2 ^ 53) (hk : k < 2 ^ 53)
    (hle : (n : ℚ) ≤ k * a) (hx : r.divideInto n = .ok x) :
    ∃ q : Magnitude, x = .signed false q ∧ q.isInfinite = false ∧ q.value ≤ k := by
  cases h with
  | @whole d hd =>
    obtain ⟨d', hd'⟩ := Int.eq_ofNat_of_zero_le hd.le
    have hpos : 0 < d' := by omega
    have hquotient : Binary64.quotientOfInts n d.value = .ok x := hx
    rw [hd'] at hquotient hle
    obtain rfl := Binary64.quotientOfInts_ok hpos hquotient
    exact ⟨_, rfl, Magnitude.nearest_le_whole hpos hk (by exact_mod_cast hle)⟩
  | @real m hzero hfin =>
    obtain ⟨y, hy, hx⟩ := except_bind_ok.1 hx
    obtain ⟨rfl, hn_fin⟩ := Binary64.ofInt_ok hy
    rw [Binary64.quotient_signed hn_fin hzero] at hx
    cases hx
    rw [← (Magnitude.nearest_whole hn).2] at hle
    exact ⟨_, rfl, Magnitude.div_le_whole hn_fin hfin hzero hk hle⟩

/-- A width is found, and it is no whole number above the exact one but the least. -/
theorem Ratio.scaleUp_le (h : r.Ratio a) (hn : n < 2 ^ 53) (hk : k < 2 ^ 53)
    (hle : (n : ℚ) * a ≤ k) : ∃ w : Int, r.scaleUp n = .ok w ∧ w ≤ k := by
  cases h with
  | @whole d hd => exact ⟨_, rfl, by exact_mod_cast hle⟩
  | @real m hzero hfin =>
    obtain ⟨hn_fin, hn_value⟩ := Magnitude.nearest_whole hn
    have hlt : n < Magnitude.overflowLimit := by
      by_contra hnot
      have hinf := (@Magnitude.nearest_isInfinite n 1 Nat.one_pos).2 (by omega)
      cases hn_fin.symm.trans hinf
    rw [← hn_value] at hle
    obtain ⟨hmul_fin, hmul⟩ := Magnitude.mul_le_whole hn_fin hfin hk hle
    refine ⟨((Magnitude.nearest n 1).mul m).ceil,
      except_bind_ok.2 ⟨_, (Binary64.ofInt_of_lt hlt).1, ?_⟩, ?_⟩
    · rw [Binary64.mul_signed hn_fin hfin]
      exact Binary64.ceil_signed hmul_fin
    · exact_mod_cast Magnitude.ceil_le_iff.2 hmul

/-- A whole exact width is the width that is found. -/
theorem Ratio.scaleUp_whole (h : r.Ratio a) (hn : 1 ≤ n) (hlt : n < 2 ^ 53) (hk : k < 2 ^ 53)
    (heq : (n : ℚ) * a = k) : r.scaleUp n = .ok (k : Int) := by
  obtain ⟨w, hw, hle⟩ := h.scaleUp_le hlt hk heq.le
  have hexact := (h.scaleUp hn hlt hw).2
  rw [heq] at hexact
  have hge : (k : Int) ≤ w := by
    by_contra hnot
    have hnext : (w : ℚ) + 1 ≤ k := by exact_mod_cast not_le.1 hnot
    have hfew : (k : ℚ) < 2 ^ 53 := by exact_mod_cast hk
    unfold slack at hexact
    linarith
  rw [hw, le_antisymm hle hge]

end Number

/-! ## Heights that are too low -/

namespace Sizing

/-- A height is too low for a circuit at an aspect ratio. -/
structure TooLow (s : Sizing) (ioRat : Int) (a : ℚ) (n : Nat) : Prop where
  /-- The grid of that height and of the exact width has no room for the blocks, or none for the
  pads up to one part in `2 ^ 50`. -/
  exact : (n : ℚ) * (n * a) < s.numBlocks.value ∨
    2 * ioRat * (n * a + n) * 2 ^ 50 < s.numPads.value * (2 ^ 50 + 1 : ℚ)
  /-- The width that the height is given is less than one column more than the exact one. -/
  width : ∃ w : Int, s.aspectRatio.scaleUp n = .ok w ∧ (w : ℚ) < n * a + 1
  /-- Where the exact width is whole, it is the one given, and the grid has no room for the blocks
  or none for the pads, unless these are more than `2 ^ 50`. -/
  whole : ∀ w : Int, (w : ℚ) = n * a → s.aspectRatio.scaleUp n = .ok w ∧
    (s.numPads.value ≤ 2 ^ 50 →
      w * n < s.numBlocks.value ∨ ioSlots ioRat w n < s.numPads.value)

variable {s : Sizing} {a : ℚ} {n : Nat} {needed : Int}

theorem lt_heightForBlocks (ha : s.aspectRatio.Ratio a) (hratio : a ≤ 2 ^ 16)
    (hblocks : 0 ≤ s.numBlocks.value) (hneeded : s.heightForBlocks = .ok needed)
    (hn : n ≤ 32766) (hlt : n < needed) : (n : ℚ) * (n * a) < s.numBlocks.value := by
  obtain ⟨blocks, hcount⟩ := Int.eq_ofNat_of_zero_le hblocks
  unfold heightForBlocks at hneeded
  rw [hcount] at hneeded ⊢
  rw [Int.cast_natCast]
  obtain ⟨x, hx, hceil⟩ := except_bind_ok.1 hneeded
  by_contra hnot
  have hfits : (blocks : ℚ) ≤ (n ^ 2 : ℕ) * a := by
    push_cast
    linarith
  have hn' : (n : ℚ) ≤ 32766 := by exact_mod_cast hn
  -- Blocks that fit are so few that they are counted exactly.
  have hfew : blocks < 2 ^ 53 := by
    have hle : (blocks : ℚ) ≤ 32766 ^ 2 * 2 ^ 16 := by
      push_cast at hfits
      refine hfits.trans (mul_le_mul ?_ hratio ha.pos.le (by norm_num))
      exact pow_le_pow_left₀ (Nat.cast_nonneg n) hn' 2
    have hlt' : (blocks : ℚ) < 2 ^ 53 := hle.trans_lt (by norm_num)
    exact_mod_cast hlt'
  have hsquare : n ^ 2 < 2 ^ 53 := by
    have hle := Nat.pow_le_pow_left hn 2
    omega
  obtain ⟨q, rfl, hfin, hq⟩ := ha.divideInto_le hfew hsquare hfits hx
  rw [Nat.cast_pow] at hq
  obtain ⟨-, hroot⟩ := Magnitude.sqrt_le_whole hfin (by omega) hq
  obtain ⟨-, rfl⟩ := Binary64.ceil_ok (m := q.sqrt) hceil
  have hle := Magnitude.ceil_le_iff.2 hroot
  omega

theorem slotsPerHeight_eq (ha : s.aspectRatio.Ratio a) (hratio : a ≤ 2 ^ 16) {io : Nat}
    {x : Binary64} (hx : s.slotsPerHeight io = .ok x) : ∃ m : Magnitude, m.isInfinite = false ∧
      m.value = a ∧
      x = .signed false ((Magnitude.nearest (2 * io) 1).mul ((Magnitude.nearest 1 1).add m)) := by
  obtain ⟨y, hy, hslots_fin, rfl⟩ := slotsPerHeight_steps hx
  obtain ⟨m, rfl, hfin, hvalue⟩ := ha.toReal_exact hratio hy
  exact ⟨m, hfin, hvalue, Binary64.mul_signed hslots_fin (Magnitude.add_one_isInfinite hfin)⟩

theorem lt_heightForPads {io pads : Nat} {p : Magnitude} (hpads : s.numPads.value = pads)
    (hper : s.slotsPerHeight io = .ok (.signed false p)) (hfin : p.isInfinite = false)
    (hneeded : s.heightForPads io = .ok needed) (hn : n < 2 ^ 53) (hlt : n < needed) :
    (Magnitude.nearest pads 1).isInfinite = false ∧
      n * p.value < (Magnitude.nearest pads 1).value := by
  obtain ⟨x, y, z, hx, hy, hz, hceil⟩ := heightForPads_steps hneeded
  cases hper.symm.trans hx
  rw [hpads] at hy
  obtain ⟨rfl, hpads_fin⟩ := Binary64.ofInt_ok hy
  have hzero := Binary64.isZero_of_quotient hz
  rw [Binary64.quotient_signed hpads_fin hzero] at hz
  cases hz
  obtain ⟨-, rfl⟩ := Binary64.ceil_ok hceil
  refine ⟨hpads_fin, ?_⟩
  by_contra hnot
  have hle := Magnitude.ceil_le_iff.2
    (Magnitude.div_le_whole hpads_fin hfin hzero hn (not_lt.1 hnot)).2
  omega

/-- Below the height for the pads there are too few slots. -/
theorem slots_lt (ha : s.aspectRatio.Ratio a) (hratio : a ≤ 2 ^ 16) {io pads : Nat} (hio : 1 ≤ io)
    (hcell : (io : Int) < cellLimit) (hpads : s.numPads.value = pads)
    (hneeded : s.heightForPads io = .ok needed) (hn : 1 ≤ n) (hn_few : n < 2 ^ 53)
    (hlt : n < needed) :
    2 * io * (n * a + n) * 2 ^ 50 < (pads * (2 ^ 50 + 1) : ℚ) ∧
      ∀ width : Nat, (n : ℚ) * a = width → pads ≤ 2 ^ 50 → 2 * io * (width + n) < pads := by
  have hslack := one_le_slack
  obtain ⟨x, -, -, hx, -⟩ := heightForPads_steps hneeded
  obtain ⟨m, hfin, rfl, rfl⟩ := slotsPerHeight_eq ha hratio hx
  obtain ⟨p, hp, hproduct, -⟩ := slotsPerHeight_ok ha hratio hio hcell hx
  cases hp
  have hslots : 0 < 2 * io := by omega
  have hslots_le := Magnitude.le_slots hfin hslots hproduct
  obtain ⟨hpads_fin, hbound⟩ := lt_heightForPads hpads hx hproduct hneeded hn_few hlt
  have hpads_le := (Magnitude.nearest_whole_error hpads_fin).2
  have hn' : (0 : ℚ) < n := by exact_mod_cast hn
  have hexact : 2 * io * (n * m.value + n) < (pads * slack ^ 4 : ℚ) := by
    calc (2 * io * (n * m.value + n) : ℚ) = n * ((2 * io : ℕ) * (1 + m.value)) := by
          push_cast
          ring
      _ ≤ n * (((Magnitude.nearest (2 * io) 1).mul ((Magnitude.nearest 1 1).add m)).value *
            slack ^ 3) := mul_le_mul_of_nonneg_left hslots_le hn'.le
      _ = n * ((Magnitude.nearest (2 * io) 1).mul ((Magnitude.nearest 1 1).add m)).value *
            slack ^ 3 := by ring
      _ < (Magnitude.nearest pads 1).value * slack ^ 3 :=
          mul_lt_mul_of_pos_right hbound (by positivity)
      _ ≤ pads * slack * slack ^ 3 := mul_le_mul_of_nonneg_right hpads_le (by positivity)
      _ = pads * slack ^ 4 := by ring
  have hslots_lt : 2 * io * (n * m.value + n) * 2 ^ 50 < (pads * (2 ^ 50 + 1) : ℚ) := by
    have hfour : slack ^ 4 ≤ 1 + 1 / 2 ^ 50 := by
      unfold slack
      norm_num
    have hmul := mul_le_mul_of_nonneg_left hfour (Nat.cast_nonneg (α := ℚ) pads)
    linarith
  refine ⟨hslots_lt, fun width hwidth hfew => ?_⟩
  rw [hwidth] at hslots_lt
  have hslots_lt' : 2 * io * (width + n) * 2 ^ 50 < pads * (2 ^ 50 + 1) := by
    exact_mod_cast hslots_lt
  -- So few slots are counted exactly, and then the comparison with the pads is exact too.
  have hcounted := Magnitude.slots_exact (by omega) hfin hwidth hslots (by
    rw [Nat.add_comm n]
    omega)
  rw [hcounted, (Magnitude.nearest_whole (show pads < 2 ^ 53 by omega)).2] at hbound
  rw [Nat.add_comm width]
  exact_mod_cast hbound

/-- Every height below the one that is chosen is too low. -/
theorem tooLow (ha : s.aspectRatio.Ratio a) (hratio : a ≤ 2 ^ 16)
    (hblocks : 0 ≤ s.numBlocks.value) (hpads : 0 ≤ s.numPads.value) {io : Nat} (hio : 1 ≤ io)
    (hcell : (io : Int) < cellLimit) {width height : Int}
    (h : s.automaticSize io = .ok (width, height)) (hheight : height ≤ maxDimension) (hn : 1 ≤ n)
    (hlt : n < height) : s.TooLow io a n := by
  obtain ⟨forBlocks, forPads, hneed, hneed_pads, hmax, -⟩ := automaticSize_ok h
  obtain ⟨pads, hcount⟩ := Int.eq_ofNat_of_zero_le hpads
  unfold maxDimension at hheight
  have hn_le : n ≤ 32766 := by omega
  have hn_few : n < 2 ^ 53 := by omega
  -- The height is the greater of the two that are needed, so one of them is above `n`.
  have hneeds : (n : ℚ) * (n * a) < s.numBlocks.value ∨ (n : Int) < forPads := by
    rcases lt_or_ge (n : Int) forBlocks with hlow | hhigh
    · exact .inl (lt_heightForBlocks ha hratio hblocks hneed hn_le hlow)
    · exact .inr (by omega)
  have hwidth_le : (n : ℚ) * a ≤ 32766 * 2 ^ 16 :=
    mul_le_mul (by exact_mod_cast hn_le) hratio ha.pos.le (by norm_num)
  have hwidth_pos : 0 < (n : ℚ) * a := mul_pos (by exact_mod_cast hn) ha.pos
  have hslots : (n : Int) < forPads → 2 * io * (n * a + n) * 2 ^ 50 < (pads * (2 ^ 50 + 1) : ℚ) ∧
      ∀ width : Nat, (n : ℚ) * a = width → pads ≤ 2 ^ 50 → 2 * io * (width + n) < pads := by
    exact slots_lt ha hratio hio hcell hcount hneed_pads hn hn_few
  constructor
  · rw [hcount, Int.cast_natCast, Int.cast_natCast]
    exact hneeds.imp_right fun hlow => (hslots hlow).1
  · have hceil := Nat.ceil_lt_add_one hwidth_pos.le
    have hceil_few : ⌈(n : ℚ) * a⌉₊ < 2 ^ 53 := by
      have hlt' : ((⌈(n : ℚ) * a⌉₊ : ℕ) : ℚ) < 2 ^ 53 := by linarith
      exact_mod_cast hlt'
    obtain ⟨w, hw, hle⟩ := ha.scaleUp_le hn_few hceil_few (Nat.le_ceil _)
    have hle' : (w : ℚ) ≤ (⌈(n : ℚ) * a⌉₊ : ℕ) := by exact_mod_cast hle
    exact ⟨w, hw, hle'.trans_lt hceil⟩
  · intro w hw
    have hw_pos : 0 < w := by
      rw [← hw] at hwidth_pos
      exact_mod_cast hwidth_pos
    obtain ⟨k, rfl⟩ := Int.eq_ofNat_of_zero_le hw_pos.le
    rw [Int.cast_natCast] at hw
    have hk_few : k < 2 ^ 53 := by
      have hlt' : (k : ℚ) < 2 ^ 53 := by linarith
      exact_mod_cast hlt'
    refine ⟨ha.scaleUp_whole hn hn_few hk_few hw.symm, fun hfew => ?_⟩
    rcases hneeds with hlow | hlow
    · rw [← hw] at hlow
      have hcells : (n : Int) * k < s.numBlocks.value := by exact_mod_cast hlow
      exact .inl (Int.mul_comm (n : Int) k ▸ hcells)
    · have hbound := (hslots hlow).2 k hw.symm (by omega)
      rw [hcount]
      exact .inr (by unfold ioSlots; exact_mod_cast hbound)

end Sizing

/-- A height is chosen for a circuit only if every lower one is too low: the grid of that height, at
the width that the aspect ratio gives it exactly, has no room for the blocks or none for the
pads. -/
theorem layout_smallest {s : Sizing} {ioRat : Int} {g : GridLayout} (hs : s.check = .ok ())
    (hio : 1 ≤ ioRat) (hchosen : s.fixedSize = none) (h : s.layout ioRat = .ok g) :
    ∃ a, s.aspectRatio.Ratio a ∧
      ∀ n : Nat, 1 ≤ n → (n : Int) < g.height.value → s.TooLow ioRat a n := by
  obtain ⟨hblocks, hpads, a, ha⟩ := Sizing.check_ok hs
  obtain ⟨hsize, -, -, hwidth, hheight, hcell⟩ := Sizing.layout_ok h
  obtain ⟨io, rfl⟩ := Int.eq_ofNat_of_zero_le (show 0 ≤ ioRat by omega)
  rcases Sizing.gridSize_ok hsize with ⟨hfixed, -⟩ | ⟨-, hauto⟩
  · cases hchosen.symm.trans hfixed
  obtain ⟨rows, -, hrows, -, hexact, -⟩ := Sizing.exists_height ha hauto hheight
  have hratio := Sizing.ratio_le ha.pos hrows hexact hwidth
  refine ⟨a, ha, fun n hn hlt => ?_⟩
  exact Sizing.tooLow ha hratio hblocks hpads (by omega) hcell hauto hheight hn hlt

/-- Ten blocks need four rows of a square grid, as three are too few. -/
theorem layout_smallest_ten_blocks :
    let s : Sizing := { numBlocks := 10, numPads := 3 }
    s.layout 2 = .ok { width := 4, height := 4, ioRat := 2 } ∧
      ∃ a, s.aspectRatio.Ratio a ∧ s.TooLow 2 a 3 := by
  intro s
  have hs : s.check = .ok () := toOption_ok.1 (by decide +kernel)
  have hlayout : s.layout 2 = .ok { width := 4, height := 4, ioRat := 2 } :=
    toOption_ok.1 (by decide +kernel)
  obtain ⟨a, ha, hlow⟩ := layout_smallest hs (by decide) rfl hlayout
  exact ⟨hlayout, a, ha, hlow 3 (by decide) (by decide)⟩

/-- A lower grid may still be large enough at the width that its height is given. Two blocks at the
ratio of three to two get two rows of three columns, where one row of two would do. At the ratio of
one to five, 36 pads get six rows of two columns for a product that is rounded down, where five rows
of one column have 36 slots. -/
theorem layout_not_smallest :
    let s : Sizing := { numBlocks := 2, numPads := 0
                        aspectRatio := .real ((Binary64.nearestInt 3).div (.nearestInt 2)) }
    let s' : Sizing := { numBlocks := 0, numPads := 36
                         aspectRatio := .real ((Binary64.nearestInt 1).div (.nearestInt 5)) }
    (s.check = .ok () ∧ s.layout 1 = .ok { width := 3, height := 2, ioRat := 1 } ∧
      s.aspectRatio.scaleUp 1 = .ok 2 ∧
      ¬ (2 * 1 < s.numBlocks.value ∨ Sizing.ioSlots 1 2 1 < s.numPads.value)) ∧
    s'.check = .ok () ∧ s'.layout 3 = .ok { width := 2, height := 6, ioRat := 3 } ∧
      s'.aspectRatio.scaleUp 5 = .ok 1 ∧
      ¬ (1 * 5 < s'.numBlocks.value ∨ Sizing.ioSlots 3 1 5 < s'.numPads.value) := by
  intro s s'
  refine ⟨⟨toOption_ok.1 (by decide +kernel), toOption_ok.1 (by decide +kernel),
    toOption_ok.1 (by decide +kernel), by decide +kernel⟩, toOption_ok.1 (by decide +kernel),
    toOption_ok.1 (by decide +kernel), toOption_ok.1 (by decide +kernel), by decide +kernel⟩

end Fabric
