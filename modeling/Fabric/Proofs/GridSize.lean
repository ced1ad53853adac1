import Fabric.Grid.Layout
import Fabric.Proofs.Precision
import Fabric.Proofs.Reading

/-!
# What a grid has room for

A size that is chosen for a circuit comes from rounded operations, each of which may fall short. In
exact terms they fall short by a few factors of `slack`. That is less than one block on a grid of at
most 32766 rows and columns, so every grid holds its blocks (`layout_holds_blocks`). The number of
slots has no such bound, as an I/O cell may hold up to `2 ^ 63` pads: every pad has a slot only as
long as there are not too many (`layout_holds_pads`), beyond which one may be left over
(`layout_lacks_slot`). A size that is fixed is compared exactly and has room for all.
-/

namespace Fabric

open Binary64.Magnitude (slack one_le_slack slack_le_two)

/-! ## Positive numbers -/

/-- A positive finite number and what it is worth. -/
inductive Number.Ratio : Number → ℚ → Prop where
  | whole {n : Count} (h : 0 < n.value) : Ratio (.whole n) n.value
  | real {m : Binary64.Magnitude} (hzero : m.isZero = false) (hfin : m.isInfinite = false) :
    Ratio (.real (.signed false m)) m.value

namespace Number

variable {r : Number} {a : ℚ}

theorem exists_ratio (h : r.isPositive = .ok true) : ∃ a, r.Ratio a := by
  cases r with
  | whole n =>
    obtain ⟨x, -, hn⟩ := except_bind_ok.1 h
    exact ⟨_, .whole (of_decide_eq_true (except_pure_ok.1 hn))⟩
  | real x =>
    have hx := except_pure_ok.1 h
    rw [Bool.and_eq_true] at hx
    obtain ⟨hfinite, hpos⟩ := hx
    cases x with
    | nan => cases hfinite
    | signed negative m =>
      have hplace : (0 : Int) < if negative then -(m.ordinal : Int) else m.ordinal :=
        of_decide_eq_true hpos
      cases negative with
      | true =>
        rw [if_pos rfl] at hplace
        omega
      | false =>
        rw [if_neg Bool.false_ne_true] at hplace
        have hzero : m.isZero = false := beq_eq_false_iff_ne.2 (by omega)
        exact ⟨_, .real hzero (by rwa [Binary64.isFinite, Bool.not_eq_true'] at hfinite)⟩

theorem Ratio.pos (h : r.Ratio a) : 0 < a := by
  cases h with
  | whole h => exact_mod_cast h
  | real hzero => exact Binary64.Magnitude.value_pos (Binary64.Magnitude.units_pos hzero)

theorem Ratio.toReal (h : r.Ratio a) {x : Binary64} (hx : r.toReal = .ok x) :
    ∃ m : Binary64.Magnitude, x = .signed false m ∧ m.isInfinite = false ∧
      m.value ≤ a * slack := by
  cases h with
  | @whole n hn =>
    obtain ⟨d, hd⟩ := Int.eq_ofNat_of_zero_le hn.le
    have hint : Binary64.ofInt n.value = .ok x := hx
    rw [hd] at hint ⊢
    obtain ⟨rfl, hfin⟩ := Binary64.ofInt_ok hint
    exact ⟨_, rfl, hfin, (Binary64.Magnitude.nearest_whole_error hfin).2⟩
  | @real m hzero hfin =>
    cases hx
    exact ⟨m, rfl, hfin, le_mul_of_one_le_right m.value_nonneg one_le_slack⟩

theorem Ratio.divideInto (h : r.Ratio a) {n : Nat} {x : Binary64} (hx : r.divideInto n = .ok x) :
    ∃ q : Binary64.Magnitude, x = .signed false q ∧ (q.isInfinite = false →
      ∀ {y : ℚ}, 1 ≤ y → q.value ≤ y → (n : ℚ) ≤ a * (y * slack ^ 2)) := by
  have ha := h.pos
  have hslack := one_le_slack
  cases h with
  | @whole m hm =>
    obtain ⟨d, hd⟩ := Int.eq_ofNat_of_zero_le hm.le
    have hpos : 0 < d := by omega
    have hquotient : Binary64.quotientOfInts n m.value = .ok x := hx
    rw [hd] at ha hquotient ⊢
    refine ⟨_, Binary64.quotientOfInts_ok hpos hquotient, fun hqfin y hy hqy => ?_⟩
    have hdiv := (Binary64.Magnitude.rounds_nearest hpos hqfin).exact_le hy hqy
    rw [Int.cast_natCast] at ha ⊢
    rw [div_le_iff₀ ha] at hdiv
    have hmul := le_mul_of_one_le_right (hdiv.trans' (Nat.cast_nonneg n)) hslack
    calc (n : ℚ) ≤ y * slack * d := hdiv
      _ ≤ y * slack * d * slack := hmul
      _ = d * (y * slack ^ 2) := by ring
  | @real m hzero hfin =>
    obtain ⟨x', hx', hq⟩ := except_bind_ok.1 hx
    obtain ⟨rfl, hi⟩ := Binary64.ofInt_ok hx'
    obtain ⟨-, q, rfl, hrounds⟩ := Binary64.quotient_ok hi hfin hq
    refine ⟨q, rfl, fun hqfin y hy hqy => ?_⟩
    have hdiv := (hrounds hqfin).exact_le hy hqy
    rw [div_le_iff₀ ha] at hdiv
    calc (n : ℚ) ≤ (Binary64.Magnitude.nearest n 1).value * slack :=
          (Binary64.Magnitude.nearest_whole_error hi).1
      _ ≤ y * slack * m.value * slack := mul_le_mul_of_nonneg_right hdiv (by linarith)
      _ = m.value * (y * slack ^ 2) := by ring

/-- A width is at least one, and falls short of the exact one by at most one rounding. -/
theorem Ratio.scaleUp (h : r.Ratio a) {n : Nat} {w : Int} (hn : 1 ≤ n) (hlt : n < 2 ^ 53)
    (hw : r.scaleUp n = .ok w) : 1 ≤ w ∧ (n : ℚ) * a ≤ w * slack := by
  cases h with
  | @whole m hm =>
    have hproduct : n * m.value = w := Except.ok.inj hw
    have hpos : 0 < w := hproduct ▸ Int.mul_pos (by omega) hm
    refine ⟨hpos, ?_⟩
    have hcast : (n : ℚ) * m.value = w := by exact_mod_cast hproduct
    rw [hcast]
    exact le_mul_of_one_le_right (by exact_mod_cast hpos.le) one_le_slack
  | @real m hzero hfin =>
    obtain ⟨x, hx, hceil⟩ := except_bind_ok.1 hw
    obtain ⟨rfl, hi⟩ := Binary64.ofInt_ok hx
    have hvalue := (Binary64.Magnitude.nearest_whole hlt).2
    rw [Binary64.mul_signed hi hfin] at hceil
    obtain ⟨hpfin, rfl⟩ := Binary64.ceil_ok hceil
    have hone : (1 : ℚ) ≤ (Binary64.Magnitude.nearest n 1).value := by
      rw [hvalue]
      exact_mod_cast hn
    have hpos := Binary64.Magnitude.value_pos
      (Binary64.Magnitude.units_mul_pos hone (Binary64.Magnitude.units_pos hzero) hpfin)
    have hceil_pos : 1 ≤ ((Binary64.Magnitude.nearest n 1).mul m).ceil := by
      by_contra hnot
      have hle := Binary64.Magnitude.ceil_le_iff.1 (Nat.le_of_lt_succ (not_le.1 hnot))
      rw [Nat.cast_zero] at hle
      linarith
    refine ⟨by exact_mod_cast hceil_pos, ?_⟩
    have hrounds := (Binary64.Magnitude.rounds_mul hpfin).exact_le (by exact_mod_cast hceil_pos)
      (Binary64.Magnitude.ceil_le_iff.1 le_rfl)
    rw [hvalue] at hrounds
    exact_mod_cast hrounds

end Number

/-! ## Sizes -/

namespace Sizing

variable {s : Sizing} {ioRat : Int} {a : ℚ}

theorem check_ok (h : s.check = .ok ()) :
    0 ≤ s.numBlocks.value ∧ 0 ≤ s.numPads.value ∧ ∃ a, s.aspectRatio.Ratio a := by
  unfold check at h
  split at h
  · cases h
  · rename_i hcounts
    obtain ⟨positive, hpositive, h⟩ := except_bind_ok.1 h
    rw [mapError_ok] at hpositive
    cases positive with
    | true => exact ⟨by omega, by omega, Number.exists_ratio hpositive⟩
    | false =>
      obtain ⟨text, -, h⟩ := except_bind_ok.1 h
      cases h

/-- The height for the blocks falls short by at most four roundings. -/
theorem blocks_le (ha : s.aspectRatio.Ratio a) (hblocks : 0 ≤ s.numBlocks.value) {needed : Int}
    (hneeded : s.heightForBlocks = .ok needed) {n : Nat} (hn : 1 ≤ n) (hle : needed ≤ n) :
    (s.numBlocks.value : ℚ) ≤ a * (n ^ 2 * slack ^ 4) := by
  obtain ⟨blocks, hcount⟩ := Int.eq_ofNat_of_zero_le hblocks
  have hn' : (1 : ℚ) ≤ n := by exact_mod_cast hn
  unfold heightForBlocks at hneeded
  rw [hcount] at hneeded ⊢
  obtain ⟨x, hx, hceil⟩ := except_bind_ok.1 hneeded
  obtain ⟨q, rfl, hbound⟩ := ha.divideInto hx
  obtain ⟨hfin, rfl⟩ := Binary64.ceil_ok hceil
  have hroot : q.sqrt.value ≤ n := Binary64.Magnitude.ceil_le_iff.1 (by exact_mod_cast hle)
  have hvalue := Binary64.Magnitude.value_le_of_sqrt_le hn hfin hroot
  have hone : (1 : ℚ) ≤ (n * slack) ^ 2 :=
    one_le_pow₀ (one_le_mul_of_one_le_of_one_le hn' one_le_slack)
  have hfinal := hbound (Binary64.Magnitude.isInfinite_of_sqrt hfin) hone hvalue
  rw [Int.cast_natCast]
  linarith

/-- One more than a ratio is at most two roundings more than it should be. -/
theorem sides_le {m : Binary64.Magnitude} (hpos : 0 < a) (hratio : a ≤ 2 ^ 16)
    (hfin : m.isInfinite = false) (hle : m.value ≤ a * slack) :
    ((Binary64.Magnitude.nearest 1 1).add m).isInfinite = false ∧
      ((Binary64.Magnitude.nearest 1 1).add m).value ≤ (1 + a) * slack ^ 2 := by
  have hslack := one_le_slack
  obtain ⟨hone_fin, hone⟩ := @Binary64.Magnitude.nearest_whole 1 (by decide)
  rw [Nat.cast_one] at hone
  have hmul : a * slack ≤ 2 ^ 16 * 2 :=
    mul_le_mul hratio slack_le_two (by linarith) (by norm_num)
  have hsum_fin : ((Binary64.Magnitude.nearest 1 1).add m).isInfinite = false := by
    apply Binary64.Magnitude.isInfinite_add (k := 18) hone_fin hfin (by decide)
    rw [hone]
    linarith
  have hexact : (Binary64.Magnitude.nearest 1 1).value + m.value ≤ (1 + a) * slack := by
    rw [hone]
    linarith
  have hsum := (Binary64.Magnitude.rounds_add hsum_fin).value_le
    (one_le_mul_of_one_le_of_one_le (by linarith) hslack) hexact
  exact ⟨hsum_fin, by linarith⟩

/-- The steps in which the slots per height are counted. -/
theorem slotsPerHeight_steps {io : Nat} {x : Binary64} (h : s.slotsPerHeight io = .ok x) :
    ∃ ratio, s.aspectRatio.toReal = .ok ratio ∧
      (Binary64.Magnitude.nearest (2 * io) 1).isInfinite = false ∧
      x = (Binary64.signed false (.nearest (2 * io) 1)).mul ((Binary64.nearestInt 1).add ratio) := by
  obtain ⟨ratio, hratio, h⟩ := except_bind_ok.1 h
  obtain ⟨slots, hslots, h⟩ := except_bind_ok.1 h
  have hdouble : (2 * (io : Int)) = (2 * io : Nat) := by omega
  rw [hdouble] at hslots
  obtain ⟨rfl, hfin⟩ := Binary64.ofInt_ok hslots
  exact ⟨ratio, hratio, hfin, (except_pure_ok.1 h).symm⟩

/-- The steps in which the height for the pads is found. -/
theorem heightForPads_steps {needed : Int} (h : s.heightForPads ioRat = .ok needed) :
    ∃ perHeight pads height, s.slotsPerHeight ioRat = .ok perHeight ∧
      Binary64.ofInt s.numPads.value = .ok pads ∧ pads.quotient perHeight = .ok height ∧
      height.ceil = .ok needed := by
  obtain ⟨perHeight, hper, h⟩ := except_bind_ok.1 h
  obtain ⟨pads, hpads, h⟩ := except_bind_ok.1 h
  obtain ⟨height, hheight, hceil⟩ := except_bind_ok.1 h
  exact ⟨perHeight, pads, height, hper, hpads, hheight, hceil⟩

/-- The slots per height are at most four roundings more than there are. -/
theorem slotsPerHeight_ok (ha : s.aspectRatio.Ratio a) (hratio : a ≤ 2 ^ 16) {io : Nat}
    (hio : 1 ≤ io) (hcell : (io : Int) < cellLimit) {x : Binary64}
    (hx : s.slotsPerHeight io = .ok x) : ∃ p : Binary64.Magnitude, x = .signed false p ∧
      p.isInfinite = false ∧ p.value ≤ 2 * io * (1 + a) * slack ^ 4 := by
  have hpos := ha.pos
  have hslack := one_le_slack
  have hslack_le := slack_le_two
  have hio' : (1 : ℚ) ≤ io := by exact_mod_cast hio
  have hlimit : (io : ℚ) < 2 ^ 63 := by
    have hnat : io < 2 ^ 63 := Int.ofNat_lt.1 hcell
    exact_mod_cast hnat
  obtain ⟨y, hy, hslots_fin, rfl⟩ := slotsPerHeight_steps hx
  obtain ⟨ratio, rfl, hratio_fin, hratio_le⟩ := ha.toReal hy
  obtain ⟨hsides_fin, hsides⟩ := sides_le hpos hratio hratio_fin hratio_le
  have hslots := (Binary64.Magnitude.nearest_whole_error hslots_fin).2
  rw [Nat.cast_mul, Nat.cast_ofNat] at hslots
  generalize hsum : (Binary64.Magnitude.nearest 1 1).add ratio = sides at hsides_fin hsides
  have hproduct : (Binary64.Magnitude.nearest (2 * io) 1).value * sides.value ≤
      2 * io * (1 + a) * slack ^ 3 := by
    calc _ ≤ 2 * io * slack * ((1 + a) * slack ^ 2) :=
          mul_le_mul hslots hsides sides.value_nonneg (by positivity)
      _ = 2 * io * (1 + a) * slack ^ 3 := by ring
  have hproduct_fin :
      ((Binary64.Magnitude.nearest (2 * io) 1).mul sides).isInfinite = false := by
    apply Binary64.Magnitude.isInfinite_mul (k := 100) hslots_fin hsides_fin (by decide)
    have hbound : 2 * io * (1 + a) * slack ^ 3 ≤ 2 * 2 ^ 63 * (1 + 2 ^ 16) * 2 ^ 3 := by gcongr
    apply (hproduct.trans hbound).trans_lt
    norm_num
  refine ⟨_, ?_, hproduct_fin, ?_⟩
  · rw [← hsum]
    exact Binary64.mul_signed hslots_fin (hsum ▸ hsides_fin)
  · have hone : 1 ≤ 2 * io * (1 + a) :=
      one_le_mul_of_one_le_of_one_le (by linarith) (by linarith)
    have hle := (Binary64.Magnitude.rounds_mul hproduct_fin).value_le
      (one_le_mul_of_one_le_of_one_le hone (one_le_pow₀ hslack)) hproduct
    linarith

/-- The height for the pads falls short by at most six roundings. -/
theorem pads_le (ha : s.aspectRatio.Ratio a) (hratio : a ≤ 2 ^ 16) {io : Nat} (hio : 1 ≤ io)
    (hcell : (io : Int) < cellLimit) (hpads : 0 ≤ s.numPads.value) {needed : Int}
    (hneeded : s.heightForPads io = .ok needed) {n : Nat} (hn : 1 ≤ n) (hle : needed ≤ n) :
    (s.numPads.value : ℚ) ≤ 2 * io * (1 + a) * n * slack ^ 6 := by
  have hpos := ha.pos
  have hslack := one_le_slack
  obtain ⟨pads, hcount⟩ := Int.eq_ofNat_of_zero_le hpads
  have hn' : (1 : ℚ) ≤ n := by exact_mod_cast hn
  obtain ⟨x, y, z, hx, hy, hz, hceil⟩ := heightForPads_steps hneeded
  obtain ⟨p, rfl, hpfin, hp⟩ := slotsPerHeight_ok ha hratio hio hcell hx
  rw [hcount] at hy ⊢
  obtain ⟨rfl, hfin⟩ := Binary64.ofInt_ok hy
  obtain ⟨hzero, q, rfl, hrounds⟩ := Binary64.quotient_ok hfin hpfin hz
  obtain ⟨hqfin, rfl⟩ := Binary64.ceil_ok hceil
  have hq : q.value ≤ n := Binary64.Magnitude.ceil_le_iff.1 (by exact_mod_cast hle)
  have hdiv := (hrounds hqfin).exact_le hn' hq
  rw [div_le_iff₀ (Binary64.Magnitude.value_pos (Binary64.Magnitude.units_pos hzero))] at hdiv
  have hnonneg : (0 : ℚ) ≤ n * slack := by positivity
  rw [Int.cast_natCast]
  calc (pads : ℚ) ≤ (Binary64.Magnitude.nearest pads 1).value * slack :=
        (Binary64.Magnitude.nearest_whole_error hfin).1
    _ ≤ n * slack * p.value * slack := mul_le_mul_of_nonneg_right hdiv (by linarith)
    _ ≤ n * slack * (2 * io * (1 + a) * slack ^ 4) * slack :=
        mul_le_mul_of_nonneg_right (mul_le_mul_of_nonneg_left hp hnonneg) (by linarith)
    _ = 2 * io * (1 + a) * n * slack ^ 6 := by ring

theorem automaticSize_ok {width height : Int} (h : s.automaticSize ioRat = .ok (width, height)) :
    ∃ forBlocks forPads, s.heightForBlocks = .ok forBlocks ∧ s.heightForPads ioRat = .ok forPads ∧
      height = max (max forBlocks forPads) 1 ∧ s.aspectRatio.scaleUp height = .ok width := by
  obtain ⟨forBlocks, hblocks, h⟩ := except_bind_ok.1 h
  obtain ⟨forPads, hpads, h⟩ := except_bind_ok.1 h
  obtain ⟨w, hw, h⟩ := except_bind_ok.1 h
  cases except_pure_ok.1 h
  exact ⟨forBlocks, forPads, hblocks, hpads, rfl, hw⟩

/-- The height that is chosen is what blocks and pads need, and the width falls short of the exact
one by at most one rounding. -/
theorem exists_height (ha : s.aspectRatio.Ratio a) {width height : Int}
    (h : s.automaticSize ioRat = .ok (width, height)) (hheight : height ≤ maxDimension) :
    ∃ n : Nat, height = n ∧ 1 ≤ n ∧ 1 ≤ width ∧ (n : ℚ) * a ≤ width * slack ∧
      (∃ forBlocks ≤ (n : Int), s.heightForBlocks = .ok forBlocks) ∧
      ∃ forPads ≤ (n : Int), s.heightForPads ioRat = .ok forPads := by
  obtain ⟨forBlocks, forPads, hblocks, hpads, hmax, hscale⟩ := automaticSize_ok h
  have hone : 1 ≤ height := hmax ▸ le_max_right _ _
  have hneeded : max forBlocks forPads ≤ height := hmax ▸ le_max_left _ _
  obtain ⟨n, rfl⟩ := Int.eq_ofNat_of_zero_le (Int.le_of_lt hone)
  unfold maxDimension at hheight
  obtain ⟨hwidth, hexact⟩ := ha.scaleUp (by omega) (by omega) hscale
  exact ⟨n, rfl, by omega, hwidth, hexact, ⟨forBlocks, (le_max_left _ _).trans hneeded, hblocks⟩,
    ⟨forPads, (le_max_right _ _).trans hneeded, hpads⟩⟩

/-- A ratio is bounded by the width. -/
theorem ratio_le (hpos : 0 < a) {width : Int} {n : Nat} (hn : 1 ≤ n)
    (hexact : (n : ℚ) * a ≤ width * slack) (hwidth : width ≤ maxDimension) : a ≤ 2 ^ 16 := by
  have hslack := one_le_slack
  have hn' : (1 : ℚ) ≤ n := by exact_mod_cast hn
  have hwidth' : (width : ℚ) ≤ 32766 := by exact_mod_cast hwidth
  calc a ≤ n * a := le_mul_of_one_le_left hpos.le hn'
    _ ≤ width * slack := hexact
    _ ≤ 32766 * slack := mul_le_mul_of_nonneg_right hwidth' (by linarith)
    _ ≤ 2 ^ 16 := by
      unfold slack
      norm_num

theorem layout_ok {g : GridLayout} (h : s.layout ioRat = .ok g) :
    s.gridSize ioRat = .ok (g.width, g.height) ∧ g.ioRat = ioRat ∧
      ¬ (g.width.value = 1 ∧ g.height.value = 1 ∧ s.numBlocks.value ≠ 0) ∧
      g.width.value ≤ maxDimension ∧ g.height.value ≤ maxDimension ∧ ioRat < cellLimit := by
  obtain ⟨⟨width, height⟩, hsize, h⟩ := except_bind_ok.1 h
  simp only at h
  split at h
  · cases h
  · rename_i hplaces
    split at h
    · cases h
    · rename_i hroom
      split at h
      · cases h
      · rename_i hcell
        cases except_pure_ok.1 h
        obtain ⟨hwidth, hheight⟩ := not_or.1 hroom
        exact ⟨hsize, rfl, hplaces, not_lt.1 hwidth, not_lt.1 hheight, not_le.1 (not_or.1 hcell).2⟩

theorem isTooSmall_eq_false {width height : Int} : s.isTooSmall ioRat width height = false ↔
    1 ≤ width ∧ 1 ≤ height ∧ s.numBlocks.value ≤ width * height ∧
      s.numPads.value ≤ ioSlots ioRat width height := by
  unfold isTooSmall
  simp only [Bool.or_eq_false_iff, decide_eq_false_iff_not, not_lt, and_assoc, gt_iff_lt]

/-- A size is the one asked for, if that is not too small, or the one chosen. -/
theorem gridSize_ok {width height : Count} (h : s.gridSize ioRat = .ok (width, height)) :
    (s.fixedSize = some (width, height) ∧
      s.isTooSmall ioRat width.value height.value = false) ∨
    (s.fixedSize = none ∧ s.automaticSize ioRat = .ok (width.value, height.value)) := by
  unfold gridSize at h
  split at h
  · rename_i hfixed
    split at h
    · cases h
    · rename_i hroom
      cases h
      exact .inl ⟨hfixed, Bool.not_eq_true _ ▸ hroom⟩
  · rename_i hfixed
    split at h
    · rename_i hsize
      cases h
      exact .inr ⟨hfixed, hsize⟩
    · cases h

end Sizing

/-- A few roundings are less than one part in `2 ^ 50`. -/
theorem mul_le_of_le_mul_slack {n m : Int} {k : Nat} (hk : k ≤ 7) (hm : 0 ≤ m)
    (h : (n : ℚ) ≤ m * slack ^ k) : n * 2 ^ 50 ≤ m * (2 ^ 50 + 1) := by
  have hm' : (0 : ℚ) ≤ m := by exact_mod_cast hm
  have hpow : slack ^ k ≤ slack ^ 7 := pow_le_pow_right₀ one_le_slack hk
  have hseven : slack ^ 7 ≤ 1 + 1 / 2 ^ 50 := by
    unfold slack
    norm_num
  have hle : (n : ℚ) * 2 ^ 50 ≤ m * (2 ^ 50 + 1) := by
    have hmul := mul_le_mul_of_nonneg_left (hpow.trans hseven) hm'
    linarith
  exact_mod_cast hle

/-- A grid is at least one and at most 32766 cells wide and high and has a cell for every block. It
is more than one cell, unless there is no block. -/
theorem layout_holds_blocks {s : Sizing} {ioRat : Int} {g : GridLayout} (hs : s.check = .ok ())
    (h : s.layout ioRat = .ok g) :
    (1 ≤ g.width.value ∧ g.width.value ≤ 32766) ∧ (1 ≤ g.height.value ∧ g.height.value ≤ 32766) ∧
    s.numBlocks.value ≤ g.width.value * g.height.value ∧
    (g.width.value = 1 ∧ g.height.value = 1 → s.numBlocks.value = 0) := by
  obtain ⟨hblocks, -, a, ha⟩ := Sizing.check_ok hs
  obtain ⟨hsize, -, hplaces, hwidth, hheight, -⟩ := Sizing.layout_ok h
  have hempty : g.width.value = 1 ∧ g.height.value = 1 → s.numBlocks.value = 0 := by
    intro hone
    by_contra hne
    exact hplaces ⟨hone.1, hone.2, hne⟩
  rcases Sizing.gridSize_ok hsize with ⟨-, hroom⟩ | ⟨-, hauto⟩
  · obtain ⟨hw, hh, hfits, -⟩ := Sizing.isTooSmall_eq_false.1 hroom
    exact ⟨⟨hw, hwidth⟩, ⟨hh, hheight⟩, hfits, hempty⟩
  obtain ⟨n, hn, hn_pos, hw, hexact, ⟨forBlocks, hle, hneeded⟩, -⟩ :=
    Sizing.exists_height ha hauto hheight
  have hneed := Sizing.blocks_le ha hblocks hneeded hn_pos hle
  rw [hn] at hheight hempty ⊢
  refine ⟨⟨hw, hwidth⟩, ⟨by omega, hheight⟩, ?_, hempty⟩
  have hcells : g.width.value * n ≤ 32766 * 32766 :=
    Int.mul_le_mul hwidth hheight (by omega) (by omega)
  have hle : (s.numBlocks.value : ℚ) ≤ (g.width.value * n : Int) * slack ^ 5 := by
    have hn' : (0 : ℚ) ≤ n * slack ^ 4 := by
      have hslack := one_le_slack
      positivity
    calc (s.numBlocks.value : ℚ) ≤ a * (n ^ 2 * slack ^ 4) := hneed
      _ = n * a * (n * slack ^ 4) := by ring
      _ ≤ g.width.value * slack * (n * slack ^ 4) := mul_le_mul_of_nonneg_right hexact hn'
      _ = (g.width.value * n : Int) * slack ^ 5 := by
        push_cast
        ring
  have hmul := mul_le_of_le_mul_slack (by decide) (Int.mul_nonneg (by omega) (by omega)) hle
  omega

/-- Ten blocks fill a grid that is a tenth as wide as high. The tenth is a little too large, and the
width comes out as one because the product is rounded down. -/
theorem layout_holds_ten_blocks :
    let tenth := (Binary64.nearestInt 1).div (.nearestInt 10)
    let s : Sizing := { numBlocks := 10, numPads := 3, aspectRatio := .real tenth }
    s.layout 2 = .ok { width := 1, height := 10, ioRat := 2 } ∧ s.numBlocks.value ≤ 1 * 10 := by
  intro tenth s
  have hs : s.check = .ok () := toOption_ok.1 (by decide +kernel)
  have hlayout : s.layout 2 = .ok { width := 1, height := 10, ioRat := 2 } :=
    toOption_ok.1 (by decide +kernel)
  exact ⟨hlayout, (layout_holds_blocks hs hlayout).2.2.1⟩

/-- A grid has a slot for every pad, up to one part in `2 ^ 50`: exactly, if the size was fixed or
there are no more than `2 ^ 50` pads. -/
theorem layout_holds_pads {s : Sizing} {ioRat : Int} {g : GridLayout} (hs : s.check = .ok ())
    (hio : 1 ≤ ioRat) (h : s.layout ioRat = .ok g) :
    s.numPads.value * 2 ^ 50 ≤ g.ioSlotCount * (2 ^ 50 + 1) ∧
    (s.fixedSize ≠ none ∨ s.numPads.value ≤ 2 ^ 50 → s.numPads.value ≤ g.ioSlotCount) := by
  obtain ⟨-, hpads, a, ha⟩ := Sizing.check_ok hs
  obtain ⟨hsize, rfl, -, hwidth, hheight, hcell⟩ := Sizing.layout_ok h
  unfold GridLayout.ioSlotCount
  rcases Sizing.gridSize_ok hsize with ⟨-, hroom⟩ | ⟨hauto, hchosen⟩
  · obtain ⟨-, -, -, hfits⟩ := Sizing.isTooSmall_eq_false.1 hroom
    exact ⟨by omega, fun _ => hfits⟩
  obtain ⟨n, hn, hn_pos, hw, hexact, -, forPads, hle, hneeded⟩ :=
    Sizing.exists_height ha hchosen hheight
  obtain ⟨io, hioRat⟩ := Int.eq_ofNat_of_zero_le (show 0 ≤ g.ioRat by omega)
  rw [hioRat] at hio hcell hneeded ⊢
  rw [hn]
  have hratio := Sizing.ratio_le ha.pos hn_pos hexact hwidth
  have hneed := Sizing.pads_le ha hratio (by omega) hcell hpads hneeded hn_pos hle
  have hle : (s.numPads.value : ℚ) ≤
      (Sizing.ioSlots io g.width.value n : Int) * slack ^ 7 := by
    have hsides : (1 + a) * n ≤ (g.width.value + n) * slack := by
      have hself : (n : ℚ) ≤ n * slack := le_mul_of_one_le_right (Nat.cast_nonneg n) one_le_slack
      linarith
    have hio' : (0 : ℚ) ≤ 2 * io * slack ^ 6 := by
      have hslack := one_le_slack
      positivity
    calc (s.numPads.value : ℚ) ≤ 2 * io * (1 + a) * n * slack ^ 6 := hneed
      _ = 2 * io * slack ^ 6 * ((1 + a) * n) := by ring
      _ ≤ 2 * io * slack ^ 6 * ((g.width.value + n) * slack) :=
          mul_le_mul_of_nonneg_left hsides hio'
      _ = (Sizing.ioSlots io g.width.value n : Int) * slack ^ 7 := by
        unfold Sizing.ioSlots
        push_cast
        ring
  have hslots : 0 ≤ Sizing.ioSlots io g.width.value n :=
    Int.mul_nonneg (by omega) (by omega)
  have hmul := mul_le_of_le_mul_slack (by decide) hslots hle
  refine ⟨hmul, fun hfew => ?_⟩
  have hpads_le := hfew.resolve_left (not_not.2 hauto)
  omega

/-- Sixteen pads take all slots of a grid of two rows and two columns. -/
theorem layout_holds_sixteen_pads :
    let s : Sizing := { numBlocks := 4, numPads := 16 }
    s.layout 2 = .ok { width := 2, height := 2, ioRat := 2 } ∧
      s.numPads.value ≤ GridLayout.ioSlotCount { width := 2, height := 2, ioRat := 2 } := by
  intro s
  have hs : s.check = .ok () := toOption_ok.1 (by decide +kernel)
  have hlayout : s.layout 2 = .ok { width := 2, height := 2, ioRat := 2 } :=
    toOption_ok.1 (by decide +kernel)
  exact ⟨hlayout, (layout_holds_pads hs (by decide) hlayout).2 (.inr (by decide))⟩

/-- One pad more than `2 ^ 53` is lost when the pads are counted as a value: the grid that is chosen
has one slot less than there are pads, and it is refused as a fixed size. -/
theorem layout_lacks_slot :
    let s : Sizing := { numBlocks := 0, numPads := .number (2 ^ 53 + 1) }
    let g : GridLayout := { width := 1, height := 1, ioRat := 2 ^ 51 }
    s.check = .ok () ∧ s.layout (2 ^ 51) = .ok g ∧ g.ioSlotCount < s.numPads.value ∧
      s.isTooSmall (2 ^ 51) g.width.value g.height.value = true := by
  intro s g
  refine ⟨toOption_ok.1 (by decide +kernel), toOption_ok.1 (by decide +kernel), ?_, ?_⟩
  · decide +kernel
  · decide +kernel

end Fabric
