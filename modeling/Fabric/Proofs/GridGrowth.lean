import Fabric.Proofs.GridFaults

/-!
# Grids grow with the circuit

Each operation on which the size of a grid depends keeps the order of what it is given, and the
quotient reverses it in the divisor. So of two sizes that are chosen for the same aspect ratio, the
one for no more blocks and pads and no smaller I/O capacity is no wider and no higher
(`gridSize_mono`). Rounded operations keep the order because rounding does; where one overflows,
infinity stands above all else as a result and makes a quotient vanish as a divisor.
-/

namespace Fabric

namespace Binary64

/-! ## Magnitudes -/

namespace Magnitude

variable {a a' b b' : Magnitude}

theorem nearest_mono {n d n' d' : Nat} (hd : 0 < d) (hd' : 0 < d') (h : n * d' ≤ n' * d) :
    (nearest n d).ordinal ≤ (nearest n' d').ordinal := by
  refine nearestUnits_mono hd hd' ?_
  rw [Nat.mul_right_comm, Nat.mul_right_comm n']
  exact Nat.mul_le_mul_right _ h

theorem mul_mono (ha : a.ordinal ≤ a'.ordinal) (hb : b.ordinal ≤ b'.ordinal)
    (ha' : a'.isInfinite = false) (hb' : b'.isInfinite = false) :
    (a.mul b).ordinal ≤ (a'.mul b').ordinal := by
  rw [mul_eq (isInfinite_of_ordinal_le ha ha') (isInfinite_of_ordinal_le hb hb'), mul_eq ha' hb']
  refine nearestUnits_mono unitsPerOne_pos unitsPerOne_pos (Nat.mul_le_mul_right _ ?_)
  exact Nat.mul_le_mul (units_le_of_ordinal_le ha) (units_le_of_ordinal_le hb)

theorem isZero_of_ordinal_le (h : a.ordinal ≤ b.ordinal) (ha : a.isZero = false) :
    b.isZero = false := by
  have hne := beq_eq_false_iff_ne.1 ha
  exact beq_eq_false_iff_ne.2 (by omega)

/-- A quotient grows with what is divided and shrinks with the divisor, which may be infinite. -/
theorem div_mono (ha : a.ordinal ≤ a'.ordinal) (hb : b'.ordinal ≤ b.ordinal)
    (ha' : a'.isInfinite = false) (hzero : b'.isZero = false) :
    (a.div b).ordinal ≤ (a'.div b').ordinal := by
  have hfin := isInfinite_of_ordinal_le ha ha'
  have hzero' := isZero_of_ordinal_le hb hzero
  cases hinf : b.isInfinite with
  | true =>
    have hvanish : a.div b = zero := by
      unfold div
      rw [hfin, hzero', hinf]
      rfl
    rw [hvanish]
    exact Nat.zero_le _
  | false =>
    have hinf' := isInfinite_of_ordinal_le hb hinf
    rw [div_eq hfin hinf hzero', div_eq ha' hinf' hzero]
    refine nearest_mono (units_pos hzero') (units_pos hzero) ?_
    exact Nat.mul_le_mul (units_le_of_ordinal_le ha) (units_le_of_ordinal_le hb)

/-- A root in half units, with a quarter unit for a rest, grows with the square. -/
theorem halfRoot_mono {square square' : Nat} (h : square ≤ square') :
    2 * Nat.sqrt square + (if Nat.sqrt square * Nat.sqrt square = square then 0 else 1) ≤
      2 * Nat.sqrt square' +
        (if Nat.sqrt square' * Nat.sqrt square' = square' then 0 else 1) := by
  have hroot := Nat.sqrt_le_sqrt h
  have hbelow := Nat.sqrt_le square
  rcases Nat.lt_or_eq_of_le hroot with hlt | heq
  · split <;> split <;> omega
  · -- With the same root, what is not above an exact square is this square.
    rw [← heq]
    split <;> split <;> omega

theorem sqrt_mono (h : a.ordinal ≤ a'.ordinal) : a.sqrt.ordinal ≤ a'.sqrt.ordinal := by
  cases hinf : a'.isInfinite with
  | true =>
    have hroot : a'.sqrt = infinity := by
      unfold sqrt
      rw [hinf]
      rfl
    rw [hroot]
    exact a.sqrt.ordinal_le
  | false =>
    have hfin := isInfinite_of_ordinal_le h hinf
    have hunits := Nat.mul_le_mul_left 4 (Nat.mul_le_mul_right unitsPerOne
      (units_le_of_ordinal_le h))
    unfold sqrt
    rw [hfin, hinf, if_neg Bool.false_ne_true]
    exact nearestUnits_mono (by decide) (by decide)
      (Nat.mul_le_mul_right 4 (halfRoot_mono hunits))

theorem ceil_mono (h : a.ordinal ≤ a'.ordinal) : a.ceil ≤ a'.ceil :=
  Nat.div_le_div_right (Nat.add_le_add_right (units_le_of_ordinal_le h) _)

end Magnitude

/-! ## Values without a sign -/

/-- Two values without a sign, of which the first is not above the second. -/
inductive Rises : Binary64 → Binary64 → Prop where
  | intro {a a' : Magnitude} (h : a.ordinal ≤ a'.ordinal) :
    Rises (.signed false a) (.signed false a')

section Rises

variable {x x' y y' z z' : Binary64}

theorem rises_ofInt {n n' : Nat} (h : n ≤ n') (hx : ofInt n = .ok x) (hx' : ofInt n' = .ok x') :
    Rises x x' := by
  obtain ⟨rfl, -⟩ := ofInt_ok hx
  obtain ⟨rfl, -⟩ := ofInt_ok hx'
  exact .intro (Magnitude.nearest_mono Nat.one_pos Nat.one_pos (Nat.mul_le_mul_right 1 h))

theorem isFinite_signed {negative : Bool} {m : Magnitude} :
    (signed negative m).isFinite = true ↔ m.isInfinite = false := by
  change (!m.isInfinite) = true ↔ m.isInfinite = false
  rw [Bool.not_eq_true']

theorem isFinite_of_ofInt {n : Nat} (hx : ofInt n = .ok x) : x.isFinite = true := by
  obtain ⟨rfl, hfin⟩ := ofInt_ok hx
  exact isFinite_signed.2 hfin

theorem Rises.mul (hx : Rises x x') (hy : Rises y y') (hx' : x'.isFinite = true)
    (hy' : y'.isFinite = true) : Rises (x.mul y) (x'.mul y') := by
  obtain ⟨ha⟩ := hx
  obtain ⟨hb⟩ := hy
  rw [isFinite_signed] at hx' hy'
  rw [mul_signed hx' hy', mul_signed (Magnitude.isInfinite_of_ordinal_le ha hx')
    (Magnitude.isInfinite_of_ordinal_le hb hy')]
  exact .intro (Magnitude.mul_mono ha hb hx' hy')

theorem Rises.quotient (hx : Rises x x') (hy : Rises y' y) (hx' : x'.isFinite = true)
    (hz : x.quotient y = .ok z) (hz' : x'.quotient y' = .ok z') : Rises z z' := by
  obtain ⟨ha⟩ := hx
  obtain ⟨hb⟩ := hy
  rw [isFinite_signed] at hx'
  have hzero := isZero_of_quotient hz'
  rw [quotient_signed (Magnitude.isInfinite_of_ordinal_le ha hx') (isZero_of_quotient hz)] at hz
  rw [quotient_signed hx' hzero] at hz'
  cases hz
  cases hz'
  exact .intro (Magnitude.div_mono ha hb hx' hzero)

theorem Rises.sqrt (h : Rises x x') : Rises x.sqrt x'.sqrt := by
  obtain ⟨ha⟩ := h
  exact .intro (Magnitude.sqrt_mono ha)

theorem Rises.ceil {c c' : Int} (h : Rises x x') (hc : x.ceil = .ok c) (hc' : x'.ceil = .ok c') :
    c ≤ c' := by
  obtain ⟨ha⟩ := h
  obtain ⟨-, rfl⟩ := ceil_ok hc
  obtain ⟨-, rfl⟩ := ceil_ok hc'
  exact Int.ofNat_le.2 (Magnitude.ceil_mono ha)

end Rises

end Binary64

open Binary64 (Rises rises_ofInt isFinite_of_ofInt isFinite_signed)

/-! ## Aspect ratios -/

namespace Number

variable {r : Number} {a : ℚ} (h : r.Ratio a)

include h

theorem Ratio.divideInto_mono {n n' : Nat} (hn : n ≤ n') {x x' : Binary64}
    (hx : r.divideInto n = .ok x) (hx' : r.divideInto n' = .ok x') : Rises x x' := by
  cases h with
  | @whole m hm =>
    obtain ⟨d, hd⟩ := Int.eq_ofNat_of_zero_le hm.le
    have hpos : 0 < d := by omega
    change Binary64.quotientOfInts n m.value = .ok x at hx
    change Binary64.quotientOfInts n' m.value = .ok x' at hx'
    rw [hd] at hx hx'
    rw [Binary64.quotientOfInts_ok hpos hx, Binary64.quotientOfInts_ok hpos hx']
    exact .intro (Binary64.Magnitude.nearest_mono hpos hpos (Nat.mul_le_mul_right d hn))
  | @real m hzero hfin =>
    obtain ⟨y, hy, hx⟩ := except_bind_ok.1 hx
    obtain ⟨y', hy', hx'⟩ := except_bind_ok.1 hx'
    exact (rises_ofInt hn hy hy').quotient (.intro le_rfl) (isFinite_of_ofInt hy') hx hx'

theorem Ratio.scaleUp_mono {n n' : Nat} (hn : n ≤ n') {w w' : Int} (hw : r.scaleUp n = .ok w)
    (hw' : r.scaleUp n' = .ok w') : w ≤ w' := by
  cases h with
  | @whole m hm =>
    obtain rfl : n * m.value = w := Except.ok.inj hw
    obtain rfl : n' * m.value = w' := Except.ok.inj hw'
    exact Int.mul_le_mul_of_nonneg_right (Int.ofNat_le.2 hn) hm.le
  | @real m hzero hfin =>
    obtain ⟨y, hy, hw⟩ := except_bind_ok.1 hw
    obtain ⟨y', hy', hw'⟩ := except_bind_ok.1 hw'
    exact ((rises_ofInt hn hy hy').mul (.intro le_rfl) (isFinite_of_ofInt hy')
      (isFinite_signed.2 hfin)).ceil hw hw'

end Number

/-! ## Sizes -/

namespace Sizing

variable {s s' : Sizing} {a : ℚ}

section SameRatio

variable (ha : s.aspectRatio.Ratio a) (hratio : s'.aspectRatio = s.aspectRatio)

include ha hratio

theorem heightForBlocks_mono (hblocks : 0 ≤ s.numBlocks.value)
    (hle : s.numBlocks.value ≤ s'.numBlocks.value) {height height' : Int}
    (h : s.heightForBlocks = .ok height) (h' : s'.heightForBlocks = .ok height') :
    height ≤ height' := by
  obtain ⟨blocks, hcount⟩ := Int.eq_ofNat_of_zero_le hblocks
  obtain ⟨blocks', hcount'⟩ := Int.eq_ofNat_of_zero_le (hblocks.trans hle)
  unfold heightForBlocks at h h'
  rw [hcount] at h
  rw [hcount', hratio] at h'
  obtain ⟨x, hx, h⟩ := except_bind_ok.1 h
  obtain ⟨x', hx', h'⟩ := except_bind_ok.1 h'
  exact (ha.divideInto_mono (by omega) hx hx').sqrt.ceil h h'

/-- A smaller I/O capacity gives no more slots per height. -/
theorem slotsPerHeight_mono {io io' : Nat} (hle : io' ≤ io) {x x' : Binary64}
    (hx : s.slotsPerHeight io = .ok x) (hx' : s'.slotsPerHeight io' = .ok x') : Rises x' x := by
  obtain ⟨y, hy, hslots, rfl⟩ := slotsPerHeight_steps hx
  obtain ⟨y', hy', -, rfl⟩ := slotsPerHeight_steps hx'
  rw [hratio] at hy'
  obtain rfl : y = y' := Except.ok.inj (hy.symm.trans hy')
  obtain ⟨m, rfl, hfin, -⟩ := ha.toReal hy
  have hrises : Rises (.signed false (.nearest (2 * io') 1)) (.signed false (.nearest (2 * io) 1)) :=
    .intro (Binary64.Magnitude.nearest_mono Nat.one_pos Nat.one_pos (by omega))
  exact hrises.mul (.intro le_rfl) (isFinite_signed.2 hslots)
    (isFinite_signed.2 (Binary64.Magnitude.add_one_isInfinite hfin))

theorem heightForPads_mono (hpads : 0 ≤ s.numPads.value)
    (hle : s.numPads.value ≤ s'.numPads.value) {io io' : Nat} (hio : io' ≤ io)
    {height height' : Int} (h : s.heightForPads io = .ok height)
    (h' : s'.heightForPads io' = .ok height') : height ≤ height' := by
  obtain ⟨pads, hcount⟩ := Int.eq_ofNat_of_zero_le hpads
  obtain ⟨pads', hcount'⟩ := Int.eq_ofNat_of_zero_le (hpads.trans hle)
  obtain ⟨per, x, q, hper, hx, hq, hceil⟩ := heightForPads_steps h
  obtain ⟨per', x', q', hper', hx', hq', hceil'⟩ := heightForPads_steps h'
  rw [hcount] at hx
  rw [hcount'] at hx'
  have hslots := slotsPerHeight_mono ha hratio hio hper hper'
  have hrises := rises_ofInt (by omega) hx hx'
  exact (hrises.quotient hslots (isFinite_of_ofInt hx') hq hq').ceil hceil hceil'

end SameRatio

end Sizing

/-- Of two grids that are chosen for the same aspect ratio, the one for no more blocks, no more pads
and no smaller I/O capacity is no wider and no higher. -/
theorem gridSize_mono {s s' : Sizing} {ioRat ioRat' : Int} {width height width' height' : Count}
    (hs : s.check = .ok ()) (hchosen : s.fixedSize = none) (hchosen' : s'.fixedSize = none)
    (hratio : s'.aspectRatio = s.aspectRatio) (hio' : 1 ≤ ioRat') (hio : ioRat' ≤ ioRat)
    (hblocks : s.numBlocks.value ≤ s'.numBlocks.value)
    (hpads : s.numPads.value ≤ s'.numPads.value)
    (h : s.gridSize ioRat = .ok (width, height))
    (h' : s'.gridSize ioRat' = .ok (width', height')) :
    width.value ≤ width'.value ∧ height.value ≤ height'.value := by
  obtain ⟨hblocks_nonneg, hpads_nonneg, a, ha⟩ := Sizing.check_ok hs
  obtain ⟨io, rfl⟩ := Int.eq_ofNat_of_zero_le (show 0 ≤ ioRat by omega)
  obtain ⟨io', rfl⟩ := Int.eq_ofNat_of_zero_le (show 0 ≤ ioRat' by omega)
  have hsize : s.automaticSize io = .ok (width.value, height.value) := by
    rcases Sizing.gridSize_ok h with ⟨hfixed, -⟩ | ⟨-, hsize⟩
    · cases hchosen.symm.trans hfixed
    · exact hsize
  have hsize' : s'.automaticSize io' = .ok (width'.value, height'.value) := by
    rcases Sizing.gridSize_ok h' with ⟨hfixed, -⟩ | ⟨-, hsize'⟩
    · cases hchosen'.symm.trans hfixed
    · exact hsize'
  obtain ⟨forBlocks, forPads, hneed, hneed_pads, hmax, hscale⟩ := Sizing.automaticSize_ok hsize
  obtain ⟨forBlocks', forPads', hneed', hneed_pads', hmax', hscale'⟩ :=
    Sizing.automaticSize_ok hsize'
  have hle_blocks := Sizing.heightForBlocks_mono ha hratio hblocks_nonneg hblocks hneed hneed'
  have hle_pads :=
    Sizing.heightForPads_mono ha hratio hpads_nonneg hpads (by omega) hneed_pads hneed_pads'
  have hheight : height.value ≤ height'.value := by omega
  refine ⟨?_, hheight⟩
  obtain ⟨rows, hrows⟩ := Int.eq_ofNat_of_zero_le (show 0 ≤ height.value by omega)
  obtain ⟨rows', hrows'⟩ := Int.eq_ofNat_of_zero_le (show 0 ≤ height'.value by omega)
  rw [hrows] at hscale hheight
  rw [hrows', hratio] at hscale'
  rw [hrows'] at hheight
  exact ha.scaleUp_mono (by omega) hscale hscale'

/-- More pads and a smaller I/O capacity make a narrow grid of ten blocks higher. -/
theorem gridSize_mono_tenth :
    let tenth := (Binary64.nearestInt 1).div (.nearestInt 10)
    let s : Sizing := { numBlocks := 10, numPads := 3, aspectRatio := .real tenth }
    let s' : Sizing := { numBlocks := 12, numPads := 90, aspectRatio := .real tenth }
    s.gridSize 2 = .ok (1, 10) ∧ s'.gridSize 1 = .ok (5, 41) ∧ (1 : Int) ≤ 5 ∧ (10 : Int) ≤ 41 := by
  intro tenth s s'
  have hs : s.check = .ok () := toOption_ok.1 (by decide +kernel)
  have hsize : s.gridSize 2 = .ok (1, 10) := toOption_ok.1 (by decide +kernel)
  have hsize' : s'.gridSize 1 = .ok (5, 41) := toOption_ok.1 (by decide +kernel)
  have hratio : s'.aspectRatio = s.aspectRatio := rfl
  have hblocks : s.numBlocks.value ≤ s'.numBlocks.value := show (10 : Int) ≤ 12 by decide
  have hpads : s.numPads.value ≤ s'.numPads.value := show (3 : Int) ≤ 90 by decide
  exact ⟨hsize, hsize', gridSize_mono hs rfl rfl hratio (by decide) (by decide) hblocks hpads hsize
    hsize'⟩

end Fabric
