import Fabric.Proofs.GridSize
import Fabric.Proofs.RoundingOrder

/-!
# Sizes beyond all numbers

A circuit gets a grid, or an error of grids says why it does not, unless a number on the way is too
large: for a binary64 value, for the digits of a message or for a cell of the capacity table.
`Sizing.Unsizable` says exactly where this is so (`Sizing.layout_outcome`). Nothing is ever divided
by zero, and what is not a number does not come up.
-/

namespace Fabric

open Binary64 (Magnitude)
open Binary64.Magnitude (overflowLimit)

/-! ## Operations on positive values -/

namespace Binary64

section PositiveValues

variable {a b : Magnitude}

theorem isFinite_nearestInt (n : Nat) :
    (nearestInt n).isFinite = !(Magnitude.nearest n 1).isInfinite := by
  change (!(Magnitude.nearest (n : Int).natAbs 1).isInfinite) = _
  rw [Int.natAbs_natCast]

theorem ofInt_of_lt {n : Nat} (h : n < overflowLimit) :
    ofInt n = .ok (.signed false (.nearest n 1)) ∧ (Magnitude.nearest n 1).isInfinite = false := by
  have hfin : (Magnitude.nearest n 1).isInfinite = false := by
    rw [Bool.eq_false_iff, ne_eq, Magnitude.nearest_isInfinite Nat.one_pos]
    omega
  have hint : ofInt n = .ok (nearestInt n) := by
    unfold ofInt
    rw [isFinite_nearestInt, hfin]
    rfl
  exact ⟨hint.trans (congrArg _ (ofInt_ok hint).1), hfin⟩

theorem ofInt_of_le {n : Nat} (h : overflowLimit ≤ n) : ofInt n = .error .integerTooLarge := by
  have hinf : (Magnitude.nearest n 1).isInfinite = true := by
    rw [Magnitude.nearest_isInfinite Nat.one_pos]
    omega
  unfold ofInt
  rw [isFinite_nearestInt, hinf]
  rfl

theorem quotient_signed (ha : a.isInfinite = false) (hb : b.isZero = false) :
    (signed false a).quotient (signed false b) = .ok (.signed false (a.div b)) := by
  have hne : b.ordinal ≠ 0 := beq_eq_false_iff_ne.1 hb
  have hsame : (signed false b).same zero = false := by
    unfold same place? zero
    simpa [Magnitude.zero] using hne
  unfold quotient
  rw [hsame, if_neg Bool.false_ne_true, div, ha, hb, Bool.and_false, Bool.false_and]
  rfl

theorem ceil_signed (ha : a.isInfinite = false) : (signed false a).ceil = .ok (a.ceil : Int) := by
  unfold ceil
  simp only [ha, Bool.false_eq_true, if_false]

theorem ceil_infinite (ha : a.isInfinite = true) :
    (signed false a).ceil = .error .wholeOfInfinity := by
  unfold ceil
  simp only [ha, if_true]

/-- The next whole number above a root. -/
theorem ceil_sqrt_signed (ha : a.isInfinite = false) :
    (signed false a).sqrt.ceil = .ok (a.sqrt.ceil : Int) :=
  ceil_signed (Magnitude.sqrt_isInfinite ha)

theorem ceil_sqrt_infinite (ha : a.isInfinite = true) :
    (signed false a).sqrt.ceil = .error .wholeOfInfinity := by
  refine ceil_infinite (a := a.sqrt) ?_
  unfold Magnitude.sqrt
  rw [ha]
  rfl

end PositiveValues

/-- Whatever is below the limit may be written. -/
theorem isWritable_of_lt {n : Nat} (h : n < overflowLimit) :
    Numeral.isWritable (n : Int) = true := by
  have hdigits : overflowLimit < Nat.pow 10 Numeral.maxDigits := by decide +kernel
  exact decide_eq_true (show n < Nat.pow 10 Numeral.maxDigits by omega)

end Binary64

open Binary64 (ofInt_of_lt ofInt_of_le)

/-! ## The sizes that are chosen -/

namespace Sizing

/-- The height that is chosen for a circuit. -/
def automaticHeight (s : Sizing) (ioRat : Int) : Except NumberFault Int := do
  let forBlocks ← s.heightForBlocks
  let forPads ← s.heightForPads ioRat
  return max (max forBlocks forPads) 1

theorem automaticSize_eq (s : Sizing) (ioRat : Int) : s.automaticSize ioRat = do
    let height ← s.automaticHeight ioRat
    return (← s.aspectRatio.scaleUp height, height) := by
  unfold automaticSize automaticHeight
  cases s.heightForBlocks with
  | error fault => rfl
  | ok forBlocks =>
    cases s.heightForPads ioRat with
    | error fault => rfl
    | ok forPads => rfl

/-- Why there is neither a grid nor an error of grids: some number is too large. -/
inductive Unsizable (s : Sizing) (ioRat : Int) : NumberFault → Prop where
  /-- A count is rounded to infinity. -/
  | count {n : Int} (hfixed : s.fixedSize = none)
    (hn : n = s.numBlocks.value ∨ n = s.numPads.value ∨ n = 2 * ioRat)
    (h : (overflowLimit : Int) ≤ n) : Unsizable s ioRat .integerTooLarge
  /-- The quotient of the blocks and the aspect ratio is. -/
  | height {blocks : Nat} {m : Magnitude} (hfixed : s.fixedSize = none)
    (hblocks : s.numBlocks.value = blocks) (hratio : s.aspectRatio = .real (.signed false m))
    (h : overflowLimit * m.value ≤ (Magnitude.nearest blocks 1).value) :
    Unsizable s ioRat .wholeOfInfinity
  /-- The product of the height and the aspect ratio is. -/
  | width {height : Nat} {m : Magnitude} (hfixed : s.fixedSize = none)
    (hratio : s.aspectRatio = .real (.signed false m))
    (hheight : s.automaticHeight ioRat = .ok height)
    (h : overflowLimit ≤ (Magnitude.nearest height 1).value * m.value) :
    Unsizable s ioRat .wholeOfInfinity
  /-- A fixed size is too small, and what it offers has too many digits to be shown. -/
  | digits {width height : Count} {n : Int} (hfixed : s.fixedSize = some (width, height))
    (hsmall : s.isTooSmall ioRat width.value height.value = true)
    (hn : n = max width.value 0 * max height.value 0 ∨
      n = ioSlots ioRat width.value height.value)
    (h : Numeral.isWritable n = false) : Unsizable s ioRat .tooManyDigits
  /-- The grid has a size, but the capacity of its I/O cells does not fit a cell. -/
  | cell {width height : Count} (hsize : s.gridSize ioRat = .ok (width, height))
    (hplaces : ¬ (width.value = 1 ∧ height.value = 1 ∧ s.numBlocks.value ≠ 0))
    (hwidth : width.value ≤ maxDimension) (hheight : height.value ≤ maxDimension)
    (h : cellLimit ≤ ioRat) : Unsizable s ioRat .cellOverflow

section Chosen

variable {s : Sizing} {m : Magnitude} (hratio : s.aspectRatio = .real (.signed false m))

include hratio

theorem divideInto_eq (hzero : m.isZero = false) {n : Nat} (hlt : n < overflowLimit) :
    s.aspectRatio.divideInto n = .ok (.signed false ((Magnitude.nearest n 1).div m)) := by
  obtain ⟨hint, hfinite⟩ := ofInt_of_lt hlt
  rw [hratio]
  exact except_bind_ok.2 ⟨_, hint, Binary64.quotient_signed hfinite hzero⟩

variable (hfin : m.isInfinite = false)

include hfin

/-- The height for the blocks, or where none is found. -/
theorem heightForBlocks_cases (hzero : m.isZero = false) {blocks : Nat}
    (hblocks : s.numBlocks.value = blocks) :
    (overflowLimit ≤ blocks ∧ s.heightForBlocks = .error .integerTooLarge) ∨
    (overflowLimit * m.value ≤ (Magnitude.nearest blocks 1).value ∧
      s.heightForBlocks = .error .wholeOfInfinity) ∨
    (blocks < overflowLimit ∧ ¬ overflowLimit * m.value ≤ (Magnitude.nearest blocks 1).value ∧
      ∃ height : Nat, height < overflowLimit ∧ s.heightForBlocks = .ok height) := by
  unfold heightForBlocks
  rw [hblocks]
  rcases Nat.lt_or_ge blocks overflowLimit with hlt | hle
  · have hdivide := divideInto_eq hratio hzero hlt
    rw [← Magnitude.div_isInfinite (ofInt_of_lt hlt).2 hfin hzero]
    cases hquotient : ((Magnitude.nearest blocks 1).div m).isInfinite with
    | true =>
      exact .inr (.inl ⟨rfl, except_bind_error.2
        (.inr ⟨_, hdivide, Binary64.ceil_sqrt_infinite hquotient⟩)⟩)
    | false =>
      exact .inr (.inr ⟨hlt, Bool.false_ne_true, _,
        Magnitude.ceil_lt_overflowLimit (Magnitude.sqrt_isInfinite hquotient),
        except_bind_ok.2 ⟨_, hdivide, Binary64.ceil_sqrt_signed hquotient⟩⟩)
  · rw [hratio]
    exact .inl ⟨hle, except_bind_error.2 (.inl (except_bind_error.2 (.inl (ofInt_of_le hle))))⟩

/-- The height for the pads, or where none is found. -/
theorem heightForPads_cases {io pads : Nat} (hio : 1 ≤ io) (hpads : s.numPads.value = pads) :
    ((overflowLimit ≤ 2 * io ∨ overflowLimit ≤ pads) ∧
      s.heightForPads io = .error .integerTooLarge) ∨
    (2 * io < overflowLimit ∧ pads < overflowLimit ∧
      ∃ height : Nat, height < overflowLimit ∧ s.heightForPads io = .ok height) := by
  have hdouble : (2 * (io : Int)) = (2 * io : Nat) := by omega
  have hreal : s.aspectRatio.toReal = .ok (.signed false m) := by
    rw [hratio]
    rfl
  unfold heightForPads
  rw [hpads]
  rcases Nat.lt_or_ge (2 * io) overflowLimit with hslots | hslots
  · obtain ⟨hint, hfinite⟩ := ofInt_of_lt hslots
    obtain ⟨hone, hvalue⟩ := @Magnitude.nearest_whole 1 (by decide)
    have hsides := Magnitude.one_le_add hone hfin (Magnitude.one_le_nearest le_rfl)
    have hsides_fin := Magnitude.add_one_isInfinite hfin
    have hper : s.slotsPerHeight io = .ok (.signed false
        ((Magnitude.nearest (2 * io) 1).mul ((Magnitude.nearest 1 1).add m))) := by
      rw [← Binary64.mul_signed hfinite hsides_fin]
      refine except_bind_ok.2 ⟨_, hreal, except_bind_ok.2 ⟨_, hdouble ▸ hint, rfl⟩⟩
    have hper_one := Magnitude.one_le_mul hfinite hsides_fin
      (Magnitude.one_le_nearest (show 1 ≤ 2 * io by omega)) hsides
    generalize (Magnitude.nearest (2 * io) 1).mul ((Magnitude.nearest 1 1).add m) = per
      at hper hper_one
    rcases Nat.lt_or_ge pads overflowLimit with hlt | hle
    · obtain ⟨hpads_int, hpads_fin⟩ := ofInt_of_lt hlt
      have hzero := Magnitude.isZero_of_units_pos
        (Nat.lt_of_lt_of_le Magnitude.unitsPerOne_pos hper_one)
      have hquotient := Magnitude.isInfinite_div hpads_fin hper_one
      exact .inr ⟨hslots, hlt, _, Magnitude.ceil_lt_overflowLimit hquotient,
        except_bind_ok.2 ⟨_, hper, except_bind_ok.2 ⟨_, hpads_int, except_bind_ok.2
          ⟨_, Binary64.quotient_signed hpads_fin hzero, Binary64.ceil_signed hquotient⟩⟩⟩⟩
    · exact .inl ⟨.inr hle, except_bind_error.2 (.inr ⟨_, hper,
        except_bind_error.2 (.inl (ofInt_of_le hle))⟩)⟩
  · refine .inl ⟨.inl hslots, except_bind_error.2 (.inl (except_bind_error.2
      (.inr ⟨_, hreal, except_bind_error.2 (.inl ?_)⟩)))⟩
    rw [hdouble]
    exact ofInt_of_le hslots

/-- The width for a height, or where none is found. -/
theorem scaleUp_cases {height : Nat} (hlt : height < overflowLimit) :
    (overflowLimit ≤ (Magnitude.nearest height 1).value * m.value ∧
      s.aspectRatio.scaleUp height = .error .wholeOfInfinity) ∨
    (¬ overflowLimit ≤ (Magnitude.nearest height 1).value * m.value ∧
      ∃ width : Nat, width < overflowLimit ∧ s.aspectRatio.scaleUp height = .ok width) := by
  obtain ⟨hint, hfinite⟩ := ofInt_of_lt hlt
  have hproduct := Binary64.mul_signed hfinite hfin
  rw [hratio, ← Magnitude.mul_isInfinite hfinite hfin]
  cases hinf : ((Magnitude.nearest height 1).mul m).isInfinite with
  | true =>
    refine .inl ⟨rfl, except_bind_error.2 (.inr ⟨_, hint, ?_⟩)⟩
    rw [hproduct]
    exact Binary64.ceil_infinite hinf
  | false =>
    refine .inr ⟨Bool.false_ne_true, _, Magnitude.ceil_lt_overflowLimit hinf,
      except_bind_ok.2 ⟨_, hint, ?_⟩⟩
    rw [hproduct]
    exact Binary64.ceil_signed hinf

/-- The height that is chosen, or where none is. -/
theorem automaticHeight_cases (hfixed : s.fixedSize = none) (hzero : m.isZero = false)
    {io blocks pads : Nat} (hio : 1 ≤ io) (hblocks : s.numBlocks.value = blocks)
    (hpads : s.numPads.value = pads) :
    (∃ fault, s.automaticHeight io = .error fault ∧ s.Unsizable io fault) ∨
    (blocks < overflowLimit ∧ pads < overflowLimit ∧ 2 * io < overflowLimit ∧
      ¬ overflowLimit * m.value ≤ (Magnitude.nearest blocks 1).value ∧
      ∃ height : Nat, height < overflowLimit ∧ s.automaticHeight io = .ok height) := by
  rcases heightForBlocks_cases hratio hfin hzero hblocks with
    ⟨hlarge, hfault⟩ | ⟨hlarge, hfault⟩ | ⟨hblocks_lt, hquotient, forBlocks, hlt, hok⟩
  · exact .inl ⟨_, except_bind_error.2 (.inl hfault), .count hfixed (.inl rfl) (by omega)⟩
  · exact .inl ⟨_, except_bind_error.2 (.inl hfault), .height hfixed hblocks hratio hlarge⟩
  · rcases heightForPads_cases hratio hfin hio hpads with
      ⟨hlarge, hfault⟩ | ⟨hslots_lt, hpads_lt, forPads, hlt', hok'⟩
    · refine .inl ⟨_, except_bind_error.2 (.inr ⟨_, hok, except_bind_error.2 (.inl hfault)⟩), ?_⟩
      rcases hlarge with hlarge | hlarge
      · exact .count hfixed (.inr (.inr rfl)) (by omega)
      · exact .count hfixed (.inr (.inl rfl)) (by omega)
    · have hmax : max (max (forBlocks : Int) forPads) 1 =
          (max (max forBlocks forPads) 1 : Nat) := by omega
      have hlimit : 1 < overflowLimit := by decide +kernel
      exact .inr ⟨hblocks_lt, hpads_lt, hslots_lt, hquotient, _, by omega,
        except_bind_ok.2 ⟨_, hok, except_bind_ok.2 ⟨_, hok', congrArg _ hmax⟩⟩⟩

/-- The size that is chosen, or where none is. -/
theorem automaticSize_cases (hfixed : s.fixedSize = none) (hzero : m.isZero = false)
    {io blocks pads : Nat} (hio : 1 ≤ io) (hblocks : s.numBlocks.value = blocks)
    (hpads : s.numPads.value = pads) :
    (∃ fault, s.automaticSize io = .error fault ∧ s.Unsizable io fault) ∨
    (∃ width height : Nat, s.automaticSize io = .ok ((width : Int), (height : Int)) ∧
      width < overflowLimit ∧ height < overflowLimit ∧
      ∀ fault, s.Unsizable io fault → fault = .cellOverflow) := by
  rw [automaticSize_eq]
  rcases automaticHeight_cases hratio hfin hfixed hzero hio hblocks hpads with
    ⟨fault, hfault, hun⟩ | ⟨hblocks_lt, hpads_lt, hslots_lt, hquotient, height, hlt, hok⟩
  · exact .inl ⟨fault, except_bind_error.2 (.inl hfault), hun⟩
  rcases scaleUp_cases hratio hfin hlt with ⟨hlarge, hfault⟩ | ⟨hproduct, width, hwidth, hscale⟩
  · exact .inl ⟨_, except_bind_error.2 (.inr ⟨_, hok, except_bind_error.2 (.inl hfault)⟩),
      .width hfixed hratio hok hlarge⟩
  · refine .inr ⟨width, height, except_bind_ok.2 ⟨_, hok, except_bind_ok.2 ⟨_, hscale, rfl⟩⟩,
      hwidth, hlt, fun fault hun => ?_⟩
    -- Each other reason is one of those that were excluded on the way.
    cases hun with
    | count _ hn h => omega
    | height _ hblocks' hratio' h =>
      rw [hratio] at hratio'
      cases hratio'
      obtain rfl : blocks = _ := Int.ofNat.inj (hblocks.symm.trans hblocks')
      exact absurd h hquotient
    | width _ hratio' hheight h =>
      rw [hratio] at hratio'
      cases hratio'
      obtain rfl : height = _ := Int.ofNat.inj (Except.ok.inj (hok.symm.trans hheight))
      exact absurd h hproduct
    | digits hfixed' =>
      rw [hfixed] at hfixed'
      cases hfixed'
    | cell => rfl

end Chosen

/-! ## Fixed sizes -/

theorem countText_of_writable {n : Count} (h : Numeral.isWritable n.value = true) :
    countText n = .ok n.text := if_pos h

theorem countText_of_long {n : Count} (h : Numeral.isWritable n.value = false) :
    countText n = .error .tooManyDigits := if_neg (Bool.eq_false_iff.1 h)

/-- A fixed size that is too small is reported, if what it offers can be written. -/
theorem tooSmall_cases {s : Sizing} {ioRat : Int} {width height : Count}
    (hblocks : Numeral.isWritable s.numBlocks.value = true)
    (hpads : Numeral.isWritable s.numPads.value = true) :
    ((Numeral.isWritable (max width.value 0 * max height.value 0) = false ∨
      Numeral.isWritable (ioSlots ioRat width.value height.value) = false) ∧
      s.tooSmall ioRat width height = .number .tooManyDigits) ∨
    (Numeral.isWritable (max width.value 0 * max height.value 0) = true ∧
      Numeral.isWritable (ioSlots ioRat width.value height.value) = true ∧
      ∃ e : GridError, s.tooSmall ioRat width height = .error e ∧ e.kind = .tooSmall) := by
  unfold tooSmall
  rw [countText_of_writable hblocks, countText_of_writable hpads]
  generalize max width.value 0 * max height.value 0 = sites
  generalize ioSlots ioRat width.value height.value = slots
  cases hsites : Numeral.isWritable sites with
  | false =>
    rw [@countText_of_long (.number sites) hsites]
    exact .inl ⟨.inl rfl, rfl⟩
  | true =>
    rw [@countText_of_writable (.number sites) hsites]
    cases hslots : Numeral.isWritable slots with
    | false =>
      rw [@countText_of_long (.number slots) hslots]
      exact .inl ⟨.inr rfl, rfl⟩
    | true =>
      rw [@countText_of_writable (.number slots) hslots]
      exact .inr ⟨rfl, rfl, _, rfl, rfl⟩

/-! ## Layouts -/

/-- What is known of a sizing that was read from a configuration: it passes its check, its aspect
ratio is a real value and its counts may be written. -/
structure Loaded (s : Sizing) : Prop where
  check : s.check = .ok ()
  ratio : ∃ x, s.aspectRatio = .real x
  blocks : Numeral.isWritable s.numBlocks.value = true
  pads : Numeral.isWritable s.numPads.value = true
  fixed : ∀ {width height}, s.fixedSize = some (width, height) →
    Numeral.isWritable width.value = true ∧ Numeral.isWritable height.value = true

/-- How sizing a grid may end: with a size, after which only a cell may be too small; with the error
of a fixed size that is too small; or with some number that is too large. -/
inductive SizeOutcome (s : Sizing) (ioRat : Int) : Except GridFault (Count × Count) → Prop where
  | sized {width height : Count} (hwidth : Numeral.isWritable width.value = true)
    (hheight : Numeral.isWritable height.value = true)
    (hcell : ∀ fault, s.Unsizable ioRat fault → fault = .cellOverflow) :
    SizeOutcome s ioRat (.ok (width, height))
  | refused {e : GridError} (hsizable : ∀ fault, ¬ s.Unsizable ioRat fault)
    (hkind : e.kind = .tooSmall) : SizeOutcome s ioRat (.error (.error e))
  | unsized {fault : NumberFault} (h : s.Unsizable ioRat fault) :
    SizeOutcome s ioRat (.error (.number fault))

section Fixed

variable {s : Sizing} {ioRat : Int} {width height : Count}
  (hfixed : s.fixedSize = some (width, height))

include hfixed

theorem gridSize_fixed : s.gridSize ioRat =
    if s.isTooSmall ioRat width.value height.value then .error (s.tooSmall ioRat width height)
    else .ok (width, height) := by
  unfold gridSize
  rw [hfixed]

/-- For a fixed size, only the digits of a message and the cells can be in the way. -/
theorem Unsizable.fixed_cases {fault : NumberFault} (h : s.Unsizable ioRat fault) :
    (s.isTooSmall ioRat width.value height.value = true ∧
      (Numeral.isWritable (max width.value 0 * max height.value 0) = false ∨
        Numeral.isWritable (ioSlots ioRat width.value height.value) = false)) ∨
    (fault = .cellOverflow ∧ ∃ size, s.gridSize ioRat = .ok size) := by
  cases h with
  | count hnone | height hnone | width hnone => cases hfixed.symm.trans hnone
  | digits hfixed' hsmall hn h =>
    cases hfixed.symm.trans hfixed'
    rcases hn with rfl | rfl
    · exact .inl ⟨hsmall, .inl h⟩
    · exact .inl ⟨hsmall, .inr h⟩
  | cell hsize => exact .inr ⟨rfl, _, hsize⟩

theorem Loaded.fixed_outcome (hs : s.Loaded) (ioRat : Int) :
    s.SizeOutcome ioRat (s.gridSize ioRat) := by
  have hsize := @gridSize_fixed s ioRat width height hfixed
  cases hsmall : s.isTooSmall ioRat width.value height.value with
  | true =>
    rw [hsmall, if_pos rfl] at hsize
    rw [hsize]
    rcases @tooSmall_cases s ioRat width height hs.blocks hs.pads with
      ⟨hlong, hfault⟩ | ⟨hsites, hslots, e, herror, hkind⟩
    · rw [hfault]
      rcases hlong with hlong | hlong
      · exact .unsized (.digits hfixed hsmall (.inl rfl) hlong)
      · exact .unsized (.digits hfixed hsmall (.inr rfl) hlong)
    · rw [herror]
      refine .refused (fun fault hun => ?_) hkind
      rcases hun.fixed_cases hfixed with ⟨-, hlong | hlong⟩ | ⟨-, size, hok⟩
      · cases hsites.symm.trans hlong
      · cases hslots.symm.trans hlong
      · cases hsize.symm.trans hok
  | false =>
    rw [hsmall, if_neg Bool.false_ne_true] at hsize
    rw [hsize]
    obtain ⟨hwidth, hheight⟩ := hs.fixed hfixed
    refine .sized hwidth hheight fun fault hun => ?_
    rcases hun.fixed_cases hfixed with ⟨hsmall', -⟩ | ⟨hfault, -⟩
    · cases hsmall.symm.trans hsmall'
    · exact hfault

end Fixed

theorem Loaded.chosen_outcome {s : Sizing} (hs : s.Loaded) (hfixed : s.fixedSize = none)
    {ioRat : Int} (hio : 1 ≤ ioRat) : s.SizeOutcome ioRat (s.gridSize ioRat) := by
  obtain ⟨hblocks, hpads, a, ha⟩ := check_ok hs.check
  obtain ⟨x, hx⟩ := hs.ratio
  rw [hx] at ha
  cases ha with
  | @real m hzero hfin =>
    obtain ⟨blocks, hblocks⟩ := Int.eq_ofNat_of_zero_le hblocks
    obtain ⟨pads, hpads⟩ := Int.eq_ofNat_of_zero_le hpads
    obtain ⟨io, rfl⟩ := Int.eq_ofNat_of_zero_le (show 0 ≤ ioRat by omega)
    unfold gridSize
    simp only [hfixed]
    rcases automaticSize_cases hx hfin hfixed hzero (show 1 ≤ io by omega) hblocks hpads with
      ⟨fault, hfault, hun⟩ | ⟨width, height, hok, hwidth, hheight, hcell⟩
    · rw [hfault]
      exact .unsized hun
    · rw [hok]
      exact .sized (Binary64.isWritable_of_lt hwidth) (Binary64.isWritable_of_lt hheight) hcell

theorem Loaded.size_outcome {s : Sizing} (hs : s.Loaded) {ioRat : Int} (hio : 1 ≤ ioRat) :
    s.SizeOutcome ioRat (s.gridSize ioRat) := by
  cases hfixed : s.fixedSize with
  | some size => exact hs.fixed_outcome hfixed ioRat
  | none => exact hs.chosen_outcome hfixed hio

/-- How laying out a grid may end: with a grid or an error of grids, or, exactly if some number is
too large, with that. -/
inductive LayoutOutcome (s : Sizing) (ioRat : Int) : Except GridFault GridLayout → Prop where
  | laidOut {g : GridLayout} (hsizable : ∀ fault, ¬ s.Unsizable ioRat fault) :
    LayoutOutcome s ioRat (.ok g)
  | refused {e : GridError} (hsizable : ∀ fault, ¬ s.Unsizable ioRat fault)
    (hkind : e.kind = .tooSmall ∨ e.kind = .degenerate ∨ e.kind = .coordinateOverflow) :
    LayoutOutcome s ioRat (.error (.error e))
  | unsized {fault : NumberFault} (h : s.Unsizable ioRat fault) :
    LayoutOutcome s ioRat (.error (.number fault))

/-- A grid whose coordinates are too large is reported, if its size may be written. -/
theorem overflow_cases {width height : Count} (hwidth : Numeral.isWritable width.value = true)
    (hheight : Numeral.isWritable height.value = true) :
    ∃ e : GridError, overflow width height = .error e ∧ e.kind = .coordinateOverflow := by
  unfold overflow
  rw [countText_of_writable hwidth, countText_of_writable hheight]
  exact ⟨_, rfl, rfl⟩

theorem Loaded.layout_outcome {s : Sizing} (hs : s.Loaded) {ioRat : Int} (hio : 1 ≤ ioRat) :
    s.LayoutOutcome ioRat (s.layout ioRat) := by
  have houtcome := hs.size_outcome hio
  unfold layout
  generalize hsize : s.gridSize ioRat = size at houtcome ⊢
  cases houtcome with
  | unsized h => exact .unsized h
  | refused hsizable hkind => exact .refused hsizable (.inl hkind)
  | @sized width height hwidth hheight hcell =>
    -- What is left of the reasons is that the cells are too small.
    have hsizable : (width.value = 1 ∧ height.value = 1 ∧ s.numBlocks.value ≠ 0 ∨
        maxDimension < width.value ∨ maxDimension < height.value ∨ ioRat < cellLimit) →
        ∀ fault, ¬ s.Unsizable ioRat fault := by
      intro hreason fault hun
      obtain rfl := hcell fault hun
      cases hun with
      | cell hsize' hplaces hw hh hio' =>
        cases hsize.symm.trans hsize'
        omega
    simp only [bind, Except.bind]
    split
    · rename_i hplaces
      exact .refused (hsizable (.inl hplaces)) (.inr (.inl rfl))
    rename_i hplaces
    split
    · rename_i hlarge
      obtain ⟨e, he, hkind⟩ := overflow_cases hwidth hheight
      rw [he]
      exact .refused (hsizable (.inr (hlarge.imp id .inl))) (.inr (.inr hkind))
    rename_i hroom
    obtain ⟨hw, hh⟩ := not_or.1 hroom
    split
    · rename_i hio'
      have hlimit : (0 : Int) < cellLimit := by decide
      exact .unsized (.cell hsize hplaces (by omega) (by omega) (by omega))
    · rename_i hio'
      exact .laidOut (hsizable (.inr (.inr (.inr (by omega)))))

end Sizing

end Fabric
