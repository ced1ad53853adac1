import Fabric.Proofs.GridSize
import Mathlib.Algebra.BigOperators.Group.Finset.Basic
import Mathlib.Data.Finset.Prod

/-!
# What the tables of a grid hold

The kinds of the cells are written in five rectangles, none of which meets a corner. So a place is
unusable if it is on an edge of both axes, for I/O if on an edge of one, and logic if on none
(`GridLayout.Ringed`, `layout_ringed`). From this follow how many cells there are of each kind and
that the capacities of all cells are the slots and logic blocks that the layout promises. A pair of
integers leads to a cell if each is inside its axis, a negative one from the end; every other pair is
an error of the index. The conversion of an integer to an index is not part of the library: that it
keeps the integers of a 64-bit word and refuses others only as errors of the index is assumed
(`IndexRule`).
-/

namespace Fabric

/-! ## Edges -/

/-- The first or the last coordinate of an axis of `n` logic cells and two cells of the ring. -/
def OnEdge (n i : Nat) : Prop := i = 0 ∨ i = n + 1

instance {n i : Nat} : Decidable (OnEdge n i) := inferInstanceAs (Decidable (_ ∨ _))

section Edges

variable (n : Nat)

theorem edges_eq : (Finset.range (n + 2)).filter (OnEdge n) = {0, n + 1} := by
  ext i
  simp only [OnEdge, Finset.mem_filter, Finset.mem_range, Finset.mem_insert,
    Finset.mem_singleton]
  omega

theorem card_edges : ((Finset.range (n + 2)).filter (OnEdge n)).card = 2 := by
  rw [edges_eq, Finset.card_pair (Nat.succ_ne_zero n).symm]

theorem card_inner : ((Finset.range (n + 2)).filter fun i => ¬ OnEdge n i).card = n := by
  have hall := Finset.card_filter_add_card_filter_not (s := Finset.range (n + 2)) (OnEdge n)
  rw [card_edges, Finset.card_range] at hall
  omega

end Edges

/-! ## Cells of a table -/

namespace Table

variable {α : Type}

def places (t : Table α) : Finset (Nat × Nat) := Finset.range t.sizeX ×ˢ Finset.range t.sizeY

/-- How many cells hold a value. -/
def count [DecidableEq α] (t : Table α) (a : α) : Nat :=
  (t.places.filter fun p => t.cell p.1 p.2 = a).card

/-- What the cells hold together. -/
def sum (t : Table Int) : Int := ∑ p ∈ t.places, t.cell p.1 p.2

end Table

namespace GridLayout

variable {g : GridLayout} {x y : Nat}

/-! ## Kinds -/

theorem cellKind_eq : g.cellKind x y =
    if (1 ≤ x ∧ x < g.columns + 1) ∧ 1 ≤ y ∧ y < g.rows + 1 then .logic
    else if x = g.columns + 1 ∧ 1 ≤ y ∧ y < g.rows + 1 then .io
    else if x = 0 ∧ 1 ≤ y ∧ y < g.rows + 1 then .io
    else if (1 ≤ x ∧ x < g.columns + 1) ∧ y = g.rows + 1 then .io
    else if (1 ≤ x ∧ x < g.columns + 1) ∧ y = 0 then .io
    else .illegal := by
  simp only [cellKind, kinds, Table.cell_write, Table.cell_full, Span.holds_mk, Span.holds_only]

theorem cellKind_corner (hX : OnEdge g.columns x) (hY : OnEdge g.rows y) :
    g.cellKind x y = .illegal := by
  unfold OnEdge at hX hY
  rw [cellKind_eq, if_neg (by omega), if_neg (by omega), if_neg (by omega), if_neg (by omega),
    if_neg (by omega)]

section Inside

variable (hx : x < g.columns + 2) (hy : y < g.rows + 2)

include hx hy

theorem cellKind_side (h : ¬ (OnEdge g.columns x ↔ OnEdge g.rows y)) : g.cellKind x y = .io := by
  unfold OnEdge at h
  rw [cellKind_eq, if_neg (by omega)]
  split_ifs with hlast hfirst habove hbelow
  · rfl
  · rfl
  · rfl
  · rfl
  · omega

theorem cellKind_inner (hX : ¬ OnEdge g.columns x) (hY : ¬ OnEdge g.rows y) :
    g.cellKind x y = .logic := by
  unfold OnEdge at hX hY
  rw [cellKind_eq, if_pos (by omega)]

theorem cellKind_iff :
    (g.cellKind x y = .illegal ↔ OnEdge g.columns x ∧ OnEdge g.rows y) ∧
    (g.cellKind x y = .io ↔ ¬ (OnEdge g.columns x ↔ OnEdge g.rows y)) ∧
    (g.cellKind x y = .logic ↔ ¬ OnEdge g.columns x ∧ ¬ OnEdge g.rows y) := by
  by_cases hX : OnEdge g.columns x <;> by_cases hY : OnEdge g.rows y
  · simp [cellKind_corner hX hY, hX, hY]
  · simp [cellKind_side hx hy (by simp [hX, hY]), hX, hY]
  · simp [cellKind_side hx hy (by simp [hX, hY]), hX, hY]
  · simp [cellKind_inner hx hy hX hY, hX, hY]

end Inside

/-! ## Counts -/

variable (g)

theorem count_eq {k : CellKind} {p : Nat → Nat → Prop} [∀ x y, Decidable (p x y)]
    (h : ∀ {x y}, x < g.columns + 2 → y < g.rows + 2 → (g.cellKind x y = k ↔ p x y)) :
    g.kinds.count k = ((Finset.range (g.columns + 2) ×ˢ Finset.range (g.rows + 2)).filter
      fun q => p q.1 q.2).card := by
  refine congrArg Finset.card (Finset.filter_congr fun q hq => ?_)
  obtain ⟨hx, hy⟩ := Finset.mem_product.1 hq
  exact h (Finset.mem_range.1 hx) (Finset.mem_range.1 hy)

theorem count_illegal : g.kinds.count .illegal = 4 := by
  rw [g.count_eq fun hx hy => (cellKind_iff hx hy).1, Finset.filter_product, Finset.card_product,
    card_edges, card_edges]

theorem count_logic : g.kinds.count .logic = g.columns * g.rows := by
  rw [g.count_eq fun hx hy => (cellKind_iff hx hy).2.2,
    Finset.filter_product (¬ OnEdge g.columns ·) (¬ OnEdge g.rows ·), Finset.card_product, card_inner,
    card_inner]

/-- What depends on the kind alone is added up kind by kind. -/
theorem sum_places (f : CellKind → Int) : ∑ p ∈ g.kinds.places, f (g.kinds.cell p.1 p.2) =
    g.kinds.count .illegal * f .illegal + g.kinds.count .io * f .io +
      g.kinds.count .logic * f .logic := by
  have hsplit (k : CellKind) : f k = (if k = .illegal then f .illegal else 0) +
      (if k = .io then f .io else 0) + (if k = .logic then f .logic else 0) := by
    cases k <;> simp
  have hconst (k : CellKind) : ∑ p ∈ g.kinds.places,
      (if g.kinds.cell p.1 p.2 = k then f k else 0) = g.kinds.count k * f k := by
    rw [← Finset.sum_filter, Finset.sum_const, nsmul_eq_mul]
    rfl
  calc ∑ p ∈ g.kinds.places, f (g.kinds.cell p.1 p.2)
      = ∑ p ∈ g.kinds.places, ((if g.kinds.cell p.1 p.2 = .illegal then f .illegal else 0) +
          (if g.kinds.cell p.1 p.2 = .io then f .io else 0) +
          (if g.kinds.cell p.1 p.2 = .logic then f .logic else 0)) :=
        Finset.sum_congr rfl fun p _ => hsplit _
    _ = _ := by
      rw [Finset.sum_add_distrib, Finset.sum_add_distrib, hconst, hconst, hconst]

theorem count_io : g.kinds.count .io = 2 * (g.columns + g.rows) := by
  -- The I/O cells are those that are left of all cells.
  have hall := g.sum_places fun _ => 1
  have hcells : g.kinds.places.card = (g.columns + 2) * (g.rows + 2) := by
    unfold Table.places
    rw [Finset.card_product, Finset.card_range, Finset.card_range]
    rfl
  rw [Finset.sum_const, hcells, count_illegal, count_logic] at hall
  have hproduct : (g.columns + 2) * (g.rows + 2) =
      g.columns * g.rows + 2 * (g.columns + g.rows) + 4 := by ring
  rw [hproduct] at hall
  simp only [nsmul_eq_mul, mul_one] at hall
  omega

theorem count_kind (k : CellKind) : g.kinds.count k = g.kindCount k := by
  cases k with
  | illegal => exact g.count_illegal
  | io => exact g.count_io
  | logic => exact g.count_logic

theorem sum_capacities :
    g.capacities.sum = 2 * g.ioRat * (g.columns + g.rows : Nat) + (g.columns * g.rows : Nat) := by
  have hsum := g.sum_places g.capacityOf
  rw [count_illegal, count_io, count_logic] at hsum
  -- Each I/O cell has as many slots as the capacity says: two rows and two columns of them.
  refine hsum.trans ?_
  unfold capacityOf
  push_cast
  ring

end GridLayout

/-! ## Indices -/

/-- What the tables rely on where an integer is converted to an index: those of a signed 64-bit word
are taken, none is taken for another, and what is refused is an error of the index. -/
structure IndexRule (toIndex : Int → Except IndexFault Int) : Prop where
  word : ∀ i, -2 ^ 63 ≤ i → i < 2 ^ 63 → ∃ j, toIndex i = .ok j
  same : ∀ i j, toIndex i = .ok j → j = i
  refused : ∀ i fault, toIndex i = .error fault → fault.isIndexError = true

theorem wordIndex_rule : IndexRule wordIndex where
  word i hlow hhigh := ⟨i, if_pos ⟨hlow, hhigh⟩⟩
  same i j h := by
    unfold wordIndex at h
    dsimp only at h
    split at h <;> cases h
    rfl
  refused i fault h := by
    unfold wordIndex at h
    dsimp only at h
    split at h <;> cases h
    rfl

namespace GridLayout

/-- An integer is inside an axis from its start or, if negative, from its end. -/
def Inside (size : Nat) (i : Int) : Prop := -size ≤ i ∧ i < size

/-- The coordinate that an integer inside an axis stands for. -/
def place (size : Nat) (i : Int) : Nat := (if i < 0 then i + size else i).toNat

variable {axis size : Nat} {i : Int}

theorem resolveIndex_inside (h : Inside size i) :
    resolveIndex axis size i = .ok (place size i) := by
  unfold resolveIndex place
  unfold Inside at h
  refine if_pos ?_
  split <;> omega

theorem resolveIndex_outside (h : ¬ Inside size i) :
    resolveIndex axis size i = .error (.outside i axis size) := by
  unfold resolveIndex
  unfold Inside at h
  refine if_neg ?_
  split <;> omega

variable {toIndex : Int → Except IndexFault Int}

theorem Inside.taken (h : Inside size i) (hsize : size ≤ 2 ^ 63) (hrule : IndexRule toIndex) :
    toIndex i = .ok i := by
  unfold Inside at h
  obtain ⟨j, hj⟩ := hrule.word i (by omega) (by omega)
  rwa [hrule.same i j hj] at hj

variable {g : GridLayout} {x y : Int}

theorem kindAt_taken (hx : toIndex x = .ok x) (hy : toIndex y = .ok y) :
    g.kindAt toIndex x y = do
      let x ← resolveIndex 0 (g.columns + 2) x
      let y ← resolveIndex 1 (g.rows + 2) y
      return g.cellKind x y := by
  unfold kindAt
  rw [hx, hy]
  rfl

theorem kindAt_inside (hrule : IndexRule toIndex) (hX : g.columns + 2 ≤ 2 ^ 63)
    (hY : g.rows + 2 ≤ 2 ^ 63) (hx : Inside (g.columns + 2) x) (hy : Inside (g.rows + 2) y) :
    g.kindAt toIndex x y =
      .ok (g.cellKind (place (g.columns + 2) x) (place (g.rows + 2) y)) := by
  rw [kindAt_taken (hx.taken hX hrule) (hy.taken hY hrule), resolveIndex_inside hx,
    resolveIndex_inside hy]
  rfl

theorem kindAt_outside (hrule : IndexRule toIndex)
    (h : ¬ (Inside (g.columns + 2) x ∧ Inside (g.rows + 2) y)) :
    ∃ fault, g.kindAt toIndex x y = .error fault ∧ fault.isIndexError = true := by
  -- Both integers are converted before the axes are looked at.
  cases hx : toIndex x with
  | error fault =>
    refine ⟨fault, ?_, hrule.refused x fault hx⟩
    unfold kindAt
    rw [hx]
    rfl
  | ok i =>
    obtain rfl := hrule.same x i hx
    cases hy : toIndex y with
    | error fault =>
      refine ⟨fault, ?_, hrule.refused y fault hy⟩
      unfold kindAt
      rw [hx, hy]
      rfl
    | ok j =>
      obtain rfl := hrule.same y j hy
      rw [kindAt_taken hx hy]
      by_cases hinside : Inside (g.columns + 2) i
      · rw [resolveIndex_inside hinside, resolveIndex_outside fun hy => h ⟨hinside, hy⟩]
        exact ⟨_, rfl, rfl⟩
      · rw [resolveIndex_outside hinside]
        exact ⟨_, rfl, rfl⟩

/-! ## The ring -/

/-- A layout of `w` columns and `h` rows of logic in a ring of I/O cells with a capacity of `io`,
whose cells are looked up by integers that `toIndex` converts. -/
structure Ringed (g : GridLayout) (toIndex : Int → Except IndexFault Int) (w h : Nat) (io : Int) :
    Prop where
  size : g.width.value = w ∧ g.height.value = h ∧ g.ioRat = io
  shapes : g.kinds.shape = [w + 2, h + 2] ∧ g.capacities.shape = [w + 2, h + 2] ∧
    g.occupancy.shape = [w + 2, h + 2]
  empty : g.occupancy.value = 0
  channels : g.chanWidthX = ⟨[h + 1], 0⟩ ∧ g.chanWidthY = ⟨[w + 1], 0⟩
  /-- A place is unusable on two edges, for I/O on one and logic on none. -/
  kinds : ∀ x ≤ w + 1, ∀ y ≤ h + 1,
    (g.kinds.cell x y = .illegal ↔ OnEdge w x ∧ OnEdge h y) ∧
    (g.kinds.cell x y = .io ↔ ¬ (OnEdge w x ↔ OnEdge h y)) ∧
    (g.kinds.cell x y = .logic ↔ ¬ OnEdge w x ∧ ¬ OnEdge h y)
  counts : g.kinds.count .illegal = 4 ∧ g.kinds.count .io = 2 * (w + h) ∧
    g.kinds.count .logic = w * h
  capacities : ∀ x ≤ w + 1, ∀ y ≤ h + 1, g.capacities.cell x y =
    match g.kinds.cell x y with
    | .illegal => 0
    | .io => io
    | .logic => 1
  total : g.capacities.sum = g.ioSlotCount + w * h
  inside : ∀ x y, Inside (w + 2) x → Inside (h + 2) y →
    g.kindAt toIndex x y = .ok (g.kinds.cell (place (w + 2) x) (place (h + 2) y))
  /-- Every other pair of integers is an error of the index. -/
  outside : ∀ x y, ¬ (Inside (w + 2) x ∧ Inside (h + 2) y) →
    ∃ fault, g.kindAt toIndex x y = .error fault ∧ fault.isIndexError = true

end GridLayout

theorem Sizing.layout_sides {s : Sizing} {ioRat : Int} {g : GridLayout} (hs : s.check = .ok ())
    (h : s.layout ioRat = .ok g) : 1 ≤ g.width.value ∧ 1 ≤ g.height.value := by
  obtain ⟨-, -, a, ha⟩ := Sizing.check_ok hs
  obtain ⟨hsize, -, -, -, hheight, -⟩ := Sizing.layout_ok h
  rcases Sizing.gridSize_ok hsize with ⟨-, hroom⟩ | ⟨-, hauto⟩
  · obtain ⟨hw, hh, -⟩ := Sizing.isTooSmall_eq_false.1 hroom
    exact ⟨hw, hh⟩
  · obtain ⟨n, hn, hn_pos, hw, -⟩ := Sizing.exists_height ha hauto hheight
    exact ⟨hw, by omega⟩

/-- Every layout is a ring of I/O cells around the logic, whose corners are unusable. -/
theorem layout_ringed {toIndex : Int → Except IndexFault Int} (hrule : IndexRule toIndex)
    {s : Sizing} {ioRat : Int} {g : GridLayout} (hs : s.check = .ok ())
    (h : s.layout ioRat = .ok g) :
    ∃ width height, 1 ≤ width ∧ 1 ≤ height ∧ g.Ringed toIndex width height ioRat := by
  obtain ⟨hw, hh⟩ := Sizing.layout_sides hs h
  obtain ⟨-, rfl, -, hwidth, hheight, -⟩ := Sizing.layout_ok h
  have hcolumns : g.width.value = g.columns := (Int.toNat_of_nonneg (by omega)).symm
  have hrows : g.height.value = g.rows := (Int.toNat_of_nonneg (by omega)).symm
  rw [hcolumns] at hw hwidth
  rw [hrows] at hh hheight
  unfold Sizing.maxDimension at hwidth hheight
  refine ⟨g.columns, g.rows, by omega, by omega, ?_⟩
  exact {
    size := ⟨hcolumns, hrows, rfl⟩
    shapes := ⟨rfl, rfl, rfl⟩
    empty := rfl
    channels := ⟨rfl, rfl⟩
    kinds x hx y hy := GridLayout.cellKind_iff (by omega) (by omega)
    counts := ⟨g.count_illegal, g.count_io, g.count_logic⟩
    capacities x hx y hy := by
      change g.capacityOf (g.kinds.cell x y) = _
      cases g.kinds.cell x y <;> rfl
    total := by
      rw [g.sum_capacities]
      unfold GridLayout.ioSlotCount Sizing.ioSlots
      rw [hcolumns, hrows]
      push_cast
      rfl
    inside x y hx hy := GridLayout.kindAt_inside hrule (by omega) (by omega) hx hy
    outside x y h := GridLayout.kindAt_outside hrule h }

/-- The grid of four blocks has one ring around its two columns and rows, and its cells are looked up
by the integers of a 64-bit word. -/
theorem layout_ringed_four_blocks :
    let s : Sizing := { numBlocks := 4, numPads := 4 }
    let g : GridLayout := { width := 2, height := 2, ioRat := 2 }
    IndexRule wordIndex ∧ s.layout 2 = .ok g ∧
      ∃ width height, 1 ≤ width ∧ 1 ≤ height ∧ g.Ringed wordIndex width height 2 := by
  intro s g
  have hs : s.check = .ok () := toOption_ok.1 (by decide +kernel)
  have hlayout : s.layout 2 = .ok g := toOption_ok.1 (by decide +kernel)
  exact ⟨wordIndex_rule, hlayout, layout_ringed wordIndex_rule hs hlayout⟩

end Fabric
