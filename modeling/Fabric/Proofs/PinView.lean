import Fabric.Proofs.Grammar
import Mathlib.Logic.Function.Basic

/-!
# What the pin tables show

The tables are read through a view: the members of each class in the order in which they were
filled, the direction of each class, the class and the sides of each pin (`PinTables.Shows`). Each
operation on the tables changes one part of the view, and it succeeds whenever the cell it needs is
there (`Shows.addMember` and the like). `PinView.ofRows` is the view of the tables into which
exactly the pins of some statements were entered; entering one more pin adds one row (`enterRow`).
-/

namespace Fabric

/-! ## Cells -/

namespace Cells

variable {α : Type} {n i : Nat}

/-- The table of `n` cells whose entry at an index is given by a function. -/
def table (n : Nat) (f : Nat → α) : Array α := ((List.range n).map f).toArray

theorem size_table (f : Nat → α) : (table n f).size = n := by simp [table]

theorem getElem?_table (f : Nat → α) (h : i < n) : (table n f)[i]? = some (f i) := by
  simp [table, h]

theorem mem_table {f : Nat → α} {x : α} : x ∈ table n f ↔ ∃ i < n, f i = x := by
  simp [table]

theorem get_table (f : Nat → α) (h : i < n) : get (table n f) i = .ok (f i) := by
  unfold get
  rw [getElem?_table f h]

/-- Writing a cell changes the function of a table at that cell only. -/
theorem put_table (f : Nat → α) (x : α) (h : i < n) :
    put (table n f) i x = .ok (table n (Function.update f i x)) := by
  unfold put
  rw [dif_pos (by rwa [size_table])]
  congr 1
  refine Array.ext_getElem? fun j => ?_
  rw [Array.getElem?_set]
  by_cases hj : j < n
  · rw [getElem?_table _ hj, getElem?_table _ hj]
    by_cases hij : i = j
    · subst hij
      simp
    · rw [if_neg hij, Function.update_of_ne (Ne.symm hij)]
  · have hij : i ≠ j := by omega
    rw [if_neg hij, Array.getElem?_eq_none (by rw [size_table]; omega),
      Array.getElem?_eq_none (by rw [size_table]; omega)]

theorem fill_table (f : Nat → Option Nat) {v : Nat} (h : i < n) (hv : v ≤ maxInteger) :
    fill (table n f) i v = .ok (table n (Function.update f i (some v))) := by
  unfold fill
  rw [if_pos hv, put_table f _ h]

/-- A table of `n` cells of which the first hold `xs` and the others nothing. -/
def filled (xs : List Nat) (n : Nat) : Array (Option Nat) := table n fun i => xs[i]?

/-- Filling the first empty cell. -/
theorem fill_filled {xs : List Nat} {x : Nat} (h : xs.length < n) (hx : x ≤ maxInteger) :
    fill (filled xs n) xs.length x = .ok (filled (xs ++ [x]) n) := by
  unfold filled
  rw [fill_table _ h hx]
  congr 2
  funext i
  rw [List.getElem?_append]
  rcases Nat.lt_trichotomy i xs.length with hi | rfl | hi
  · rw [Function.update_of_ne (by omega), if_pos hi]
  · simp
  · rw [Function.update_of_ne (by omega), if_neg (by omega), List.getElem?_eq_none (by omega),
      List.getElem?_eq_none (by simp; omega)]

end Cells

namespace Sides

theorem contains_foldl_insert (sides : List Side) (s : Sides) (x : Side) :
    (sides.foldl Sides.insert s).contains x = true ↔ x ∈ sides ∨ s.contains x = true := by
  induction sides generalizing s with
  | nil => simp
  | cons y sides ih =>
    rw [List.foldl_cons, ih, Sides.contains_insert, List.mem_cons, Bool.or_eq_true, beq_iff_eq]
    tauto

/-- The set of some sides contains these sides. -/
theorem contains_ofList {sides : List Side} {x : Side} :
    (Sides.ofList sides).contains x = true ↔ x ∈ sides := by
  unfold Sides.ofList
  rw [contains_foldl_insert, Sides.contains_empty]
  simp

end Sides

/-! ## The view -/

/-- How many member slots a class has. -/
def Census.slots (census : Census) (c : Nat) : Nat := census.pinsPerClass.getD c 0

/-- What pin tables say. -/
structure PinView where
  /-- The members of each class, in the order in which they were filled in. -/
  members : Nat → List Nat
  direction : Nat → Option Direction
  pinClass : Nat → Option Nat
  sides : Nat → Sides

namespace PinTables

/-- The tables of a census show a view: each class has the slots that the census counted, the first
of them filled by the members, and the fill count says how many. -/
structure Shows (t : PinTables) (census : Census) (v : PinView) : Prop where
  fits : ∀ {c}, c < census.numClasses → (v.members c).length ≤ census.slots c
  members : t.members =
    Cells.table census.numClasses fun c => Cells.filled (v.members c) (census.slots c)
  fillCounts : t.fillCounts = Cells.table census.numClasses fun c => (v.members c).length
  directions : t.directions = Cells.table census.numClasses v.direction
  pinClass : t.pinClass = Cells.table census.totalPins v.pinClass
  pinSides : t.pinSides = Cells.table census.totalPins v.sides

variable {t : PinTables} {census : Census} {v : PinView}

/-- The tables of a census are empty. -/
theorem Shows.allocate (census : Census) : census.allocate.Shows census
    ⟨fun _ => [], fun _ => none, fun _ => none, fun _ => .empty⟩ where
  fits _ := Nat.zero_le _
  members := by
    refine congrArg List.toArray (List.ext_getElem (by simp [Census.numClasses]) fun c hc hc' => ?_)
    simp only [List.length_map] at hc
    simp [Census.slots, Cells.filled, Cells.table, hc, List.map_const']
  fillCounts := by simp [Census.allocate, Cells.table, List.map_const']
  directions := by simp [Census.allocate, Cells.table, List.map_const']
  pinClass := by simp [Census.allocate, Cells.table, List.map_const']
  pinSides := by simp [Census.allocate, Cells.table, List.map_const']

theorem Shows.direction_eq (h : t.Shows census v) {c : Nat} (hc : c < census.numClasses) :
    t.direction c = .ok (v.direction c) := by
  unfold PinTables.direction
  rw [h.directions, Cells.get_table _ hc]

theorem Shows.setDirection (h : t.Shows census v) {c : Nat} (hc : c < census.numClasses)
    (d : Direction) : ∃ t', t.setDirection c d = .ok t' ∧
      t'.Shows census { v with direction := Function.update v.direction c (some d) } := by
  unfold PinTables.setDirection
  rw [h.directions, Cells.put_table _ _ hc]
  exact ⟨_, rfl, { h with directions := rfl }⟩

theorem Shows.addMember (h : t.Shows census v) {c pin : Nat} (hc : c < census.numClasses)
    (hfree : (v.members c).length < census.slots c) (hpin : pin ≤ Cells.maxInteger) :
    ∃ t', t.addMember c pin = .ok t' ∧ t'.Shows census
      { v with members := Function.update v.members c (v.members c ++ [pin]) } := by
  unfold PinTables.addMember
  rw [h.fillCounts, h.members, Cells.get_table _ hc, Cells.get_table _ hc]
  simp only [bind, Except.bind]
  rw [Cells.fill_filled hfree hpin]
  simp only [Cells.put_table _ _ hc]
  refine ⟨_, rfl, { h with fits := fun {c'} hc' => ?_, members := ?_, fillCounts := ?_ }⟩
  · by_cases hcc : c' = c
    · subst hcc
      simp only [Function.update_self, List.length_append, List.length_singleton]
      exact hfree
    · simpa [Function.update_of_ne hcc] using h.fits hc'
  · refine congrArg (Cells.table _) (funext fun c' => ?_)
    rw [Function.apply_update fun c ms => Cells.filled ms (census.slots c)]
  · refine congrArg (Cells.table _) (funext fun c' => ?_)
    rw [Function.apply_update fun _ ms => List.length ms, List.length_append]
    rfl

theorem Shows.addMember_overflow (h : t.Shows census v) {c pin : Nat} (hc : c < census.numClasses)
    (hpin : ¬ pin ≤ Cells.maxInteger) : t.addMember c pin = .error (.number .cellOverflow) := by
  unfold PinTables.addMember Cells.fill
  rw [h.fillCounts, h.members, Cells.get_table _ hc, Cells.get_table _ hc]
  simp only [bind, Except.bind, if_neg hpin]

theorem le_of_addMember {t' : PinTables} {c pin : Nat} (h : t.addMember c pin = .ok t') :
    pin ≤ Cells.maxInteger := by
  by_contra hpin
  unfold PinTables.addMember Cells.fill at h
  cases hfill : Cells.get t.fillCounts c <;> cases hslots : Cells.get t.members c <;>
    simp [hfill, hslots, hpin, bind, Except.bind] at h

theorem Shows.setClass (h : t.Shows census v) {pin c : Nat} (hpin : pin < census.totalPins)
    (hc : c ≤ Cells.maxInteger) : ∃ t', t.setClass pin c = .ok t' ∧
      t'.Shows census { v with pinClass := Function.update v.pinClass pin (some c) } := by
  unfold PinTables.setClass
  rw [h.pinClass, Cells.fill_table _ hpin hc]
  exact ⟨_, rfl, { h with pinClass := rfl }⟩

theorem setClass_overflow {pin c : Nat} (hc : ¬ c ≤ Cells.maxInteger) :
    t.setClass pin c = .error (.number .cellOverflow) := by
  unfold PinTables.setClass Cells.fill
  rw [if_neg hc]
  rfl

theorem le_of_setClass {t' : PinTables} {pin c : Nat} (h : t.setClass pin c = .ok t') :
    c ≤ Cells.maxInteger := by
  by_contra hc
  rw [setClass_overflow hc] at h
  cases h

theorem Shows.addSide (h : t.Shows census v) {pin : Nat} (hpin : pin < census.totalPins)
    (s : Side) : ∃ t', t.addSide pin s = .ok t' ∧
      t'.Shows census { v with sides := Function.update v.sides pin ((v.sides pin).insert s) } := by
  unfold PinTables.addSide
  rw [h.pinSides, Cells.get_table _ hpin]
  simp only [bind, Except.bind]
  rw [Cells.put_table _ _ hpin]
  exact ⟨_, rfl, { h with pinSides := rfl }⟩

/-- The tables with sides added to a pin, in order. -/
def addSides (t : PinTables) (pin : Nat) (sides : List Side) : Except Defect PinTables :=
  sides.foldlM (fun t s => t.addSide pin s) t

theorem Shows.addSides {pin : Nat} (hpin : pin < census.totalPins) (sides : List Side) :
    ∀ {t : PinTables} {v : PinView}, t.Shows census v → ∃ t', t.addSides pin sides = .ok t' ∧
      t'.Shows census { v with
        sides := Function.update v.sides pin (sides.foldl Sides.insert (v.sides pin)) } := by
  induction sides with
  | nil =>
    intro t v h
    refine ⟨t, rfl, ?_⟩
    simpa using h
  | cons s sides ih =>
    intro t v h
    obtain ⟨t₁, ht₁, h₁⟩ := h.addSide hpin s
    obtain ⟨t', ht', h'⟩ := ih h₁
    refine ⟨t', ?_, ?_⟩
    · unfold PinTables.addSides at ht' ⊢
      rw [List.foldlM_cons, ht₁]
      exact ht'
    · simpa using h'

/-- Tables after a pin of a direction found its class: the class had no direction and gets this one,
or it has it. -/
def Opens (t : PinTables) (c : Nat) (d : Direction) (t' : PinTables) : Prop :=
  t.direction c = .ok none ∧ t.setDirection c d = .ok t' ∨ t.direction c = .ok (some d) ∧ t' = t

/-- Tables after a pin was entered: its class was opened, and the pin got a member slot, its class
and its sides. -/
def Enters (t : PinTables) (pin : Nat) (row : PinRow) (t' : PinTables) : Prop :=
  ∃ t₁ t₂ t₃, t.Opens row.classId row.direction t₁ ∧ t₁.addMember row.classId pin = .ok t₂ ∧
    t₂.setClass pin row.classId = .ok t₃ ∧ t₃.addSides pin row.sides = .ok t'

theorem Opens.unique {t t₁ t₂ : PinTables} {c : Nat} {d : Direction} (h₁ : t.Opens c d t₁)
    (h₂ : t.Opens c d t₂) : t₁ = t₂ := by
  rcases h₁ with ⟨hd, h₁⟩ | ⟨hd, rfl⟩ <;> rcases h₂ with ⟨hd', h₂⟩ | ⟨hd', rfl⟩
  · exact Except.ok.inj (h₁.symm.trans h₂)
  · cases hd.symm.trans hd'
  · cases hd.symm.trans hd'
  · rfl

theorem Enters.unique {t t₁ t₂ : PinTables} {pin : Nat} {row : PinRow} (h₁ : t.Enters pin row t₁)
    (h₂ : t.Enters pin row t₂) : t₁ = t₂ := by
  obtain ⟨a, b, c, ha, hb, hc, h₁⟩ := h₁
  obtain ⟨a', b', c', ha', hb', hc', h₂⟩ := h₂
  obtain rfl := ha.unique ha'
  cases hb.symm.trans hb'
  cases hc.symm.trans hc'
  exact Except.ok.inj (h₁.symm.trans h₂)

end PinTables

/-! ## The view of rows -/

namespace PinView

/-- The view of tables into which exactly the pins of some rows were entered. -/
def ofRows (rows : List PinRow) : PinView where
  members c := rows.findIdxs (·.classId == c)
  direction c := (rows.find? (·.classId == c)).map (·.direction)
  pinClass p := rows[p]?.map (·.classId)
  sides p := (rows[p]?.map fun row => Sides.ofList row.sides).getD .empty

variable (rows : List PinRow) (row : PinRow)

theorem ofRows_nil : ofRows [] = ⟨fun _ => [], fun _ => none, fun _ => none, fun _ => .empty⟩ := by
  simp [ofRows]

/-- The members of a class are listed in ascending order. -/
theorem members_increasing (c : Nat) : ((ofRows rows).members c).Pairwise (· < ·) :=
  List.pairwise_findIdxs

theorem members_append : (ofRows (rows ++ [row])).members =
    Function.update (ofRows rows).members row.classId
      ((ofRows rows).members row.classId ++ [rows.length]) := by
  funext c
  simp only [ofRows, List.findIdxs_append, List.findIdxs_singleton, Nat.zero_add]
  by_cases hc : c = row.classId
  · subst hc
    simp
  · rw [Function.update_of_ne hc]
    simp [Ne.symm hc]

theorem direction_append_self (hd : (ofRows rows).direction row.classId = some row.direction) :
    (ofRows (rows ++ [row])).direction = (ofRows rows).direction := by
  funext c
  simp only [ofRows, Option.map_eq_some_iff] at hd ⊢
  obtain ⟨r, hr, -⟩ := hd
  rw [List.find?_append]
  cases hf : rows.find? (·.classId == c) with
  | some r' => simp
  | none =>
    have hne : row.classId ≠ c := by
      rintro rfl
      rw [hf] at hr
      cases hr
    simp [hne]

theorem direction_append_none (hd : (ofRows rows).direction row.classId = none) :
    (ofRows (rows ++ [row])).direction =
      Function.update (ofRows rows).direction row.classId (some row.direction) := by
  funext c
  simp only [ofRows, Option.map_eq_none_iff] at hd ⊢
  rw [List.find?_append]
  by_cases hc : c = row.classId
  · subst hc
    simp [hd]
  · rw [Function.update_of_ne hc]
    simp [Ne.symm hc]

theorem pinClass_append : (ofRows (rows ++ [row])).pinClass =
    Function.update (ofRows rows).pinClass rows.length (some row.classId) := by
  funext p
  by_cases hp : p = rows.length
  · subst hp
    simp [ofRows]
  · rw [Function.update_of_ne hp]
    simp only [ofRows, List.getElem?_append]
    split
    · rfl
    · rw [List.getElem?_eq_none (by simp; omega), List.getElem?_eq_none (by omega)]

theorem sides_append : (ofRows (rows ++ [row])).sides =
    Function.update (ofRows rows).sides rows.length
      (row.sides.foldl Sides.insert ((ofRows rows).sides rows.length)) := by
  funext p
  by_cases hp : p = rows.length
  · subst hp
    simp [ofRows, Sides.ofList]
  · rw [Function.update_of_ne hp]
    simp only [ofRows, List.getElem?_append]
    split
    · rfl
    · rw [List.getElem?_eq_none (by simp; omega), List.getElem?_eq_none (by omega)]

end PinView

namespace PinTables

variable {t t' : PinTables} {census : Census} {rows : List PinRow} {row : PinRow}

/-- There is room for one more pin: its class exists and has a free slot, and so has the table of
pins. -/
structure Room (census : Census) (rows : List PinRow) (c : Nat) : Prop where
  isClass : c < census.numClasses
  free : ((PinView.ofRows rows).members c).length < census.slots c
  isPin : rows.length < census.totalPins

/-- Entering a pin where there is room succeeds if its class has no other direction and the numbers
fit a cell; the tables then show one more row. -/
theorem Shows.enter (h : t.Shows census (.ofRows rows)) (hroom : Room census rows row.classId)
    (hd : ∀ d, (PinView.ofRows rows).direction row.classId = some d → d = row.direction)
    (hpin : rows.length ≤ Cells.maxInteger) (hc : row.classId ≤ Cells.maxInteger) :
    ∃ t', t.Enters rows.length row t' ∧ t'.Shows census (.ofRows (rows ++ [row])) := by
  obtain ⟨t₁, hopen, h₁⟩ : ∃ t₁, t.Opens row.classId row.direction t₁ ∧ t₁.Shows census
      { PinView.ofRows rows with direction := (PinView.ofRows (rows ++ [row])).direction } := by
    cases hdir : (PinView.ofRows rows).direction row.classId with
    | none =>
      obtain ⟨t₁, ht₁, h₁⟩ := h.setDirection hroom.isClass row.direction
      rw [PinView.direction_append_none rows row hdir]
      exact ⟨t₁, .inl ⟨hdir ▸ h.direction_eq hroom.isClass, ht₁⟩, h₁⟩
    | some d =>
      obtain rfl := hd d hdir
      rw [PinView.direction_append_self rows row hdir]
      exact ⟨t, .inr ⟨hdir ▸ h.direction_eq hroom.isClass, rfl⟩, h⟩
  obtain ⟨t₂, ht₂, h₂⟩ := h₁.addMember hroom.isClass hroom.free hpin
  obtain ⟨t₃, ht₃, h₃⟩ := h₂.setClass hroom.isPin hc
  obtain ⟨t', ht', h'⟩ := h₃.addSides hroom.isPin row.sides
  refine ⟨t', ⟨t₁, t₂, t₃, hopen, ht₂, ht₃, ht'⟩, ?_⟩
  simp only [← PinView.members_append, ← PinView.pinClass_append, ← PinView.sides_append] at h'
  exact h'

/-- What entering a pin needs besides room. -/
theorem Shows.of_enters (h : t.Shows census (.ofRows rows)) (hroom : Room census rows row.classId)
    (he : t.Enters rows.length row t') :
    (∀ d, (PinView.ofRows rows).direction row.classId = some d → d = row.direction) ∧
      t'.Shows census (.ofRows (rows ++ [row])) := by
  have hd : ∀ d, (PinView.ofRows rows).direction row.classId = some d → d = row.direction := by
    intro d hd
    obtain ⟨_, _, _, hopen, -⟩ := he
    have hview := h.direction_eq hroom.isClass
    rcases hopen with ⟨hnone, -⟩ | ⟨hsome, -⟩
    · rw [hview, hd] at hnone
      cases hnone
    · rw [hview, hd] at hsome
      cases hsome
      rfl
  obtain ⟨t'', he', h'⟩ : ∃ t'', t.Enters rows.length row t'' ∧
      t''.Shows census (.ofRows (rows ++ [row])) := by
    obtain ⟨_, _, _, -, hmember, hclass, -⟩ := he
    exact h.enter hroom hd (le_of_addMember hmember) (le_of_setClass hclass)
  exact ⟨hd, he.unique he' ▸ h'⟩

end PinTables

end Fabric
