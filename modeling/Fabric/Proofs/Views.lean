import Fabric.Proofs.Echoing

/-!
# The views of the pins agree

A description shows its pins in four ways: the pins themselves, the members of the classes, the
pins on a side and the matrix of sides and pins. Each is computed by a loop of its own, which goes
by the index of a pin, its place or its class. In a description that was read they agree
(`parseText_views`): indices are places, so marking the pins in the matrix one after the other
leaves each mark where it belongs (`foldlM_markPin`).
-/

namespace Fabric

namespace Description

/-! ## The matrix -/

/-- The rows of a matrix of sides and pins, each a table of the same size. -/
def sideRows (n : Nat) (mark : Side → Nat → Bool) : List (Array Bool) :=
  (Vocabulary.all (α := Side)).map fun side => Cells.table n (mark side)

/-- The marks with those of one more pin. -/
def withPin (mark : Side → Nat → Bool) (p : Nat) (pin : Pin) (side : Side) : Nat → Bool :=
  if pin.sides.contains side then Function.update (mark side) p true else mark side

/-- The marks of pins at their places. -/
def marks (pins : List Pin) (side : Side) (p : Nat) : Bool :=
  (pins[p]?).any (·.sides.contains side)

variable {n : Nat} {pins : List Pin} {a : Description Binary64}

theorem placeOf?_eq_none {i : Int} (h : ¬ (-(n : Int) ≤ i ∧ i < n)) : placeOf? n i = none := by
  rw [Option.eq_none_iff_forall_ne_some]
  intro p hp
  have hplace := placeOf?_eq_some.1 hp
  omega

/-- Marking a pin writes one column, in the rows of its sides. -/
theorem markPin_sideRows (mark : Side → Nat → Bool) {pin : Pin} {p : Nat} (hindex : pin.index = p)
    (hp : p < n) : markPin (sideRows n mark) pin = .ok (sideRows n (withPin mark p pin)) := by
  have hzip : (Vocabulary.all (α := Side)).zip (sideRows n mark) =
      (Vocabulary.all (α := Side)).map fun side => (side, Cells.table n (mark side)) := by
    have h := List.zip_map' (l := Vocabulary.all (α := Side)) (f := id)
      (g := fun side => Cells.table n (mark side))
    rwa [List.map_id] at h
  unfold markPin
  rw [hzip, List.mapM_map]
  refine mapM_eq_map fun side _ => ?_
  simp only [Function.comp_apply, withPin]
  by_cases hside : pin.sides.contains side = true
  · have hplace : placeOf? (Cells.table n (mark side)).size pin.index = some p := by
      rw [Cells.size_table]
      exact placeOf?_eq_some.2 ⟨hp, .inl hindex⟩
    rw [hside, hplace]
    exact Cells.put_table (mark side) true hp
  · rw [Bool.eq_false_of_not_eq_true hside]
    rfl

theorem marks_append (pins : List Pin) (pin : Pin) :
    marks (pins ++ [pin]) = withPin (marks pins) pins.length pin := by
  funext side p
  unfold withPin
  by_cases hp : p = pins.length
  · subst hp
    have hlast : marks (pins ++ [pin]) side pins.length = pin.sides.contains side := by
      simp only [marks, List.getElem?_concat_length, Option.any_some]
    rw [hlast]
    by_cases hside : pin.sides.contains side = true
    · rw [if_pos hside, Function.update_self, hside]
    · rw [if_neg hside, Bool.eq_false_of_not_eq_true hside]
      simp [marks]
  · have hother : (pins ++ [pin])[p]? = pins[p]? := by
      rcases Nat.lt_or_gt_of_ne hp with hlt | hgt
      · exact List.getElem?_append_left hlt
      · rw [List.getElem?_eq_none hgt.le, List.getElem?_eq_none]
        rw [List.length_append, List.length_singleton]
        exact hgt
    have hmarks : marks (pins ++ [pin]) side p = marks pins side p := by
      simp only [marks, hother]
    rw [hmarks]
    split
    · rw [Function.update_of_ne hp]
    · rfl

/-- Marking pins that are numbered by their places marks each at its place. -/
theorem foldlM_markPin (hindex : ∀ (p : Nat) (pin : Pin), pins[p]? = some pin → pin.index = p)
    (hn : pins.length ≤ n) : pins.foldlM markPin (sideRows n fun _ _ => false) =
      .ok (sideRows n (marks pins)) := by
  induction pins using List.reverseRecOn with
  | nil => rfl
  | append_singleton pins pin ih =>
    rw [List.length_append, List.length_singleton] at hn
    have hfirst : ∀ (p : Nat) (pin' : Pin), pins[p]? = some pin' → pin'.index = p := by
      intro p pin' hpin'
      have hp := (List.getElem?_eq_some_iff.1 hpin').1
      exact hindex p pin' (by rw [List.getElem?_append_left hp, hpin'])
    have hlast : pin.index = pins.length := hindex _ _ List.getElem?_concat_length
    rw [List.foldlM_append, ih hfirst (by omega), marks_append]
    change markPin (sideRows n (marks pins)) pin >>= pure = _
    rw [bind_pure]
    exact markPin_sideRows (marks pins) hlast hn

/-! ## The views of a description that was read -/

/-- The views of the pins of a description agree with each other. -/
structure PinViews (a : Description Binary64) : Prop where
  /-- The matrix has a row for each side and a column for each pin, and says of them whether the pin
  is on the side. -/
  matrix : ∃ rows, a.locationMatrix = .ok rows ∧ rows.length = 4 ∧
    (∀ row ∈ rows, row.size = a.pinsPerBlock) ∧
    ∀ (s p : Nat) (side : Side) (row : Array Bool) (pin : Pin),
      [Side.top, .bottom, .left, .right][s]? = some side → rows[s]? = some row →
        a.pins[p]? = some pin → row[p]? = some (pin.sides.contains side)
  /-- The pins on a side are the places of the pins that have it, in ascending order. -/
  mem_onSide : ∀ (side : Side) (i : Int), i ∈ a.pinsOnSide side ↔
    ∃ (p : Nat) (pin : Pin), i = p ∧ a.pins[p]? = some pin ∧ pin.sides.contains side = true
  increasing : ∀ side, (a.pinsOnSide side).Pairwise (· < ·)
  someSide : ∀ p < a.pinsPerBlock, ∃ side, (p : Int) ∈ a.pinsOnSide side
  /-- A pin index, which may count from the end, has the one class among whose members its place
  is. -/
  classOf : ∀ i : Int, -(a.pinsPerBlock : Int) ≤ i → i < a.pinsPerBlock →
    ∃ (c : Nat) (pinClass : PinClass), a.classes[c]? = some pinClass ∧
      a.classOf? i = some pinClass ∧
      (if i < 0 then i + a.pinsPerBlock else i) ∈ pinClass.members ∧
      ∀ (c' : Nat) (other : PinClass), a.classes[c']? = some other →
        (if i < 0 then i + a.pinsPerBlock else i) ∈ other.members → c' = c
  /-- No other index has a class. -/
  classOf_none : ∀ i : Int, ¬ (-(a.pinsPerBlock : Int) ≤ i ∧ i < a.pinsPerBlock) →
    a.classOf? i = none

namespace WellFormed

theorem index_eq (h : a.WellFormed) (p : Nat) (pin : Pin) (hpin : a.pins[p]? = some pin) :
    pin.index = p := (h.pin p pin hpin).1

theorem locationMatrix_ok (h : a.WellFormed) :
    a.locationMatrix = .ok (sideRows a.pinsPerBlock (marks a.pins)) := by
  have hstart : (Vocabulary.all (α := Side)).map (fun _ => Array.replicate a.pinsPerBlock false) =
      sideRows a.pinsPerBlock fun _ _ => false := by
    refine List.map_congr_left fun side _ => ?_
    simp [Cells.table, List.map_const']
  unfold locationMatrix
  rw [hstart]
  exact foldlM_markPin h.index_eq le_rfl

theorem mem_pinsOnSide (h : a.WellFormed) {side : Side} {i : Int} : i ∈ a.pinsOnSide side ↔
    ∃ (p : Nat) (pin : Pin), i = p ∧ a.pins[p]? = some pin ∧ pin.sides.contains side = true := by
  unfold pinsOnSide
  rw [List.mem_map]
  constructor
  · rintro ⟨pin, hmem, rfl⟩
    obtain ⟨hpin, hside⟩ := List.mem_filter.1 hmem
    obtain ⟨p, hp⟩ := List.getElem?_of_mem hpin
    exact ⟨p, pin, h.index_eq p pin hp, hp, hside⟩
  · rintro ⟨p, pin, rfl, hp, hside⟩
    exact ⟨pin, List.mem_filter.2 ⟨List.mem_of_getElem? hp, hside⟩, h.index_eq p pin hp⟩

theorem pairwise_index (h : a.WellFormed) : a.pins.Pairwise (·.index < ·.index) := by
  rw [List.pairwise_iff_getElem]
  intro p q hp hq hlt
  rw [h.index_eq p _ (List.getElem?_eq_getElem hp), h.index_eq q _ (List.getElem?_eq_getElem hq)]
  exact Int.ofNat_lt.2 hlt

/-- The members of a class are the places of the pins that cite it. -/
theorem mem_members (h : a.WellFormed) {c p : Nat} {pin : Pin} {pinClass : PinClass}
    (hclass : a.classes[c]? = some pinClass) (hpin : a.pins[p]? = some pin) :
    (p : Int) ∈ pinClass.members ↔ pin.classId = c := by
  obtain ⟨-, -, -, hmembers⟩ := h.pinClass c pinClass hclass
  rw [hmembers, List.mem_map]
  constructor
  · rintro ⟨pin', hmem, hindex⟩
    obtain ⟨hpin', hid⟩ := List.mem_filter.1 hmem
    obtain ⟨q, hq⟩ := List.getElem?_of_mem hpin'
    obtain rfl : q = p := Int.ofNat.inj ((h.index_eq q pin' hq).symm.trans hindex)
    obtain rfl := Option.some.inj (hpin.symm.trans hq)
    exact eq_of_beq hid
  · intro hid
    exact ⟨pin, List.mem_filter.2 ⟨List.mem_of_getElem? hpin, beq_iff_eq.2 hid⟩,
      h.index_eq p pin hpin⟩

/-- The class of an index is the one that the pin at its place cites. -/
theorem classOf_eq (h : a.WellFormed) {i : Int} {p : Nat}
    (hplace : placeOf? a.pins.length i = some p) :
    ∃ (c : Nat) (pinClass : PinClass) (pin : Pin), a.pins[p]? = some pin ∧ pin.classId = c ∧
      a.classes[c]? = some pinClass ∧ a.classOf? i = some pinClass := by
  have hpin := List.getElem?_eq_getElem (placeOf?_eq_some.1 hplace).1
  obtain ⟨c, pinClass, hid, hclass, hcited⟩ := h.citedClass (List.mem_of_getElem? hpin)
  refine ⟨c, pinClass, _, hpin, hid, hclass, ?_⟩
  unfold classOf? entryFromEnd?
  rw [hplace]
  simp only [Option.bind_eq_bind, Option.bind_some]
  rw [hpin]
  exact hcited

theorem pinViews (h : a.WellFormed) : a.PinViews where
  matrix := by
    refine ⟨_, h.locationMatrix_ok, rfl, ?_, ?_⟩
    · intro row hrow
      obtain ⟨side, -, rfl⟩ := List.mem_map.1 hrow
      exact Cells.size_table _
    · intro s p side row pin hside hrow hpin
      have hp : p < a.pinsPerBlock := (List.getElem?_eq_some_iff.1 hpin).1
      rw [sideRows, List.getElem?_map] at hrow
      obtain ⟨side', hside', rfl⟩ := Option.map_eq_some_iff.1 hrow
      obtain rfl := Option.some.inj (hside.symm.trans hside')
      rw [Cells.getElem?_table _ hp, marks, hpin]
      rfl
  mem_onSide _ _ := h.mem_pinsOnSide
  increasing side := List.pairwise_map.2 (h.pairwise_index.filter _)
  someSide p hp := by
    have hpin := List.getElem?_eq_getElem (l := a.pins) hp
    obtain ⟨-, -, -, hsides⟩ := h.pin p _ hpin
    obtain ⟨side, hside⟩ := List.exists_mem_of_ne_nil _ (toList_ne_nil hsides)
    exact ⟨side, h.mem_pinsOnSide.2 ⟨p, _, rfl, hpin, Sides.mem_toList.1 hside⟩⟩
  classOf i hlow hhigh := by
    have hnonneg : 0 ≤ if i < 0 then i + a.pinsPerBlock else i := by
      split <;> omega
    obtain ⟨p, hp⟩ := Int.eq_ofNat_of_zero_le hnonneg
    have hplace : placeOf? a.pins.length i = some p := by
      refine placeOf?_eq_some.2 ?_
      unfold pinsPerBlock at *
      split at hp <;> omega
    obtain ⟨c, pinClass, pin, hpin, hid, hclass, hof⟩ := h.classOf_eq hplace
    refine ⟨c, pinClass, hclass, hof, ?_, ?_⟩
    · rw [hp]
      exact (h.mem_members hclass hpin).2 hid
    · intro c' other hother hmem
      rw [hp] at hmem
      have hid' := (h.mem_members hother hpin).1 hmem
      exact Int.ofNat.inj (hid'.symm.trans hid)
  classOf_none i hi := by
    have hnone : placeOf? a.pins.length i = none := placeOf?_eq_none hi
    unfold classOf? entryFromEnd?
    rw [hnone]
    rfl

end WellFormed

end Description

/-- Whatever a text is parsed to, for either routing, the views of its pins agree. -/
theorem parseText_views {text source : String} {routing : Routing} {a : Description Binary64}
    (h : parseText text source routing = .ok a) : a.PinViews :=
  (Description.wellFormed_of_parse h).pinViews

/-- The views agree on two pins of two classes, the second of them on two sides. -/
theorem views_two_pins :
    let text := "io_rat 2\nchan_width_io 1\nchan_width_x uniform 1\nchan_width_y uniform 1\n" ++
      "outpin class: 1 top\ninpin class: 0 right left\nsubblocks_per_cluster 1\n" ++
      "subblock_lut_size 4\n"
    ∃ a, parseText text "two pins" .global = .ok a ∧ a.PinViews := by
  intro text
  have hok : (parseText text "two pins" .global).isOk = true := by decide +kernel
  cases h : parseText text "two pins" .global with
  | ok a => exact ⟨a, rfl, parseText_views h⟩
  | error e =>
    rw [h] at hok
    cases hok

end Fabric
