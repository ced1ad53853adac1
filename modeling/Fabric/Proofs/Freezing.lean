import Fabric.Proofs.Checks

/-!
# Freezing a draft

A draft that holds a whole text has full tables, so it is frozen as soon as the values of a
description are set (`Draft.Holds.toDescription_ok`): the classes and the pins are those of the
rows. `parseText_ok` puts the passes of a parse together.
-/

namespace Fabric

namespace PinRow

/-- The first `k` classes that rows declare. -/
def classes (k : Nat) (rows : List PinRow) : List PinClass :=
  (List.range k).map fun (c : Nat) =>
    { id := c
      direction := (PinView.ofRows rows).direction c
      members := ((PinView.ofRows rows).members c).map fun (pin : Nat) => (pin : Int) }

/-- The pins that rows declare, numbered in order. -/
def pins (rows : List PinRow) : List Pin :=
  rows.mapIdx fun i row => { index := i, classId := row.classId, sides := .ofList row.sides }

end PinRow

namespace Draft

/-- What the values of a draft and the pins of some rows give as a description. -/
structure Yields (d : Draft) (k : Nat) (rows : List PinRow) (a : Description Binary64) : Prop where
  classes : a.classes = PinRow.classes k rows
  pins : a.pins = PinRow.pins rows
  ioRat : d.ioRat = some a.ioRat
  chanWidthIo : d.chanWidthIo = some a.chanWidthIo
  chanX : d.chanX = some a.chanX
  chanY : d.chanY = some a.chanY
  subblocksPerCluster : d.subblocksPerCluster = some a.subblocksPerCluster
  subblockLutSize : d.subblockLutSize = some a.subblockLutSize
  detailed : d.detailed = a.detailed

variable {source : String} {census : Census} {cited : List Nat} {lines : List LogicalLine}
  {rows : List PinRow} {d : Draft}

theorem mapM_required_filled {α : Type} (xs : List α) :
    ((Cells.table xs.length fun i => xs[i]?).toList.mapM required) = .ok xs := by
  have hcells : (Cells.table xs.length fun i => xs[i]?).toList = xs.map some := by
    refine List.ext_getElem (by simp [Cells.table]) fun i hi _ => ?_
    simp only [Cells.table, List.length_map, List.length_range] at hi
    simp [Cells.table, hi]
  rw [hcells, mapM_ok, List.forall₂_map_left_iff]
  exact List.forall₂_same.2 fun x _ => rfl

theorem Holds.pinClass_eq (h : d.Holds source census lines rows) (hcounts : census.Counts cited)
    (hcited : List.Forall₂ LogicalLine.Cites (LogicalLine.pins lines) cited) {c : Nat}
    (hc : c < census.numClasses) : d.pinClass c = .ok
      { id := c
        direction := (PinView.ofRows rows).direction c
        members := ((PinView.ofRows rows).members c).map fun (pin : Nat) => (pin : Int) } := by
  unfold pinClass
  rw [h.tables.directions, h.tables.members, Cells.get_table _ hc, Cells.get_table _ hc]
  simp only [bind, Except.bind]
  rw [Cells.filled, ← h.length_members hcounts hcited, mapM_required_filled]
  rfl

theorem Holds.pin_eq (h : d.Holds source census lines rows) (hcounts : census.Counts cited)
    (hcited : List.Forall₂ LogicalLine.Cites (LogicalLine.pins lines) cited) {p : Nat}
    (hp : p < rows.length) : d.pin p = .ok
      { index := p, classId := rows[p].classId, sides := .ofList rows[p].sides } := by
  have hp' : p < census.totalPins := h.length_rows hcounts hcited ▸ hp
  unfold Draft.pin
  rw [h.tables.pinClass, h.tables.pinSides, Cells.get_table _ hp', Cells.get_table _ hp']
  simp [PinView.ofRows, hp, required, bind, Except.bind, pure, Except.pure]

/-- A draft that holds a whole text is frozen exactly when the values of a description are set. -/
theorem Holds.toDescription_ok (h : d.Holds source census lines rows)
    (hcounts : census.Counts cited)
    (hcited : List.Forall₂ LogicalLine.Cites (LogicalLine.pins lines) cited)
    {a : Description Binary64} :
    d.toDescription = .ok a ↔ d.Yields census.numClasses rows a := by
  have hclasses : (List.range census.numClasses).mapM d.pinClass =
      .ok (PinRow.classes census.numClasses rows) :=
    mapM_eq_map fun c hc => h.pinClass_eq hcounts hcited (List.mem_range.1 hc)
  have hpins : (List.range census.totalPins).mapM d.pin = .ok (PinRow.pins rows) := by
    rw [← h.length_rows hcounts hcited, mapM_ok, List.forall₂_iff_get]
    refine ⟨by simp [PinRow.pins], fun p hp hp' => ?_⟩
    simp only [PinRow.pins, List.length_mapIdx] at hp'
    simpa [PinRow.pins] using h.pin_eq hcounts hcited hp'
  simp only [toDescription, h.census, hclasses, hpins, except_bind_ok, required_ok,
    except_pure_ok, Except.ok.injEq]
  constructor
  · rintro ⟨_, rfl, _, rfl, io, hio, w, hw, x, hx, y, hy, n, hn, l, hl, rfl⟩
    exact ⟨rfl, rfl, hio, hw, hx, hy, hn, hl, rfl⟩
  · rintro ⟨hclass, hpin, hio, hw, hx, hy, hn, hl, hdetailed⟩
    refine ⟨_, rfl, _, rfl, _, hio, _, hw, _, hx, _, hy, _, hn, _, hl, ?_⟩
    rw [hdetailed, ← hclass, ← hpin]

end Draft

/-- A text with nothing missing has a class. -/
theorem Draft.Holds.numClasses_pos {source : String} {census : Census} {cited : List Nat}
    {lines : List LogicalLine} {rows : List PinRow} {d : Draft} {routing : Routing}
    (hd : d.Holds source census lines rows) (hcounts : census.Counts cited)
    (hcited : List.Forall₂ LogicalLine.Cites (LogicalLine.pins lines) cited)
    (hpresent : d.presenceFindings routing = []) :
    0 < census.numClasses := by
  obtain ⟨dir, hdir⟩ := (hd.presence_iff.1 hpresent).2
  obtain ⟨line, hline⟩ := List.exists_mem_of_ne_nil _ hdir
  obtain ⟨hline, hkey⟩ := List.mem_filter.1 hline
  have hpin := LogicalLine.isPinKeyword_iff.2 ⟨dir, eq_of_beq hkey⟩
  obtain ⟨c, hc, -⟩ := exists_of_mem_left hcited (List.mem_filter.2 ⟨hline, hpin⟩)
  exact Nat.zero_lt_of_lt ((hcounts.mem_iff c).1 hc)

/-- A text is parsed exactly when its census can be taken, its statements are loaded without a
stop, and the draft is accepted. -/
theorem parseText_ok {text source : String} {routing : Routing} {a : Description Binary64} :
    parseText text source routing = .ok a ↔ ∃ census d,
      (Stream.ofText text source).discover.1 = .ok census ∧
        (Draft.start source census).enterAll (Stream.ofText text source).logicalLines = ⟨d, none⟩ ∧
          d.accept routing = .ok a := by
  unfold parseText Stream.parse Stream.draft
  simp only [except_bind_ok, mapError_ok]
  constructor
  · rintro ⟨d, ⟨census, hcensus, h⟩, haccept⟩
    refine ⟨census, d, hcensus, ?_, haccept⟩
    generalize hentered : ((Stream.ofText text source).load census).1 = entered at h
    rcases entered with ⟨d', _ | halt⟩
    · rw [except_pure_ok] at h
      subst h
      exact hentered
    · cases h
  · rintro ⟨census, d, hcensus, hrun, haccept⟩
    refine ⟨d, ⟨census, hcensus, ?_⟩, haccept⟩
    have hload : ((Stream.ofText text source).load census).1 = ⟨d, none⟩ := hrun
    rw [hload]
    rfl

/-- The logical lines of a text. -/
def LogicalLine.ofText (text : String) : List LogicalLine :=
  listFrom [] 0 (Text.physicalLines text.toList)

/-- What is known of a text that is parsed: its draft holds all its lines, nothing is missing or
repeated, and the description is what the draft yields. -/
theorem parseText_holds {text source : String} {routing : Routing} {a : Description Binary64}
    (h : parseText text source routing = .ok a) : ∃ census cited rows d,
      census.Counts cited ∧
        List.Forall₂ LogicalLine.Cites (LogicalLine.pins (LogicalLine.ofText text)) cited ∧
        Draft.Holds source census (LogicalLine.ofText text) rows d ∧
        d.presenceFindings routing = [] ∧ d.Yields census.numClasses rows a := by
  obtain ⟨census, d, hcensus, hrun, haccept⟩ := parseText_ok.1 h
  obtain ⟨cited, hcited, hcounts⟩ := Stream.discover_counts hcensus
  obtain ⟨rows, hd⟩ := Draft.holds_of_enterAll hcounts hcited (List.append_nil _).symm hrun
  obtain ⟨hfindings, hfrozen⟩ := Draft.accept_ok.1 haccept
  exact ⟨census, cited, rows, d, hcounts, hcited, hd, Draft.presence_of_remarks hfindings,
    (hd.toDescription_ok hcounts hcited).1 hfrozen⟩

end Fabric
