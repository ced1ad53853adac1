import Fabric.Proofs.Stopping

/-!
# The tables are never overrun and end exactly full

Loading writes into tables that another traversal of the text has sized. Between statements the fill
counts stay within the slots of their classes and add up to the number of pins entered
(`Draft.Balanced`), and the class of the next pin has a free slot (`Draft.HasRoom`). So no cell
outside a table is ever used, and where loading does not stop, every cell is filled at its end
(`Draft.Full`).
-/

namespace Fabric

open LogicalLine (pins)

/-! ## Tables in order -/

/-- Tables of the sizes of a census, in which each class is filled from the front by pins in
strictly increasing order: as many as its fill count says, and not more than it has slots. -/
structure PinTables.InOrder (t : PinTables) (census : Census) : Prop where
  size_members : t.members.size = census.numClasses
  size_fillCounts : t.fillCounts.size = census.numClasses
  size_directions : t.directions.size = census.numClasses
  size_pinClass : t.pinClass.size = census.totalPins
  size_pinSides : t.pinSides.size = census.totalPins
  filled : ∀ c < census.numClasses, ∃ members : List Nat,
    t.members[c]? = some (Cells.filled members (census.slots c)) ∧
      t.fillCounts[c]? = some members.length ∧ members.length ≤ census.slots c ∧
      members.Pairwise (· < ·)

theorem PinTables.Shows.inOrder {t : PinTables} {census : Census} {v : PinView}
    (h : t.Shows census v) {rows : List PinRow} (hv : v.members = (PinView.ofRows rows).members) :
    t.InOrder census where
  size_members := by rw [h.members, Cells.size_table]
  size_fillCounts := by rw [h.fillCounts, Cells.size_table]
  size_directions := by rw [h.directions, Cells.size_table]
  size_pinClass := by rw [h.pinClass, Cells.size_table]
  size_pinSides := by rw [h.pinSides, Cells.size_table]
  filled c hc := by
    refine ⟨v.members c, ?_, ?_, h.fits hc, ?_⟩
    · rw [h.members, Cells.getElem?_table _ hc]
    · rw [h.fillCounts, Cells.getElem?_table _ hc]
    · rw [hv]
      exact PinView.members_increasing rows c

namespace Draft

/-- Between statements the tables are in order and hold as many pins as were entered. -/
structure Balanced (d : Draft) (census : Census) : Prop where
  inOrder : d.tables.InOrder census
  sum : d.tables.fillCounts.toList.sum = d.nextPin

/-- A pin of a class can be entered without leaving the tables: the class exists and has a free
slot, and the next pin has a place. -/
structure HasRoom (d : Draft) (census : Census) (c : Nat) : Prop where
  isClass : c < census.numClasses
  free : ∃ n, d.tables.fillCounts[c]? = some n ∧ n < census.slots c
  isPin : d.nextPin < census.totalPins

/-- Every cell of the tables is filled. -/
structure Full (d : Draft) (census : Census) : Prop where
  nextPin : d.nextPin = census.totalPins
  fillCounts : d.tables.fillCounts.toList = census.pinsPerClass
  members : ∀ slots ∈ d.tables.members, ∀ cell ∈ slots, cell.isSome
  directions : ∀ direction ∈ d.tables.directions, direction.isSome
  pinClass : ∀ cell ∈ d.tables.pinClass, cell.isSome
  pinSides : ∀ sides ∈ d.tables.pinSides, ∃ side, sides.contains side = true

variable {source : String} {census : Census} {cited : List Nat} {lines : List LogicalLine}
  {rows : List PinRow} {d : Draft}

theorem Holds.balanced (h : d.Holds source census lines rows)
    (hclass : ∀ row ∈ rows, row.classId < census.numClasses) : d.Balanced census where
  inOrder := h.tables.inOrder rfl
  sum := by
    have hlt : ∀ c ∈ rows.map (·.classId), c < census.numClasses := by
      intro c hc
      obtain ⟨row, hrow, rfl⟩ := List.mem_map.1 hc
      exact hclass row hrow
    have hsum := Census.sum_count _ hlt
    rw [List.length_map] at hsum
    rw [h.tables.fillCounts, h.nextPin, ← hsum]
    simp only [Cells.table, PinView.length_members]

theorem Holds.hasRoom (h : d.Holds source census lines rows) {c : Nat}
    (hroom : PinTables.Room census rows c) : d.HasRoom census c where
  isClass := hroom.isClass
  free := by
    refine ⟨_, ?_, hroom.free⟩
    rw [h.tables.fillCounts, Cells.getElem?_table _ hroom.isClass]
  isPin := by
    rw [h.nextPin]
    exact hroom.isPin

theorem Holds.full (h : d.Holds source census lines rows) (hcounts : census.Counts cited)
    (hcited : List.Forall₂ LogicalLine.Cites (pins lines) cited) : d.Full census := by
  have hrows := h.cited_eq hcited
  have hlen := h.length_rows hcounts hcited
  have hcount := h.length_members hcounts hcited
  exact {
    nextPin := h.nextPin.trans hlen
    fillCounts := by
      rw [Census.pinsPerClass_eq, h.tables.fillCounts]
      exact List.map_congr_left fun c _ => hcount c
    members := by
      rw [h.tables.members]
      intro slots hmem cell hcell
      obtain ⟨c, -, rfl⟩ := Cells.mem_table.1 hmem
      obtain ⟨i, hi, rfl⟩ := Cells.mem_table.1 hcell
      rw [← hcount] at hi
      rw [List.getElem?_eq_getElem hi]
      rfl
    directions := by
      rw [h.tables.directions]
      intro direction hmem
      obtain ⟨c, hc, rfl⟩ := Cells.mem_table.1 hmem
      have hc := (hcounts.mem_iff c).2 hc
      rw [← hrows] at hc
      obtain ⟨row, hrow, rfl⟩ := List.mem_map.1 hc
      rw [h.oneDirection row hrow]
      rfl
    pinClass := by
      rw [h.tables.pinClass]
      intro cell hmem
      obtain ⟨p, hp, rfl⟩ := Cells.mem_table.1 hmem
      rw [← hlen] at hp
      simp [PinView.ofRows, hp]
    pinSides := by
      rw [h.tables.pinSides]
      intro sides hmem
      obtain ⟨p, hp, rfl⟩ := Cells.mem_table.1 hmem
      rw [← hlen] at hp
      obtain ⟨line, -, hrow⟩ := exists_of_mem_right h.spelled (List.getElem_mem hp)
      obtain ⟨side, hside⟩ := List.exists_mem_of_ne_nil _ hrow.sides_ne
      refine ⟨side, ?_⟩
      simp only [PinView.ofRows, List.getElem?_eq_getElem hp, Option.map_some, Option.getD_some]
      exact Sides.contains_ofList.2 hside }

end Draft

/-! ## The theorem -/

theorem Stream.load_eq {s : Stream} {census : Census} :
    (s.load census).1 = (Draft.start s.source census).enterAll s.rewind.logicalLines := rfl

/-- Where the census of a text succeeds, loading the text into the tables of the census is safe.
After any lines that were entered, the tables are in order and their fill counts add up to the next
pin; a pin line that comes next cites a class with room. If loading stops, it is not for a cell
outside a table, and the tables it leaves are in order. If it does not stop, the tables are full. -/
theorem Stream.load_within_tables {s : Stream} {census : Census} (h : s.discover.1 = .ok census) :
    (∀ before after d, s.rewind.logicalLines = before ++ after →
      (Draft.start s.source census).enterAll before = ⟨d, none⟩ →
        d.Balanced census ∧ ∀ line rest, after = line :: rest →
          Census.isPinKeyword line.keyword = true → ∃ c, line.Cites c ∧ d.HasRoom census c) ∧
    (∀ halt, (s.load census).1.halt = some halt →
      (∀ index size, halt.failure ≠ .defect (.outsideTable index size)) ∧
        (s.load census).1.draft.tables.InOrder census) ∧
    ((s.load census).1.halt = none → (s.load census).1.draft.Full census) := by
  obtain ⟨cited, hcited, hcounts⟩ := Stream.discover_counts h
  refine ⟨fun before after d hsplit hrun => ?_, fun halt hhalt => ?_, fun hhalt => ?_⟩
  · obtain ⟨rows, hd⟩ := Draft.holds_of_enterAll hcounts hcited hsplit hrun
    rw [hsplit] at hcited
    refine ⟨hd.balanced fun row => hd.classId_lt hcounts hcited, fun line rest hafter hpin => ?_⟩
    subst hafter
    have hmem : line ∈ pins (before ++ line :: rest) := List.mem_filter.2 ⟨by simp, hpin⟩
    obtain ⟨c, -, hc⟩ := exists_of_mem_left hcited hmem
    exact ⟨c, hc, hd.hasRoom (room_of_counts hcounts hcited hd.spelled hpin hc)⟩
  · obtain ⟨before, line, after, d, hsplit, hrun, he⟩ := Draft.enterAll_halt hhalt
    obtain ⟨rows, hd⟩ := Draft.holds_of_enterAll hcounts hcited hsplit hrun
    -- The stop is at `line`, and the draft that it met held the lines before it.
    obtain ⟨htext, rows', v, hshows, hv, -⟩ := hd.enter_error
      (fun c hpin hc => room_of_counts hcounts (hsplit ▸ hcited) hd.spelled hpin hc) he
    refine ⟨fun index size hfailure => ?_, hshows.inOrder hv⟩
    rw [hfailure] at htext
    exact htext
  · have hrun : (Draft.start s.source census).enterAll s.rewind.logicalLines =
        ⟨(s.load census).1.draft, none⟩ := by rw [← hhalt, ← Stream.load_eq]
    obtain ⟨rows, hd⟩ := Draft.holds_of_enterAll hcounts hcited (List.append_nil _).symm hrun
    exact hd.full hcounts hcited

/-- Two pins of two classes fill their tables. -/
theorem Stream.load_two_pins_full :
    (Stream.ofText "outpin class: 0 top\ninpin class: 1 left right" "pins").discover.1 =
        .ok ⟨[1, 1]⟩ ∧
      ((Stream.ofText "outpin class: 0 top\ninpin class: 1 left right" "pins").load
        ⟨[1, 1]⟩).1.draft.Full ⟨[1, 1]⟩ := by
  have hcensus : (Stream.ofText "outpin class: 0 top\ninpin class: 1 left right"
      "pins").discover.1 = .ok ⟨[1, 1]⟩ := by decide +kernel
  refine ⟨hcensus, (Stream.load_within_tables hcensus).2.2 ?_⟩
  exact Option.isNone_iff_eq_none.1 (by decide +kernel)

end Fabric
