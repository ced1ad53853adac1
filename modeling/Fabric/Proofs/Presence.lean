import Fabric.Proofs.Findings
import Fabric.Proofs.Meaning
import Fabric.Proofs.Numbering

/-!
# The field log vouches for the values

The checks of a draft look at its field log only, and what is read later relies on them. After
loading, the log lists for each field the lines that state it, in ascending order, and nothing else;
a field is set exactly if it is listed, and holds what its last line spells; and the pins are as
many as the lines that are listed for them (`load_vouched`).
-/

namespace Fabric

open LogicalLine (pins ofField)

/-! ## Lines of the pin fields -/

/-- A pin line states one of the two pin fields. -/
theorem LogicalLine.length_pins (lines : List LogicalLine) : (pins lines).length =
    (ofField .inpin lines).length + (ofField .outpin lines).length := by
  induction lines with
  | nil => rfl
  | cons line lines ih =>
    have hcons : ∀ f, (ofField f (line :: lines)).length =
        (ofField f [line]).length + (ofField f lines).length := by
      intro f
      rw [← List.length_append, ← ofField_append, List.singleton_append]
    by_cases hpin : Census.isPinKeyword line.keyword = true
    · obtain ⟨dir, hdir⟩ := isPinKeyword_iff.1 hpin
      rw [pins_cons_pos _ hpin, List.length_cons, ih, hcons, hcons]
      cases dir with
      | driver =>
        have hne : line.keyword ≠ Field.inpin.keyword := by
          rw [hdir]
          decide
        rw [ofField_singleton_neg hne, ofField_singleton_pos (f := .outpin) hdir]
        simp only [List.length_nil, List.length_singleton]
        omega
      | receiver =>
        have hne : line.keyword ≠ Field.outpin.keyword := by
          rw [hdir]
          decide
        rw [ofField_singleton_pos (f := .inpin) hdir, ofField_singleton_neg hne]
        simp only [List.length_nil, List.length_singleton]
        omega
    · have hne : ∀ dir : Direction, line.keyword ≠ dir.field.keyword := by
        intro dir hdir
        exact hpin (isPinKeyword_iff.2 ⟨dir, hdir⟩)
      rw [pins_cons_neg _ (Bool.eq_false_of_not_eq_true hpin), ih, hcons, hcons,
        ofField_singleton_neg (f := .inpin) (hne .receiver),
        ofField_singleton_neg (f := .outpin) (hne .driver)]
      simp only [List.length_nil, Nat.zero_add]

/-! ## What the log vouches for -/

namespace Draft

/-- The field log of a draft vouches for its values: it says which lines set them, and how many pins
there are. -/
structure Vouches (d : Draft) (census : Census) (lines : List LogicalLine) : Prop where
  /-- A field is listed with the numbers of its lines, which ascend. -/
  listed : ∀ f : Field, d.log.lines f.keyword = (ofField f lines).map (·.number)
  increasing : ∀ f : Field, (d.log.lines f.keyword).Pairwise (· < ·)
  count : ∀ f : Field, d.log.count f.keyword = (ofField f lines).length
  /-- No other name is counted. -/
  count_other : ∀ name, (∀ f : Field, name ≠ f.keyword) → d.log.count name = 0
  /-- A field is unset exactly if it is not counted; else it holds what its last line spells. -/
  unset_iff : ∀ f : Field, f.isPin = false → (d.value? f = none ↔ d.log.count f.keyword = 0)
  value : ∀ f : Field, f.isPin = false → d.log.count f.keyword ≠ 0 → ∃ line p,
    (ofField f lines).getLast? = some line ∧ f.Spells line.operands p ∧ d.value? f = some p
  /-- The counts of the pin fields add up to the pins entered, which are those of the census. -/
  nextPin : d.log.count Field.inpin.keyword + d.log.count Field.outpin.keyword = d.nextPin
  totalPins : d.nextPin = census.totalPins
  /-- Detailed routing is complete exactly if each of its fields is counted. -/
  hasDetailed_iff : d.hasDetailed = true ↔
    ∀ f : Field, f.isDetailed = true → 1 ≤ d.log.count f.keyword

variable {source text : String} {census : Census} {cited : List Nat} {lines : List LogicalLine}
  {rows : List PinRow} {d : Draft}

/-- The log lists only names of fields. -/
theorem Holds.count_other (h : d.Holds source census lines rows) {name : String}
    (hname : ∀ f : Field, name ≠ f.keyword) : d.log.count name = 0 := by
  unfold FieldLog.count FieldLog.lines
  rw [List.length_reverse, List.length_map, List.length_eq_zero_iff, List.filter_eq_nil_iff, h.log]
  intro entry hentry heq
  obtain ⟨line, hline, rfl⟩ := List.mem_map.1 (List.mem_reverse.1 hentry)
  have hstatement := (List.mem_filter.1 hline).2
  have hkey : line.keyword = name := beq_iff_eq.1 heq
  rw [LogicalLine.isStatement_eq_false fun f hf => hname f (hkey.symm.trans hf)] at hstatement
  cases hstatement

theorem Holds.count_pos_iff (h : d.Holds source census lines rows) {f : Field}
    (hf : f.isPin = false) : 1 ≤ d.log.count f.keyword ↔ ∃ p, d.value? f = some p := by
  rw [h.count_eq, h.exists_value_iff hf, Nat.one_le_iff_ne_zero, ne_eq, List.length_eq_zero_iff]

theorem Holds.vouches (h : d.Holds source census (LogicalLine.ofText text) rows)
    (hcounts : census.Counts cited)
    (hcited : List.Forall₂ LogicalLine.Cites (pins (LogicalLine.ofText text)) cited) :
    d.Vouches census (LogicalLine.ofText text) where
  listed := h.lines_eq
  increasing f := by
    rw [h.lines_eq]
    exact List.pairwise_map.2 ((LogicalLine.numbers_increasing text).filter _)
  count := h.count_eq
  count_other _ := h.count_other
  unset_iff f hf := by
    rw [← not_iff_not, ← ne_eq (d.log.count _), ← Nat.one_le_iff_ne_zero, h.count_pos_iff hf]
    exact Option.ne_none_iff_exists'
  value f hf hne := by
    rw [h.count_eq, ne_eq, List.length_eq_zero_iff] at hne
    have hlast := List.getLast?_eq_getLast_of_ne_nil hne
    obtain ⟨p, hspells, hvalue⟩ := h.value_of_getLast? hf hlast
    exact ⟨_, p, hlast, hspells, hvalue⟩
  nextPin := by
    rw [h.count_eq, h.count_eq, ← LogicalLine.length_pins, h.spelled.length_eq, h.nextPin]
  totalPins := h.nextPin.trans (h.length_rows hcounts hcited)
  hasDetailed_iff := by
    unfold hasDetailed
    rw [detailed_isSome]
    exact forall₂_congr fun f hf => (h.count_pos_iff (Field.isPin_of_isDetailed hf)).symm

end Draft

/-- Where loading a text into the tables of its census does not stop, the field log of the draft
vouches for its values, and each line that it can list ends at the place that its number says. -/
theorem Stream.load_vouched {text source : String} {census : Census}
    (hcensus : (ofText text source).discover.1 = .ok census)
    (hload : ((ofText text source).load census).1.halt = none) :
    ((ofText text source).load census).1.draft.Vouches census (LogicalLine.ofText text) ∧
      ∀ line ∈ LogicalLine.ofText text, line.StandsIn text := by
  obtain ⟨cited, hcited, hcounts⟩ := Stream.discover_counts hcensus
  have hrun : (Draft.start source census).enterAll (LogicalLine.ofText text) =
      ⟨((ofText text source).load census).1.draft, none⟩ := by
    rw [← hload]
    rfl
  obtain ⟨rows, hd⟩ := Draft.holds_of_enterAll hcounts hcited (List.append_nil _).symm hrun
  exact ⟨hd.vouches hcounts hcited, fun line => LogicalLine.standsIn_of_mem⟩

/-- A field that is stated twice holds its second value, and the log lists both lines. -/
theorem Stream.load_vouched_repeated :
    let s := Stream.ofText "io_rat 1\ninpin class: 0 top\nio_rat 2 # again\n" "repeated"
    s.discover.1 = .ok ⟨[1]⟩ ∧ (s.load ⟨[1]⟩).1.draft.log.lines "io_rat" = [1, 3] ∧
      (s.load ⟨[1]⟩).1.draft.ioRat = some 2 ∧
      (s.load ⟨[1]⟩).1.draft.Vouches ⟨[1]⟩
        (LogicalLine.ofText "io_rat 1\ninpin class: 0 top\nio_rat 2 # again\n") := by
  intro s
  have hcensus : s.discover.1 = .ok ⟨[1]⟩ := by decide +kernel
  refine ⟨hcensus, by decide +kernel, by decide +kernel, (load_vouched hcensus ?_).1⟩
  exact Option.isNone_iff_eq_none.1 (by decide +kernel)

end Fabric
