import Fabric.Proofs.Acceptance
import Fabric.Proofs.Printing

/-!
# Reading undoes writing

The lines of a well-formed description are grammatical (`WellFormed.grammatical`), its pins and
classes are those of its pin statements (`WellFormed.pins_eq`, `WellFormed.classes_eq`), and a draft
of the lines yields the description, with exact zeros for what its channels do not have
(`WellFormed.yields`). So the text of a description is parsed to an equal one, which is written as
the same text (`parseText_format`).
-/

namespace Fabric

open LogicalLine (ofField)

theorem LogicalLine.States.isPinKeyword {line : LogicalLine} {s : Statement} (h : line.States s) :
    Census.isPinKeyword line.keyword = s.field.isPin := by
  cases hpin : s.field.isPin with
  | false => exact isPinKeyword_eq_false h.keyword hpin
  | true =>
    rw [h.keyword]
    cases hf : s.field <;> rw [hf] at hpin <;> first | rfl | cases hpin

/-! ## Rows of pins -/

theorem Sides.ofList_toList (s : Sides) : Sides.ofList s.toList = s := by
  obtain ⟨top, bottom, left, right⟩ := s
  revert top bottom left right
  decide

namespace PinRow

/-- The members of a class are the numbers of its pins. -/
theorem filter_pins (rows : List PinRow) (c : Nat) :
    ((PinRow.pins rows).filter (·.classId == (c : Int))).map (·.index) =
      ((PinView.ofRows rows).members c).map fun (pin : Nat) => (pin : Int) := by
  have hfrom : ∀ start, (((rows.zipIdx start).map fun (entry : PinRow × Nat) => Pin.mk entry.2
      entry.1.classId (.ofList entry.1.sides)).filter (·.classId == (c : Int))).map (·.index) =
        (rows.findIdxs (·.classId == c) start).map fun (pin : Nat) => (pin : Int) := by
    induction rows with
    | nil => exact fun _ => rfl
    | cons row rows ih =>
      intro start
      rw [List.zipIdx_cons, List.map_cons, List.findIdxs_cons, List.filter_cons]
      by_cases hc : row.classId = c
      · simp [hc, ih]
      · simp [hc, ih]
  unfold PinRow.pins PinView.ofRows
  rw [List.mapIdx_eq_zipIdx_map]
  exact hfrom 0

/-- Rows that declare the pins of a list, in order, have these pins. -/
theorem pins_map {row : Pin → PinRow} {ps : List Pin}
    (h : ∀ (i : Nat) (pin : Pin), ps[i]? = some pin →
      pin = { index := i, classId := (row pin).classId, sides := .ofList (row pin).sides }) :
    PinRow.pins (ps.map row) = ps := by
  refine List.ext_getElem? fun i => ?_
  rw [getElem?_pins, List.getElem?_map]
  cases hi : ps[i]? with
  | none => rfl
  | some pin => exact congrArg some (h i pin hi).symm

end PinRow

namespace Description

variable {a : Description Binary64}

namespace WellFormed

theorem pins_eq (h : a.WellFormed) : PinRow.pins a.pinRows = a.pins := by
  refine PinRow.pins_map fun i pin hi => ?_
  obtain ⟨hindex, hnonneg, -, -⟩ := h.pin i pin hi
  unfold pinRow
  simp only [Sides.ofList_toList, Int.toNat_of_nonneg hnonneg, ← hindex]

/-- The pins of a class are declared in its direction. -/
theorem direction_eq (h : a.WellFormed) {pin : Pin} (hpin : pin ∈ a.pins) {c : Nat}
    {pinClass : PinClass} (hc : pin.classId = c) (hclass : a.classes[c]? = some pinClass) :
    pinClass.direction = some (a.direction pin) := by
  obtain ⟨c', pinClass', hc', hclass', hcited⟩ := h.citedClass hpin
  obtain rfl : c = c' := Int.ofNat.inj (hc.symm.trans hc')
  obtain rfl : pinClass = pinClass' := Option.some.inj (hclass.symm.trans hclass')
  obtain ⟨-, hdirection, -⟩ := h.pinClass c pinClass hclass
  unfold direction
  rw [hcited, Option.bind_some]
  cases hd : pinClass.direction with
  | none => exact absurd hd hdirection
  | some d => cases d <;> rfl

theorem classes_eq (h : a.WellFormed) : PinRow.classes a.numClasses a.pinRows = a.classes := by
  have hlength : (PinRow.classes a.numClasses a.pinRows).length = a.classes.length := by
    unfold PinRow.classes numClasses
    rw [List.length_map, List.length_range]
  refine List.ext_getElem? fun c => ?_
  cases hc : a.classes[c]? with
  | none =>
    rw [List.getElem?_eq_none_iff] at hc ⊢
    omega
  | some pinClass =>
    have hlt : c < a.numClasses := (List.getElem?_eq_some_iff.1 hc).1
    obtain ⟨hid, -, -, hmembers⟩ := h.pinClass c pinClass hc
    have hdirection : (PinView.ofRows a.pinRows).direction c = pinClass.direction := by
      obtain ⟨pin, hpin, hclass⟩ := h.exists_pin hlt
      unfold PinView.ofRows
      simp only
      cases hfind : a.pinRows.find? (·.classId == c) with
      | none =>
        have hnone := List.find?_eq_none.1 hfind (a.pinRow pin) (List.mem_map_of_mem hpin)
        simp [pinRow, hclass] at hnone
      | some found =>
        have hfound := List.find?_some hfind
        obtain ⟨pin', hpin', rfl⟩ := List.mem_map.1 (List.mem_of_find?_eq_some hfind)
        obtain ⟨c', -, hc', -⟩ := h.citedClass hpin'
        have hclass' : pin'.classId = c := by
          simpa [pinRow, hc'] using hfound
        exact (h.direction_eq hpin' hclass' hc).symm
    rw [PinRow.getElem?_classes]
    refine ⟨hlt, ?_⟩
    rw [hdirection, ← PinRow.filter_pins, h.pins_eq, ← hmembers, ← hid]

end WellFormed

/-! ## The lines of a description -/

section Lines

variable {lines : List LogicalLine}

/-- A field has as many lines as statements. -/
theorem length_ofField {ss : List Statement} (h : List.Forall₂ LogicalLine.States lines ss)
    (f : Field) : (ofField f lines).length = (ss.map (·.field)).count f := by
  unfold ofField
  induction h with
  | nil => rfl
  | @cons line s lines ss hs _ ih =>
    rw [List.map_cons, List.count_cons, List.filter_cons]
    by_cases hf : s.field = f
    · simp [hs.keyword, hf, ih]
    · have hkeyword : line.keyword ≠ f.keyword := fun heq =>
        hf (Field.keyword_inj (hs.keyword.symm.trans heq))
      simp [hkeyword, hf, ih]

theorem statements_filter_isPin (a : Description Binary64) :
    a.statements.filter (·.field.isPin) = a.pinRows.map PinRow.statement := by
  have hpin : ∀ row : PinRow, row.statement.field.isPin = true := by
    intro row
    unfold PinRow.statement
    cases row.direction <;> rfl
  unfold statements parts
  cases a.detailed <;> simp [detailedStatements, Field.isPin] <;> exact fun row _ => hpin row

/-- The pin lines of a description spell its rows. -/
theorem WellFormed.spelled (h : a.WellFormed) (hlen : a.pins.length ≤ Cells.maxInteger + 1)
    (hlines : List.Forall₂ LogicalLine.States lines a.statements) :
    List.Forall₂ PinRow.Spells (LogicalLine.pins lines) a.pinRows := by
  have hpinLines : List.Forall₂ (fun line row => LogicalLine.States line (PinRow.statement row))
      (LogicalLine.pins lines) a.pinRows := by
    rw [← List.forall₂_map_right_iff, ← statements_filter_isPin]
    exact List.rel_filter (fun _ _ hs => iff_of_eq (congrArg (· = true) hs.isPinKeyword)) hlines
  have hrows : ∀ row ∈ a.pinRows,
      Numeral.isWritable row.classId = true ∧ row.sides ≠ [] := by
    intro row hrow
    obtain ⟨pin, hpin, rfl⟩ := List.mem_map.1 hrow
    obtain ⟨i, hi⟩ := List.getElem?_of_mem hpin
    obtain ⟨-, hnonneg, -, hsides⟩ := h.pin i pin hi
    have hwritable := h.isWritable_classId hlen hpin
    rw [← Int.toNat_of_nonneg hnonneg] at hwritable
    exact ⟨hwritable, toList_ne_nil hsides⟩
  have hboth := (List.forall₂_and_left _ _).2 ⟨hrows, hpinLines.flip⟩
  refine hboth.flip.imp ?_
  rintro line row ⟨⟨hwritable, hsides⟩, hs⟩
  exact ⟨hs.keyword, ⟨_, hs.operands, Numeral.read?_text hwritable⟩, hsides⟩

theorem WellFormed.cites_iff (h : a.WellFormed)
    (hspelled : List.Forall₂ PinRow.Spells (LogicalLine.pins lines) a.pinRows) (c : Nat) :
    (∃ line ∈ LogicalLine.pins lines, line.Cites c) ↔ c < a.numClasses := by
  constructor
  · rintro ⟨line, hline, hcites⟩
    obtain ⟨row, hrow, hspells⟩ := exists_of_mem_left hspelled hline
    obtain ⟨pin, hpin, rfl⟩ := List.mem_map.1 hrow
    obtain ⟨c', pinClass, hc', hclass, -⟩ := h.citedClass hpin
    obtain rfl := hcites.unique hspells.cites
    have hlt : c' < a.numClasses := (List.getElem?_eq_some_iff.1 hclass).1
    simpa [pinRow, hc'] using hlt
  · intro hc
    obtain ⟨pin, hpin, hclass⟩ := h.exists_pin hc
    obtain ⟨line, hline, hspells⟩ := exists_of_mem_right hspelled (List.mem_map_of_mem hpin)
    have hcites := hspells.cites
    simp only [pinRow, hclass, Int.toNat_natCast] at hcites
    exact ⟨line, hline, hcites⟩

/-- The lines of a well-formed description are grammatical. -/
theorem WellFormed.grammatical (h : a.WellFormed) (hlen : a.pins.length ≤ Cells.maxInteger + 1)
    (hlines : List.Forall₂ LogicalLine.States lines a.statements) : Grammatical lines where
  declares := by
    intro line hline hpin
    obtain ⟨row, -, hspells⟩ :=
      exists_of_mem_left (h.spelled hlen hlines) (List.mem_filter.2 ⟨hline, hpin⟩)
    exact ⟨row, hspells⟩
  classes := by
    refine ⟨a.numClasses, ?_, h.cites_iff (h.spelled hlen hlines)⟩
    obtain ⟨pin, hpin⟩ := List.exists_mem_of_ne_nil _ h.pins_ne
    obtain ⟨c, pinClass, -, hclass, -⟩ := h.citedClass hpin
    exact Nat.zero_lt_of_lt (List.getElem?_eq_some_iff.1 hclass).1
  oneDirection := by
    refine oneDirection_of_spelled (h.spelled hlen hlines) fun x hx y hy hclasses => ?_
    obtain ⟨pin, hpin, rfl⟩ := List.mem_map.1 hx
    obtain ⟨pin', hpin', rfl⟩ := List.mem_map.1 hy
    obtain ⟨c, pinClass, hc, hclass, -⟩ := h.citedClass hpin
    obtain ⟨c', -, hc', -⟩ := h.citedClass hpin'
    have hsame : pin'.classId = c := by
      simp only [pinRow, hc, hc', Int.toNat_natCast] at hclasses
      rw [hc', hclasses]
    have hdirection := h.direction_eq hpin hc hclass
    rw [h.direction_eq hpin' hsame hclass] at hdirection
    exact (Option.some.inj hdirection).symm
  spells := by
    intro line hline f hf hkeyword
    obtain ⟨s, hs, hstates⟩ := exists_of_mem_left hlines hline
    obtain rfl := Field.keyword_inj (hkeyword.symm.trans hstates.keyword)
    obtain ⟨p, hspells, -⟩ := h.spells hs hf
    exact ⟨p, hstates.operands ▸ hspells⟩
  once := by
    intro f hf hdetailed
    rw [length_ofField hlines, a.count_statements hf, if_neg]
    rw [hdetailed]
    exact fun hboth => Bool.false_ne_true hboth.1

end Lines

/-! ## The draft of the lines -/

section Drafts

variable {source : String} {census : Census} {lines : List LogicalLine} {rows : List PinRow}
  {d : Draft} {k : Nat}

/-- A draft that holds the values of a description yields it, if the pins agree. -/
theorem yields_of_value? (hclasses : a.classes = PinRow.classes k rows)
    (hpins : a.pins = PinRow.pins rows)
    (h : ∀ f : Field, f.isPin = false → d.value? f = a.value? f) : d.Yields k rows a := by
  have hset : ∀ {α : Type} {g : α → Payload} {x : α} {y : Option α}, g.Injective →
      y.map g = some (g x) → y = some x := by
    intro α g x y hg hy
    obtain ⟨z, hz, heq⟩ := Option.map_eq_some_iff.1 hy
    rw [hz, hg heq]
  have hinteger : Payload.integer.Injective := fun _ _ heq => Payload.integer.inj heq
  have hreal : Payload.real.Injective := fun _ _ heq => Payload.real.inj heq
  have hchannel : Payload.channel.Injective := fun _ _ heq => Payload.channel.inj heq
  refine ⟨hclasses, hpins, hset hinteger (h .ioRat rfl), hset hreal (h .chanWidthIo rfl),
    hset hchannel (h .chanWidthX rfl), hset hchannel (h .chanWidthY rfl),
    hset hinteger (h .subblocksPerCluster rfl), hset hinteger (h .subblockLutSize rfl), ?_⟩
  cases hr : a.detailed with
  | none =>
    rw [← Option.not_isSome_iff_eq_none, Draft.detailed_isSome]
    intro hall
    obtain ⟨p, hp⟩ := hall .fcOutput rfl
    rw [h .fcOutput rfl, value?, hr] at hp
    cases hp
  | some r =>
    have hfield : ∀ {f : Field} {g : DetailedRouting Binary64 → Payload}, f.isPin = false →
        a.value? f = a.detailed.map g → d.value? f = some (g r) := by
      intro f g hf hg
      rw [h f hf, hg, hr]
      rfl
    refine Draft.detailed_eq_some.2 ⟨hset hreal (hfield (f := .fcOutput) rfl rfl),
      hset hreal (hfield (f := .fcInput) rfl rfl), hset hreal (hfield (f := .fcPad) rfl rfl),
      hset (g := .fcMeasure) ?_ (hfield (f := .fcType) rfl rfl),
      hset (g := .switchBlock) ?_ (hfield (f := .switchBlockType) rfl rfl)⟩
    · exact fun _ _ heq => Payload.fcMeasure.inj heq
    · exact fun _ _ heq => Payload.switchBlock.inj heq

/-- A draft of the lines of a description holds its values. -/
theorem WellFormed.value_eq (h : a.WellFormed)
    (hlines : List.Forall₂ LogicalLine.States lines a.statements)
    (hd : d.Holds source census lines rows) {f : Field} (hf : f.isPin = false) :
    d.value? f = a.normal.value? f := by
  by_cases hstated : ofField f lines = []
  · -- A field without a line is one of detailed routing that the description lacks.
    have hcount := length_ofField hlines f
    rw [hstated, a.count_statements hf] at hcount
    have habsent : f.isDetailed = true ∧ a.detailed = none := by
      by_contra hpresent
      rw [if_neg hpresent] at hcount
      cases hcount
    have hdraft : d.value? f = none := by
      cases hvalue : d.value? f with
      | none => rfl
      | some p => exact absurd hstated ((hd.exists_value_iff hf).1 ⟨p, hvalue⟩)
    cases hvalue : a.normal.value? f with
    | none => exact hdraft
    | some p =>
      have hsome := isSome_of_value? hvalue habsent.1
      rw [normal, habsent.2] at hsome
      cases hsome
  · obtain ⟨p, hspells, hvalue⟩ :=
      hd.value_of_getLast? hf (List.getLast?_eq_getLast_of_ne_nil hstated)
    obtain ⟨hline, hkeyword⟩ := List.mem_filter.1 (List.getLast_mem hstated)
    obtain ⟨s, hs, hstates⟩ := exists_of_mem_left hlines hline
    obtain rfl := Field.keyword_inj ((eq_of_beq hkeyword).symm.trans hstates.keyword)
    obtain ⟨q, hspells', hvalue'⟩ := h.spells hs hf
    rw [hstates.operands] at hspells
    rw [hvalue, hvalue', hspells.unique hspells']

/-- A draft of the lines of a description yields it, but for the sign of zeros. -/
theorem WellFormed.yields (h : a.WellFormed) (hlen : a.pins.length ≤ Cells.maxInteger + 1)
    (hlines : List.Forall₂ LogicalLine.States lines a.statements)
    (hd : d.Holds source census lines rows) : d.Yields a.numClasses rows a.normal := by
  have hrows : rows = a.pinRows := List.right_unique_forall₂'
    (fun _ _ _ hrow hrow' => hrow.unique hrow') hd.spelled (h.spelled hlen hlines)
  refine yields_of_value? ?_ ?_ fun f hf => h.value_eq hlines hd hf
  · rw [hrows, h.classes_eq]
    rfl
  · rw [hrows, h.pins_eq]
    rfl

end Drafts

end Description

/-! ## Equality -/

section Equality

theorem Binary64.beq_comm (x y : Binary64) : (x == y) = (y == x) := by
  change same x y = same y x
  unfold same
  cases x.place? <;> cases y.place? <;> first | rfl | exact Bool.beq_comm

theorem Binary64.beq_of_isFinite {x : Binary64} (h : x.isFinite = true) : (x == x) = true := by
  change same x x = true
  cases x with
  | nan => cases h
  | signed negative m => simp [same, place?]

instance : ReflBEq PinClass where
  rfl := by
    rintro ⟨id, direction, members⟩
    change (id == id && (direction == direction && members == members)) = true
    simp

instance : ReflBEq Pin where
  rfl := by
    rintro ⟨index, classId, sides⟩
    change (index == index && (classId == classId && sides == sides)) = true
    simp

/-- Exact zeros are equal to zeros of either sign. -/
theorem Channel.normal_beq {c : Channel Binary64}
    (hfinite : ∀ entry ∈ c.bounded, entry.2.isFinite = true)
    (hunused : ∀ x ∈ c.unused, (x == .zero) = true) : (c.normal == c) = true := by
  have hself : ∀ x ∈ c.bounded.map (·.2), (x == x) = true := by
    intro x hx
    obtain ⟨entry, hentry, rfl⟩ := List.mem_map.1 hx
    exact Binary64.beq_of_isFinite (hfinite entry hentry)
  have hzero : ∀ x ∈ c.unused, (Binary64.zero == x) = true := fun x hx =>
    (Binary64.beq_comm _ _).trans (hunused x hx)
  obtain ⟨profile, peak, width, xpeak, dc⟩ := c
  change (_ == _ && (_ == _ && (_ == _ && (_ == _ && _ == _)))) = true
  rw [map_bounded] at hself
  cases profile <;>
    simp only [operands, unused, List.forall_mem_cons] at hself hzero <;> simp [hself, hzero]

/-- A description with finite values is equal to the one that has exact zeros for what its channels
do not have, if these are zeros of either sign. -/
theorem Description.normal_beq {a : Description Binary64}
    (hfinite : ∀ entry ∈ a.bounded, entry.2.isFinite = true)
    (hunused : ∀ x ∈ a.chanX.unused ++ a.chanY.unused, (x == .zero) = true) :
    (a.normal == a) = true := by
  have hio := Binary64.beq_of_isFinite (hfinite _ List.mem_cons_self)
  have hx := Channel.normal_beq (isFinite_channel hfinite (.inl rfl))
    fun x hx => hunused x (List.mem_append_left _ hx)
  have hy := Channel.normal_beq (isFinite_channel hfinite (.inr rfl))
    fun x hx => hunused x (List.mem_append_right _ hx)
  have hdetailed : (a.detailed == a.detailed) = true := by
    cases hr : a.detailed with
    | none => rfl
    | some r =>
      obtain ⟨houtput, hinput, hpad⟩ := isFinite_detailed hfinite hr
      change (_ == _ && (_ == _ && (_ == _ && (_ == _ && _ == _)))) = true
      simp [Binary64.beq_of_isFinite houtput, Binary64.beq_of_isFinite hinput,
        Binary64.beq_of_isFinite hpad]
  change (_ == _ && (_ == _ && (_ == _ && (_ == _ && (_ == _ && (_ == _ && (_ == _ &&
    (_ == _ && _ == _)))))))) = true
  simp [hio, hx, hy, hdetailed]

end Equality

/-! ## What detailed routing wants -/

namespace Description

variable {a : Description Binary64}

/-- A description suits detailed routing: it has the parameters, its channels are uniform and of one
width, and the Fc values keep the rule of their measure. -/
structure SuitsDetailed (a : Description Binary64) : Prop where
  uniform : a.chanX.profile = .uniform ∧ a.chanY.profile = .uniform
  widths : (a.chanX.peak == a.chanY.peak) = true ∧ (a.chanX.peak == a.chanWidthIo) = true
  fc : ∃ r, a.detailed = some r ∧ ∀ x ∈ [r.fcOutput, r.fcInput, r.fcPad],
    match r.fcMeasure with
    | .absolute => Draft.one.le x = true
    | .fractional => x.le Draft.one = true

theorem lt_eq_false_of_le {x y : Binary64} (h : x.le y = true) : y.lt x = false := by
  unfold Binary64.le at h
  unfold Binary64.lt
  cases hx : x.place? with
  | none => cases y.place? <;> rfl
  | some m =>
    cases hy : y.place? with
    | none => rfl
    | some n =>
      simp only [hx, hy, decide_eq_true_eq] at h
      simpa using h

theorem SuitsDetailed.keepsFcRule {r : DetailedRouting Binary64}
    (h : ∀ x ∈ [r.fcOutput, r.fcInput, r.fcPad],
      match r.fcMeasure with
      | .absolute => Draft.one.le x = true
      | .fractional => x.le Draft.one = true) :
    ∀ x ∈ [r.fcOutput, r.fcInput, r.fcPad], Draft.breaksFcRule r.fcMeasure x = false := by
  intro x hx
  have hrule := h x hx
  unfold Draft.breaksFcRule
  cases hm : r.fcMeasure with
  | absolute =>
    simp only [hm] at hrule ⊢
    exact lt_eq_false_of_le hrule
  | fractional =>
    simp only [hm] at hrule ⊢
    exact lt_eq_false_of_le hrule

theorem normal_profile (c : Channel Binary64) :
    c.normal.profile = c.profile ∧ c.normal.peak = c.peak ∧ c.normal.operands = c.operands := by
  obtain ⟨profile, peak, width, xpeak, dc⟩ := c
  cases profile <;> exact ⟨rfl, rfl, rfl⟩

/-- The zeros of its channels do not matter to whether a description suits. -/
theorem SuitsDetailed.normal (h : a.SuitsDetailed) : a.normal.SuitsDetailed := by
  obtain ⟨hprofileX, hpeakX, -⟩ := normal_profile a.chanX
  obtain ⟨hprofileY, hpeakY, -⟩ := normal_profile a.chanY
  refine ⟨⟨hprofileX.trans h.uniform.1, hprofileY.trans h.uniform.2⟩, ?_, h.fc⟩
  change (a.chanX.normal.peak == a.chanY.normal.peak) = true ∧
    (a.chanX.normal.peak == a.chanWidthIo) = true
  rw [hpeakX, hpeakY]
  exact h.widths

/-- A draft suits if the description that it yields does. -/
theorem SuitsDetailed.draft (h : a.SuitsDetailed) {d : Draft} {k : Nat} {rows : List PinRow}
    (hy : d.Yields k rows a) : d.SuitsDetailed := by
  obtain ⟨r, hr, hrule⟩ := h.fc
  have hkeeps := SuitsDetailed.keepsFcRule hrule
  obtain ⟨houtput, hinput, hpad, hmeasure, -⟩ :=
    Draft.detailed_eq_some.1 (hy.detailed.trans hr)
  constructor
  · exact ⟨a.chanX, a.chanY, a.chanWidthIo, hy.chanX, hy.chanY, hy.chanWidthIo, h.uniform.1,
      h.uniform.2, h.widths.1, h.widths.2⟩
  · exact ⟨r.fcMeasure, r.fcOutput, r.fcInput, r.fcPad, hmeasure, houtput, hinput, hpad,
      hkeeps _ (by simp), hkeeps _ (by simp), hkeeps _ (by simp)⟩

theorem SuitsDetailed.presence (h : a.SuitsDetailed) {source : String} {census : Census}
    {lines : List LogicalLine} {rows : List PinRow} {d : Draft}
    (hlines : List.Forall₂ LogicalLine.States lines a.statements) (hgrammatical : Grammatical lines)
    (hd : d.Holds source census lines rows) : d.presenceFindings .detailed = [] := by
  obtain ⟨r, hr, -⟩ := h.fc
  have hglobal := hd.presence_iff.1 (hgrammatical.presence hd)
  refine hd.presence_iff.2 ⟨fun f hf => ?_, hglobal.2⟩
  rw [length_ofField hlines, a.count_statements (Draft.mem_mandatory.1 hf).1, if_neg]
  rintro ⟨-, hnone⟩
  rw [hr] at hnone
  cases hnone

/-- What is written of a description does not depend on what its channels do not have. -/
theorem format_normal (a : Description Binary64) : a.normal.format = a.format := by
  have hline : ∀ (f : Field) (c : Channel Binary64), c.normal.line f = c.line f := by
    intro f c
    obtain ⟨hprofile, -, hoperands⟩ := normal_profile c
    unfold Channel.line
    rw [hprofile, hoperands]
  unfold format formatLines normal
  simp only [hline]
  rfl

end Description

/-! ## The theorem -/

/-- The text of a well-formed description, with pins that cells can number, as the pins of any list
in memory are, is parsed to an equal description, which is written as the same text; for detailed
routing as well, if it suits it. -/
theorem parseText_format {a : Description Binary64} (h : a.WellFormed)
    (hlen : a.pins.length ≤ Cells.maxInteger + 1) (source : String) :
    ∃ text, a.format = .ok text ∧ ∀ routing, (routing = .detailed → a.SuitsDetailed) →
      ∃ b, parseText text source routing = .ok b ∧ (b == a) = true ∧ b.format = .ok text := by
  have hlines := h.lines_state hlen
  have hgrammatical := h.grammatical hlen hlines
  have hpins : (LogicalLine.pins (LogicalLine.ofText (layRows a.tokenRows))).length ≤
      Cells.maxInteger + 1 := by
    rw [(h.spelled hlen hlines).length_eq, Description.pinRows, List.length_map]
    exact hlen
  refine ⟨_, h.format_ok hlen, fun routing hsuits => ?_⟩
  obtain ⟨census, cited, rows, d, hcounts, hcited, hcensus, hrun, hd⟩ :=
    hgrammatical.exists_draft source hpins
  have hyields := h.yields hlen hlines hd
  have hclasses : census.numClasses = a.numClasses := eq_of_forall_lt_iff fun c => by
    rw [← hcounts.mem_iff, mem_cited hcited, h.cites_iff (h.spelled hlen hlines)]
  refine ⟨a.normal, parseText_ok.2 ⟨census, d, hcensus, hrun, Draft.accept_ok.2 ⟨?_, ?_⟩⟩,
    Description.normal_beq h.isFinite h.unused, a.format_normal.trans (h.format_ok hlen)⟩
  · cases routing with
    | global => exact Draft.findings_global.2 (hgrammatical.presence hd)
    | detailed =>
      have hdetailed := hsuits rfl
      exact Draft.findings_detailed.2
        ⟨hdetailed.presence hlines hgrammatical hd, hdetailed.normal.draft hyields⟩
  · rw [← hclasses] at hyields
    exact (hd.toDescription_ok hcounts hcited).2 hyields

/-- A description of two pins in one class that suits detailed routing is read from its text. -/
theorem format_two_pins :
    let channel : Channel Binary64 := ⟨.uniform, Bounds.decimal false 5 (-1), .zero, .zero, .zero⟩
    let a : Description Binary64 := {
      ioRat := 2, chanWidthIo := Bounds.decimal false 5 (-1), chanX := channel, chanY := channel
      classes := [⟨0, some .receiver, [0, 1]⟩]
      pins := [⟨0, 0, .ofList [.top, .left]⟩, ⟨1, 0, .ofList [.right]⟩]
      subblocksPerCluster := 1, subblockLutSize := 4
      detailed := some ⟨Bounds.decimal false 25 (-2), Draft.one, Draft.one, .fractional, .wilton⟩ }
    ∃ text b, a.format = .ok text ∧ parseText text "two pins" .detailed = .ok b ∧
      (b == a) = true ∧ b.format = .ok text := by
  intro channel a
  have hwellFormed : a.WellFormed := {
    ioRat := by decide +kernel
    subblocksPerCluster := by decide +kernel
    subblockLutSize := by decide +kernel
    real := by decide +kernel
    unused := by decide +kernel
    pins_ne := List.cons_ne_nil _ _
    pin := by
      rintro (_ | _ | i) pin hpin <;> cases hpin <;> decide
    pinClass := by
      rintro (_ | c) pinClass hclass <;> cases hclass
      decide }
  have hsuits : a.SuitsDetailed :=
    ⟨⟨rfl, rfl⟩, by decide +kernel, _, rfl, by decide +kernel⟩
  obtain ⟨text, htext, hparse⟩ := parseText_format hwellFormed (by decide) "two pins"
  obtain ⟨b, hb, hequal, hformat⟩ := hparse .detailed fun _ => hsuits
  exact ⟨text, b, htext, hb, hequal, hformat⟩

end Fabric
