import Fabric.Proofs.Freezing

/-!
# What an accepted text means

`Description.Means` says of a description and of some logical lines that the one is the meaning of
the other: the pins and classes are those of the pin lines, each field holds what its line spells,
and every real value is finite and within its bounds. Whatever a text is parsed to, for either
routing, is the meaning of its lines (`parseText_means`).
-/

namespace Fabric

open LogicalLine (ofField)

/-! ## Real values and their bounds -/

namespace Channel

/-- The real operands that the profile of a channel has, with their bounds. -/
def bounded (c : Channel Binary64) : List (Bounds × Binary64) :=
  match c.profile with
  | .uniform => [(.uniformPeak, c.peak)]
  | .delta => [(.deltaPeak, c.peak), (.fraction, c.xpeak), (.fraction, c.dc)]
  | .gaussian | .pulse =>
    [(.shapedPeak, c.peak), (.channelWidth, c.width), (.fraction, c.xpeak), (.fraction, c.dc)]

/-- The real fields that the profile of a channel does not have. -/
def unused (c : Channel Binary64) : List Binary64 :=
  match c.profile with
  | .uniform => [c.width, c.xpeak, c.dc]
  | .delta => [c.width]
  | .gaussian | .pulse => []

variable {tokens : List String} {c : Channel Binary64}

theorem Spells.admits (h : Channel.Spells tokens c) :
    ∀ entry ∈ c.bounded, entry.1.admits entry.2 = true := by
  cases h with
  | uniform hpeak => simp [bounded, hpeak.2]
  | delta hpeak hxpeak hdc => simp [bounded, hpeak.2, hxpeak.2, hdc.2]
  | shaped hprofile hpeak hwidth hxpeak hdc =>
    rcases hprofile with rfl | rfl <;> simp [bounded, hpeak.2, hwidth.2, hxpeak.2, hdc.2]

theorem Spells.unused (h : Channel.Spells tokens c) : ∀ x ∈ c.unused, x = .zero := by
  cases h with
  | uniform | delta => simp [Channel.unused]
  | shaped hprofile => rcases hprofile with rfl | rfl <;> simp [Channel.unused]

end Channel

namespace Description

/-- All real values of a description, with their bounds. -/
def bounded (a : Description Binary64) : List (Bounds × Binary64) :=
  (.chanWidthIo, a.chanWidthIo) :: a.chanX.bounded ++ a.chanY.bounded ++
    match a.detailed with
    | some r => [(.fc, r.fcOutput), (.fc, r.fcInput), (.fc, r.fcPad)]
    | none => []

/-- The value that a description holds for a field. -/
def value? (a : Description Binary64) : Field → Option Payload
  | .ioRat => some (.integer a.ioRat)
  | .subblocksPerCluster => some (.integer a.subblocksPerCluster)
  | .subblockLutSize => some (.integer a.subblockLutSize)
  | .chanWidthIo => some (.real a.chanWidthIo)
  | .chanWidthX => some (.channel a.chanX)
  | .chanWidthY => some (.channel a.chanY)
  | .fcOutput => a.detailed.map (.real ·.fcOutput)
  | .fcInput => a.detailed.map (.real ·.fcInput)
  | .fcPad => a.detailed.map (.real ·.fcPad)
  | .fcType => a.detailed.map (.fcMeasure ·.fcMeasure)
  | .switchBlockType => a.detailed.map (.switchBlock ·.switchBlock)
  | .outpin | .inpin => none

end Description

namespace Bounds

/-- The bounds of real operands. -/
def all : List Bounds :=
  [chanWidthIo, fc, uniformPeak, shapedPeak, deltaPeak, channelWidth, fraction]

/-- Two finite values that bound an operand. -/
structure Finite (b : Bounds) (low high : Binary64) : Prop where
  eq : b = between low high
  low : low.isFinite = true
  high : high.isFinite = true

theorem finite_of_mem {b : Bounds} (h : b ∈ all) : ∃ low high, b.Finite low high := by
  simp only [all, List.mem_cons, List.not_mem_nil, or_false] at h
  rcases h with rfl | rfl | rfl | rfl | rfl | rfl | rfl <;>
    exact ⟨_, _, rfl, by decide +kernel, by decide +kernel⟩

theorem ordinal_lt {m : Binary64.Magnitude} (h : m.isInfinite = false) :
    m.ordinal < Binary64.infinityOrdinal := by
  have hne : m.ordinal ≠ Binary64.infinityOrdinal := by
    simpa [Binary64.Magnitude.isInfinite] using h
  exact Nat.lt_of_le_of_ne m.ordinal_le hne

/-- A value within finite bounds is finite. -/
theorem isFinite_of_admits {b : Bounds} {low high x : Binary64} (hb : b.Finite low high)
    (h : b.admits x = true) : x.isFinite = true := by
  obtain ⟨rfl, hlow, hhigh⟩ := hb
  simp only [admits, between, Number.lt_real, Number.le_real, Bool.and_eq_true] at h
  obtain ⟨hlt, hle⟩ := h
  cases low with
  | nan => cases hlow
  | signed sl ml =>
    cases high with
    | nan => cases hhigh
    | signed sh mh =>
      cases x with
      | nan => simp [Binary64.lt, Binary64.place?] at hlt
      | signed s m =>
        simp only [Binary64.isFinite, Bool.not_eq_true'] at hlow hhigh ⊢
        have hml := ordinal_lt hlow
        have hmh := ordinal_lt hhigh
        simp only [Binary64.lt, Binary64.le, Binary64.place?, decide_eq_true_eq] at hlt hle
        rw [Binary64.Magnitude.isInfinite, beq_eq_false_iff_ne]
        intro hinf
        rw [hinf] at hlt hle
        cases s <;> cases sl <;> cases sh <;> simp at hlt hle <;> omega

end Bounds

theorem Channel.bounded_mem_all (c : Channel Binary64) :
    ∀ entry ∈ c.bounded, entry.1 ∈ Bounds.all := by
  unfold bounded
  split <;> simp [Bounds.all]

theorem Description.bounded_mem_all (a : Description Binary64) :
    ∀ entry ∈ a.bounded, entry.1 ∈ Bounds.all := by
  have hfc : Bounds.fc ∈ Bounds.all := by simp [Bounds.all]
  have hio : Bounds.chanWidthIo ∈ Bounds.all := by simp [Bounds.all]
  intro entry hentry
  simp only [bounded, List.cons_append, List.mem_cons, List.mem_append] at hentry
  rcases hentry with rfl | (hx | hy) | hdetailed
  · exact hio
  · exact a.chanX.bounded_mem_all _ hx
  · exact a.chanY.bounded_mem_all _ hy
  · cases hd : a.detailed with
    | none =>
      rw [hd] at hdetailed
      cases hdetailed
    | some r =>
      simp only [hd, List.mem_cons, List.not_mem_nil, or_false] at hdetailed
      rcases hdetailed with rfl | rfl | rfl <;> exact hfc

/-! ## The meaning of lines -/

/-- A description is the meaning of logical lines. -/
structure Description.Means (a : Description Binary64) (lines : List LogicalLine) : Prop where
  /-- There is one pin for each pin line. -/
  length_pins : a.pins.length = (LogicalLine.pins lines).length
  /-- A pin is numbered by its place, of the class that its line cites and on exactly the sides that
  its line names, at least one. -/
  pin : ∀ (i : Nat) (pin : Pin) (line : LogicalLine), a.pins[i]? = some pin →
    (LogicalLine.pins lines)[i]? = some line →
    pin.index = i ∧ (∃ c : Nat, pin.classId = c ∧ line.Cites c) ∧
      (∀ side, pin.sides.contains side = true ↔ Vocabulary.word side ∈ line.operands.drop 2) ∧
      ∃ side, pin.sides.contains side = true
  /-- There is one class more than the greatest cited number. -/
  numClasses : ∃ m, (∃ line ∈ LogicalLine.pins lines, line.Cites m) ∧
    (∀ line ∈ LogicalLine.pins lines, ∀ c, line.Cites c → c ≤ m) ∧ a.numClasses = m + 1
  /-- A class is numbered by its place, its members are the pins of that class in ascending order,
  and its direction is that of its lines. -/
  pinClass : ∀ (c : Nat) (pinClass : PinClass), a.classes[c]? = some pinClass →
    pinClass.id = c ∧ pinClass.members.Pairwise (· < ·) ∧ pinClass.members ≠ [] ∧
      (∀ i : Int, i ∈ pinClass.members ↔ ∃ pin ∈ a.pins, pin.index = i ∧ pin.classId = c) ∧
      ∃ dir, pinClass.direction = some dir ∧
        ∀ line ∈ LogicalLine.pins lines, line.Cites c → line.keyword = dir.field.keyword
  /-- Every pin is in one class, and the classes have as many members as there are pins. -/
  oneClass : ∀ pin ∈ a.pins, ∃! c : Nat, ∃ pinClass, a.classes[c]? = some pinClass ∧
    pin.index ∈ pinClass.members
  sum_members : (a.classes.map (·.members.length)).sum = a.pinsPerBlock
  /-- A field of global routing holds what its one line spells. -/
  value : ∀ f : Field, f.isPin = false → f.isDetailed = false → ∃ line p,
    ofField f lines = [line] ∧ f.Spells line.operands p ∧ a.value? f = some p
  /-- The parameters of detailed routing are there exactly when all their fields are stated. -/
  detailed_iff : a.detailed.isSome = true ↔
    ∀ f : Field, f.isDetailed = true → ofField f lines ≠ []
  /-- They hold what the last line of their field spells. -/
  detailed : a.detailed.isSome = true → ∀ f : Field, f.isDetailed = true → ∃ line p,
    (ofField f lines).getLast? = some line ∧ f.Spells line.operands p ∧ a.value? f = some p
  real : ∀ entry ∈ a.bounded, entry.2.isFinite = true ∧ entry.1.admits entry.2 = true
  unused : ∀ x ∈ a.chanX.unused ++ a.chanY.unused, x = .zero

/-! ## Pins and classes of rows -/

namespace PinRow

variable {rows : List PinRow}

theorem getElem?_pins (i : Nat) : (pins rows)[i]? =
    rows[i]?.map fun row => { index := i, classId := row.classId, sides := .ofList row.sides } := by
  simp [pins, List.getElem?_mapIdx]

theorem getElem?_classes {k c : Nat} {pinClass : PinClass} :
    (classes k rows)[c]? = some pinClass ↔ c < k ∧ pinClass =
      { id := c
        direction := (PinView.ofRows rows).direction c
        members := ((PinView.ofRows rows).members c).map fun (pin : Nat) => (pin : Int) } := by
  by_cases hc : c < k <;> simp [classes, hc, eq_comm]

/-- The members of a class are the places of its rows. -/
theorem mem_members {c p : Nat} :
    p ∈ (PinView.ofRows rows).members c ↔ ∃ row, rows[p]? = some row ∧ row.classId = c := by
  simp only [PinView.ofRows, List.mem_findIdxs_iff_exists_getElem_pos, beq_iff_eq]
  constructor
  · rintro ⟨hp, hc⟩
    exact ⟨_, List.getElem?_eq_getElem hp, hc⟩
  · rintro ⟨row, hrow, rfl⟩
    obtain ⟨hp, rfl⟩ := List.getElem?_eq_some_iff.1 hrow
    exact ⟨hp, rfl⟩

theorem mem_pins {pin : Pin} : pin ∈ pins rows ↔ ∃ (i : Nat) (row : PinRow), rows[i]? = some row ∧
    pin = { index := i, classId := row.classId, sides := .ofList row.sides } := by
  rw [List.mem_iff_getElem?]
  simp only [getElem?_pins, Option.map_eq_some_iff]
  constructor
  · rintro ⟨i, row, hrow, rfl⟩
    exact ⟨i, row, hrow, rfl⟩
  · rintro ⟨i, row, hrow, rfl⟩
    exact ⟨i, row, hrow, rfl⟩

theorem mem_class_members {c : Nat} {i : Int} :
    i ∈ (((PinView.ofRows rows).members c).map fun (pin : Nat) => (pin : Int)) ↔
      ∃ pin ∈ pins rows, pin.index = i ∧ pin.classId = c := by
  simp only [List.mem_map, mem_members, mem_pins]
  constructor
  · rintro ⟨p, ⟨row, hrow, rfl⟩, rfl⟩
    exact ⟨_, ⟨p, row, hrow, rfl⟩, rfl, rfl⟩
  · rintro ⟨_, ⟨p, row, hrow, rfl⟩, rfl, hc⟩
    exact ⟨p, ⟨row, hrow, Int.ofNat.inj hc⟩, rfl⟩

end PinRow

/-! ## Fields -/

namespace Draft

variable {source : String} {census : Census} {cited : List Nat} {lines : List LogicalLine}
  {rows : List PinRow} {d : Draft} {a : Description Binary64} {k : Nat}

theorem detailed_eq_some {r : DetailedRouting Binary64} : d.detailed = some r ↔
    d.fcOutput = some r.fcOutput ∧ d.fcInput = some r.fcInput ∧ d.fcPad = some r.fcPad ∧
      d.fcMeasure = some r.fcMeasure ∧ d.switchBlock = some r.switchBlock := by
  simp only [detailed, Option.bind_eq_bind, Option.bind_eq_some_iff, Option.pure_def,
    Option.some.injEq]
  constructor
  · rintro ⟨_, ho, _, hi, _, hp, _, hm, _, hs, rfl⟩
    exact ⟨ho, hi, hp, hm, hs⟩
  · rintro ⟨ho, hi, hp, hm, hs⟩
    exact ⟨_, ho, _, hi, _, hp, _, hm, _, hs, rfl⟩

/-- The parameters of detailed routing are set once all their fields hold a value. -/
theorem detailed_isSome : d.detailed.isSome = true ↔
    ∀ f : Field, f.isDetailed = true → ∃ p, d.value? f = some p := by
  rw [Option.isSome_iff_exists]
  simp only [detailed_eq_some]
  constructor
  · rintro ⟨r, ho, hi, hp, hm, hs⟩ f hf
    cases f with
    | fcOutput => exact ⟨_, congrArg (Option.map _) ho⟩
    | fcInput => exact ⟨_, congrArg (Option.map _) hi⟩
    | fcPad => exact ⟨_, congrArg (Option.map _) hp⟩
    | fcType => exact ⟨_, congrArg (Option.map _) hm⟩
    | switchBlockType => exact ⟨_, congrArg (Option.map _) hs⟩
    | _ => cases hf
  · intro h
    obtain ⟨_, ho⟩ := h .fcOutput rfl
    obtain ⟨_, hi⟩ := h .fcInput rfl
    obtain ⟨_, hp⟩ := h .fcPad rfl
    obtain ⟨_, hm⟩ := h .fcType rfl
    obtain ⟨_, hs⟩ := h .switchBlockType rfl
    simp only [value?, Option.map_eq_some_iff] at ho hi hp hm hs
    obtain ⟨output, ho, -⟩ := ho
    obtain ⟨input, hi, -⟩ := hi
    obtain ⟨pad, hp, -⟩ := hp
    obtain ⟨measure, hm, -⟩ := hm
    obtain ⟨switchBlock, hs, -⟩ := hs
    exact ⟨⟨output, input, pad, measure, switchBlock⟩, ho, hi, hp, hm, hs⟩

/-- What a draft yields holds the values of the draft. -/
theorem Yields.value? (h : d.Yields k rows a) {f : Field} (hf : f.isPin = false)
    (hdetailed : f.isDetailed = true → a.detailed.isSome = true) : a.value? f = d.value? f := by
  have hset : ∀ {α : Type} {x : α} {y : Option α} (g : α → Payload), y = some x →
      some (g x) = y.map g := by
    rintro α x y g rfl
    rfl
  cases f with
  | outpin | inpin => cases hf
  | ioRat => exact hset _ h.ioRat
  | chanWidthX => exact hset _ h.chanX
  | chanWidthY => exact hset _ h.chanY
  | chanWidthIo => exact hset _ h.chanWidthIo
  | subblocksPerCluster => exact hset _ h.subblocksPerCluster
  | subblockLutSize => exact hset _ h.subblockLutSize
  | fcOutput | fcInput | fcPad | fcType | switchBlockType =>
    obtain ⟨r, hr⟩ := Option.isSome_iff_exists.1 (hdetailed rfl)
    obtain ⟨ho, hi, hp, hm, hs⟩ := detailed_eq_some.1 (h.detailed.trans hr)
    simp [Description.value?, Draft.value?, hr, ho, hi, hp, hm, hs]

end Draft

/-- Only a description with detailed routing holds values of its fields. -/
theorem Description.isSome_of_value? {a : Description Binary64} {f : Field} {p : Payload}
    (h : a.value? f = some p) (hf : f.isDetailed = true) : a.detailed.isSome = true := by
  cases hd : a.detailed with
  | some r => rfl
  | none =>
    cases f with
    | fcOutput | fcInput | fcPad | fcType | switchBlockType => simp [value?, hd] at h
    | _ => cases hf

theorem Field.isPin_of_isDetailed {f : Field} (h : f.isDetailed = true) : f.isPin = false := by
  cases f <;> first | rfl | cases h

/-! ## The theorem -/

section Means

variable {source : String} {census : Census} {cited : List Nat} {lines : List LogicalLine}
  {rows : List PinRow} {d : Draft} {a : Description Binary64} {routing : Routing}

theorem pin_means (hd : d.Holds source census lines rows) {k : Nat} (hy : d.Yields k rows a)
    {i : Nat} {pin : Pin} {line : LogicalLine} (hpin : a.pins[i]? = some pin)
    (hline : (LogicalLine.pins lines)[i]? = some line) :
    pin.index = i ∧ (∃ c : Nat, pin.classId = c ∧ line.Cites c) ∧
      (∀ side, pin.sides.contains side = true ↔ Vocabulary.word side ∈ line.operands.drop 2) ∧
      ∃ side, pin.sides.contains side = true := by
  rw [hy.pins, PinRow.getElem?_pins] at hpin
  obtain ⟨row, hrow, rfl⟩ := Option.map_eq_some_iff.1 hpin
  obtain ⟨hi, rfl⟩ := List.getElem?_eq_some_iff.1 hline
  obtain ⟨hi', rfl⟩ := List.getElem?_eq_some_iff.1 hrow
  have hspells := hd.spelled.get hi hi'
  obtain ⟨token, hops, -⟩ := hspells.operands
  refine ⟨rfl, ⟨_, rfl, hspells.cites⟩, fun side => ?_, ?_⟩
  · simp only [List.get_eq_getElem] at hops
    rw [hops, Sides.contains_ofList]
    simp only [List.drop_succ_cons, List.drop_zero]
    rw [List.mem_map_of_injective fun _ _ => Vocabulary.Lawful.word_inj]
  · obtain ⟨side, hside⟩ := List.exists_mem_of_ne_nil _ hspells.sides_ne
    exact ⟨side, Sides.contains_ofList.2 hside⟩

theorem pinClass_means (hcounts : census.Counts cited)
    (hcited : List.Forall₂ LogicalLine.Cites (LogicalLine.pins lines) cited)
    (hd : d.Holds source census lines rows) (hy : d.Yields census.numClasses rows a) {c : Nat}
    {pinClass : PinClass} (hclass : a.classes[c]? = some pinClass) :
    pinClass.id = c ∧ pinClass.members.Pairwise (· < ·) ∧ pinClass.members ≠ [] ∧
      (∀ i : Int, i ∈ pinClass.members ↔ ∃ pin ∈ a.pins, pin.index = i ∧ pin.classId = c) ∧
      ∃ dir, pinClass.direction = some dir ∧
        ∀ line ∈ LogicalLine.pins lines, line.Cites c → line.keyword = dir.field.keyword := by
  rw [hy.classes, PinRow.getElem?_classes] at hclass
  obtain ⟨hc, rfl⟩ := hclass
  have hmem : c ∈ rows.map (·.classId) := by
    rw [hd.cited_eq hcited]
    exact (hcounts.mem_iff c).2 hc
  obtain ⟨row, hrow, rfl⟩ := List.mem_map.1 hmem
  refine ⟨rfl, ?_, ?_, fun i => ?_, row.direction, hd.oneDirection row hrow, ?_⟩
  · exact List.pairwise_map.2 ((PinView.members_increasing rows _).imp fun h => Int.ofNat_lt.2 h)
  · obtain ⟨p, hp⟩ := List.getElem?_of_mem hrow
    rw [ne_eq, List.map_eq_nil_iff]
    exact List.ne_nil_of_mem (PinRow.mem_members.2 ⟨row, hp, rfl⟩)
  · rw [hy.pins]
    exact PinRow.mem_class_members
  · intro line hline hcites
    obtain ⟨row', hrow', hspells⟩ := exists_of_mem_left hd.spelled hline
    have hdir := hd.oneDirection row' hrow'
    rw [hspells.cites.unique hcites, hd.oneDirection row hrow] at hdir
    rw [Option.some.inj hdir]
    exact hspells.keyword

theorem oneClass_means (hcounts : census.Counts cited)
    (hcited : List.Forall₂ LogicalLine.Cites (LogicalLine.pins lines) cited)
    (hd : d.Holds source census lines rows) (hy : d.Yields census.numClasses rows a) {pin : Pin}
    (hpin : pin ∈ a.pins) :
    ∃! c : Nat, ∃ pinClass, a.classes[c]? = some pinClass ∧ pin.index ∈ pinClass.members := by
  rw [hy.pins, PinRow.mem_pins] at hpin
  obtain ⟨i, row, hrow, rfl⟩ := hpin
  have hc : row.classId < census.numClasses := by
    rw [← hcounts.mem_iff, ← hd.cited_eq hcited]
    exact List.mem_map_of_mem (List.mem_of_getElem? hrow)
  have hclass := (@PinRow.getElem?_classes rows _ _ _).2 ⟨hc, rfl⟩
  rw [← hy.classes] at hclass
  refine ⟨row.classId, ⟨_, hclass, ?_⟩, ?_⟩
  · exact List.mem_map_of_mem (PinRow.mem_members.2 ⟨row, hrow, rfl⟩)
  · rintro c ⟨pinClass, hclass, hmem⟩
    rw [hy.classes, PinRow.getElem?_classes] at hclass
    obtain ⟨-, rfl⟩ := hclass
    obtain ⟨p, hp, hpi⟩ := List.mem_map.1 hmem
    obtain rfl : p = i := Int.ofNat.inj hpi
    obtain ⟨row', hrow', rfl⟩ := PinRow.mem_members.1 hp
    rw [Option.some.inj (hrow.symm.trans hrow')]

theorem sum_members_means (hcounts : census.Counts cited)
    (hcited : List.Forall₂ LogicalLine.Cites (LogicalLine.pins lines) cited)
    (hd : d.Holds source census lines rows) (hy : d.Yields census.numClasses rows a) :
    (a.classes.map (·.members.length)).sum = a.pinsPerBlock := by
  have hlt : ∀ c ∈ cited, c < census.numClasses := fun c => (hcounts.mem_iff c).1
  have hsum := Census.sum_count cited hlt
  unfold Description.pinsPerBlock
  rw [hy.classes, hy.pins, PinRow.classes, PinRow.pins, List.map_map, List.length_mapIdx,
    hd.length_rows hcounts hcited, hcounts.total, ← hsum]
  refine congrArg List.sum (List.map_congr_left fun c _ => ?_)
  simp only [Function.comp_apply, List.length_map]
  rw [hd.length_members hcounts hcited, hcounts.slots]

/-- The real values of a description are within bounds if each field holds what some operands
spell. -/
theorem admits_of_spells
    (h : ∀ f p, a.value? f = some p → ∃ tokens, f.Spells tokens p) :
    (∀ entry ∈ a.bounded, entry.1.admits entry.2 = true) ∧
      ∀ x ∈ a.chanX.unused ++ a.chanY.unused, x = .zero := by
  have hreal : ∀ {f : Field} {b : Bounds} {x : Binary64}, f.form? = some (.real b) →
      a.value? f = some (.real x) → b.admits x = true := by
    intro f b x hform hx
    obtain ⟨tokens, form, hform', hspells⟩ := h f _ hx
    cases hform.symm.trans hform'
    cases hspells with
    | real hx => exact hx.2
  have hchannel : ∀ {f : Field} {c : Channel Binary64}, f.form? = some .channel →
      a.value? f = some (.channel c) → ∃ tokens, Channel.Spells tokens c := by
    intro f c hform hc
    obtain ⟨tokens, form, hform', hspells⟩ := h f _ hc
    cases hform.symm.trans hform'
    cases hspells with
    | channel hc => exact ⟨tokens, hc⟩
  obtain ⟨_, hx⟩ := hchannel (f := .chanWidthX) rfl rfl
  obtain ⟨_, hy⟩ := hchannel (f := .chanWidthY) rfl rfl
  refine ⟨fun entry hentry => ?_, fun x hmem => ?_⟩
  · simp only [Description.bounded, List.cons_append, List.mem_cons, List.mem_append] at hentry
    rcases hentry with rfl | (hentry | hentry) | hentry
    · exact hreal (f := .chanWidthIo) rfl rfl
    · exact hx.admits entry hentry
    · exact hy.admits entry hentry
    · cases hd : a.detailed with
      | none =>
        rw [hd] at hentry
        cases hentry
      | some r =>
        simp only [hd, List.mem_cons, List.not_mem_nil, or_false] at hentry
        rcases hentry with rfl | rfl | rfl
        · exact hreal (f := .fcOutput) rfl (by simp [Description.value?, hd])
        · exact hreal (f := .fcInput) rfl (by simp [Description.value?, hd])
        · exact hreal (f := .fcPad) rfl (by simp [Description.value?, hd])
  · rcases List.mem_append.1 hmem with hmem | hmem
    · exact hx.unused x hmem
    · exact hy.unused x hmem

/-- Each value of a description that a draft of lines yields was spelled. -/
theorem Draft.Holds.spells_of_value? (hd : d.Holds source census lines rows) {k : Nat}
    (hy : d.Yields k rows a) {f : Field} {p : Payload} (hp : a.value? f = some p) :
    ∃ tokens, f.Spells tokens p := by
  have hpin : f.isPin = false := by cases f <;> first | rfl | cases hp
  rw [hy.value? hpin (Description.isSome_of_value? hp)] at hp
  have hstated := (hd.exists_value_iff hpin).1 ⟨p, hp⟩
  obtain ⟨q, hq, hvalue⟩ := hd.value_of_getLast? hpin (List.getLast?_eq_getLast_of_ne_nil hstated)
  obtain rfl := Option.some.inj (hp.symm.trans hvalue)
  exact ⟨_, hq⟩

/-- The real values of a description that a draft of lines yields are finite and within their
bounds, and those that its channels do not have are zero. -/
theorem Draft.Holds.real_of_yields (hd : d.Holds source census lines rows) {k : Nat}
    (hy : d.Yields k rows a) :
    (∀ entry ∈ a.bounded, entry.2.isFinite = true ∧ entry.1.admits entry.2 = true) ∧
      ∀ x ∈ a.chanX.unused ++ a.chanY.unused, x = .zero := by
  -- Ranges are not looked up in the draft: a value was spelled, and what is spelled is in range.
  obtain ⟨hadmits, hunused⟩ := admits_of_spells fun f p => hd.spells_of_value? hy
  refine ⟨fun entry hentry => ?_, hunused⟩
  obtain ⟨low, high, hb⟩ := Bounds.finite_of_mem (a.bounded_mem_all entry hentry)
  exact ⟨Bounds.isFinite_of_admits hb (hadmits entry hentry), hadmits entry hentry⟩

end Means

/-- Whatever a text is parsed to, for either routing, is the meaning of its logical lines. -/
theorem parseText_means {text source : String} {routing : Routing} {a : Description Binary64}
    (h : parseText text source routing = .ok a) : a.Means (LogicalLine.ofText text) := by
  obtain ⟨census, cited, rows, d, hcounts, hcited, hd, hpresent, hy⟩ := parseText_holds h
  have hpos := hd.numClasses_pos hcounts hcited hpresent
  have honce : ∀ f : Field, f.isPin = false → f.isDetailed = false →
      ∃ line, ofField f (LogicalLine.ofText text) = [line] := by
    intro f hpin hdetailed
    exact List.length_eq_one_iff.1
      ((hd.presence_iff.1 hpresent).1 f (Draft.mem_mandatory.2 ⟨hpin, .inr hdetailed⟩))
  have hdetailed : a.detailed.isSome = true ↔
      ∀ f : Field, f.isDetailed = true → ofField f (LogicalLine.ofText text) ≠ [] := by
    rw [← hy.detailed, Draft.detailed_isSome]
    exact forall₂_congr fun f hf => hd.exists_value_iff (Field.isPin_of_isDetailed hf)
  obtain ⟨hreal, hunused⟩ := hd.real_of_yields hy
  exact {
    length_pins := by
      rw [hy.pins, PinRow.pins, List.length_mapIdx, hd.spelled.length_eq]
    pin := fun i pin line => pin_means hd hy
    numClasses := by
      refine ⟨census.numClasses - 1, ?_, fun line hline c hc => ?_, ?_⟩
      · rw [← mem_cited hcited, hcounts.mem_iff]
        omega
      · have hlt := (hcounts.mem_iff c).1 ((mem_cited hcited).2 ⟨line, hline, hc⟩)
        omega
      · unfold Description.numClasses
        rw [hy.classes, PinRow.classes, List.length_map, List.length_range]
        omega
    pinClass := fun c pinClass => pinClass_means hcounts hcited hd hy
    oneClass := fun pin => oneClass_means hcounts hcited hd hy
    sum_members := sum_members_means hcounts hcited hd hy
    value := by
      intro f hpin hglobal
      obtain ⟨line, hline⟩ := honce f hpin hglobal
      have hlast : (ofField f (LogicalLine.ofText text)).getLast? = some line := by
        rw [hline]
        rfl
      obtain ⟨p, hspells, hp⟩ := hd.value_of_getLast? hpin hlast
      have hsame : a.value? f = d.value? f :=
        hy.value? hpin fun hf => absurd (hglobal.symm.trans hf) Bool.false_ne_true
      exact ⟨line, p, hline, hspells, hsame.trans hp⟩
    detailed_iff := hdetailed
    detailed := by
      intro hsome f hf
      have hpin := Field.isPin_of_isDetailed hf
      have hlast := List.getLast?_eq_getLast_of_ne_nil (hdetailed.1 hsome f hf)
      obtain ⟨p, hspells, hp⟩ := hd.value_of_getLast? hpin hlast
      exact ⟨_, p, hlast, hspells, (hy.value? hpin fun _ => hsome).trans hp⟩
    real := hreal
    unused := hunused }

/-- A description for detailed routing, of two pins of one class, is the meaning of its lines. -/
theorem means_two_pins :
    let text := "io_rat 2\nchan_width_io 1\nchan_width_x uniform 1\nchan_width_y uniform 1\n" ++
      "inpin class: 0 top left\ninpin class: 0 right\nsubblocks_per_cluster 1\n" ++
      "subblock_lut_size 4\nFc_type fractional\nFc_output 0.5\nFc_input 1\nFc_pad 0.25\n" ++
      "switch_block_type wilton\n"
    ∃ a, parseText text "two pins" .detailed = .ok a ∧ a.Means (LogicalLine.ofText text) := by
  intro text
  have hok : (parseText text "two pins" .detailed).isOk = true := by decide +kernel
  cases h : parseText text "two pins" .detailed with
  | ok a => exact ⟨a, rfl, parseText_means h⟩
  | error e =>
    rw [h] at hok
    cases hok

end Fabric
