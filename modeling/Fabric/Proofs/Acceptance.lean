import Fabric.Proofs.Freezing

/-!
# Exactly the grammar is accepted

`Grammatical` says on the logical lines alone when a text is a description for global routing, with
no mention of passes, tables or checks. A text is parsed exactly when its lines are grammatical
(`parseText_iff_grammatical`). A text is taken to be no longer than a cell can count, as it then has
no more pins than can be numbered.
-/

namespace Fabric

open LogicalLine (pins ofField)

/-- The lines of a description for global routing: pin lines declare pins, whose classes are
numbered from zero without a gap and each have one direction; the other statements spell a value;
and the fields of global routing are each stated once. -/
structure Grammatical (lines : List LogicalLine) : Prop where
  declares : ∀ line ∈ lines, Census.isPinKeyword line.keyword = true →
    ∃ row, PinRow.Spells line row
  classes : ∃ k, 0 < k ∧ ∀ c, (∃ line ∈ pins lines, line.Cites c) ↔ c < k
  oneDirection : LogicalLine.OneDirection lines
  spells : ∀ line ∈ lines, ∀ f : Field, f.isPin = false → line.keyword = f.keyword →
    ∃ p, f.Spells line.operands p
  once : ∀ f : Field, f.isPin = false → f.isDetailed = false → (ofField f lines).length = 1

/-! ## How many lines there are -/

theorem length_listFrom (pending : List String) (number : Nat) (raws : List (List Char)) :
    (LogicalLine.listFrom pending number raws).length ≤
      raws.length + if pending = [] then 0 else 1 := by
  have hone : ∀ n tokens, (LogicalLine.ofTokens? n tokens).toList.length ≤ 1 := by
    intro n tokens
    cases tokens <;> simp [LogicalLine.ofTokens?]
  induction raws generalizing pending number with
  | nil => cases pending <;> simp [LogicalLine.listFrom, LogicalLine.ofTokens?]
  | cons raw rest ih =>
    unfold LogicalLine.listFrom
    simp only [List.length_cons]
    split
    · have hrest := ih (pending ++ LogicalLine.tokens raw) (number + 1)
      split at hrest <;> omega
    · have hrest := ih [] (number + 1)
      have hline := hone (number + 1) (pending ++ LogicalLine.tokens raw)
      rw [if_pos rfl] at hrest
      rw [List.length_append]
      omega

theorem length_splitOnP (p : Char → Bool) (text : List Char) :
    (text.splitOnP p).length ≤ text.length + 1 := by
  induction text with
  | nil => simp
  | cons c text ih =>
    rw [List.splitOnP_cons_eq_if_modifyHead]
    split
    · rw [List.length_cons, List.length_cons]
      omega
    · rw [List.length_modifyHead, List.length_cons]
      omega

theorem length_physicalLines (text : List Char) :
    (Text.physicalLines text).length ≤ text.length + 1 := by
  have hsplit := length_splitOnP (· == '\n') text
  unfold Text.physicalLines Text.dropEmptyLast
  rw [List.splitOn_eq_splitOnP]
  split
  · rw [List.length_dropLast]
    omega
  · exact hsplit

/-- A text has at most one logical line for each of its characters, and one more. -/
theorem length_ofText (text : String) : (LogicalLine.ofText text).length ≤ text.length + 1 := by
  have hlines := length_listFrom [] 0 (Text.physicalLines text.toList)
  have hraws := length_physicalLines text.toList
  rw [if_pos rfl] at hlines
  rw [String.length_toList] at hraws
  exact hlines.trans hraws

theorem length_pins_ofText (text : String) :
    (pins (LogicalLine.ofText text)).length ≤ text.length + 1 :=
  (List.length_filter_le ..).trans (length_ofText text)

/-! ## What is accepted is grammatical -/

section Soundness

variable {source : String} {census : Census} {cited : List Nat} {lines : List LogicalLine}
  {rows : List PinRow} {d : Draft}

/-- Lines use no class in both directions if the rows that they spell do not. -/
theorem oneDirection_of_spelled (hspelled : List.Forall₂ PinRow.Spells (pins lines) rows)
    (hrows : ∀ x ∈ rows, ∀ y ∈ rows, x.classId = y.classId → x.direction = y.direction) :
    LogicalLine.OneDirection lines := by
  have hrow : ∀ line ∈ lines, Census.isPinKeyword line.keyword = true → ∀ c, line.Cites c →
      ∃ row ∈ rows, PinRow.Spells line row ∧ row.classId = c := by
    intro line hline hpin c hc
    obtain ⟨row, hrow, hspells⟩ := exists_of_mem_left hspelled (List.mem_filter.2 ⟨hline, hpin⟩)
    exact ⟨row, hrow, hspells, hspells.cites.unique hc⟩
  intro x hx y hy hkx hky c hcx hcy
  obtain ⟨rx, hrx, hsx, hcx⟩ :=
    hrow x hx (LogicalLine.isPinKeyword_iff.2 ⟨.receiver, hkx⟩) c hcx
  obtain ⟨ry, hry, hsy, hcy⟩ :=
    hrow y hy (LogicalLine.isPinKeyword_iff.2 ⟨.driver, hky⟩) c hcy
  have hfx : rx.direction.field = .inpin := Field.keyword_inj (hsx.keyword.symm.trans hkx)
  have hfy : ry.direction.field = .outpin := Field.keyword_inj (hsy.keyword.symm.trans hky)
  rw [hrows rx hrx ry hry (hcx.trans hcy.symm), hfy] at hfx
  cases hfx

theorem Draft.Holds.oneDirection_lines (h : d.Holds source census lines rows) :
    LogicalLine.OneDirection lines := by
  refine oneDirection_of_spelled h.spelled fun x hx y hy hclass => ?_
  have hdirection := h.oneDirection y hy
  rw [← hclass, h.oneDirection x hx] at hdirection
  exact Option.some.inj hdirection

/-- A text whose draft holds its lines, with nothing missing or repeated, is grammatical. -/
theorem Draft.Holds.grammatical (h : d.Holds source census lines rows)
    (hcounts : census.Counts cited)
    (hcited : List.Forall₂ LogicalLine.Cites (pins lines) cited)
    (hpresent : d.presenceFindings .global = []) : Grammatical lines where
  declares line hline := (h.fits line hline).pin
  classes := by
    refine ⟨census.numClasses, h.numClasses_pos hcounts hcited hpresent, fun c => ?_⟩
    rw [← mem_cited hcited, hcounts.mem_iff]
  oneDirection := h.oneDirection_lines
  spells line hline := (h.fits line hline).value
  once f hpin hdetailed :=
    (h.presence_iff.1 hpresent).1 f (Draft.mem_mandatory.2 ⟨hpin, .inr hdetailed⟩)

end Soundness

/-! ## What is grammatical is accepted -/

/-- A draft whose fields of global routing hold values yields a description. -/
theorem Draft.exists_yields {d : Draft} (k : Nat) (rows : List PinRow)
    (h : ∀ f : Field, f.isPin = false → f.isDetailed = false → ∃ p, d.value? f = some p) :
    ∃ a, d.Yields k rows a := by
  obtain ⟨_, hioRat⟩ := h .ioRat rfl rfl
  obtain ⟨_, hchanWidthIo⟩ := h .chanWidthIo rfl rfl
  obtain ⟨_, hchanX⟩ := h .chanWidthX rfl rfl
  obtain ⟨_, hchanY⟩ := h .chanWidthY rfl rfl
  obtain ⟨_, hsubblocks⟩ := h .subblocksPerCluster rfl rfl
  obtain ⟨_, hlutSize⟩ := h .subblockLutSize rfl rfl
  simp only [value?, Option.map_eq_some_iff] at hioRat hchanWidthIo hchanX
  simp only [value?, Option.map_eq_some_iff] at hchanY hsubblocks hlutSize
  obtain ⟨ioRat, hioRat, -⟩ := hioRat
  obtain ⟨chanWidthIo, hchanWidthIo, -⟩ := hchanWidthIo
  obtain ⟨chanX, hchanX, -⟩ := hchanX
  obtain ⟨chanY, hchanY, -⟩ := hchanY
  obtain ⟨subblocks, hsubblocks, -⟩ := hsubblocks
  obtain ⟨lutSize, hlutSize, -⟩ := hlutSize
  exact ⟨{ ioRat, chanWidthIo, chanX, chanY, classes := PinRow.classes k rows,
           pins := PinRow.pins rows, subblocksPerCluster := subblocks, subblockLutSize := lutSize,
           detailed := d.detailed },
    rfl, rfl, hioRat, hchanWidthIo, hchanX, hchanY, hsubblocks, hlutSize, rfl⟩

/-- A draft that holds lines, with nothing missing, yields a description. -/
theorem Draft.Holds.exists_yields {source : String} {census : Census} {lines : List LogicalLine}
    {rows : List PinRow} {d : Draft} {routing : Routing} (h : d.Holds source census lines rows)
    (hpresent : d.presenceFindings routing = []) (k : Nat) : ∃ a, d.Yields k rows a := by
  refine Draft.exists_yields k rows fun f hpin hdetailed => ?_
  refine (h.exists_value_iff hpin).2 (List.ne_nil_of_length_pos ?_)
  rw [(h.presence_iff.1 hpresent).1 f (Draft.mem_mandatory.2 ⟨hpin, .inr hdetailed⟩)]
  exact Nat.one_pos

namespace Grammatical

variable {lines : List LogicalLine}

theorem fits (h : Grammatical lines) : ∀ line ∈ lines, line.Fits := fun line hline =>
  ⟨h.declares line hline, h.spells line hline⟩

/-- The census of grammatical lines can be taken. -/
theorem exists_census (h : Grammatical lines) : ∃ cited,
    List.Forall₂ LogicalLine.Cites (pins lines) cited ∧
      ∀ c < Census.classBound cited, c ∈ cited := by
  obtain ⟨cited, hcited⟩ : ∃ cited, List.Forall₂ LogicalLine.Cites (pins lines) cited := by
    refine exists_forall₂ fun line hline => ?_
    obtain ⟨hline, hpin⟩ := List.mem_filter.1 hline
    obtain ⟨row, hrow⟩ := h.declares line hline hpin
    exact ⟨_, hrow.cites⟩
  obtain ⟨k, -, hk⟩ := h.classes
  have hmem : ∀ c, c ∈ cited ↔ c < k := fun c => by rw [mem_cited hcited, hk]
  have hbound : Census.classBound cited ≤ k := Census.classBound_le.2 fun c hc => (hmem c).1 hc
  exact ⟨cited, hcited, fun c hc => (hmem c).2 (by omega)⟩

/-- A draft that holds grammatical lines has nothing missing or repeated. -/
theorem presence {source : String} {census : Census} {rows : List PinRow} {d : Draft}
    (h : Grammatical lines) (hd : d.Holds source census lines rows) :
    d.presenceFindings .global = [] := by
  refine hd.presence_iff.2 ⟨fun f hf => ?_, ?_⟩
  · obtain ⟨hpin, hdetailed | hdetailed⟩ := Draft.mem_mandatory.1 hf
    · cases hdetailed
    · exact h.once f hpin hdetailed
  · -- Class zero is cited, so there is a pin line.
    obtain ⟨k, hpos, hk⟩ := h.classes
    obtain ⟨line, hline, -⟩ := (hk 0).2 hpos
    obtain ⟨hline, hpin⟩ := List.mem_filter.1 hline
    obtain ⟨dir, hdir⟩ := LogicalLine.isPinKeyword_iff.1 hpin
    exact ⟨dir, List.ne_nil_of_mem (List.mem_filter.2 ⟨hline, by simp [hdir]⟩)⟩

/-- A text with grammatical lines is loaded without a stop, and its draft holds its lines. -/
theorem exists_draft {text : String} (h : Grammatical (LogicalLine.ofText text)) (source : String)
    (hlen : (pins (LogicalLine.ofText text)).length ≤ Cells.maxInteger + 1) :
    ∃ census cited rows d,
      census.Counts cited ∧
        List.Forall₂ LogicalLine.Cites (pins (LogicalLine.ofText text)) cited ∧
        (Stream.ofText text source).discover.1 = .ok census ∧
        (Draft.start source census).enterAll (Stream.ofText text source).logicalLines = ⟨d, none⟩ ∧
        Draft.Holds source census (LogicalLine.ofText text) rows d := by
  obtain ⟨cited, hcited, hall⟩ := h.exists_census
  have hcounts := Census.Counts.of_cited hall
  obtain ⟨d, hrun⟩ := Draft.enterAll_complete source hcounts hcited h.fits h.oneDirection hlen
  obtain ⟨rows, hd⟩ := Draft.holds_of_enterAll hcounts hcited (List.append_nil _).symm hrun
  exact ⟨_, cited, rows, d, hcounts, hcited, Stream.discover_ok.2 ⟨cited, hcited, hall, rfl⟩,
    hrun, hd⟩

end Grammatical

/-! ## The theorem -/

/-- A text whose length fits a cell, as that of any text in memory does, is parsed for global
routing exactly when its logical lines are grammatical. -/
theorem parseText_iff_grammatical {text : String} (source : String)
    (hlen : text.length ≤ Cells.maxInteger) :
    (∃ a, parseText text source .global = .ok a) ↔ Grammatical (LogicalLine.ofText text) := by
  constructor
  · rintro ⟨a, h⟩
    obtain ⟨census, cited, rows, d, hcounts, hcited, hd, hpresent, -⟩ := parseText_holds h
    exact hd.grammatical hcounts hcited hpresent
  · intro h
    obtain ⟨census, cited, rows, d, hcounts, hcited, hcensus, hrun, hd⟩ :=
      h.exists_draft source ((length_pins_ofText text).trans (by omega))
    obtain ⟨a, ha⟩ := hd.exists_yields (h.presence hd) census.numClasses
    refine ⟨a, parseText_ok.2 ⟨census, d, hcensus, hrun, Draft.accept_ok.2 ⟨?_, ?_⟩⟩⟩
    · exact Draft.findings_global.2 (h.presence hd)
    · exact (hd.toDescription_ok hcounts hcited).2 ha

/-- A smallest description, with one pin and the channels uniform, is grammatical. -/
theorem grammatical_smallest :
    let text := "io_rat 2\nchan_width_io 1\nchan_width_x uniform 1\nchan_width_y uniform 1\n" ++
      "outpin class: 0 top\nsubblocks_per_cluster 1\nsubblock_lut_size 4\n"
    text.length ≤ Cells.maxInteger ∧ Grammatical (LogicalLine.ofText text) := by
  intro text
  have hlen : text.length ≤ Cells.maxInteger := by decide +kernel
  have hok : (parseText text "smallest" .global).isOk = true := by decide +kernel
  refine ⟨hlen, (parseText_iff_grammatical "smallest" hlen).1 ?_⟩
  cases h : parseText text "smallest" .global with
  | ok a => exact ⟨a, rfl⟩
  | error e =>
    rw [h] at hok
    cases hok

end Fabric
