import Fabric.Description.Printer
import Fabric.Proofs.Lines
import Fabric.Proofs.Meaning
import Fabric.Proofs.Numerals

/-!
# What a description is written as

`Description.statements` lists the statements of a description, in the order of its text. A
well-formed description is written (`WellFormed.format_ok`), the logical lines of the text are the
statements (`WellFormed.lines_state`), and each statement spells what the description holds
(`WellFormed.spells`), but for the values that the profile of a channel does not have.
-/

namespace Fabric

/-! ## Statements -/

/-- A statement before it is put on a line. -/
structure Statement where
  field : Field
  operands : List String
  deriving DecidableEq

namespace Statement

/-- The tokens of the line of a statement. -/
def tokens (s : Statement) : List String := s.field.keyword :: s.operands

end Statement

/-- A logical line states a statement. -/
structure LogicalLine.States (line : LogicalLine) (s : Statement) : Prop where
  keyword : line.keyword = s.field.keyword
  operands : line.operands = s.operands

/-- The operands of a channel. -/
def Channel.tokens (c : Channel Binary64) : List String :=
  Vocabulary.word c.profile :: c.operands.map Binary64.text

/-- The statement that declares a pin. -/
def PinRow.statement (row : PinRow) : Statement where
  field := row.direction.field
  operands := classMarker :: Numeral.text row.classId :: row.sides.map Vocabulary.word

namespace Description

/-- The direction in which a pin is declared. -/
def direction (a : Description Binary64) (pin : Pin) : Direction :=
  if (a.citedClass? pin).bind (·.direction) = some .driver then .driver else .receiver

/-- What the statement of a pin declares. -/
def pinRow (a : Description Binary64) (pin : Pin) : PinRow where
  direction := a.direction pin
  classId := pin.classId.toNat
  sides := pin.sides.toList

def pinRows (a : Description Binary64) : List PinRow := a.pins.map a.pinRow

/-- The statements of the parameters of detailed routing. -/
def detailedStatements (r : DetailedRouting Binary64) : List Statement :=
  [⟨.fcType, [Vocabulary.word r.fcMeasure]⟩, ⟨.fcOutput, [r.fcOutput.text]⟩,
    ⟨.fcInput, [r.fcInput.text]⟩, ⟨.fcPad, [r.fcPad.text]⟩,
    ⟨.switchBlockType, [Vocabulary.word r.switchBlock]⟩]

/-- The statements of a description in the parts between which a line is left empty. -/
def parts (a : Description Binary64) : List (List Statement) :=
  [[⟨.ioRat, [Numeral.text a.ioRat]⟩, ⟨.chanWidthIo, [a.chanWidthIo.text]⟩,
      ⟨.chanWidthX, a.chanX.tokens⟩, ⟨.chanWidthY, a.chanY.tokens⟩],
    a.pinRows.map PinRow.statement,
    [⟨.subblocksPerCluster, [Numeral.text a.subblocksPerCluster]⟩,
      ⟨.subblockLutSize, [Numeral.text a.subblockLutSize]⟩]] ++
    (a.detailed.map detailedStatements).toList

/-- The statements of a description, in order. -/
def statements (a : Description Binary64) : List Statement := a.parts.flatten

/-- The lines of a description as rows of tokens. -/
def tokenRows (a : Description Binary64) : List (List String) :=
  [[]].intercalate (a.parts.map (·.map Statement.tokens))

/-- A description that can have been read: its integers are positive and may be written, its real
values are within their bounds, and the pins and the classes agree with each other. -/
structure WellFormed (a : Description Binary64) : Prop where
  ioRat : 0 < a.ioRat ∧ Numeral.isWritable a.ioRat = true
  subblocksPerCluster : 0 < a.subblocksPerCluster ∧
    Numeral.isWritable a.subblocksPerCluster = true
  subblockLutSize : 0 < a.subblockLutSize ∧ Numeral.isWritable a.subblockLutSize = true
  real : ∀ entry ∈ a.bounded, entry.1.admits entry.2 = true
  /-- What the profile of a channel does not have is zero, of either sign. -/
  unused : ∀ x ∈ a.chanX.unused ++ a.chanY.unused, (x == .zero) = true
  pins_ne : a.pins ≠ []
  pin : ∀ (i : Nat) (pin : Pin), a.pins[i]? = some pin →
    pin.index = i ∧ 0 ≤ pin.classId ∧ pin.classId < a.numClasses ∧ pin.sides ≠ .empty
  pinClass : ∀ (c : Nat) (pinClass : PinClass), a.classes[c]? = some pinClass →
    pinClass.id = c ∧ pinClass.direction ≠ none ∧ pinClass.members ≠ [] ∧
      pinClass.members = (a.pins.filter (·.classId == (c : Int))).map (·.index)

end Description

/-! ## Tokens -/

/-- Every word of a vocabulary is a token if those that it lists are. -/
theorem isToken_word {α : Type} [Vocabulary α] [Vocabulary.Lawful α]
    (h : ∀ token ∈ Vocabulary.words α, IsToken token) (a : α) : IsToken (Vocabulary.word a) :=
  h _ (Vocabulary.mem_words.2 ⟨a, rfl⟩)

theorem isToken_keyword (f : Field) : IsToken f.keyword :=
  isToken_word (by decide) f

theorem isToken_numeral {token : String} (hne : token ≠ "")
    (h : ∀ c ∈ token.toList, Numeral.isNumeralChar c = true) : IsToken token where
  ne_nil := fun hnil => hne (String.toList_inj.1 hnil)
  plain := by
    intro c hc
    have hcode := Numeral.toNat_of_isNumeralChar (h c hc)
    refine ⟨Numeral.isBlank_of_isNumeralChar (h c hc), ?_, ?_⟩
    · rintro rfl
      exact absurd hcode (by decide)
    · rintro rfl
      exact absurd hcode (by decide)

theorem isToken_integer {n : Int} (h : Numeral.isWritable n = true) : IsToken (Numeral.text n) := by
  refine isToken_numeral (fun hempty => ?_) (Numeral.isNumeralChar_text n)
  have hread := Numeral.read?_text h
  rw [hempty] at hread
  cases hread

theorem isToken_real {x : Binary64} (h : x.isFinite = true) : IsToken x.text := by
  refine isToken_numeral (fun hempty => ?_) (Binary64.isNumeralChar_text h)
  have hread := Binary64.read?_text h
  rw [hempty] at hread
  cases hread

/-- The numeral of a value within bounds spells it. -/
theorem Bounds.spells_text {b : Bounds} {x : Binary64} (hb : b ∈ all) (h : b.admits x = true) :
    b.Spells x.text x := by
  obtain ⟨low, high, hfinite⟩ := finite_of_mem hb
  exact ⟨Scalar.readReal?_text (isFinite_of_admits hfinite h), h⟩

namespace Channel

variable {c : Channel Binary64}

theorem map_bounded (c : Channel Binary64) : c.bounded.map (·.2) = c.operands := by
  unfold bounded operands
  cases c.profile <;> rfl

theorem isToken_tokens (h : ∀ entry ∈ c.bounded, entry.2.isFinite = true) :
    ∀ token ∈ c.tokens, IsToken token := by
  refine List.forall_mem_cons.2 ⟨isToken_word (by decide) c.profile, fun token htoken => ?_⟩
  rw [← map_bounded, List.map_map] at htoken
  obtain ⟨entry, hentry, rfl⟩ := List.mem_map.1 htoken
  exact isToken_real (h entry hentry)

/-- The channel with exact zeros in place of what its profile does not have. -/
def normal (c : Channel Binary64) : Channel Binary64 :=
  match c.profile with
  | .uniform => { c with width := .zero, xpeak := .zero, dc := .zero }
  | .delta => { c with width := .zero }
  | .gaussian | .pulse => c

theorem spells_tokens (h : ∀ entry ∈ c.bounded, entry.1.admits entry.2 = true) :
    Channel.Spells c.tokens c.normal := by
  have hspells : ∀ entry ∈ c.bounded, entry.1.Spells entry.2.text entry.2 := fun entry hentry =>
    Bounds.spells_text (c.bounded_mem_all entry hentry) (h entry hentry)
  obtain ⟨profile, peak, width, xpeak, dc⟩ := c
  cases profile with
  | uniform =>
    simp only [bounded, List.forall_mem_cons] at hspells
    obtain ⟨hpeak, -⟩ := hspells
    exact .uniform hpeak
  | delta =>
    simp only [bounded, List.forall_mem_cons] at hspells
    obtain ⟨hpeak, hxpeak, hdc, -⟩ := hspells
    exact .delta hpeak hxpeak hdc
  | gaussian =>
    simp only [bounded, List.forall_mem_cons] at hspells
    obtain ⟨hpeak, hwidth, hxpeak, hdc, -⟩ := hspells
    exact .shaped (.inl rfl) hpeak hwidth hxpeak hdc
  | pulse =>
    simp only [bounded, List.forall_mem_cons] at hspells
    obtain ⟨hpeak, hwidth, hxpeak, hdc, -⟩ := hspells
    exact .shaped (.inr rfl) hpeak hwidth hxpeak hdc

end Channel

namespace Description

variable {a : Description Binary64}

theorem mem_bounded_of_channel {c : Channel Binary64} (hc : c = a.chanX ∨ c = a.chanY)
    {entry : Bounds × Binary64} (h : entry ∈ c.bounded) : entry ∈ a.bounded := by
  unfold bounded
  rcases hc with rfl | rfl
  · exact List.mem_append_left _ (List.mem_append_left _ (List.mem_cons_of_mem _ h))
  · exact List.mem_append_left _ (List.mem_append_right _ h)

theorem mem_bounded_of_detailed {r : DetailedRouting Binary64} (hr : a.detailed = some r)
    {x : Binary64} (h : x = r.fcOutput ∨ x = r.fcInput ∨ x = r.fcPad) :
    (Bounds.fc, x) ∈ a.bounded := by
  refine List.mem_append_right _ ?_
  rw [hr]
  rcases h with rfl | rfl | rfl <;> simp

/-- An index means a place of a row if it is the place or counts to it from the end. -/
theorem placeOf?_eq_some {n p : Nat} {i : Int} :
    placeOf? n i = some p ↔ p < n ∧ (i = p ∨ i + n = p) := by
  unfold placeOf?
  by_cases hneg : i < 0
  · simp only [if_pos hneg, Option.ite_none_right_eq_some, Option.some.injEq]
    omega
  · simp only [if_neg hneg, Option.ite_none_right_eq_some, Option.some.injEq]
    omega

namespace WellFormed

/-- The real values of a well-formed description are finite. -/
theorem isFinite (h : a.WellFormed) : ∀ entry ∈ a.bounded, entry.2.isFinite = true := by
  intro entry hentry
  obtain ⟨low, high, hb⟩ := Bounds.finite_of_mem (a.bounded_mem_all entry hentry)
  exact Bounds.isFinite_of_admits hb (h.real entry hentry)

/-- The class that a pin of a well-formed description cites. -/
theorem citedClass (h : a.WellFormed) {pin : Pin} (hpin : pin ∈ a.pins) :
    ∃ (c : Nat) (pinClass : PinClass), pin.classId = c ∧ a.classes[c]? = some pinClass ∧
      a.citedClass? pin = some pinClass := by
  obtain ⟨i, hi⟩ := List.getElem?_of_mem hpin
  obtain ⟨-, hnonneg, hlt, -⟩ := h.pin i pin hi
  obtain ⟨c, hc⟩ := Int.eq_ofNat_of_zero_le hnonneg
  rw [hc] at hlt
  have hlt' : c < a.classes.length := Int.ofNat_lt.1 hlt
  have hclass := List.getElem?_eq_getElem hlt'
  refine ⟨c, _, hc, hclass, ?_⟩
  have hplace : placeOf? a.classes.length pin.classId = some c :=
    placeOf?_eq_some.2 ⟨hlt', .inl hc⟩
  unfold citedClass? entryFromEnd?
  rw [hplace]
  exact hclass

theorem exists_pin (h : a.WellFormed) {c : Nat} (hc : c < a.numClasses) :
    ∃ pin ∈ a.pins, pin.classId = c := by
  obtain ⟨-, -, hne, hmembers⟩ := h.pinClass c _ (List.getElem?_eq_getElem hc)
  rw [hmembers, ne_eq, List.map_eq_nil_iff] at hne
  obtain ⟨pin, hpin⟩ := List.exists_mem_of_ne_nil _ hne
  obtain ⟨hpin, hid⟩ := List.mem_filter.1 hpin
  exact ⟨pin, hpin, eq_of_beq hid⟩

/-- There are no more classes than pins. -/
theorem numClasses_le (h : a.WellFormed) : a.numClasses ≤ a.pins.length := by
  have hcited : ∀ c ∈ List.range a.numClasses, c ∈ a.pins.map (·.classId.toNat) := by
    intro c hc
    obtain ⟨pin, hpin, hclass⟩ := h.exists_pin (List.mem_range.1 hc)
    exact List.mem_map.2 ⟨pin, hpin, by rw [hclass, Int.toNat_natCast]⟩
  have hle := (List.nodup_range.subperm hcited).length_le
  rwa [List.length_range, List.length_map] at hle

/-- The class numbers of a well-formed description may be written. -/
theorem isWritable_classId (h : a.WellFormed) (hlen : a.pins.length ≤ Cells.maxInteger + 1)
    {pin : Pin} (hpin : pin ∈ a.pins) : Numeral.isWritable pin.classId = true := by
  obtain ⟨c, pinClass, hc, hclass, -⟩ := h.citedClass hpin
  have hlt : c < a.classes.length := (List.getElem?_eq_some_iff.1 hclass).1
  have hle : a.classes.length ≤ a.pins.length := h.numClasses_le
  have hbound : Cells.maxInteger + 1 < Nat.pow 10 Numeral.maxDigits := by decide +kernel
  rw [hc]
  exact decide_eq_true (show c < Nat.pow 10 Numeral.maxDigits by omega)

end WellFormed

/-! ## The text -/

theorem integer_ok {n : Int} (h : Numeral.isWritable n = true) :
    WriteFault.integer n = .ok (Numeral.text n) := by
  unfold WriteFault.integer Value.intText Numeral.text?
  rw [if_pos h]
  rfl

theorem channelLine_ok (f : Field) (c : Channel Binary64) :
    c.line f = .ok (" ".intercalate (Statement.tokens ⟨f, c.tokens⟩)) := by
  have hreals : c.operands.mapM WriteFault.real = .ok (c.operands.map Binary64.text) :=
    mapM_eq_map fun x _ => rfl
  unfold Channel.line
  rw [hreals]
  rfl

/-- The sides of a pin stand apart as the other operands do. -/
theorem statementLine_sides (f : Field) (id : String) {sides : List String} (h : sides ≠ []) :
    statementLine f [classMarker, id, " ".intercalate sides] =
      " ".intercalate (f.keyword :: classMarker :: id :: sides) := by
  unfold statementLine
  rw [String.intercalate_cons_cons, String.intercalate_cons_cons, String.intercalate_cons_cons,
    String.intercalate_singleton, String.intercalate_cons_cons, String.intercalate_cons_cons,
    String.intercalate_cons_of_ne_nil h]

theorem toList_ne_nil {s : Sides} (h : s ≠ .empty) : s.toList ≠ [] := by
  obtain ⟨top, bottom, left, right⟩ := s
  revert h
  revert top bottom left right
  decide

namespace WellFormed

theorem pinLine_ok (h : a.WellFormed) (hlen : a.pins.length ≤ Cells.maxInteger + 1) {pin : Pin}
    (hpin : pin ∈ a.pins) :
    a.pinLine pin = .ok (" ".intercalate (a.pinRow pin).statement.tokens) := by
  obtain ⟨c, pinClass, hc, -, hcited⟩ := h.citedClass hpin
  have hfield : pinField pinClass = (a.direction pin).field := by
    unfold pinField direction
    rw [hcited]
    simp only [Option.bind_some]
    split <;> rfl
  have hsides : pin.sides.toList.map Vocabulary.word ≠ [] := by
    obtain ⟨i, hi⟩ := List.getElem?_of_mem hpin
    rw [ne_eq, List.map_eq_nil_iff]
    exact toList_ne_nil (h.pin i pin hi).2.2.2
  unfold pinLine
  simp only [hcited]
  rw [integer_ok (h.isWritable_classId hlen hpin), hfield]
  refine congrArg Except.ok ((statementLine_sides _ _ hsides).trans ?_)
  unfold Statement.tokens PinRow.statement pinRow
  rw [hc, Int.toNat_natCast]

/-- A well-formed description is written as its rows of tokens. -/
theorem format_ok (h : a.WellFormed) (hlen : a.pins.length ≤ Cells.maxInteger + 1) :
    a.format = .ok (layRows a.tokenRows) := by
  have hpins : a.pins.mapM a.pinLine =
      .ok (a.pinRows.map fun row => " ".intercalate row.statement.tokens) := by
    unfold pinRows
    rw [List.map_map]
    exact mapM_eq_map fun pin hpin => h.pinLine_ok hlen hpin
  unfold format formatLines
  rw [integer_ok h.ioRat.2, channelLine_ok, channelLine_ok, hpins,
    integer_ok h.subblocksPerCluster.2, integer_ok h.subblockLutSize.2]
  unfold layRows tokenRows parts
  cases a.detailed with
  | none =>
    refine congrArg (fun lines => Except.ok ("\n".intercalate lines ++ "\n")) ?_
    simp [List.map_map, Statement.tokens, statementLine, Function.comp_def]
  | some r =>
    refine congrArg (fun lines => Except.ok ("\n".intercalate lines ++ "\n")) ?_
    simp [detailedStatements, List.map_map, Statement.tokens, statementLine, Function.comp_def]

end WellFormed

/-! ## The statements -/

/-- A description has six statements of values, one for each pin, and those of detailed routing. -/
theorem mem_statements {s : Statement} : s ∈ a.statements ↔
    (s = ⟨.ioRat, [Numeral.text a.ioRat]⟩ ∨ s = ⟨.chanWidthIo, [a.chanWidthIo.text]⟩ ∨
      s = ⟨.chanWidthX, a.chanX.tokens⟩ ∨ s = ⟨.chanWidthY, a.chanY.tokens⟩ ∨
      s = ⟨.subblocksPerCluster, [Numeral.text a.subblocksPerCluster]⟩ ∨
      s = ⟨.subblockLutSize, [Numeral.text a.subblockLutSize]⟩) ∨
    (∃ pin ∈ a.pins, s = (a.pinRow pin).statement) ∨
    ∃ r, a.detailed = some r ∧ s ∈ detailedStatements r := by
  have hpins : s ∈ a.pinRows.map PinRow.statement ↔
      ∃ pin ∈ a.pins, s = (a.pinRow pin).statement := by
    unfold pinRows
    rw [List.map_map, List.mem_map]
    simp only [Function.comp_apply, eq_comm]
  have hdetailed : s ∈ (a.detailed.map detailedStatements).toList.flatten ↔
      ∃ r, a.detailed = some r ∧ s ∈ detailedStatements r := by
    cases a.detailed <;> simp
  unfold statements parts
  rw [List.flatten_append, List.mem_append, hdetailed]
  simp only [List.flatten_cons, List.flatten_nil, List.append_nil, List.mem_append, List.mem_cons,
    List.not_mem_nil, or_false, hpins]
  grind

theorem isFinite_channel (h : ∀ entry ∈ a.bounded, entry.2.isFinite = true) {c : Channel Binary64}
    (hc : c = a.chanX ∨ c = a.chanY) : ∀ entry ∈ c.bounded, entry.2.isFinite = true :=
  fun entry hentry => h entry (mem_bounded_of_channel hc hentry)

theorem isFinite_detailed (h : ∀ entry ∈ a.bounded, entry.2.isFinite = true)
    {r : DetailedRouting Binary64} (hr : a.detailed = some r) : r.fcOutput.isFinite = true ∧
      r.fcInput.isFinite = true ∧ r.fcPad.isFinite = true :=
  ⟨h _ (mem_bounded_of_detailed hr (.inl rfl)), h _ (mem_bounded_of_detailed hr (.inr (.inl rfl))),
    h _ (mem_bounded_of_detailed hr (.inr (.inr rfl)))⟩

namespace WellFormed

/-- The statements of a description hold tokens only. -/
theorem isToken_operands (h : a.WellFormed) (hlen : a.pins.length ≤ Cells.maxInteger + 1) :
    ∀ s ∈ a.statements, ∀ token ∈ s.operands, IsToken token := by
  intro s hs
  rcases mem_statements.1 hs with (rfl | rfl | rfl | rfl | rfl | rfl) | ⟨pin, hpin, rfl⟩ |
    ⟨r, hr, hs⟩
  · exact List.forall_mem_singleton.2 (isToken_integer h.ioRat.2)
  · exact List.forall_mem_singleton.2 (isToken_real (h.isFinite _ List.mem_cons_self))
  · exact Channel.isToken_tokens (isFinite_channel h.isFinite (.inl rfl))
  · exact Channel.isToken_tokens (isFinite_channel h.isFinite (.inr rfl))
  · exact List.forall_mem_singleton.2 (isToken_integer h.subblocksPerCluster.2)
  · exact List.forall_mem_singleton.2 (isToken_integer h.subblockLutSize.2)
  · obtain ⟨c, pinClass, hc, -⟩ := h.citedClass hpin
    have hwritable := h.isWritable_classId hlen hpin
    intro token htoken
    simp only [PinRow.statement, pinRow, List.mem_cons, List.mem_map] at htoken
    rcases htoken with rfl | rfl | ⟨side, -, rfl⟩
    · decide
    · rw [hc] at hwritable ⊢
      exact isToken_integer hwritable
    · exact isToken_word (by decide) side
  · obtain ⟨houtput, hinput, hpad⟩ := isFinite_detailed h.isFinite hr
    simp only [detailedStatements, List.mem_cons, List.not_mem_nil, or_false] at hs
    rcases hs with rfl | rfl | rfl | rfl | rfl
    · exact List.forall_mem_singleton.2 (isToken_word (by decide) r.fcMeasure)
    · exact List.forall_mem_singleton.2 (isToken_real houtput)
    · exact List.forall_mem_singleton.2 (isToken_real hinput)
    · exact List.forall_mem_singleton.2 (isToken_real hpad)
    · exact List.forall_mem_singleton.2 (isToken_word (by decide) r.switchBlock)

end WellFormed

theorem filter_tokenRows (a : Description Binary64) :
    a.tokenRows.filter (· ≠ []) = a.statements.map Statement.tokens := by
  unfold tokenRows statements parts
  cases a.detailed <;> simp [Statement.tokens, List.filter_map, Function.comp_def]

/-- The logical lines of the text of a description are its statements. -/
theorem WellFormed.lines_state (h : a.WellFormed) (hlen : a.pins.length ≤ Cells.maxInteger + 1) :
    List.Forall₂ LogicalLine.States (LogicalLine.ofText (layRows a.tokenRows)) a.statements := by
  have hrows : ∀ row ∈ a.tokenRows, ∀ token ∈ row, IsToken token := by
    intro row hrow
    by_cases hempty : row = []
    · rw [hempty]
      exact fun token htoken => absurd htoken List.not_mem_nil
    · have hstated : row ∈ a.tokenRows.filter (· ≠ []) :=
        List.mem_filter.2 ⟨hrow, decide_eq_true hempty⟩
      rw [filter_tokenRows] at hstated
      obtain ⟨s, hs, rfl⟩ := List.mem_map.1 hstated
      exact List.forall_mem_cons.2 ⟨isToken_keyword s.field, h.isToken_operands hlen s hs⟩
  have hne : a.tokenRows ≠ [] := by
    intro hempty
    have hfilter := a.filter_tokenRows
    rw [hempty] at hfilter
    cases hfilter
  have hlines := LogicalLine.allTokens_layRows hne hrows
  rw [filter_tokenRows, ← List.forall₂_eq_eq_eq, List.forall₂_map_left_iff,
    List.forall₂_map_right_iff] at hlines
  refine hlines.imp fun line s heq => ?_
  obtain ⟨hkeyword, hoperands⟩ := List.cons.inj heq
  exact ⟨hkeyword, hoperands⟩

/-! ## What the statements spell -/

/-- A description with exact zeros in place of what its channels do not have. -/
def normal (a : Description Binary64) : Description Binary64 :=
  { a with chanX := a.chanX.normal, chanY := a.chanY.normal }

/-- Every statement of a value spells what the description holds. -/
theorem WellFormed.spells (h : a.WellFormed) {s : Statement} (hs : s ∈ a.statements)
    (hpin : s.field.isPin = false) :
    ∃ p, s.field.Spells s.operands p ∧ a.normal.value? s.field = some p := by
  have hchannel : ∀ {c : Channel Binary64}, c = a.chanX ∨ c = a.chanY →
      PayloadForm.channel.Spells c.tokens (.channel c.normal) := by
    intro c hc
    refine .channel (Channel.spells_tokens fun entry hentry => ?_)
    exact h.real entry (mem_bounded_of_channel hc hentry)
  rcases mem_statements.1 hs with (rfl | rfl | rfl | rfl | rfl | rfl) | ⟨pin, -, rfl⟩ | ⟨r, hr, hs⟩
  · exact ⟨_, ⟨_, rfl, .integer (Numeral.read?_text h.ioRat.2) h.ioRat.1⟩, rfl⟩
  · have hadmits := h.real (.chanWidthIo, a.chanWidthIo) List.mem_cons_self
    exact ⟨_, ⟨_, rfl, .real (Bounds.spells_text (by simp [Bounds.all]) hadmits)⟩, rfl⟩
  · exact ⟨_, ⟨_, rfl, hchannel (.inl rfl)⟩, rfl⟩
  · exact ⟨_, ⟨_, rfl, hchannel (.inr rfl)⟩, rfl⟩
  · exact ⟨_, ⟨_, rfl, .integer (Numeral.read?_text h.subblocksPerCluster.2)
      h.subblocksPerCluster.1⟩, rfl⟩
  · exact ⟨_, ⟨_, rfl, .integer (Numeral.read?_text h.subblockLutSize.2) h.subblockLutSize.1⟩, rfl⟩
  · cases hdirection : a.direction pin <;> simp [PinRow.statement, pinRow, hdirection] at hpin <;>
      cases hpin
  · have hfc : ∀ x, x = r.fcOutput ∨ x = r.fcInput ∨ x = r.fcPad →
        (PayloadForm.real .fc).Spells [x.text] (.real x) := by
      intro x hx
      have hadmits := h.real (.fc, x) (mem_bounded_of_detailed hr hx)
      exact .real (Bounds.spells_text (by simp [Bounds.all]) hadmits)
    simp only [detailedStatements, List.mem_cons, List.not_mem_nil, or_false] at hs
    rcases hs with rfl | rfl | rfl | rfl | rfl
    · exact ⟨_, ⟨_, rfl, .fcMeasure r.fcMeasure⟩, by simp [value?, normal, hr]⟩
    · exact ⟨_, ⟨_, rfl, hfc r.fcOutput (.inl rfl)⟩, by simp [value?, normal, hr]⟩
    · exact ⟨_, ⟨_, rfl, hfc r.fcInput (.inr (.inl rfl))⟩, by simp [value?, normal, hr]⟩
    · exact ⟨_, ⟨_, rfl, hfc r.fcPad (.inr (.inr rfl))⟩, by simp [value?, normal, hr]⟩
    · exact ⟨_, ⟨_, rfl, .switchBlock r.switchBlock⟩, by simp [value?, normal, hr]⟩

/-- The fields of global routing are stated once, those of detailed routing once or never. -/
theorem count_statements (a : Description Binary64) {f : Field} (hf : f.isPin = false) :
    (a.statements.map (·.field)).count f =
      if f.isDetailed = true ∧ a.detailed = none then 0 else 1 := by
  have hpins : (a.pinRows.map (·.direction.field)).count f = 0 := by
    refine List.count_eq_zero.2 fun hmem => ?_
    obtain ⟨row, -, rfl⟩ := List.mem_map.1 hmem
    cases hdirection : row.direction <;> rw [hdirection] at hf <;> cases hf
  have hfields : a.statements.map (·.field) =
      [.ioRat, .chanWidthIo, .chanWidthX, .chanWidthY] ++ a.pinRows.map (·.direction.field) ++
        [.subblocksPerCluster, .subblockLutSize] ++
        if a.detailed = none then []
        else [.fcType, .fcOutput, .fcInput, .fcPad, .switchBlockType] := by
    unfold statements parts
    cases a.detailed <;>
      simp [detailedStatements, PinRow.statement, List.map_map, Function.comp_def]
  rw [hfields, List.count_append, List.count_append, List.count_append, hpins]
  by_cases hdetailed : a.detailed = none
  · simp only [hdetailed, if_true, and_true]
    cases f <;> first | rfl | cases hf
  · simp only [hdetailed, if_false, and_false]
    cases f <;> first | rfl | cases hf

end Description

end Fabric
