import Fabric.Proofs.Grammar

/-!
# Loading a value

A statement that holds a value is loaded exactly when its operands are spelled by the grammar; the
draft then holds that value for the field and notes the line (`statement_ok`). What the draft holds
for another field, its pins and its tables stay (`value?_assign`, `assign_log` and the like).
-/

namespace Fabric

/-! ## The values of a draft -/

namespace Draft

/-- The draft with the value of a field set. -/
def assign (d : Draft) : Field → Payload → Draft
  | .ioRat, .integer v => { d with ioRat := some v }
  | .subblocksPerCluster, .integer v => { d with subblocksPerCluster := some v }
  | .subblockLutSize, .integer v => { d with subblockLutSize := some v }
  | .chanWidthIo, .real x => { d with chanWidthIo := some x }
  | .fcOutput, .real x => { d with fcOutput := some x }
  | .fcInput, .real x => { d with fcInput := some x }
  | .fcPad, .real x => { d with fcPad := some x }
  | .chanWidthX, .channel c => { d with chanX := some c }
  | .chanWidthY, .channel c => { d with chanY := some c }
  | .fcType, .fcMeasure m => { d with fcMeasure := some m }
  | .switchBlockType, .switchBlock s => { d with switchBlock := some s }
  | _, _ => d

/-- The value that a draft holds for a field. -/
def value? (d : Draft) : Field → Option Payload
  | .ioRat => d.ioRat.map .integer
  | .subblocksPerCluster => d.subblocksPerCluster.map .integer
  | .subblockLutSize => d.subblockLutSize.map .integer
  | .chanWidthIo => d.chanWidthIo.map .real
  | .fcOutput => d.fcOutput.map .real
  | .fcInput => d.fcInput.map .real
  | .fcPad => d.fcPad.map .real
  | .chanWidthX => d.chanX.map .channel
  | .chanWidthY => d.chanY.map .channel
  | .fcType => d.fcMeasure.map .fcMeasure
  | .switchBlockType => d.switchBlock.map .switchBlock
  | .outpin | .inpin => none

/-- The draft with a line noted in its field log. -/
def note (d : Draft) (line : LogicalLine) : Draft :=
  { d with log := d.log.record line.keyword line.number }

/-- Two drafts with the same pins: only values and the field log may differ. -/
structure SamePins (d d' : Draft) : Prop where
  source : d'.source = d.source
  census : d'.census = d.census
  tables : d'.tables = d.tables
  nextPin : d'.nextPin = d.nextPin

theorem SamePins.refl (d : Draft) : SamePins d d := ⟨rfl, rfl, rfl, rfl⟩

theorem SamePins.trans {d d' d'' : Draft} (h : SamePins d d') (h' : SamePins d' d'') :
    SamePins d d'' :=
  ⟨h'.source.trans h.source, h'.census.trans h.census, h'.tables.trans h.tables,
    h'.nextPin.trans h.nextPin⟩

theorem samePins_note (d : Draft) (line : LogicalLine) : SamePins d (d.note line) :=
  ⟨rfl, rfl, rfl, rfl⟩

theorem samePins_assign (d : Draft) (f : Field) (p : Payload) : SamePins d (d.assign f p) := by
  unfold assign
  split <;> exact ⟨rfl, rfl, rfl, rfl⟩

theorem assign_log (d : Draft) (f : Field) (p : Payload) : (d.assign f p).log = d.log := by
  unfold assign
  split <;> rfl

/-- Setting a field to a value of its form changes what is held for that field only. -/
theorem value?_assign (d : Draft) {f : Field} {tokens : List String} {p : Payload}
    (h : f.Spells tokens p) (g : Field) :
    (d.assign f p).value? g = if f = g then some p else d.value? g := by
  obtain ⟨form, hform, hp⟩ := h
  cases f <;> simp only [Field.form?, Option.some.injEq, reduceCtorEq] at hform <;>
    subst hform <;> cases hp <;> cases g <;> rfl

end Draft

/-! ## Actions on a line and a draft -/

namespace Loading

variable {α : Type} {desk desk' : Desk} {a : α} {u : Unit}

theorem onLine_ok {r : Reading α} : onLine r desk = .ok a desk' ↔
    ∃ c, r desk.cursor = .ok a c ∧ desk' = { desk with cursor := c } := by
  unfold onLine
  cases hr : r desk.cursor with
  | ok b c =>
    simp only [EStateM.Result.ok.injEq]
    constructor
    · rintro ⟨rfl, rfl⟩
      exact ⟨c, ⟨rfl, rfl⟩, rfl⟩
    · rintro ⟨_, ⟨rfl, rfl⟩, rfl⟩
      exact ⟨rfl, rfl⟩
  | error e c => simp

theorem change_ok {f : Draft → Draft} :
    change f desk = .ok u desk' ↔ desk' = { desk with draft := f desk.draft } := by
  simp [change, eq_comm]

theorem record_ok : record desk = .ok u desk' ↔
    desk' = { desk with draft := desk.draft.note desk.cursor.line } := by
  simp [record, eq_comm, Draft.note, Cursor.keyword]

theorem fromTables_ok {f : PinTables → Except Defect α} :
    fromTables f desk = .ok a desk' ↔ f desk.draft.tables = .ok a ∧ desk = desk' := by
  unfold fromTables
  cases f desk.draft.tables with
  | ok b => simp
  | error e => simp

theorem onTables_ok {f : PinTables → Except Defect PinTables} : onTables f desk = .ok u desk' ↔
    ∃ t, f desk.draft.tables = .ok t ∧ desk' = { desk with draft.tables := t } := by
  simp only [onTables, bind_ok, fromTables_ok, change_ok]
  constructor
  · rintro ⟨t, _, ⟨ht, rfl⟩, h⟩
    exact ⟨t, ht, h⟩
  · rintro ⟨t, ht, h⟩
    exact ⟨t, _, ⟨ht, rfl⟩, h⟩

/-! ## Statements that hold a value -/

/-- The desk after a statement whose payload gave the draft `d`: the line is used up and noted. -/
def finished (desk : Desk) (d : Draft) : Desk :=
  { cursor := { desk.cursor with remaining := [] }, draft := d.note desk.cursor.line }

theorem integer_ok {set : Int → Draft → Draft} : integer set desk = .ok u desk' ↔
    ∃ v, PayloadForm.integer.Spells desk.cursor.remaining (.integer v) ∧
      desk' = finished desk (set v desk.draft) := by
  simp only [integer, bind_ok, onLine_ok, Scalar.positiveInteger_ok, change_ok, record_ok]
  constructor
  · rintro ⟨v, _, ⟨_, ⟨token, hr, hv, hpos, rfl⟩, rfl⟩, _, _, rfl, rfl⟩
    exact ⟨v, hr ▸ .integer hv hpos, rfl⟩
  · rintro ⟨v, hs, rfl⟩
    generalize hr : desk.cursor.remaining = tokens at hs
    cases hs with
    | integer hv hpos => exact ⟨v, _, ⟨_, ⟨_, rfl, hv, hpos, rfl⟩, rfl⟩, (), _, rfl, rfl⟩

theorem real_ok {b : Bounds} {set : Binary64 → Draft → Draft} : real b set desk = .ok u desk' ↔
    ∃ x, (PayloadForm.real b).Spells desk.cursor.remaining (.real x) ∧
      desk' = finished desk (set x desk.draft) := by
  simp only [real, bind_ok, onLine_ok, Scalar.real_ok, change_ok, Cursor.expectEnd_ok, record_ok]
  constructor
  · rintro ⟨x, _, ⟨_, ⟨token, rest, hr, hx, hin, rfl⟩, rfl⟩, _, _, rfl, _, _, ⟨_, ⟨hend, rfl⟩, rfl⟩,
      rfl⟩
    simp only at hend
    subst hend
    exact ⟨x, hr ▸ .real ⟨hx, hin⟩, rfl⟩
  · rintro ⟨x, hs, rfl⟩
    generalize hr : desk.cursor.remaining = tokens at hs
    cases hs with
    | real hx =>
      exact ⟨x, _, ⟨_, ⟨_, [], rfl, hx.1, hx.2, rfl⟩, rfl⟩, (), _, rfl, (), _, ⟨_, ⟨rfl, rfl⟩, rfl⟩,
        rfl⟩

theorem word_ok {α : Type} [Vocabulary α] [Vocabulary.Lawful α] {set : α → Draft → Draft} :
    word α set desk = .ok u desk' ↔
      ∃ a, desk.cursor.remaining = [Vocabulary.word a] ∧
        desk' = finished desk (set a desk.draft) := by
  simp only [word, bind_ok, onLine_ok, Scalar.wordStatement_ok, change_ok, record_ok]
  constructor
  · rintro ⟨a, _, ⟨_, ⟨hr, rfl⟩, rfl⟩, _, _, rfl, rfl⟩
    exact ⟨a, hr, rfl⟩
  · rintro ⟨a, hr, rfl⟩
    exact ⟨a, _, ⟨_, ⟨hr, rfl⟩, rfl⟩, (), _, rfl, rfl⟩

/-- One real operand of a statement. -/
theorem operand_ok {b : Bounds} {name : Option String} {x : Binary64} :
    onLine (Scalar.real b name) desk = .ok x desk' ↔
      ∃ token rest, desk.cursor.remaining = token :: rest ∧ b.Spells token x ∧
        desk' = { desk with cursor.remaining := rest } := by
  simp only [onLine_ok, Scalar.real_ok]
  constructor
  · rintro ⟨_, ⟨token, rest, hr, hx, hin, rfl⟩, rfl⟩
    exact ⟨token, rest, hr, ⟨hx, hin⟩, rfl⟩
  · rintro ⟨token, rest, hr, hx, rfl⟩
    exact ⟨_, ⟨token, rest, hr, hx.1, hx.2, rfl⟩, rfl⟩

theorem expectEnd_ok :
    onLine Cursor.expectEnd desk = .ok u desk' ↔ desk.cursor.remaining = [] ∧ desk = desk' := by
  simp only [onLine_ok, Cursor.expectEnd_ok]
  constructor
  · rintro ⟨_, ⟨hend, rfl⟩, rfl⟩
    exact ⟨hend, rfl⟩
  · rintro ⟨hend, rfl⟩
    exact ⟨_, ⟨hend, rfl⟩, rfl⟩

theorem channel_ok {c : Channel Binary64} : channel desk = .ok c desk' ↔
    Channel.Spells desk.cursor.remaining c ∧ desk' = finished desk desk.draft := by
  simp only [channel, bind_ok, onLine_ok (r := Cursor.getKeyword), Cursor.getKeyword_ok,
    onLine_ok (r := Scalar.word _ _ _), Scalar.word_ok, record_ok]
  constructor
  · rintro ⟨_, _, ⟨_, ⟨rfl, rfl⟩, rfl⟩, profile, _, ⟨_, ⟨rest, hr, rfl⟩, rfl⟩, _, _, rfl, h⟩
    rw [hr]
    cases profile with
    | uniform =>
      simp only [bind_ok, operand_ok, expectEnd_ok, pure_ok] at h
      obtain ⟨peak, _, ⟨p, rest, rfl, hpeak, rfl⟩, _, _, ⟨rfl, rfl⟩, _, _, ⟨hend, rfl⟩, rfl,
        rfl⟩ := h
      simp only at hend
      subst hend
      exact ⟨.uniform hpeak, rfl⟩
    | delta =>
      simp only [bind_ok, operand_ok, expectEnd_ok, pure_ok] at h
      obtain ⟨peak, _, ⟨p, _, rfl, hpeak, rfl⟩, xpeak, _, ⟨x, _, rfl, hxpeak, rfl⟩, dc, _,
        ⟨d, _, rfl, hdc, rfl⟩, _, _, ⟨rfl, rfl⟩, _, _, ⟨hend, rfl⟩, rfl, rfl⟩ := h
      simp only at hend
      subst hend
      exact ⟨.delta hpeak hxpeak hdc, rfl⟩
    | gaussian | pulse =>
      simp only [bind_ok, operand_ok, expectEnd_ok, pure_ok] at h
      obtain ⟨peak, _, ⟨p, _, rfl, hpeak, rfl⟩, width, _, ⟨w, _, rfl, hwidth, rfl⟩, xpeak, _,
        ⟨x, _, rfl, hxpeak, rfl⟩, dc, _, ⟨d, _, rfl, hdc, rfl⟩, _, _, ⟨rfl, rfl⟩, _, _, ⟨hend, rfl⟩,
        rfl, rfl⟩ := h
      simp only at hend
      subst hend
      exact ⟨.shaped (by simp) hpeak hwidth hxpeak hdc, rfl⟩
  · rintro ⟨hs, rfl⟩
    generalize hr : desk.cursor.remaining = tokens at hs
    cases hs with
    | uniform hpeak =>
      refine ⟨_, _, ⟨_, ⟨rfl, rfl⟩, rfl⟩, .uniform, _, ⟨_, ⟨_, hr, rfl⟩, rfl⟩, (), _, rfl, ?_⟩
      simp only [bind_ok, operand_ok, expectEnd_ok, pure_ok]
      exact ⟨_, _, ⟨_, _, rfl, hpeak, rfl⟩, _, _, ⟨rfl, rfl⟩, (), _, ⟨rfl, rfl⟩, rfl, rfl⟩
    | delta hpeak hxpeak hdc =>
      refine ⟨_, _, ⟨_, ⟨rfl, rfl⟩, rfl⟩, .delta, _, ⟨_, ⟨_, hr, rfl⟩, rfl⟩, (), _, rfl, ?_⟩
      simp only [bind_ok, operand_ok, expectEnd_ok, pure_ok]
      exact ⟨_, _, ⟨_, _, rfl, hpeak, rfl⟩, _, _, ⟨_, _, rfl, hxpeak, rfl⟩, _, _,
        ⟨_, _, rfl, hdc, rfl⟩, _, _, ⟨rfl, rfl⟩, (), _, ⟨rfl, rfl⟩, rfl, rfl⟩
    | @shaped profile _ _ _ _ _ _ _ _ hprofile hpeak hwidth hxpeak hdc =>
      refine ⟨_, _, ⟨_, ⟨rfl, rfl⟩, rfl⟩, profile, _, ⟨_, ⟨_, hr, rfl⟩, rfl⟩, (), _, rfl, ?_⟩
      rcases hprofile with rfl | rfl <;>
      · simp only [bind_ok, operand_ok, expectEnd_ok, pure_ok]
        exact ⟨_, _, ⟨_, _, rfl, hpeak, rfl⟩, _, _, ⟨_, _, rfl, hwidth, rfl⟩, _, _,
          ⟨_, _, rfl, hxpeak, rfl⟩, _, _, ⟨_, _, rfl, hdc, rfl⟩, _, _, ⟨rfl, rfl⟩, (), _,
          ⟨rfl, rfl⟩, rfl, rfl⟩

/-- A statement that holds a value is loaded exactly when its operands spell one. -/
theorem statement_ok {f : Field} {form : PayloadForm} (hf : f.form? = some form) :
    statement f desk = .ok u desk' ↔ ∃ p, form.Spells desk.cursor.remaining p ∧
      desk' = finished desk (desk.draft.assign f p) := by
  cases f with
  | ioRat | subblocksPerCluster | subblockLutSize =>
    cases hf
    rw [PayloadForm.exists_integer]
    exact integer_ok
  | chanWidthIo | fcOutput | fcInput | fcPad =>
    cases hf
    rw [PayloadForm.exists_real]
    exact real_ok
  | chanWidthX | chanWidthY =>
    cases hf
    rw [PayloadForm.exists_channel]
    simp only [statement, bind_ok, channel_ok, change_ok]
    constructor
    · rintro ⟨c, _, ⟨hs, rfl⟩, rfl⟩
      exact ⟨c, hs, rfl⟩
    · rintro ⟨c, hs, rfl⟩
      exact ⟨c, _, ⟨hs, rfl⟩, rfl⟩
  | fcType =>
    cases hf
    rw [PayloadForm.exists_fcMeasure]
    exact word_ok
  | switchBlockType =>
    cases hf
    rw [PayloadForm.exists_switchBlock]
    exact word_ok
  | outpin | inpin => cases hf

end Loading

end Fabric
