import Fabric.Draft.Basic

/-!
# Loading statements into a draft

Each recognized statement is read from its line and entered into the draft; other lines are
skipped. A statement that cannot be loaded stops the loading, and the draft keeps what was entered
before.
-/

namespace Fabric

/-- The draft being filled and the line being read. -/
structure Desk where
  cursor : Cursor
  draft : Draft

/-- An action on a line and a draft. -/
abbrev Loading := EStateM Failure Desk

namespace Loading

/-- An action on the line only. -/
def onLine {α : Type} (reading : Reading α) : Loading α := fun desk =>
  match reading desk.cursor with
  | .ok a cursor => .ok a { desk with cursor }
  | .error failure cursor => .error failure { desk with cursor }

/-- A change of the draft. -/
def change (f : Draft → Draft) : Loading Unit := fun desk =>
  .ok () { desk with draft := f desk.draft }

/-- A look at the pin tables. -/
def fromTables {α : Type} (f : PinTables → Except Defect α) : Loading α := fun desk =>
  match f desk.draft.tables with
  | .ok a => .ok a desk
  | .error defect => .error (.defect defect) desk

/-- A change of the pin tables. -/
def onTables (f : PinTables → Except Defect PinTables) : Loading Unit := do
  let tables ← fromTables f
  change fun draft => { draft with tables }

/-- Notes in the field log that the line sets the field named by its keyword. -/
def record : Loading Unit := fun desk =>
  .ok () { desk with
    draft.log := desk.draft.log.record desk.cursor.keyword desk.cursor.line.number }

/-- Reads a channel: the profile, then the operands that the profile has. The field counts as set
as soon as the profile is recognized. -/
def channel : Loading (Channel Binary64) := do
  let keyword ← onLine Cursor.getKeyword
  let profile ← onLine
    (Scalar.word Profile (some (keyword ++ " distribution")) .unknownDistribution)
  record
  let channel ← match profile with
    | .uniform => do
      let peak ← onLine (Scalar.real .uniformPeak "peak")
      pure { profile, peak, width := .zero, xpeak := .zero, dc := .zero : Channel Binary64 }
    | .delta => do
      let peak ← onLine (Scalar.real .deltaPeak "peak")
      let xpeak ← onLine (Scalar.real .fraction "xpeak")
      let dc ← onLine (Scalar.real .fraction "dc")
      pure { profile, peak, width := .zero, xpeak, dc }
    | .gaussian | .pulse => do
      let peak ← onLine (Scalar.real .shapedPeak "peak")
      let width ← onLine (Scalar.real .channelWidth "width")
      let xpeak ← onLine (Scalar.real .fraction "xpeak")
      let dc ← onLine (Scalar.real .fraction "dc")
      pure { profile, peak, width, xpeak, dc }
  onLine Cursor.expectEnd
  return channel

/-- Opens a class with the direction of its first pin; a later pin must agree with it. -/
def checkDirection (classId : Nat) (direction : Direction) : Loading Unit := do
  match ← fromTables (·.direction classId) with
  | none => onTables (·.setDirection classId direction)
  | some recorded =>
    if recorded ≠ direction then onLine (Cursor.fail (.mixedDirections classId))

/-- The index of the next pin. -/
def nextPin : Loading Nat := fun desk => .ok desk.draft.nextPin desk

/-- Reads the sides of a pin, at least one. -/
def sides (pin : Nat) : Loading Unit := do
  if (← onLine Cursor.peek).isNone then onLine (Cursor.fail (.noLocation pin))
  let remaining ← onLine Cursor.getRemaining
  remaining.forM fun token => do
    let side ← onLine (Scalar.side token)
    onTables (·.addSide pin side)
  onLine Cursor.skipRest

/-- Loads a pin statement. The index of the pin is its place among all pin statements. -/
def pin (direction : Direction) : Loading Unit := do
  let pin ← nextPin
  let classId ← onLine Scalar.classId
  checkDirection classId direction
  onTables (·.addMember classId pin)
  onTables (·.setClass pin classId)
  sides pin
  change fun draft => { draft with nextPin := pin + 1 }
  record

/-- Loads a statement whose payload is one integer above zero. -/
def integer (set : Int → Draft → Draft) : Loading Unit := do
  let value ← onLine Scalar.positiveInteger
  change (set value)
  record

/-- Loads a statement whose payload is one word of a vocabulary. -/
def word (α : Type) [Vocabulary α] (set : α → Draft → Draft) : Loading Unit := do
  let value ← onLine (Scalar.wordStatement α)
  change (set value)
  record

/-- Loads a statement whose payload is one real value within bounds. -/
def real (bounds : Bounds) (set : Binary64 → Draft → Draft) : Loading Unit := do
  let value ← onLine (Scalar.real bounds none)
  change (set value)
  onLine Cursor.expectEnd
  record

/-- Loads the statement of a field. -/
def statement : Field → Loading Unit
  | .ioRat => integer fun value draft => { draft with ioRat := some value }
  | .chanWidthX => do
    let channel ← channel
    change fun draft => { draft with chanX := some channel }
  | .chanWidthY => do
    let channel ← channel
    change fun draft => { draft with chanY := some channel }
  | .chanWidthIo => real .chanWidthIo fun value draft => { draft with chanWidthIo := some value }
  | .outpin => pin .driver
  | .inpin => pin .receiver
  | .subblocksPerCluster =>
    integer fun value draft => { draft with subblocksPerCluster := some value }
  | .subblockLutSize => integer fun value draft => { draft with subblockLutSize := some value }
  | .fcOutput => real .fc fun value draft => { draft with fcOutput := some value }
  | .fcInput => real .fc fun value draft => { draft with fcInput := some value }
  | .fcPad => real .fc fun value draft => { draft with fcPad := some value }
  | .fcType => word FcMeasure fun value draft => { draft with fcMeasure := some value }
  | .switchBlockType => word SwitchBlock fun value draft => { draft with switchBlock := some value }

end Loading

/-- Enters a line into a draft; a line whose keyword is unknown changes nothing. -/
def Draft.enter (draft : Draft) (line : LogicalLine) : EStateM.Result Failure Draft Unit :=
  match Vocabulary.find? (α := Field) line.keyword with
  | none => .ok () draft
  | some field =>
    match Loading.statement field { cursor := line.cursor draft.source, draft } with
    | .ok _ desk => .ok () desk.draft
    | .error failure desk => .error failure desk.draft

/-- The draft after entering lines, and where entering stopped if it did. -/
structure Draft.Entered where
  draft : Draft
  halt : Option Halt := none

/-- Enters lines in order, up to the first that fails. -/
def Draft.enterAll (draft : Draft) : List LogicalLine → Draft.Entered
  | [] => { draft }
  | line :: rest =>
    match draft.enter line with
    | .ok _ draft => draft.enterAll rest
    | .error failure draft => { draft, halt := some ⟨failure, line.number⟩ }

/-- Loads a whole text into a draft. The stream is left at the end, or just after the statement that
could not be loaded. -/
def Stream.load (s : Stream) (census : Census) : Draft.Entered × Stream :=
  let entered := (Draft.start s.source census).enterAll s.rewind.logicalLines
  (entered, match entered.halt with
    | some halt => s.seek halt.lineNumber
    | none => s.seekEnd)

end Fabric
