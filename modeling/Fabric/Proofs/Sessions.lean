import Fabric.Proofs.Consuming
import Fabric.Proofs.Run
import Fabric.Proofs.Tokenizing

/-!
# A stream and its cursor, step by step

A session takes steps on one stream and on the cursor of the line that was taken last, of which any
may fail. Whatever came before, the stream is where taking some logical lines from its start leaves
it (`Stream.Reached`): a census or a load that stops halfway has taken the lines up to the one that
stopped it. So a stream never counts other lines than it took, and what a census or a load gives
does not depend on its past (`session_sound`).
-/

namespace Fabric

/-! ## Places of a stream -/

namespace LogicalLine

/-- The physical lines taken for the first logical line, whose number is that of the last one. -/
theorem next?_takes (pending : List String) (number : Nat) (raws : List (List Char)) :
    ∃ taken, raws = taken ++ (next? pending number raws).2.2 ∧
      (next? pending number raws).2.1 = number + taken.length ∧
      ∀ line, (next? pending number raws).1 = some line →
        line.number = (next? pending number raws).2.1 := by
  induction raws generalizing pending number with
  | nil =>
    refine ⟨[], rfl, rfl, fun line h => ?_⟩
    cases pending with
    | nil => cases h
    | cons keyword operands =>
      cases h
      rfl
  | cons raw rest ih =>
    -- What is taken on the rest, the line before it is taken with.
    have hcons : ∀ {pending' : List String}, ∃ taken,
        raw :: rest = taken ++ (next? pending' (number + 1) rest).2.2 ∧
          (next? pending' (number + 1) rest).2.1 = number + taken.length ∧
          ∀ line, (next? pending' (number + 1) rest).1 = some line →
            line.number = (next? pending' (number + 1) rest).2.1 := by
      intro pending'
      obtain ⟨taken, hrest, hnumber, hline⟩ := ih pending' (number + 1)
      refine ⟨raw :: taken, congrArg (raw :: ·) hrest, ?_, hline⟩
      rw [hnumber, List.length_cons]
      omega
    unfold next?
    dsimp only
    split
    · exact hcons
    · split
      · rename_i line hline
        refine ⟨[raw], rfl, rfl, fun line' h => ?_⟩
        cases h
        cases hall : pending ++ tokens raw with
        | nil =>
          rw [hall] at hline
          cases hline
        | cons keyword operands =>
          rw [hall] at hline
          cases hline
          rfl
      · exact hcons

end LogicalLine

namespace Stream

variable {s t : Stream} {line : LogicalLine}

/-- The stream counts the physical lines before its place. -/
def Placed (s : Stream) : Prop :=
  ∃ taken, s.lines = taken ++ s.unread ∧ s.lineNumber = taken.length

/-- The stream after some steps to the next logical line. -/
def advance (s : Stream) (n : Nat) : Stream := (fun s : Stream => s.next.2)^[n] s

/-- The stream is where some steps to the next logical line leave it from the start. -/
def Reached (s : Stream) : Prop := ∃ n, s = s.rewind.advance n

theorem placed_rewind (s : Stream) : s.rewind.Placed := ⟨[], rfl, rfl⟩

theorem Placed.eq_seek (h : s.Placed) : s = s.seek s.lineNumber := by
  obtain ⟨taken, hlines, hnumber⟩ := h
  have hunread : s.unread = s.lines.drop s.lineNumber := by
    rw [hlines, hnumber, List.drop_left]
  unfold seek
  rw [← hunread]

theorem Placed.le (h : s.Placed) : s.lineNumber ≤ s.lines.length := by
  obtain ⟨taken, hlines, hnumber⟩ := h
  rw [hlines, hnumber, List.length_append]
  exact Nat.le_add_right ..

theorem Placed.next (h : s.Placed) : s.next.2.Placed := by
  obtain ⟨taken, hlines, hnumber⟩ := h
  obtain ⟨more, hrest, hcount, -⟩ := LogicalLine.next?_takes [] s.lineNumber s.unread
  refine ⟨taken ++ more, ?_, ?_⟩
  · change s.lines = taken ++ more ++ (LogicalLine.next? [] s.lineNumber s.unread).2.2
    rw [List.append_assoc, ← hrest]
    exact hlines
  · change (LogicalLine.next? [] s.lineNumber s.unread).2.1 = _
    rw [hcount, hnumber, List.length_append]

theorem number_of_next (h : s.next = (some line, t)) : line.number = t.lineNumber := by
  obtain ⟨-, -, -, hline⟩ := LogicalLine.next?_takes [] s.lineNumber s.unread
  have hsome : (LogicalLine.next? [] s.lineNumber s.unread).1 = some line := congrArg Prod.fst h
  have hnumber : (LogicalLine.next? [] s.lineNumber s.unread).2.1 = t.lineNumber :=
    congrArg (fun r => r.2.lineNumber) h
  exact (hline line hsome).trans hnumber

/-- What is taken next is the first logical line that is left. -/
theorem next_cons {rest : List LogicalLine} (h : s.logicalLines = line :: rest) :
    ∃ t, s.next = (some line, t) ∧ t.logicalLines = rest := by
  cases hnext : s.next with
  | mk line? t =>
    cases line? with
    | none => cases h.symm.trans (next_eq_none hnext).1
    | some first =>
      obtain ⟨rfl, hrest⟩ := List.cons.inj (h.symm.trans (next_eq_some hnext).1)
      exact ⟨t, rfl, hrest.symm⟩

theorem next_nil (h : s.logicalLines = []) : ∃ t, s.next = (none, t) ∧ t.unread = [] := by
  cases hnext : s.next with
  | mk line? t =>
    cases line? with
    | none => exact ⟨t, rfl, congrArg unread (next_eq_none hnext).2⟩
    | some line => cases h.symm.trans (next_eq_some hnext).1

theorem advance_succ (s : Stream) (n : Nat) : s.advance (n + 1) = (s.advance n).next.2 :=
  Function.iterate_succ_apply' _ n s

theorem Placed.advance (h : s.Placed) (n : Nat) : (s.advance n).Placed := by
  induction n with
  | zero => exact h
  | succ n ih =>
    rw [advance_succ]
    exact ih.next

theorem seek_advance (s : Stream) (n k : Nat) : (s.advance n).seek k = s.seek k := by
  induction n with
  | zero => rfl
  | succ n ih =>
    rw [advance_succ]
    exact ih

theorem seekEnd_advance (s : Stream) (n : Nat) : (s.advance n).seekEnd = s.seekEnd := by
  induction n with
  | zero => rfl
  | succ n ih =>
    rw [advance_succ]
    exact ih

theorem logicalLines_advance {before rest : List LogicalLine}
    (h : s.logicalLines = before ++ rest) : (s.advance before.length).logicalLines = rest := by
  induction before generalizing s with
  | nil => exact h
  | cons first before ih =>
    obtain ⟨t, hnext, hrest⟩ := next_cons h
    have hstep : s.advance (first :: before).length = t.advance before.length := by
      change (s.next.2).advance before.length = _
      rw [hnext]
    rw [hstep]
    exact ih hrest

/-- Steps to the next logical line lead just after any logical line that is left. -/
theorem Placed.advance_line (hplaced : s.Placed) {before after : List LogicalLine}
    (h : s.logicalLines = before ++ line :: after) :
    s.advance (before.length + 1) = s.seek line.number := by
  obtain ⟨t, hnext, -⟩ := next_cons (logicalLines_advance h)
  have hadvance : s.advance (before.length + 1) = t := by
    rw [advance_succ, hnext]
  have hplaced' : t.Placed := hadvance ▸ hplaced.advance _
  rw [number_of_next hnext, ← seek_advance s (before.length + 1), hadvance]
  exact hplaced'.eq_seek

theorem Placed.eq_seekEnd (h : s.Placed) (hunread : s.unread = []) : s = s.seekEnd := by
  obtain ⟨taken, hlines, hnumber⟩ := h
  have hlength : s.lineNumber = s.lines.length := by
    rw [hlines, hunread, List.append_nil, hnumber]
  refine (Placed.eq_seek ⟨taken, hlines, hnumber⟩).trans ?_
  rw [hlength]
  rfl

/-- One more step than there are logical lines leads to the end. -/
theorem Placed.advance_end (hplaced : s.Placed) :
    s.advance (s.logicalLines.length + 1) = s.seekEnd := by
  obtain ⟨t, hnext, hunread⟩ := next_nil (logicalLines_advance (List.append_nil _).symm)
  have hadvance : s.advance (s.logicalLines.length + 1) = t := by
    rw [advance_succ, hnext]
  have hplaced' : t.Placed := hadvance ▸ hplaced.advance _
  rw [← seekEnd_advance s (s.logicalLines.length + 1), hadvance]
  exact hplaced'.eq_seekEnd hunread

theorem next_seekEnd (s : Stream) : s.seekEnd.next.1 = none := by
  have hunread : s.seekEnd.unread = [] := List.drop_length
  unfold next
  rw [hunread]
  rfl

/-- Steps to the next logical line leave some of the logical lines. -/
theorem logicalLines_next (s : Stream) : s.next.2.logicalLines <:+ s.logicalLines := by
  cases hnext : s.next with
  | mk line? t =>
    cases line? with
    | none =>
      have hempty : t.logicalLines = [] := by
        rw [(next_eq_none hnext).2]
        rfl
      rw [hempty]
      exact List.nil_suffix
    | some line =>
      rw [(next_eq_some hnext).1]
      exact List.suffix_cons ..

/-! ## Where a stream can be -/

theorem reached_rewind (s : Stream) : s.rewind.Reached := ⟨0, rfl⟩

theorem Reached.next (h : s.Reached) : s.next.2.Reached := by
  obtain ⟨n, hn⟩ := h
  refine ⟨n + 1, ?_⟩
  change s.next.2 = s.rewind.advance (n + 1)
  rw [advance_succ, ← hn]

/-- What all places that are reached from the start have, the start has and each step keeps. -/
theorem Reached.induct {P : Stream → Prop} (h : s.Reached) (hstart : P s.rewind)
    (hnext : ∀ t : Stream, P t → P t.next.2) : P s := by
  obtain ⟨n, hn⟩ := h
  rw [hn]
  clear hn
  induction n with
  | zero => exact hstart
  | succ n ih =>
    rw [advance_succ]
    exact hnext _ ih

theorem Reached.placed (h : s.Reached) : s.Placed :=
  h.induct s.placed_rewind fun _ => Placed.next

theorem Reached.logicalLines (h : s.Reached) : s.logicalLines <:+ s.rewind.logicalLines :=
  h.induct (P := fun t => t.logicalLines <:+ s.rewind.logicalLines) List.suffix_rfl
    fun t ht => t.logicalLines_next.trans ht

theorem reached_line (h : line ∈ s.rewind.logicalLines) : (s.seek line.number).Reached := by
  obtain ⟨before, after, hsplit⟩ := List.append_of_mem h
  exact ⟨before.length + 1, ((s.placed_rewind).advance_line hsplit).symm⟩

theorem reached_end (s : Stream) : s.seekEnd.Reached :=
  ⟨_, ((s.placed_rewind).advance_end).symm⟩

end Stream

/-! ## Where a census or a load stops -/

theorem Census.citedClasses_halt {source : String} {lines : List LogicalLine} {halt : Halt}
    (h : citedClasses source lines = .error halt) :
    ∃ line ∈ lines, halt.lineNumber = line.number := by
  induction lines with
  | nil => cases h
  | cons line lines ih =>
    unfold citedClasses at h
    split at h
    · split at h
      · cases hrest : citedClasses source lines with
        | ok cited =>
          rw [hrest] at h
          cases h
        | error halt' =>
          rw [hrest] at h
          cases h
          obtain ⟨line', hmem, hnumber⟩ := ih hrest
          exact ⟨line', List.mem_cons_of_mem _ hmem, hnumber⟩
      · cases h
        exact ⟨line, List.mem_cons_self, rfl⟩
    · obtain ⟨line', hmem, hnumber⟩ := ih h
      exact ⟨line', List.mem_cons_of_mem _ hmem, hnumber⟩

theorem Draft.halt_lineNumber {d : Draft} {lines : List LogicalLine} {halt : Halt}
    (h : (d.enterAll lines).halt = some halt) : ∃ line ∈ lines, halt.lineNumber = line.number := by
  induction lines generalizing d with
  | nil => cases h
  | cons line lines ih =>
    unfold enterAll at h
    split at h
    · obtain ⟨line', hmem, hnumber⟩ := ih h
      exact ⟨line', List.mem_cons_of_mem _ hmem, hnumber⟩
    · cases h
      exact ⟨line, List.mem_cons_self, rfl⟩

namespace Stream

variable {s : Stream}

/-- A census starts from the first line. -/
theorem discover_rewind (s : Stream) : s.discover = s.rewind.discover := rfl

/-- A load starts from the first line. -/
theorem load_rewind (s : Stream) (census : Census) : s.load census = s.rewind.load census := rfl

theorem reached_discover (s : Stream) : s.discover.2.Reached := by
  unfold discover
  dsimp only
  split
  · rename_i halt hhalt
    obtain ⟨line, hmem, hnumber⟩ := Census.citedClasses_halt hhalt
    rw [hnumber]
    exact reached_line hmem
  · exact s.reached_end

theorem reached_load (s : Stream) (census : Census) : (s.load census).2.Reached := by
  unfold load
  dsimp only
  split
  · rename_i halt hhalt
    obtain ⟨line, hmem, hnumber⟩ := Draft.halt_lineNumber hhalt
    rw [hnumber]
    exact reached_line hmem
  · exact s.reached_end

theorem next_discover {census : Census} (h : s.discover.1 = .ok census) :
    s.discover.2.next.1 = none := by
  unfold discover at h ⊢
  dsimp only at h ⊢
  split at h
  · cases h
  · exact s.next_seekEnd

theorem next_load {census : Census} (h : (s.load census).1.halt = none) :
    (s.load census).2.next.1 = none := by
  unfold load at h ⊢
  dsimp only at h ⊢
  rw [h]
  exact s.next_seekEnd

theorem rewind_discover (s : Stream) : s.discover.2.rewind = s.rewind := by
  unfold discover
  dsimp only
  split <;> rfl

theorem rewind_load (s : Stream) (census : Census) : (s.load census).2.rewind = s.rewind := by
  unfold load
  dsimp only
  split <;> rfl

end Stream

/-! ## Sessions -/

/-- A stream with the cursor of the line that was taken last, if there was one. -/
structure Session where
  stream : Stream
  cursor : Option Cursor

namespace Session

/-- A step on the stream of a session, or an action on its cursor. -/
inductive Step : Type 1 where
  | next
  | rewind
  | discover
  | load (census : Census)
  | act (action : CursorAction)

def start (text source : String) : Session := ⟨.ofText text source, none⟩

/-- The session after a step, whether it succeeded or failed. Without a cursor, an action on one
does nothing. -/
def step (s : Session) : Step → Session
  | .next =>
    { stream := s.stream.next.2
      cursor := s.stream.next.1.map (·.cursor s.stream.source) }
  | .rewind => { s with stream := s.stream.rewind }
  | .discover => { s with stream := s.stream.discover.2 }
  | .load census => { s with stream := (s.stream.load census).2 }
  | .act action => { s with cursor := s.cursor.map action.after }

def run (s : Session) (steps : List Step) : Session := steps.foldl step s

variable {text source : String} {s : Session}

/-- What each step keeps: the stream is where reading the text from its start can lead, and the
cursor is on one of its lines, of which it has passed some operands. -/
structure OnText (text source : String) (s : Session) : Prop where
  reached : s.stream.Reached
  rewind : s.stream.rewind = .ofText text source
  cursor : ∀ c, s.cursor = some c → c.source = source ∧
    c.line ∈ (Stream.ofText text source).logicalLines ∧ c.remaining <:+ c.line.operands

theorem onText_start (text source : String) : (start text source).OnText text source where
  reached := (Stream.ofText text source).reached_rewind
  rewind := rfl
  cursor c h := by cases h

/-- A line that is taken is one of the text. -/
theorem OnText.mem (h : s.OnText text source) {line : LogicalLine}
    (hnext : s.stream.next.1 = some line) :
    line ∈ (Stream.ofText text source).logicalLines := by
  rw [← h.rewind]
  refine h.reached.logicalLines.mem ?_
  cases hresult : s.stream.next with
  | mk line? t =>
    rw [hresult] at hnext
    obtain rfl : line? = some line := hnext
    rw [(Stream.next_eq_some hresult).1]
    exact List.mem_cons_self

theorem OnText.source_eq (h : s.OnText text source) : s.stream.source = source :=
  congrArg Stream.source h.rewind

theorem OnText.step (h : s.OnText text source) (step : Step) :
    (s.step step).OnText text source := by
  cases step with
  | next =>
    refine ⟨h.reached.next, h.rewind, fun c hc => ?_⟩
    obtain ⟨line, hline, rfl⟩ := Option.map_eq_some_iff.1 hc
    exact ⟨h.source_eq, h.mem hline, List.suffix_rfl⟩
  | rewind => exact ⟨s.stream.reached_rewind, h.rewind, h.cursor⟩
  | discover =>
    exact ⟨s.stream.reached_discover, s.stream.rewind_discover.trans h.rewind, h.cursor⟩
  | load census =>
    exact ⟨s.stream.reached_load census, (s.stream.rewind_load census).trans h.rewind, h.cursor⟩
  | act action =>
    refine ⟨h.reached, h.rewind, fun c hc => ?_⟩
    obtain ⟨c₀, hc₀, rfl⟩ := Option.map_eq_some_iff.1 hc
    obtain ⟨hsource, hline, hsuffix⟩ := h.cursor c₀ hc₀
    have hadvance := action.advance_after c₀
    rw [hadvance.source, hadvance.line]
    exact ⟨hsource, hline, hadvance.suffix.trans hsuffix⟩

theorem onText_run (text source : String) (steps : List Step) :
    ((start text source).run steps).OnText text source := by
  induction steps using List.reverseRecOn with
  | nil => exact onText_start text source
  | append_singleton steps step ih =>
    unfold run at ih ⊢
    rw [List.foldl_append]
    exact ih.step step

/-- What holds of a session on a text at any time. -/
structure Sound (text source : String) (s : Session) : Prop where
  /-- The stream counts the physical lines that were taken. -/
  counted : ∃ taken, Text.physicalLines text.toList = taken ++ s.stream.unread ∧
    s.stream.lineNumber = taken.length
  within : s.stream.lineNumber ≤ (Text.physicalLines text.toList).length
  /-- The stream is where taking some logical lines from the start leads. -/
  reached : ∃ n, s.stream = (Stream.ofText text source).advance n
  rewound : (s.step .rewind).stream = .ofText text source
  /-- Taking a line takes the physical lines of it and of what is empty before it. -/
  took : ∃ more, s.stream.unread = more ++ (s.step .next).stream.unread ∧
    (s.step .next).stream.lineNumber = s.stream.lineNumber + more.length
  /-- A census is that of a fresh stream. -/
  discover : s.stream.discover = (Stream.ofText text source).discover
  /-- A load is that of a fresh stream. -/
  load : ∀ census, s.stream.load census = (Stream.ofText text source).load census
  discovered : ∀ census, s.stream.discover.1 = .ok census →
    (s.step .discover).stream.next.1 = none
  loaded : ∀ census, (s.stream.load census).1.halt = none →
    (s.step (.load census)).stream.next.1 = none
  /-- The cursor is on a line of the text and has operands at the end of it left. -/
  cursor : ∀ c, s.cursor = some c → c.source = source ∧
    c.line ∈ (Stream.ofText text source).logicalLines ∧ c.remaining <:+ c.line.operands
  /-- Taking a line replaces the cursor. -/
  replaced : (s.step .next).cursor = s.stream.next.1.map (·.cursor source)
  /-- Nothing else on the stream changes the cursor. -/
  kept : (s.step .rewind).cursor = s.cursor ∧ (s.step .discover).cursor = s.cursor ∧
    ∀ census, (s.step (.load census)).cursor = s.cursor
  /-- An action on the cursor changes nothing else. -/
  acted : ∀ c action, s.cursor = some c →
    s.step (.act action) = ⟨s.stream, some (action.after c)⟩ ∧ action.Effect c

theorem OnText.sound (h : s.OnText text source) : s.Sound text source where
  counted := by
    obtain ⟨taken, hlines, hnumber⟩ := h.reached.placed
    exact ⟨taken, (congrArg Stream.lines h.rewind).symm.trans hlines, hnumber⟩
  within := by
    have hlines : s.stream.lines = Text.physicalLines text.toList :=
      congrArg Stream.lines h.rewind
    rw [← hlines]
    exact h.reached.placed.le
  reached := by
    obtain ⟨n, hn⟩ := h.reached
    exact ⟨n, h.rewind ▸ hn⟩
  rewound := h.rewind
  took := by
    obtain ⟨more, hrest, hcount, -⟩ :=
      LogicalLine.next?_takes [] s.stream.lineNumber s.stream.unread
    exact ⟨more, hrest, hcount⟩
  discover := by
    rw [Stream.discover_rewind, h.rewind]
  load census := by
    rw [Stream.load_rewind, h.rewind]
  discovered _ hok := Stream.next_discover hok
  loaded _ hok := Stream.next_load hok
  cursor := h.cursor
  replaced := by
    rw [← h.source_eq]
    rfl
  kept := ⟨rfl, rfl, fun _ => rfl⟩
  acted c action hc := by
    refine ⟨?_, action.effect c⟩
    change (⟨s.stream, s.cursor.map action.after⟩ : Session) = _
    rw [hc]
    rfl

end Session

/-- Whatever steps are taken on a stream and its cursor, the stream counts what it took, a census or
a load is that of a fresh stream, and only actions on the cursor take operands off it. -/
theorem session_sound (text source : String) (steps : List Session.Step) :
    ((Session.start text source).run steps).Sound text source :=
  (Session.onText_run text source steps).sound

end Fabric
