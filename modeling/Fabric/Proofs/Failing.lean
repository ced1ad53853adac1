import Fabric.Proofs.Numerals
import Fabric.Proofs.Problems
import Fabric.Proofs.Stopping

/-!
# Which fault a statement is reported with

A reader meets the problems of operands in the order in which the grammar lists them, so it fails
with the fault of the problem that they have (`Loading.statement_fails`). A pin statement that finds
room fails with a mixed direction, else with the lack of a side, else with the first side that is
none (`Loading.pin_fails_direction`, `Loading.pin_fails_sides`). Together: after lines that were
entered, the line that has a problem is reported with it (`Draft.Holds.enter_fails`). Every such
problem can be worded, as the integers in it were read from tokens or count pins
(`LogicalLine.Faulty.wordable`).
-/

namespace Fabric

/-! ## Actions that fail -/

section Actions

variable {ε σ α β : Type} {m : EStateM ε σ α} {f : α → EStateM ε σ β} {s s' : σ} {a : α} {e : ε}

/-- An action fails in a state. -/
def Fails (m : EStateM ε σ α) (s : σ) (e : ε) : Prop := ∃ s', m s = .error e s'

theorem Fails.bind (h : Fails m s e) : Fails (m >>= f) s e := by
  obtain ⟨s', h⟩ := h
  exact ⟨s', bind_error.2 (.inl h)⟩

/-- A sequence fails where its first part succeeds and its second part fails. -/
theorem Fails.of_ok (hm : m s = .ok a s') (h : Fails (f a) s' e) : Fails (m >>= f) s e := by
  obtain ⟨s'', h⟩ := h
  exact ⟨s'', bind_error.2 (.inr ⟨a, s', hm, h⟩)⟩

end Actions

/-! ## Readings -/

namespace Cursor

variable {α β : Type} {c : Cursor} {e : Failure}

/-- The failure with which a problem of the line is reported. -/
def failure (c : Cursor) (p : Problem) : Failure := .ofFault (c.fault p)

theorem fails_fail (p : Problem) : Fails (fail p : Reading α) c (c.failure p) := ⟨c, rfl⟩

theorem fails_take {what : String} (h : c.remaining = []) :
    Fails (take what) c (c.failure (.missingValue what)) := by
  refine ⟨c, ?_⟩
  unfold take
  rw [h]
  rfl

theorem fails_expectEnd (h : c.remaining ≠ []) :
    Fails expectEnd c (c.failure (.trailingTokens c.remaining)) := by
  refine ⟨c, ?_⟩
  unfold expectEnd
  rw [if_neg (by simpa using h)]
  rfl

variable {p : Prop} [Decidable p] {problem : Problem} {k : α → Reading β} {r : Reading β}

theorem fails_guard (h : p) :
    Fails (if p then fail problem >>= k else r) c (c.failure problem) := by
  rw [if_pos h]
  exact (fails_fail problem).bind

theorem fails_after_guard (h : ¬ p) (hr : Fails r c e) :
    Fails (if p then fail problem >>= k else r) c e := by
  rwa [if_neg h]

end Cursor

namespace Scalar

open Cursor

variable {c : Cursor} {what token : String} {p : Problem}

theorem fails_toInteger (h : Numeral.read? token = none) :
    Fails (toInteger what token) c (c.failure (.notAnInteger what token)) := by
  unfold toInteger
  rw [h]
  exact fails_fail _

theorem fails_toReal (h : readReal? token = none) :
    Fails (toReal what token) c (c.failure (.notANumber what token)) := by
  unfold toReal
  rw [← readReal?, h]
  exact fails_fail _

theorem positiveInteger_fails (h : BadInteger c.keyword c.remaining p) :
    Fails positiveInteger c (c.failure p) := by
  refine .of_ok (getKeyword_ok.2 ⟨rfl, rfl⟩) ?_
  generalize hr : c.remaining = tokens at h
  cases h with
  | missing => exact (fails_take hr).bind
  | notAnInteger hread =>
    refine .of_ok (take_ok.2 ⟨_, hr, rfl⟩) ?_
    exact (fails_toInteger hread).bind
  | notPositive hread hle =>
    refine .of_ok (take_ok.2 ⟨_, hr, rfl⟩) (.of_ok (toInteger_ok.2 ⟨hread, rfl⟩) ?_)
    exact fails_guard hle
  | trailing hread hpos hextra =>
    refine .of_ok (take_ok.2 ⟨_, hr, rfl⟩) (.of_ok (toInteger_ok.2 ⟨hread, rfl⟩) ?_)
    exact fails_after_guard (not_le.2 hpos) (fails_expectEnd hextra).bind

/-- A real operand that is not there or not within its bounds. -/
theorem real_fails {name : Option String} {b : Bounds}
    (h : BadReal (name.getD c.keyword) b c.remaining p) : Fails (real b name) c (c.failure p) := by
  refine .of_ok (getKeyword_ok.2 ⟨rfl, rfl⟩) ?_
  generalize hr : c.remaining = tokens at h
  cases h with
  | missing => exact (fails_take hr).bind
  | notANumber hread =>
    refine .of_ok (take_ok.2 ⟨_, hr, rfl⟩) ?_
    exact (fails_toReal hread).bind
  | outside hread hout =>
    refine .of_ok (take_ok.2 ⟨_, hr, rfl⟩) (.of_ok (toReal_ok.2 ⟨hread, rfl⟩) ?_)
    exact fails_guard (by simp [hout])

section Words

variable {α : Type} [Vocabulary α] {name : Option String}
  {problem : String → String → List String → Problem}

theorem fails_word_missing (h : c.remaining = []) :
    Fails (word α name problem) c (c.failure (.missingValue (name.getD c.keyword))) :=
  .of_ok (getKeyword_ok.2 ⟨rfl, rfl⟩) (fails_take h).bind

variable [Vocabulary.Lawful α]

theorem fails_word_unknown {rest : List String} (hr : c.remaining = token :: rest)
    (h : ∀ a : α, token ≠ Vocabulary.word a) : Fails (word α name problem) c
      (c.failure (problem (name.getD c.keyword) token (Vocabulary.words α))) := by
  refine .of_ok (getKeyword_ok.2 ⟨rfl, rfl⟩) (.of_ok (take_ok.2 ⟨_, hr, rfl⟩) ?_)
  rw [Vocabulary.find?_eq_none.2 h]
  exact fails_fail _

theorem wordStatement_fails (h : BadWord α c.keyword c.remaining p) :
    Fails (wordStatement α) c (c.failure p) := by
  generalize hr : c.remaining = tokens at h
  cases h with
  | missing => exact (fails_word_missing hr).bind
  | unknown hne => exact (fails_word_unknown hr hne).bind
  | trailing a hextra =>
    refine .of_ok (word_ok.2 ⟨_, hr, rfl⟩) ?_
    exact (fails_expectEnd hextra).bind

end Words

theorem classId_fails (h : BadClassPart c.remaining p) : Fails classId c (c.failure p) := by
  generalize hr : c.remaining = tokens at h
  cases h with
  | noMarker => exact (fails_take hr).bind
  | otherMarker hne =>
    refine .of_ok (take_ok.2 ⟨_, hr, rfl⟩) ?_
    exact fails_guard hne
  | noNumber =>
    refine .of_ok (take_ok.2 ⟨_, hr, rfl⟩) (fails_after_guard (not_not.2 rfl) ?_)
    exact (fails_take rfl).bind
  | notAnInteger hread =>
    refine .of_ok (take_ok.2 ⟨_, hr, rfl⟩) (fails_after_guard (not_not.2 rfl) ?_)
    refine .of_ok (take_ok.2 ⟨_, rfl, rfl⟩) ?_
    exact (fails_toInteger hread).bind
  | negative hread hneg =>
    refine .of_ok (take_ok.2 ⟨_, hr, rfl⟩) (fails_after_guard (not_not.2 rfl) ?_)
    refine .of_ok (take_ok.2 ⟨_, rfl, rfl⟩) (.of_ok (toInteger_ok.2 ⟨hread, rfl⟩) ?_)
    exact fails_guard hneg

theorem fails_side (h : ∀ side : Side, token ≠ Vocabulary.word side) :
    Fails (side token) c (c.failure (.badSide token)) := by
  unfold side
  rw [Vocabulary.find?_eq_none.2 h]
  exact fails_fail _

end Scalar

/-! ## Statements that hold a value -/

namespace Loading

variable {α : Type} {desk : Desk} {e : Failure} {p : Problem}

theorem fails_onLine {r : Reading α} (h : Fails r desk.cursor e) : Fails (onLine r) desk e := by
  obtain ⟨c, h⟩ := h
  refine ⟨{ desk with cursor := c }, ?_⟩
  unfold onLine
  rw [h]

theorem integer_fails {set : Int → Draft → Draft}
    (h : BadInteger desk.cursor.keyword desk.cursor.remaining p) :
    Fails (integer set) desk (desk.cursor.failure p) :=
  (fails_onLine (Scalar.positiveInteger_fails h)).bind

theorem word_fails {α : Type} [Vocabulary α] [Vocabulary.Lawful α] {set : α → Draft → Draft}
    (h : BadWord α desk.cursor.keyword desk.cursor.remaining p) :
    Fails (word α set) desk (desk.cursor.failure p) :=
  (fails_onLine (Scalar.wordStatement_fails h)).bind

/-- Reading the first of some operands that are bad: it fails, or the others are bad. -/
theorem operand_fails {name : Option String} {b : Bounds} {expected : List (String × Bounds)}
    {f : Binary64 → Loading α}
    (h : BadReals ((name.getD desk.cursor.keyword, b) :: expected) desk.cursor.remaining p)
    (hf : ∀ x rest, BadReals expected rest p →
      Fails (f x) { desk with cursor.remaining := rest } (desk.cursor.failure p)) :
    Fails (onLine (Scalar.real b name) >>= f) desk (desk.cursor.failure p) := by
  generalize hr : desk.cursor.remaining = tokens at h
  cases h with
  | first h =>
    subst hr
    exact (fails_onLine (Scalar.real_fails h)).bind
  | later hx h => exact .of_ok (operand_ok.2 ⟨_, _, hr, hx, rfl⟩) (hf _ _ h)

/-- No operand is left to read, and yet there are some. -/
theorem fails_expectEnd (h : BadReals [] desk.cursor.remaining p) :
    Fails (onLine Cursor.expectEnd) desk (desk.cursor.failure p) := by
  generalize hr : desk.cursor.remaining = tokens at h
  cases h with
  | trailing hextra =>
    subst hr
    exact fails_onLine (Cursor.fails_expectEnd hextra)

theorem real_fails {b : Bounds} {set : Binary64 → Draft → Draft}
    (h : BadReals [(desk.cursor.keyword, b)] desk.cursor.remaining p) :
    Fails (real b set) desk (desk.cursor.failure p) := by
  refine operand_fails h fun x rest hrest => ?_
  refine .of_ok (a := ()) (change_ok.2 rfl) ?_
  exact (fails_expectEnd hrest).bind

theorem channel_fails (h : BadChannel desk.cursor.keyword desk.cursor.remaining p) :
    Fails channel desk (desk.cursor.failure p) := by
  refine .of_ok (onLine_ok.2 ⟨_, Cursor.getKeyword_ok.2 ⟨rfl, rfl⟩, rfl⟩) ?_
  generalize hr : desk.cursor.remaining = tokens at h
  cases h with
  | missing => exact (fails_onLine (Scalar.fails_word_missing hr)).bind
  | unknown hne => exact (fails_onLine (Scalar.fails_word_unknown hr hne)).bind
  | reals profile h =>
    -- Each profile reads its operands in turn; the end is looked for after the last of them.
    have hend : ∀ {desk' : Desk} {c : Channel Binary64}, BadReals [] desk'.cursor.remaining p →
        Fails (do let channel ← (pure c : Loading _); onLine Cursor.expectEnd; return channel) desk'
          (desk'.cursor.failure p) := fun hrest =>
      .of_ok (pure_ok.2 ⟨rfl, rfl⟩) (fails_expectEnd hrest).bind
    refine .of_ok (onLine_ok.2 ⟨_, Scalar.word_ok.2 ⟨_, hr, rfl⟩, rfl⟩) ?_
    refine .of_ok (a := ()) (record_ok.2 rfl) ?_
    cases profile with
    | uniform => exact operand_fails h fun _ _ h => hend h
    | delta =>
      refine operand_fails h fun _ _ h => operand_fails h fun _ _ h => ?_
      exact operand_fails h fun _ _ h => hend h
    | gaussian | pulse =>
      refine operand_fails h fun _ _ h => operand_fails h fun _ _ h => ?_
      exact operand_fails h fun _ _ h => operand_fails h fun _ _ h => hend h

/-- A statement whose operands have a problem fails with it. -/
theorem statement_fails {f : Field} (hkey : desk.cursor.keyword = f.keyword)
    (h : f.Faulty desk.cursor.remaining p) : Fails (statement f) desk (desk.cursor.failure p) := by
  obtain ⟨form, hform, h⟩ := h
  rw [← hkey] at h
  cases f with
  | ioRat | subblocksPerCluster | subblockLutSize =>
    cases hform
    exact integer_fails h
  | chanWidthIo | fcOutput | fcInput | fcPad =>
    cases hform
    exact real_fails h
  | chanWidthX | chanWidthY =>
    cases hform
    exact (channel_fails h).bind
  | fcType | switchBlockType =>
    cases hform
    exact word_fails h
  | outpin | inpin => cases hform

/-! ## Pin statements -/

variable {census : Census} {rows : List PinRow} {v : PinView} {d : Direction} {c n : Nat}

theorem checkDirection_fails {dir : Direction} (h : desk.draft.tables.Shows census v)
    (hc : c < census.numClasses) (hdir : v.direction c = some dir) (hne : dir ≠ d) :
    Fails (checkDirection c d) desk (desk.cursor.failure (.mixedDirections c)) := by
  refine .of_ok (fromTables_ok.2 ⟨h.direction_eq hc, rfl⟩) ?_
  rw [hdir]
  simp only
  rw [if_pos hne]
  exact fails_onLine (Cursor.fails_fail _)

/-- A class that has no other direction is opened. -/
theorem exists_opens {t : PinTables} (h : t.Shows census v) (hc : c < census.numClasses)
    (hd : ∀ dir, v.direction c = some dir → dir = d) : ∃ t', t.Opens c d t' := by
  cases hdir : v.direction c with
  | none =>
    obtain ⟨t', ht', -⟩ := h.setDirection hc d
    exact ⟨t', .inl ⟨hdir ▸ h.direction_eq hc, ht'⟩⟩
  | some dir =>
    obtain rfl := hd dir hdir
    exact ⟨t, .inr ⟨hdir ▸ h.direction_eq hc, rfl⟩⟩

theorem addSides_fails (hn : n < census.totalPins) {token : String} {rest : List String}
    (hside : ∀ side : Side, token ≠ Vocabulary.word side) (named : List Side) :
    ∀ {desk : Desk} {v : PinView}, desk.draft.tables.Shows census v →
      Fails ((named.map Vocabulary.word ++ token :: rest).forM fun token => do
        let side ← onLine (Scalar.side token)
        onTables (·.addSide n side)) desk (desk.cursor.failure (.badSide token)) := by
  -- Each side that is one changes the tables, so the induction is over any desk.
  induction named with
  | nil =>
    intro desk v h
    exact (fails_onLine (Scalar.fails_side hside)).bind.bind
  | cons side named ih =>
    intro desk v h
    obtain ⟨t, ht, h'⟩ := h.addSide hn side
    have hstep : (do
        let side ← onLine (Scalar.side (Vocabulary.word side))
        onTables (·.addSide n side)) desk = .ok () { desk with draft.tables := t } :=
      bind_ok.2 ⟨side, desk, onLine_ok.2 ⟨_, Scalar.side_ok.2 ⟨rfl, rfl⟩, rfl⟩,
        onTables_ok.2 ⟨t, ht, rfl⟩⟩
    exact .of_ok hstep (ih h')

/-- A pin statement with no side. -/
theorem sides_fails_missing (hr : desk.cursor.remaining = []) :
    Fails (sides n) desk (desk.cursor.failure (.noLocation n)) := by
  refine .of_ok (peek_ok.2 ⟨rfl, rfl⟩) ?_
  rw [hr]
  exact (fails_onLine (Cursor.fails_fail _)).bind

/-- A pin statement whose first token that is no side comes after some sides. -/
theorem sides_fails_bad (hn : n < census.totalPins) (h : desk.draft.tables.Shows census v)
    {named : List Side} {token : String} {rest : List String}
    (hr : desk.cursor.remaining = named.map Vocabulary.word ++ token :: rest)
    (hside : ∀ side : Side, token ≠ Vocabulary.word side) :
    Fails (sides n) desk (desk.cursor.failure (.badSide token)) := by
  have hsome : desk.cursor.remaining.head?.isNone = false := by
    rw [hr]
    cases named <;> rfl
  refine .of_ok (peek_ok.2 ⟨rfl, rfl⟩) ?_
  rw [if_neg (by simp [hsome])]
  refine .of_ok (getRemaining_ok.2 ⟨hr, rfl⟩) ?_
  exact (addSides_fails hn hside named h).bind

/-- What a pin statement needs to be loaded besides a good class part: room, numbers that fit a
cell, and the place in the table that the rows before it leave. -/
structure Ready (desk : Desk) (census : Census) (rows : List PinRow) (c : Nat)
    (rest : List String) : Prop where
  shows : desk.draft.tables.Shows census (.ofRows rows)
  nextPin : desk.draft.nextPin = rows.length
  room : PinTables.Room census rows c
  pin_le : rows.length ≤ Cells.maxInteger
  class_le : c ≤ Cells.maxInteger
  cites : ∃ token, desk.cursor.remaining = classMarker :: token :: rest ∧
    Numeral.read? token = some (c : Int)

variable {rest : List String}

/-- A pin statement whose class has the other direction. -/
theorem pin_fails_direction (h : Ready desk census rows c rest) {dir : Direction}
    (hdir : (PinView.ofRows rows).direction c = some dir) (hne : dir ≠ d) :
    Fails (pin d) desk (desk.cursor.failure (.mixedDirections c)) := by
  obtain ⟨token, hr, hread⟩ := h.cites
  refine .of_ok (nextPin_ok.2 ⟨h.nextPin, rfl⟩) ?_
  refine .of_ok (onLine_ok.2 ⟨_, Scalar.classId_ok.2 ⟨token, rest, hr, hread, rfl⟩, rfl⟩) ?_
  refine .bind ?_
  exact checkDirection_fails h.shows h.room.isClass hdir hne

/-- A pin statement whose class has no other direction fails where its sides do. -/
theorem pin_fails_sides (h : Ready desk census rows c rest)
    (hd : ∀ dir, (PinView.ofRows rows).direction c = some dir → dir = d)
    (hsides : ∀ {desk' : Desk} {v : PinView}, desk'.draft.tables.Shows census v →
      desk'.cursor.remaining = rest → Fails (sides rows.length) desk' (desk'.cursor.failure p)) :
    Fails (pin d) desk (desk.cursor.failure p) := by
  obtain ⟨token, hr, hread⟩ := h.cites
  -- The tables after each of the three steps that come before the sides.
  obtain ⟨t₁, ht₁⟩ := exists_opens h.shows h.room.isClass hd
  obtain ⟨directions, h₁⟩ := shows_of_opens h.shows h.room.isClass ht₁
  obtain ⟨t₂, ht₂, h₂⟩ := h₁.addMember h.room.isClass h.room.free h.pin_le
  obtain ⟨t₃, ht₃, h₃⟩ := h₂.setClass h.room.isPin h.class_le
  refine .of_ok (nextPin_ok.2 ⟨h.nextPin, rfl⟩) ?_
  refine .of_ok (onLine_ok.2 ⟨_, Scalar.classId_ok.2 ⟨token, rest, hr, hread, rfl⟩, rfl⟩) ?_
  refine .of_ok (a := ()) (checkDirection_ok.2 ⟨t₁, ht₁, rfl⟩) ?_
  refine .of_ok (a := ()) (onTables_ok.2 ⟨t₂, ht₂, rfl⟩) ?_
  refine .of_ok (a := ()) (onTables_ok.2 ⟨t₃, ht₃, rfl⟩) ?_
  exact (hsides h₃ rfl).bind

end Loading

/-! ## Directions -/

theorem Direction.field_inj {d d' : Direction} (h : d.field = d'.field) : d = d' := by
  cases d <;> cases d' <;> first | rfl | cases h

namespace LogicalLine

variable {c : Nat}

/-- The direction of a class among rows is that of the first line that cites it. -/
theorem direction_eq_some_iff {lines : List LogicalLine} {rows : List PinRow}
    (h : List.Forall₂ PinRow.Spells lines rows) {dir : Direction} :
    (PinView.ofRows rows).direction c = some dir ↔ ∃ earlier first rest,
      lines = earlier ++ first :: rest ∧ (∀ l ∈ earlier, ¬ l.Cites c) ∧ first.Cites c ∧
        first.keyword = dir.field.keyword := by
  -- The view finds the first row of the class; a line is that row's or stands before it.
  induction h with
  | nil => simp [PinView.ofRows]
  | @cons line row lines rows hrow htail ih =>
    by_cases hc : row.classId = c
    · subst hc
      have hdir : (PinView.ofRows (row :: rows)).direction row.classId = some row.direction := by
        simp [PinView.ofRows]
      rw [hdir, Option.some.injEq]
      constructor
      · rintro rfl
        exact ⟨[], line, lines, rfl, List.forall_mem_nil _, hrow.cites, hrow.keyword⟩
      · rintro ⟨earlier, first, rest, heq, hnone, -, hkey⟩
        cases earlier with
        | nil =>
          obtain ⟨rfl, rfl⟩ := List.cons.inj heq
          exact Direction.field_inj (Field.keyword_inj (hrow.keyword.symm.trans hkey))
        | cons l earlier =>
          obtain ⟨rfl, -⟩ := List.cons.inj heq
          exact absurd hrow.cites (hnone _ List.mem_cons_self)
    · have hdir : (PinView.ofRows (row :: rows)).direction c =
          (PinView.ofRows rows).direction c := by
        simp [PinView.ofRows, hc]
      rw [hdir, ih]
      constructor
      · rintro ⟨earlier, first, rest, rfl, hnone, hfirst⟩
        refine ⟨line :: earlier, first, rest, rfl, ?_, hfirst⟩
        rw [List.forall_mem_cons]
        exact ⟨fun hcites => hc (hrow.cites.unique hcites), hnone⟩
      · rintro ⟨earlier, first, rest, heq, hnone, hfirst, hkey⟩
        cases earlier with
        | nil =>
          obtain ⟨rfl, rfl⟩ := List.cons.inj heq
          exact absurd (hrow.cites.unique hfirst) hc
        | cons l earlier =>
          obtain ⟨rfl, rfl⟩ := List.cons.inj heq
          exact ⟨earlier, first, rest, rfl, fun x hx => hnone x (List.mem_cons_of_mem _ hx), hfirst,
            hkey⟩

/-- A line conflicts with the pins before it exactly when its class has another direction. -/
theorem conflicts_iff {before : List LogicalLine} {line : LogicalLine} {rows : List PinRow}
    (h : List.Forall₂ PinRow.Spells (pins before) rows) {d : Direction}
    (hkey : line.keyword = d.field.keyword) : Conflicts before line c ↔
      ∃ dir, (PinView.ofRows rows).direction c = some dir ∧ dir ≠ d := by
  simp only [direction_eq_some_iff h]
  constructor
  · rintro ⟨earlier, first, rest, heq, hnone, hfirst, hne⟩
    have hpin : first ∈ pins before := by simp [heq]
    obtain ⟨dir, hdir⟩ := isPinKeyword_iff.1 (List.mem_filter.1 hpin).2
    refine ⟨dir, ⟨earlier, first, rest, heq, hnone, hfirst, hdir⟩, ?_⟩
    rintro rfl
    exact hne (hdir.trans hkey.symm)
  · rintro ⟨dir, ⟨earlier, first, rest, heq, hnone, hfirst, hdir⟩, hne⟩
    refine ⟨earlier, first, rest, heq, hnone, hfirst, fun heq' => ?_⟩
    rw [hdir, hkey] at heq'
    exact hne (Direction.field_inj (Field.keyword_inj heq'))

end LogicalLine

/-! ## Problems can be worded -/

namespace Problem

/-- The wording of a problem can be written. -/
def Wordable (p : Problem) : Prop := p.numberFault? = none

theorem wordable_of {p : Problem} (hintegers : ∀ n ∈ p.integers, Numeral.isWritable n = true)
    (hbrief : ∀ n ∈ p.briefNumbers, n.fault? = none) : p.Wordable := by
  have hall : p.integers.all Numeral.isWritable = true := List.all_eq_true.2 hintegers
  unfold Wordable numberFault?
  rw [hall]
  exact List.findSome?_eq_none_iff.2 hbrief

theorem Wordable.ofFault_eq {f : Fault} (h : f.problem.Wordable) :
    Failure.ofFault f = .fault f := by
  unfold Failure.ofFault
  rw [h]

/-- A problem without numbers, or with one integer that was read. -/
theorem wordable_of_read {p : Problem} {n : Int} (hintegers : ∀ m ∈ p.integers, m = n)
    (hbrief : p.briefNumbers = []) {token : String} (hread : Numeral.read? token = some n) :
    p.Wordable := by
  refine wordable_of (fun m hm => ?_) (by simp [hbrief])
  rw [hintegers m hm]
  exact Numeral.isWritable_of_read? hread

end Problem

theorem BadClassPart.wordable {tokens : List String} {p : Problem} (h : BadClassPart tokens p) :
    p.Wordable := by
  cases h with
  | negative hread hneg => exact Problem.wordable_of_read (by simp [Problem.integers]) rfl hread
  | _ => rfl

theorem BadInteger.wordable {keyword : String} {tokens : List String} {p : Problem}
    (h : BadInteger keyword tokens p) : p.Wordable := by
  cases h with
  | notPositive hread hle => exact Problem.wordable_of_read (by simp [Problem.integers]) rfl hread
  | _ => rfl

theorem BadWord.wordable {α : Type} [Vocabulary α] {keyword : String} {tokens : List String}
    {p : Problem} (h : BadWord α keyword tokens p) : p.Wordable := by
  cases h <;> rfl

/-- Bad reals are reported with their bounds, which are real themselves. -/
theorem BadReals.wordable {expected : List (String × Bounds)} {tokens : List String} {p : Problem}
    (h : BadReals expected tokens p)
    (hbounds : ∀ entry ∈ expected, ∃ low high, entry.2 = .between low high) : p.Wordable := by
  induction h with
  | first h =>
    obtain ⟨low, high, rfl⟩ := hbounds _ List.mem_cons_self
    cases h with
    | outside hread hout =>
      refine Problem.wordable_of (by simp [Problem.integers]) fun n hn => ?_
      simp only [Problem.briefNumbers, List.mem_cons, List.not_mem_nil, or_false] at hn
      rcases hn with rfl | rfl <;> rfl
    | _ => rfl
  | later hx h ih => exact ih fun entry hentry => hbounds entry (List.mem_cons_of_mem _ hentry)
  | trailing h => rfl

theorem Profile.reals_between (profile : Profile) :
    ∀ entry ∈ profile.reals, ∃ low high, entry.2 = .between low high := by
  intro entry hentry
  cases profile with
  | uniform =>
    obtain rfl := List.mem_singleton.1 hentry
    exact ⟨_, _, rfl⟩
  | delta =>
    simp only [reals, List.mem_cons, List.not_mem_nil, or_false] at hentry
    rcases hentry with rfl | rfl | rfl <;> exact ⟨_, _, rfl⟩
  | gaussian | pulse =>
    simp only [reals, List.mem_cons, List.not_mem_nil, or_false] at hentry
    rcases hentry with rfl | rfl | rfl | rfl <;> exact ⟨_, _, rfl⟩

theorem BadChannel.wordable {keyword : String} {tokens : List String} {p : Problem}
    (h : BadChannel keyword tokens p) : p.Wordable := by
  cases h with
  | reals profile h => exact h.wordable profile.reals_between
  | _ => rfl

/-- The problem of operands of a statement can be worded. -/
theorem Field.Faulty.wordable {f : Field} {tokens : List String} {p : Problem}
    (h : f.Faulty tokens p) : p.Wordable := by
  obtain ⟨form, hform, h⟩ := h
  cases f with
  | ioRat | subblocksPerCluster | subblockLutSize =>
    cases hform
    exact BadInteger.wordable h
  | chanWidthIo | fcOutput | fcInput | fcPad =>
    cases hform
    refine BadReals.wordable h fun entry hentry => ?_
    obtain rfl := List.mem_singleton.1 hentry
    exact ⟨_, _, rfl⟩
  | chanWidthX | chanWidthY =>
    cases hform
    exact BadChannel.wordable h
  | fcType | switchBlockType =>
    cases hform
    exact BadWord.wordable h
  | outpin | inpin => cases hform

/-- A number that fits a cell, or the next one, may be written. -/
theorem Cells.isWritable_of_le {n : Nat} (h : n ≤ maxInteger + 1) :
    Numeral.isWritable (n : Int) = true := by
  have hcell : maxInteger + 1 < 10 ^ 19 := by decide
  have hdigits : 10 ^ 19 ≤ 10 ^ Numeral.maxDigits := Nat.pow_le_pow_right (by decide) (by decide)
  exact Numeral.isWritable_natCast.2 (lt_of_le_of_lt h (lt_of_lt_of_le hcell hdigits))

/-- The problem of a line can be worded, if it is no pin with a number beyond a cell. -/
theorem LogicalLine.Faulty.wordable {before : List LogicalLine} {line : LogicalLine} {p : Problem}
    (h : Faulty before line p) (hcell : ∀ c, Census.isPinKeyword line.keyword = true →
      line.Cites c → (pins before).length ≤ Cells.maxInteger) : p.Wordable := by
  cases h with
  | value hf hp => exact hp.wordable
  | mixedDirections hpin hc hconflict =>
    obtain ⟨token, rest, -, hread⟩ := hc
    exact Problem.wordable_of_read (by simp [Problem.integers]) rfl hread
  | noLocation hpin hc hagrees hnone =>
    refine Problem.wordable_of (fun n hn => ?_) (List.forall_mem_nil _)
    obtain rfl := List.mem_singleton.1 hn
    exact Cells.isWritable_of_le (Nat.le_succ_of_le (hcell _ hpin hc))
  | badSide hpin hc hagrees hops hside => rfl

/-! ## Lines -/

/-- The fault of a problem of a line. -/
def LogicalLine.fault (line : LogicalLine) (source : String) (p : Problem) : Fault :=
  { source, line := line.number, keyword := line.keyword, problem := p }

namespace Draft

theorem enter_fails {d : Draft} {line : LogicalLine} {f : Field} {e : Failure}
    (hkey : line.keyword = f.keyword)
    (h : Fails (Loading.statement f) ⟨line.cursor d.source, d⟩ e) :
    ∃ d', d.enter line = .error e d' := by
  obtain ⟨desk, h⟩ := h
  refine ⟨desk.draft, ?_⟩
  unfold enter
  rw [Vocabulary.find?_eq_some.2 hkey]
  simp only
  rw [h]

/-- A line that has a problem after lines that were entered is reported with it. -/
theorem Holds.enter_fails {source : String} {census : Census} {before : List LogicalLine}
    {rows : List PinRow} {d : Draft} {line : LogicalLine} {p : Problem}
    (h : d.Holds source census before rows)
    (hroom : ∀ c, Census.isPinKeyword line.keyword = true → line.Cites c →
      PinTables.Room census rows c ∧ rows.length ≤ Cells.maxInteger ∧ c ≤ Cells.maxInteger)
    (hfaulty : LogicalLine.Faulty before line p) :
    ∃ d', d.enter line = .error (.fault (line.fault source p)) d' := by
  obtain rfl := h.source
  -- A problem is reported as it is only if its numbers can be written; else it is a defect.
  have hwordable : (line.fault d.source p).problem.Wordable :=
    hfaulty.wordable fun c hpin hc => h.spelled.length_eq ▸ (hroom c hpin hc).2.1
  rw [← hwordable.ofFault_eq]
  have hready : ∀ {c}, Census.isPinKeyword line.keyword = true → line.Cites c →
      Loading.Ready ⟨line.cursor d.source, d⟩ census rows c (line.operands.drop 2) := by
    rintro c hpin ⟨token, rest, hops, hread⟩
    obtain ⟨hroom, hcell, hclass⟩ := hroom c hpin ⟨token, rest, hops, hread⟩
    have hdrop : line.operands.drop 2 = rest := by
      rw [hops]
      rfl
    exact ⟨h.tables, h.nextPin, hroom, hcell, hclass, token, hdrop ▸ hops, hread⟩
  have hpins : ∀ dir : Direction, Loading.statement dir.field = Loading.pin dir := by
    intro dir
    cases dir <;> rfl
  have hagree : ∀ {c dir}, line.keyword = dir.field.keyword →
      ¬ LogicalLine.Conflicts before line c →
        ∀ dir', (PinView.ofRows rows).direction c = some dir' → dir' = dir := by
    intro c dir hdir hagrees dir' hdir'
    by_contra hne
    exact hagrees ((LogicalLine.conflicts_iff h.spelled hdir).2 ⟨dir', hdir', hne⟩)
  cases hfaulty with
  | value hf hp => exact Draft.enter_fails hf (Loading.statement_fails hf hp)
  | mixedDirections hpin hc hconflict =>
    obtain ⟨dir, hdir⟩ := LogicalLine.isPinKeyword_iff.1 hpin
    obtain ⟨dir', hdir', hne⟩ := (LogicalLine.conflicts_iff h.spelled hdir).1 hconflict
    refine Draft.enter_fails hdir ?_
    rw [hpins]
    exact Loading.pin_fails_direction (hready hpin hc) hdir' hne
  | noLocation hpin hc hagrees hnone =>
    obtain ⟨dir, hdir⟩ := LogicalLine.isPinKeyword_iff.1 hpin
    refine Draft.enter_fails hdir ?_
    rw [hpins, h.spelled.length_eq]
    refine Loading.pin_fails_sides (hready hpin hc) (hagree hdir hagrees) fun hshows hr => ?_
    exact Loading.sides_fails_missing (hr.trans hnone)
  | badSide hpin hc hagrees hops hside =>
    obtain ⟨dir, hdir⟩ := LogicalLine.isPinKeyword_iff.1 hpin
    refine Draft.enter_fails hdir ?_
    rw [hpins]
    refine Loading.pin_fails_sides (hready hpin hc) (hagree hdir hagrees) fun hshows hr => ?_
    exact Loading.sides_fails_bad (hroom _ hpin hc).1.isPin hshows (hr.trans hops) hside

end Draft

end Fabric
