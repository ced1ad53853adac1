import Fabric.Proofs.Run

/-!
# Where loading stops

A reader fails only with a fault of its line or with a number that is too long to report
(`Reading.Clean`). So does a statement that declares no pin, and it leaves the pins of the draft as
they were, whether it is loaded or not (`Loading.KeepsPins`). A pin statement that finds room fails
in the same ways, and the tables that it leaves show the pins before it, with at most the failed
pin added to the members of its class (`Draft.Holds.pin_error`).
-/

namespace Fabric

/-- A failure that a text can cause: a fault of a statement, or a number that is too large to be
reported or stored. The other failures are misuses of the tables. -/
def Failure.OfText : Failure → Prop
  | .fault _ | .defect (.number _) => True
  | .defect _ => False

theorem Failure.ofText_ofFault (f : Fault) : (ofFault f).OfText := by
  unfold ofFault
  split <;> trivial

/-! ## Readings -/

namespace Reading

variable {α β : Type}

/-- A reading that fails only in ways that a text can cause. -/
structure Clean (r : Reading α) : Prop where
  ofText : ∀ {c c' : Cursor} {e : Failure}, r c = .error e c' → e.OfText

theorem Clean.bind {r : Reading α} {f : α → Reading β} (hr : r.Clean) (hf : ∀ a, (f a).Clean) :
    Clean (r >>= f) where
  ofText h := by
    rcases bind_error.1 h with h | ⟨a, c₁, -, h⟩
    · exact hr.ofText h
    · exact (hf a).ofText h

theorem clean_pure (a : α) : Clean (pure a : Reading α) := ⟨fun h => by cases h⟩

theorem clean_fail (p : Problem) : (Cursor.fail p : Reading α).Clean where
  ofText h := by
    simp only [Cursor.fail, EStateM.Result.error.injEq] at h
    exact h.1 ▸ Failure.ofText_ofFault _

theorem clean_take (what : String) : (Cursor.take what).Clean where
  ofText {c c' e} h := by
    unfold Cursor.take at h
    cases hr : c.remaining with
    | nil =>
      rw [hr] at h
      exact (clean_fail _).ofText h
    | cons t rest =>
      rw [hr] at h
      cases h

theorem clean_expectEnd : Cursor.expectEnd.Clean where
  ofText h := by
    unfold Cursor.expectEnd at h
    split at h
    · cases h
    · exact (clean_fail _).ofText h

theorem clean_getKeyword : Cursor.getKeyword.Clean := ⟨fun h => by cases h⟩

/-- A reading with a guard in front of it. -/
theorem Clean.guard {p : Prop} [Decidable p] {problem : Problem} {k : α → Reading β}
    {r : Reading β} (hk : ∀ a, (k a).Clean) (hr : r.Clean) :
    Clean (if p then Cursor.fail problem >>= k else r) := by
  split
  · exact (clean_fail _).bind hk
  · exact hr

end Reading

namespace Scalar

open Reading

theorem clean_toInteger (what token : String) : (toInteger what token).Clean := by
  unfold toInteger
  split
  · exact clean_pure _
  · exact clean_fail _

theorem clean_toReal (what token : String) : (toReal what token).Clean := by
  unfold toReal
  split
  · exact clean_pure _
  · exact clean_fail _

theorem clean_positiveInteger : positiveInteger.Clean := by
  have hend : ∀ v : Int, (do Cursor.expectEnd; return v : Reading Int).Clean := fun v =>
    clean_expectEnd.bind fun _ => clean_pure v
  refine clean_getKeyword.bind fun what => (clean_take what).bind fun token => ?_
  exact (clean_toInteger what token).bind fun v => .guard (fun _ => hend v) (hend v)

theorem clean_real (bounds : Bounds) (name : Option String) : (real bounds name).Clean := by
  refine clean_getKeyword.bind fun _ => (clean_take _).bind fun token => ?_
  exact (clean_toReal _ token).bind fun x => .guard (fun _ => clean_pure x) (clean_pure x)

theorem clean_word (α : Type) [Vocabulary α] (name : Option String)
    (problem : String → String → List String → Problem) : (word α name problem).Clean := by
  refine clean_getKeyword.bind fun _ => (clean_take _).bind fun token => ?_
  cases Vocabulary.find? (α := α) token with
  | some a => exact clean_pure a
  | none => exact clean_fail _

theorem clean_wordStatement (α : Type) [Vocabulary α] : (wordStatement α).Clean :=
  (clean_word α _ _).bind fun a => clean_expectEnd.bind fun _ => clean_pure a

theorem clean_classId : classId.Clean := by
  have hnumber : ∀ v : Int, (pure v.toNat : Reading Nat).Clean := fun v => clean_pure _
  have hrest : (do
      let token ← Cursor.take "class number"
      let value ← toInteger "class number" token
      if value < 0 then Cursor.fail (.negativeClass value token)
      return value.toNat : Reading Nat).Clean :=
    (clean_take _).bind fun token => (clean_toInteger _ token).bind fun v =>
      .guard (fun _ => hnumber v) (hnumber v)
  exact (clean_take _).bind fun marker => .guard (fun _ => hrest) hrest

theorem clean_side (token : String) : (side token).Clean := by
  unfold side
  split
  · exact clean_pure _
  · exact clean_fail _

end Scalar

/-! ## Statements that declare no pin -/

namespace Loading

variable {α β : Type}

theorem onLine_error {r : Reading α} (hr : r.Clean) {desk desk' : Desk} {e : Failure}
    (h : onLine r desk = .error e desk') : e.OfText ∧ desk'.draft = desk.draft := by
  unfold onLine at h
  cases hrun : r desk.cursor with
  | ok a c =>
    rw [hrun] at h
    cases h
  | error e' c =>
    rw [hrun] at h
    cases h
    exact ⟨hr.ofText hrun, rfl⟩

/-- An action that leaves the pins of a draft as they were, also where it fails, and fails only in
ways that a text can cause. -/
structure KeepsPins (m : Loading α) : Prop where
  ok : ∀ {desk desk' : Desk} {a : α}, m desk = .ok a desk' → Draft.SamePins desk.draft desk'.draft
  error : ∀ {desk desk' : Desk} {e : Failure}, m desk = .error e desk' →
    e.OfText ∧ Draft.SamePins desk.draft desk'.draft

theorem KeepsPins.bind {m : Loading α} {f : α → Loading β} (hm : m.KeepsPins)
    (hf : ∀ a, (f a).KeepsPins) : KeepsPins (m >>= f) where
  ok h := by
    obtain ⟨a, desk₁, h₁, h₂⟩ := bind_ok.1 h
    exact (hm.ok h₁).trans ((hf a).ok h₂)
  error h := by
    rcases bind_error.1 h with h | ⟨a, desk₁, h₁, h₂⟩
    · exact hm.error h
    · obtain ⟨he, hsame⟩ := (hf a).error h₂
      exact ⟨he, (hm.ok h₁).trans hsame⟩

theorem keepsPins_pure (a : α) : KeepsPins (pure a : Loading α) where
  ok h := by
    obtain ⟨-, rfl⟩ := pure_ok.1 h
    exact .refl _
  error h := by cases h

theorem keepsPins_onLine {r : Reading α} (hr : r.Clean) : KeepsPins (onLine r) where
  ok h := by
    obtain ⟨c, -, rfl⟩ := onLine_ok.1 h
    exact .refl _
  error h := by
    obtain ⟨he, hd⟩ := onLine_error hr h
    rw [hd]
    exact ⟨he, .refl _⟩

theorem keepsPins_change {f : Draft → Draft} (hf : ∀ d, Draft.SamePins d (f d)) :
    KeepsPins (change f) where
  ok h := by
    rw [change_ok.1 h]
    exact hf _
  error h := by cases h

theorem keepsPins_record : KeepsPins record where
  ok h := by
    rw [record_ok.1 h]
    exact Draft.samePins_note _ _
  error h := by cases h

theorem keepsPins_integer {set : Int → Draft → Draft} (hset : ∀ v d, Draft.SamePins d (set v d)) :
    KeepsPins (integer set) :=
  (keepsPins_onLine Scalar.clean_positiveInteger).bind fun v =>
    (keepsPins_change (hset v)).bind fun _ => keepsPins_record

theorem keepsPins_word (α : Type) [Vocabulary α] {set : α → Draft → Draft}
    (hset : ∀ a d, Draft.SamePins d (set a d)) : KeepsPins (word α set) :=
  (keepsPins_onLine (Scalar.clean_wordStatement α)).bind fun a =>
    (keepsPins_change (hset a)).bind fun _ => keepsPins_record

theorem keepsPins_expectEnd : KeepsPins (onLine Cursor.expectEnd) :=
  keepsPins_onLine Reading.clean_expectEnd

theorem keepsPins_real (bounds : Bounds) {set : Binary64 → Draft → Draft}
    (hset : ∀ x d, Draft.SamePins d (set x d)) : KeepsPins (real bounds set) :=
  (keepsPins_onLine (Scalar.clean_real bounds none)).bind fun x =>
    (keepsPins_change (hset x)).bind fun _ => keepsPins_expectEnd.bind fun _ => keepsPins_record

theorem keepsPins_channel : KeepsPins channel := by
  have hreal : ∀ bounds name, KeepsPins (onLine (Scalar.real bounds name)) := fun bounds name =>
    keepsPins_onLine (Scalar.clean_real bounds name)
  have hend : ∀ c : Channel Binary64, KeepsPins (do onLine Cursor.expectEnd; return c) := fun c =>
    keepsPins_expectEnd.bind fun _ => keepsPins_pure c
  refine (keepsPins_onLine Reading.clean_getKeyword).bind fun keyword =>
    (keepsPins_onLine (Scalar.clean_word Profile _ _)).bind fun profile =>
    keepsPins_record.bind fun _ => ?_
  cases profile with
  | uniform => exact (hreal _ _).bind fun _ => (keepsPins_pure _).bind hend
  | delta =>
    exact (hreal _ _).bind fun _ => (hreal _ _).bind fun _ => (hreal _ _).bind fun _ =>
      (keepsPins_pure _).bind hend
  | gaussian | pulse =>
    exact (hreal _ _).bind fun _ => (hreal _ _).bind fun _ => (hreal _ _).bind fun _ =>
      (hreal _ _).bind fun _ => (keepsPins_pure _).bind hend

/-- The statement of a field that declares no pin. -/
theorem keepsPins_statement {f : Field} (hf : f.isPin = false) : KeepsPins (statement f) := by
  cases f with
  | ioRat | subblocksPerCluster | subblockLutSize =>
    exact keepsPins_integer fun _ _ => ⟨rfl, rfl, rfl, rfl⟩
  | chanWidthX | chanWidthY =>
    exact keepsPins_channel.bind fun _ => keepsPins_change fun _ => ⟨rfl, rfl, rfl, rfl⟩
  | chanWidthIo | fcOutput | fcInput | fcPad =>
    exact keepsPins_real _ fun _ _ => ⟨rfl, rfl, rfl, rfl⟩
  | fcType | switchBlockType => exact keepsPins_word _ fun _ _ => ⟨rfl, rfl, rfl, rfl⟩
  | outpin | inpin => cases hf

/-! ## Pin statements -/

variable {desk desk' : Desk} {e : Failure} {census : Census} {v : PinView}

theorem fromTables_error {f : PinTables → Except Defect α}
    (h : fromTables f desk = .error e desk') :
    ∃ defect, f desk.draft.tables = .error defect ∧ e = .defect defect ∧ desk' = desk := by
  unfold fromTables at h
  cases hf : f desk.draft.tables with
  | ok a =>
    rw [hf] at h
    cases h
  | error defect =>
    rw [hf] at h
    cases h
    exact ⟨defect, rfl, rfl, rfl⟩

theorem onTables_error {f : PinTables → Except Defect PinTables}
    (h : onTables f desk = .error e desk') :
    ∃ defect, f desk.draft.tables = .error defect ∧ e = .defect defect ∧ desk' = desk := by
  rcases bind_error.1 h with h | ⟨t, desk₁, -, h⟩
  · exact fromTables_error h
  · cases h

/-- A change of the tables that always succeeds. -/
theorem onTables_ne_error {f : PinTables → Except Defect PinTables} {t : PinTables}
    (hf : f desk.draft.tables = .ok t) : onTables f desk ≠ .error e desk' := by
  intro h
  obtain ⟨defect, hdefect, -⟩ := onTables_error h
  cases hf.symm.trans hdefect

theorem checkDirection_error {c : Nat} {d : Direction}
    (he : checkDirection c d desk = .error e desk') (h : desk.draft.tables.Shows census v)
    (hc : c < census.numClasses) :
    e.OfText ∧ desk'.draft = desk.draft := by
  rcases bind_error.1 he with he | ⟨recorded, desk₁, hok, he⟩
  · obtain ⟨defect, hdefect, -⟩ := fromTables_error he
    cases (h.direction_eq hc).symm.trans hdefect
  · obtain ⟨-, rfl⟩ := fromTables_ok.1 hok
    cases recorded with
    | none =>
      obtain ⟨t, ht, -⟩ := h.setDirection hc d
      exact absurd he (onTables_ne_error ht)
    | some recorded =>
      simp only at he
      split at he
      · exact onLine_error (Reading.clean_fail _) he
      · cases he

/-- The tables after a check of a direction show the same but for the directions. -/
theorem shows_of_opens {t t' : PinTables} {c : Nat} {d : Direction} (h : t.Shows census v)
    (hc : c < census.numClasses) (ht : t.Opens c d t') :
    ∃ directions, t'.Shows census { v with direction := directions } := by
  rcases ht with ⟨-, ht⟩ | ⟨-, rfl⟩
  · obtain ⟨t₁, ht₁, h₁⟩ := h.setDirection hc d
    cases ht.symm.trans ht₁
    exact ⟨_, h₁⟩
  · exact ⟨v.direction, h⟩

theorem addMember_ofText {t : PinTables} {c pin : Nat} {defect : Defect} (h : t.Shows census v)
    (hc : c < census.numClasses) (hfree : (v.members c).length < census.slots c)
    (he : t.addMember c pin = .error defect) : (Failure.defect defect).OfText := by
  by_cases hpin : pin ≤ Cells.maxInteger
  · obtain ⟨t', ht', -⟩ := h.addMember hc hfree hpin
    cases ht'.symm.trans he
  · cases (h.addMember_overflow hc hpin).symm.trans he
    trivial

theorem setClass_ofText {t : PinTables} {c pin : Nat} {defect : Defect} (h : t.Shows census v)
    (hpin : pin < census.totalPins) (he : t.setClass pin c = .error defect) :
    (Failure.defect defect).OfText := by
  by_cases hc : c ≤ Cells.maxInteger
  · obtain ⟨t', ht', -⟩ := h.setClass hpin hc
    cases ht'.symm.trans he
  · cases (PinTables.setClass_overflow hc).symm.trans he
    trivial

theorem addSides_error {pin : Nat} (hpin : pin < census.totalPins) : ∀ {tokens : List String}
    {desk : Desk} {v : PinView}, desk.draft.tables.Shows census v →
    (tokens.forM fun token => do
      let side ← onLine (Scalar.side token)
      onTables (·.addSide pin side)) desk = .error e desk' →
    e.OfText ∧ ∃ sides, desk'.draft.tables.Shows census { v with sides } := by
  intro tokens
  induction tokens with
  | nil =>
    intro desk v h he
    cases he
  | cons token tokens ih =>
    intro desk v h he
    rcases bind_error.1 he with he | ⟨_, desk₁, hok, he⟩
    · rcases bind_error.1 he with he | ⟨side, desk₂, hside, he⟩
      · obtain ⟨htext, hd⟩ := onLine_error (Scalar.clean_side token) he
        rw [hd]
        exact ⟨htext, v.sides, h⟩
      · obtain ⟨_, -, rfl⟩ := onLine_ok.1 hside
        obtain ⟨t, ht, -⟩ := h.addSide hpin side
        exact absurd he (onTables_ne_error ht)
    · obtain ⟨side, desk₂, hside, hok⟩ := bind_ok.1 hok
      obtain ⟨_, -, rfl⟩ := onLine_ok.1 hside
      obtain ⟨t, ht, rfl⟩ := onTables_ok.1 hok
      obtain ⟨t', ht', h'⟩ := h.addSide hpin side
      cases ht.symm.trans ht'
      obtain ⟨htext, sides, h''⟩ := ih h' he
      exact ⟨htext, sides, h''⟩

theorem sides_error {pin : Nat} (hpin : pin < census.totalPins)
    (h : desk.draft.tables.Shows census v) (he : sides pin desk = .error e desk') :
    e.OfText ∧ ∃ sides, desk'.draft.tables.Shows census { v with sides } := by
  have hrest : ∀ {desk : Desk}, desk.draft.tables.Shows census v → (do
      let remaining ← onLine Cursor.getRemaining
      remaining.forM fun token => do
        let side ← onLine (Scalar.side token)
        onTables (·.addSide pin side)
      onLine Cursor.skipRest) desk = .error e desk' →
      e.OfText ∧ ∃ sides, desk'.draft.tables.Shows census { v with sides } := by
    intro desk h he
    rcases bind_error.1 he with he | ⟨remaining, desk₁, hok, he⟩
    · cases he
    obtain ⟨-, rfl⟩ := getRemaining_ok.1 hok
    rcases bind_error.1 he with he | ⟨_, desk₂, -, he⟩
    · exact addSides_error hpin h he
    · cases he
  rcases bind_error.1 he with he | ⟨token?, desk₁, hok, he⟩
  · cases he
  obtain ⟨-, rfl⟩ := peek_ok.1 hok
  simp only at he
  split at he
  · rcases bind_error.1 he with he | ⟨_, desk₂, hok, he⟩
    · obtain ⟨htext, hd⟩ := onLine_error (Reading.clean_fail _) he
      rw [hd]
      exact ⟨htext, v.sides, h⟩
    · simp [onLine_ok, Cursor.fail_ok] at hok
  · exact hrest h he

/-- A pin statement that finds room and cannot be loaded: the tables then show the members of the
rows before it, or of these and one more. -/
theorem pin_error {d : Direction} {rows : List PinRow}
    (h : desk.draft.tables.Shows census (.ofRows rows)) (hnext : desk.draft.nextPin = rows.length)
    (hroom : ∀ token rest (c : Nat), desk.cursor.remaining = classMarker :: token :: rest →
      Numeral.read? token = some (c : Int) → PinTables.Room census rows c)
    (he : pin d desk = .error e desk') :
    e.OfText ∧ ∃ rows' v, desk'.draft.tables.Shows census v ∧
      v.members = (PinView.ofRows rows').members ∧ rows'.length ≤ rows.length + 1 := by
  rcases bind_error.1 he with he | ⟨_, _, hok, he⟩
  · cases he
  obtain ⟨rfl, rfl⟩ := nextPin_ok.1 hok
  rcases bind_error.1 he with he | ⟨c, _, hok, he⟩
  · obtain ⟨htext, hd⟩ := onLine_error Scalar.clean_classId he
    rw [hd]
    exact ⟨htext, rows, _, h, rfl, by omega⟩
  obtain ⟨_, hclass, rfl⟩ := onLine_ok.1 hok
  obtain ⟨token, rest, hr, hread, rfl⟩ := Scalar.classId_ok.1 hclass
  obtain ⟨hc, hfree, hpin⟩ := hroom token rest c hr hread
  rw [hnext] at he
  rcases bind_error.1 he with he | ⟨_, _, hok, he⟩
  · obtain ⟨htext, hd⟩ := checkDirection_error he h hc
    rw [hd]
    exact ⟨htext, rows, _, h, rfl, by omega⟩
  obtain ⟨t₁, ht₁, rfl⟩ := checkDirection_ok.1 hok
  obtain ⟨directions, h₁⟩ := shows_of_opens h hc ht₁
  rcases bind_error.1 he with he | ⟨_, _, hok, he⟩
  · obtain ⟨defect, hdefect, rfl, rfl⟩ := onTables_error he
    exact ⟨addMember_ofText h₁ hc hfree hdefect, rows, _, h₁, rfl, by omega⟩
  -- From here on the tables show one member more than the rows before the statement.
  obtain ⟨t₂, ht₂, rfl⟩ := onTables_ok.1 hok
  obtain ⟨t₂', ht₂', h₂⟩ := h₁.addMember hc hfree (PinTables.le_of_addMember ht₂)
  obtain rfl := Except.ok.inj (ht₂.symm.trans ht₂')
  have hmembers := PinView.members_append rows ⟨d, c, []⟩
  rcases bind_error.1 he with he | ⟨_, _, hok, he⟩
  · obtain ⟨defect, hdefect, rfl, rfl⟩ := onTables_error he
    exact ⟨setClass_ofText h₂ hpin hdefect, _, _, h₂, hmembers.symm, by simp⟩
  obtain ⟨t₃, ht₃, rfl⟩ := onTables_ok.1 hok
  obtain ⟨t₃', ht₃', h₃⟩ := h₂.setClass hpin (PinTables.le_of_setClass ht₃)
  obtain rfl := Except.ok.inj (ht₃.symm.trans ht₃')
  rcases bind_error.1 he with he | ⟨_, _, -, he⟩
  · obtain ⟨htext, sides, h₄⟩ := sides_error hpin h₃ he
    exact ⟨htext, _, _, h₄, hmembers.symm, by simp⟩
  rcases bind_error.1 he with he | ⟨_, _, -, he⟩ <;> cases he

end Loading

/-! ## Lines -/

/-- Where the line after some lines cannot be entered: the failure is one that a text can cause, and
the tables show the members of the rows before it, or of these and one more. -/
theorem Draft.Holds.enter_error {source : String} {census : Census} {lines : List LogicalLine}
    {rows : List PinRow} {d d' : Draft} {line : LogicalLine} {e : Failure}
    (h : d.Holds source census lines rows)
    (hroom : ∀ c, Census.isPinKeyword line.keyword = true → line.Cites c →
      PinTables.Room census rows c) (he : d.enter line = .error e d') :
    e.OfText ∧ ∃ rows' v, d'.tables.Shows census v ∧
      v.members = (PinView.ofRows rows').members ∧ rows'.length ≤ rows.length + 1 := by
  unfold Draft.enter at he
  cases hf : Vocabulary.find? (α := Field) line.keyword with
  | none =>
    rw [hf] at he
    cases he
  | some f =>
    have hkey : line.keyword = f.keyword := Vocabulary.find?_eq_some.1 hf
    rw [hf] at he
    simp only at he
    cases hrun : Loading.statement f { cursor := line.cursor d.source, draft := d } with
    | ok u desk =>
      rw [hrun] at he
      cases he
    | error e' desk =>
      rw [hrun] at he
      cases he
      cases hpin : f.isPin with
      | false =>
        obtain ⟨htext, hsame⟩ := (Loading.keepsPins_statement hpin).error hrun
        rw [hsame.tables]
        exact ⟨htext, rows, _, h.tables, rfl, by omega⟩
      | true =>
        obtain ⟨dir, rfl, hstatement⟩ : ∃ dir : Direction, f = dir.field ∧
            Loading.statement f = Loading.pin dir := by
          cases f with
          | outpin => exact ⟨.driver, rfl, rfl⟩
          | inpin => exact ⟨.receiver, rfl, rfl⟩
          | _ => cases hpin
        rw [hstatement] at hrun
        exact Loading.pin_error h.tables h.nextPin (fun token rest c hr hread =>
          hroom c (LogicalLine.isPinKeyword_iff.2 ⟨dir, hkey⟩) ⟨token, rest, hr, hread⟩) hrun

end Fabric
