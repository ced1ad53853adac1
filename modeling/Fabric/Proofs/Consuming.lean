import Fabric.Proofs.Loading

/-!
# What a reading leaves of its line

An action on a cursor takes operands off the front of what is left and changes nothing else, whether
it succeeds or fails (`Advances`). So each reader leaves a suffix, of which `CursorAction.Effect`
says more: how many operands are gone after a success, and which failures leave all.
-/

namespace Fabric

/-! ## Advancing -/

/-- A cursor and one on the same line with no more operands left. -/
structure Cursor.Advance (c c' : Cursor) : Prop where
  source : c'.source = c.source
  line : c'.line = c.line
  suffix : c'.remaining <:+ c.remaining

namespace Cursor

variable {c c' c'' : Cursor}

theorem Advance.refl (c : Cursor) : c.Advance c := ⟨rfl, rfl, List.suffix_rfl⟩

theorem Advance.trans (h : c.Advance c') (h' : c'.Advance c'') : c.Advance c'' :=
  ⟨h'.source.trans h.source, h'.line.trans h.line, h'.suffix.trans h.suffix⟩

theorem Advance.eq (h : c.Advance c') (hremaining : c'.remaining = c.remaining) : c' = c := by
  obtain ⟨source, line, remaining⟩ := c
  obtain ⟨source', line', remaining'⟩ := c'
  obtain ⟨rfl, rfl, -⟩ := h
  obtain rfl : remaining' = remaining := hremaining
  rfl

end Cursor

/-- An action that only advances the cursor in its state, also where it fails. -/
structure Advances {σ α : Type} (cursor : σ → Cursor) (m : EStateM Failure σ α) : Prop where
  ok : ∀ {s s' : σ} {a : α}, m s = .ok a s' → (cursor s).Advance (cursor s')
  error : ∀ {s s' : σ} {e : Failure}, m s = .error e s' → (cursor s).Advance (cursor s')

section Advances

variable {σ α β : Type} {cursor : σ → Cursor}

theorem Advances.bind {m : EStateM Failure σ α} {f : α → EStateM Failure σ β}
    (hm : Advances cursor m) (hf : ∀ a, Advances cursor (f a)) : Advances cursor (m >>= f) where
  ok h := by
    obtain ⟨a, t, h₁, h₂⟩ := bind_ok.1 h
    exact (hm.ok h₁).trans ((hf a).ok h₂)
  error h := by
    rcases bind_error.1 h with h | ⟨a, t, h₁, h₂⟩
    · exact hm.error h
    · exact (hm.ok h₁).trans ((hf a).error h₂)

theorem advances_pure (a : α) : Advances cursor (pure a) where
  ok h := by
    obtain ⟨-, rfl⟩ := pure_ok.1 h
    exact .refl _
  error h := by cases h

end Advances

/-! ## Readers -/

namespace Reading

abbrev Advances {α : Type} (r : Reading α) : Prop := Fabric.Advances id r

variable {α β : Type}

theorem advances_fail (p : Problem) : (Cursor.fail p : Reading α).Advances where
  ok h := by cases h
  error h := by
    cases h
    exact .refl _

theorem advances_take (what : String) : (Cursor.take what).Advances where
  ok h := by
    obtain ⟨rest, hr, rfl⟩ := Cursor.take_ok.1 h
    exact ⟨rfl, rfl, hr ▸ List.suffix_cons _ _⟩
  error {c c' e} h := by
    unfold Cursor.take at h
    cases hr : c.remaining with
    | nil =>
      rw [hr] at h
      exact (advances_fail _).error h
    | cons t rest =>
      rw [hr] at h
      cases h

theorem advances_skipRest : Cursor.skipRest.Advances where
  ok h := by
    cases h
    exact ⟨rfl, rfl, List.nil_suffix⟩
  error h := by cases h

theorem advances_expectEnd : Cursor.expectEnd.Advances where
  ok h := by
    obtain ⟨-, rfl⟩ := Cursor.expectEnd_ok.1 h
    exact .refl _
  error h := by
    unfold Cursor.expectEnd at h
    split at h
    · cases h
    · exact (advances_fail _).error h

theorem advances_peek : Cursor.peek.Advances where
  ok h := by
    cases h
    exact .refl _
  error h := by cases h

theorem advances_getKeyword : Cursor.getKeyword.Advances where
  ok h := by
    cases h
    exact .refl _
  error h := by cases h

theorem advances_getRemaining : Cursor.getRemaining.Advances where
  ok h := by
    cases h
    exact .refl _
  error h := by cases h

end Reading

theorem Advances.guard {α β : Type} {p : Prop} [Decidable p] {problem : Problem}
    {k : α → Reading β} {r : Reading β} (hk : ∀ a, (k a).Advances) (hr : r.Advances) :
    Reading.Advances (if p then Cursor.fail problem >>= k else r) := by
  split
  · exact (Reading.advances_fail _).bind hk
  · exact hr

namespace Scalar

open Reading

theorem advances_toInteger (what token : String) : (toInteger what token).Advances := by
  unfold toInteger
  split
  · exact advances_pure _
  · exact advances_fail _

theorem advances_toReal (what token : String) : (toReal what token).Advances := by
  unfold toReal
  split
  · exact advances_pure _
  · exact advances_fail _

theorem advances_positiveInteger : positiveInteger.Advances := by
  have hend : ∀ v : Int, (do Cursor.expectEnd; return v : Reading Int).Advances := fun v =>
    advances_expectEnd.bind fun _ => advances_pure v
  refine advances_getKeyword.bind fun what => (advances_take what).bind fun token => ?_
  exact (advances_toInteger what token).bind fun v => .guard (fun _ => hend v) (hend v)

theorem advances_real (bounds : Bounds) (name : Option String) : (real bounds name).Advances := by
  refine advances_getKeyword.bind fun _ => (advances_take _).bind fun token => ?_
  exact (advances_toReal _ token).bind fun x => .guard (fun _ => advances_pure x) (advances_pure x)

theorem advances_word (α : Type) [Vocabulary α] (name : Option String)
    (problem : String → String → List String → Problem) : (word α name problem).Advances := by
  refine advances_getKeyword.bind fun _ => (advances_take _).bind fun token => ?_
  cases Vocabulary.find? (α := α) token with
  | some a => exact advances_pure a
  | none => exact advances_fail _

theorem advances_wordStatement (α : Type) [Vocabulary α] : (wordStatement α).Advances :=
  (advances_word α _ _).bind fun a => advances_expectEnd.bind fun _ => advances_pure a

theorem advances_classId : classId.Advances := by
  have hnumber : ∀ v : Int, (pure v.toNat : Reading Nat).Advances := fun v => advances_pure _
  have hrest : (do
      let token ← Cursor.take "class number"
      let value ← toInteger "class number" token
      if value < 0 then Cursor.fail (.negativeClass value token)
      return value.toNat : Reading Nat).Advances :=
    (advances_take _).bind fun token => (advances_toInteger _ token).bind fun v =>
      .guard (fun _ => hnumber v) (hnumber v)
  exact (advances_take _).bind fun marker => .guard (fun _ => hrest) hrest

theorem advances_side (token : String) : (side token).Advances := by
  unfold side
  split
  · exact advances_pure _
  · exact advances_fail _

/-- A word is one operand, whatever the vocabulary. -/
theorem word_takes {α : Type} [Vocabulary α] {name : Option String}
    {problem : String → String → List String → Problem} {c c' : Cursor} {a : α}
    (h : word α name problem c = .ok a c') :
    ∃ token rest, c.remaining = token :: rest ∧ c' = { c with remaining := rest } := by
  simp only [word, bind_ok, Cursor.getKeyword_ok, Cursor.take_ok] at h
  obtain ⟨_, _, ⟨-, rfl⟩, token, _, ⟨rest, hr, rfl⟩, h⟩ := h
  cases hf : Vocabulary.find? (α := α) token with
  | none => simp [hf, Cursor.fail_ok] at h
  | some b =>
    simp only [hf, pure_ok] at h
    exact ⟨token, rest, hr, h.2.symm⟩

theorem wordStatement_takes {α : Type} [Vocabulary α] {c c' : Cursor} {a : α}
    (h : wordStatement α c = .ok a c') :
    ∃ token, c.remaining = [token] ∧ c' = { c with remaining := [] } := by
  simp only [wordStatement, bind_ok, Cursor.expectEnd_ok, pure_ok] at h
  obtain ⟨b, _, hword, _, _, ⟨hend, rfl⟩, -, rfl⟩ := h
  obtain ⟨token, rest, hr, rfl⟩ := word_takes hword
  simp only at hend
  subst hend
  exact ⟨token, hr, rfl⟩

end Scalar

/-! ## Channels -/

namespace Loading

abbrev Advances {α : Type} (m : Loading α) : Prop := Fabric.Advances Desk.cursor m

theorem advances_onLine {α : Type} {r : Reading α} (hr : r.Advances) : (onLine r).Advances where
  ok h := by
    obtain ⟨c, hc, rfl⟩ := onLine_ok.1 h
    exact hr.ok hc
  error {desk desk' e} h := by
    unfold onLine at h
    cases hrun : r desk.cursor with
    | ok a c =>
      rw [hrun] at h
      cases h
    | error e' c =>
      rw [hrun] at h
      cases h
      exact hr.error hrun

theorem advances_record : record.Advances where
  ok h := by
    rw [record_ok.1 h]
    exact .refl _
  error h := by cases h

theorem advances_channel : channel.Advances := by
  have hreal : ∀ bounds name, (onLine (Scalar.real bounds name)).Advances := fun bounds name =>
    advances_onLine (Scalar.advances_real bounds name)
  have hend : ∀ c : Channel Binary64, Advances (do onLine Cursor.expectEnd; return c) := fun c =>
    (advances_onLine Reading.advances_expectEnd).bind fun _ => advances_pure c
  refine (advances_onLine Reading.advances_getKeyword).bind fun keyword =>
    (advances_onLine (Scalar.advances_word Profile _ _)).bind fun profile =>
    advances_record.bind fun _ => ?_
  cases profile with
  | uniform => exact (hreal _ _).bind fun _ => (advances_pure _).bind hend
  | delta =>
    exact (hreal _ _).bind fun _ => (hreal _ _).bind fun _ => (hreal _ _).bind fun _ =>
      (advances_pure _).bind hend
  | gaussian | pulse =>
    exact (hreal _ _).bind fun _ => (hreal _ _).bind fun _ => (hreal _ _).bind fun _ =>
      (hreal _ _).bind fun _ => (advances_pure _).bind hend

/-- The channel of a line, read into a draft without pins. -/
def channelReading : Reading (Channel Binary64) := fun c =>
  match channel { cursor := c, draft := .start c.source ⟨[]⟩ } with
  | .ok channel desk => .ok channel desk.cursor
  | .error failure desk => .error failure desk.cursor

theorem channelReading_ok {c c' : Cursor} {a : Channel Binary64} :
    channelReading c = .ok a c' ↔ ∃ desk,
      channel { cursor := c, draft := .start c.source ⟨[]⟩ } = .ok a desk ∧ desk.cursor = c' := by
  unfold channelReading
  cases channel { cursor := c, draft := .start c.source ⟨[]⟩ } with
  | ok channel desk => simp
  | error e desk => simp

theorem channelReading_error {c c' : Cursor} {e : Failure} :
    channelReading c = .error e c' ↔ ∃ desk,
      channel { cursor := c, draft := .start c.source ⟨[]⟩ } = .error e desk ∧
        desk.cursor = c' := by
  unfold channelReading
  cases channel { cursor := c, draft := .start c.source ⟨[]⟩ } with
  | ok channel desk => simp
  | error e desk => simp

theorem advances_channelReading : channelReading.Advances where
  ok h := by
    obtain ⟨desk, hrun, rfl⟩ := channelReading_ok.1 h
    exact advances_channel.ok hrun
  error h := by
    obtain ⟨desk, hrun, rfl⟩ := channelReading_error.1 h
    exact advances_channel.error hrun

theorem channelReading_closes {c c' : Cursor} {a : Channel Binary64}
    (h : channelReading c = .ok a c') : c'.remaining = [] := by
  obtain ⟨desk, hrun, rfl⟩ := channelReading_ok.1 h
  rw [(channel_ok.1 hrun).2]
  rfl

end Loading

/-! ## Actions on a cursor -/

/-- The actions on a cursor: looks at it, its own moves and the readers of operands. -/
inductive CursorAction : Type 1 where
  | peek
  | remaining
  | keyword
  | take (what : String)
  | skipRest
  | expectEnd
  | positiveInteger
  | real (bounds : Bounds) (what : Option String)
  | word (α : Type) (vocabulary : Vocabulary α) (what : Option String)
    (problem : String → String → List String → Problem)
  | wordStatement (α : Type) (vocabulary : Vocabulary α)
  | classId
  | side (token : String)
  | channel

namespace CursorAction

/-- The reading of an action, without what it gives. -/
def reading : CursorAction → Reading Unit
  | .peek => discard Cursor.peek
  | .remaining => discard Cursor.getRemaining
  | .keyword => discard Cursor.getKeyword
  | .take what => discard (Cursor.take what)
  | .skipRest => Cursor.skipRest
  | .expectEnd => Cursor.expectEnd
  | .positiveInteger => discard Scalar.positiveInteger
  | .real bounds what => discard (Scalar.real bounds what)
  | .word α _ what problem => discard (Scalar.word α what problem)
  | .wordStatement α _ => discard (Scalar.wordStatement α)
  | .classId => discard Scalar.classId
  | .side token => discard (Scalar.side token)
  | .channel => discard Loading.channelReading

/-- The number of operands that are gone after a success, if that is fixed. -/
def taken? : CursorAction → Option Nat
  | .peek | .remaining | .keyword | .expectEnd | .side _ => some 0
  | .take _ | .positiveInteger | .real .. | .word .. | .wordStatement .. => some 1
  | .classId => some 2
  | .skipRest | .channel => none

/-- Whether no operand is left after a success. -/
def closes : CursorAction → Bool
  | .skipRest | .expectEnd | .positiveInteger | .wordStatement .. | .channel => true
  | .peek | .remaining | .keyword | .take _ | .real .. | .word .. | .classId | .side _ => false

/-- Whether a failure leaves the cursor as it was. -/
def failsInPlace : CursorAction → Bool
  | .peek | .remaining | .keyword | .take _ | .skipRest | .expectEnd | .side _ => true
  | .positiveInteger | .real .. | .word .. | .wordStatement .. | .classId | .channel => false

/-- The cursor after an action, whether it succeeded or failed. -/
def after (action : CursorAction) (c : Cursor) : Cursor :=
  match action.reading c with
  | .ok _ c' | .error _ c' => c'

/-- What an action does to a cursor. -/
structure Effect (action : CursorAction) (c : Cursor) : Prop where
  advance : c.Advance (action.after c)
  /-- An action that takes nothing leaves the cursor as it was, also if it fails. -/
  still : action.taken? = some 0 → action.after c = c
  taken : ∀ c' n, action.reading c = .ok () c' → action.taken? = some n →
    ∃ front, c.remaining = front ++ c'.remaining ∧ front.length = n
  closed : ∀ c', action.reading c = .ok () c' → action.closes = true → c'.remaining = []
  inPlace : ∀ e c', action.reading c = .error e c' → action.failsInPlace = true → c' = c

variable {α : Type}

theorem discard_ok {r : Reading α} {c c' : Cursor} :
    (discard r : Reading Unit) c = .ok () c' ↔ ∃ a, r c = .ok a c' := by
  change EStateM.map (fun _ => ()) r c = .ok () c' ↔ _
  unfold EStateM.map
  cases r c with
  | ok a t => simp
  | error e t => simp

theorem discard_error {r : Reading α} {c c' : Cursor} {e : Failure} :
    (discard r : Reading Unit) c = .error e c' ↔ r c = .error e c' := by
  change EStateM.map (fun _ => ()) r c = .error e c' ↔ _
  unfold EStateM.map
  cases r c with
  | ok a t => simp
  | error e t => simp

theorem advances_discard {r : Reading α} (hr : r.Advances) :
    Reading.Advances (discard r : Reading Unit) where
  ok h := by
    obtain ⟨a, ha⟩ := discard_ok.1 h
    exact hr.ok ha
  error h := hr.error (discard_error.1 h)

theorem advances_reading (action : CursorAction) : action.reading.Advances := by
  cases action with
  | peek => exact advances_discard Reading.advances_peek
  | remaining => exact advances_discard Reading.advances_getRemaining
  | keyword => exact advances_discard Reading.advances_getKeyword
  | take what => exact advances_discard (Reading.advances_take what)
  | skipRest => exact Reading.advances_skipRest
  | expectEnd => exact Reading.advances_expectEnd
  | positiveInteger => exact advances_discard Scalar.advances_positiveInteger
  | real bounds what => exact advances_discard (Scalar.advances_real bounds what)
  | word α vocabulary what problem => exact advances_discard (Scalar.advances_word α what problem)
  | wordStatement α vocabulary => exact advances_discard (Scalar.advances_wordStatement α)
  | classId => exact advances_discard Scalar.advances_classId
  | side token => exact advances_discard (Scalar.advances_side token)
  | channel => exact advances_discard Loading.advances_channelReading

variable {action : CursorAction} {c c' : Cursor}

/-- What is gone after a success, and whether anything is left. -/
theorem reading_ok (h : action.reading c = .ok () c') :
    (∀ n, action.taken? = some n →
      ∃ front, c.remaining = front ++ c'.remaining ∧ front.length = n) ∧
    (action.closes = true → c'.remaining = []) := by
  cases action with
  | peek | remaining | keyword =>
    cases h
    exact ⟨fun n hn => ⟨[], rfl, Option.some.inj hn⟩, fun h => by cases h⟩
  | take what =>
    obtain ⟨token, h⟩ := discard_ok.1 h
    obtain ⟨rest, hr, rfl⟩ := Cursor.take_ok.1 h
    exact ⟨fun n hn => ⟨[token], hr, Option.some.inj hn⟩, fun h => by cases h⟩
  | skipRest =>
    cases h
    exact ⟨nofun, fun _ => rfl⟩
  | expectEnd =>
    obtain ⟨hend, rfl⟩ := Cursor.expectEnd_ok.1 h
    exact ⟨fun n hn => ⟨[], rfl, Option.some.inj hn⟩, fun _ => hend⟩
  | positiveInteger =>
    obtain ⟨v, h⟩ := discard_ok.1 h
    obtain ⟨token, hr, -, -, rfl⟩ := Scalar.positiveInteger_ok.1 h
    exact ⟨fun n hn => ⟨[token], hr, Option.some.inj hn⟩, fun _ => rfl⟩
  | real bounds what =>
    obtain ⟨x, h⟩ := discard_ok.1 h
    obtain ⟨token, rest, hr, -, -, rfl⟩ := Scalar.real_ok.1 h
    exact ⟨fun n hn => ⟨[token], hr, Option.some.inj hn⟩, fun h => by cases h⟩
  | word α vocabulary what problem =>
    obtain ⟨a, h⟩ := discard_ok.1 h
    obtain ⟨token, rest, hr, rfl⟩ := Scalar.word_takes h
    exact ⟨fun n hn => ⟨[token], hr, Option.some.inj hn⟩, fun h => by cases h⟩
  | wordStatement α vocabulary =>
    obtain ⟨a, h⟩ := discard_ok.1 h
    obtain ⟨token, hr, rfl⟩ := Scalar.wordStatement_takes h
    exact ⟨fun n hn => ⟨[token], hr, Option.some.inj hn⟩, fun _ => rfl⟩
  | classId =>
    obtain ⟨k, h⟩ := discard_ok.1 h
    obtain ⟨token, rest, hr, -, rfl⟩ := Scalar.classId_ok.1 h
    exact ⟨fun n hn => ⟨[classMarker, token], hr, Option.some.inj hn⟩, fun h => by cases h⟩
  | side token =>
    obtain ⟨s, h⟩ := discard_ok.1 h
    obtain ⟨-, rfl⟩ := Scalar.side_ok.1 h
    exact ⟨fun n hn => ⟨[], rfl, Option.some.inj hn⟩, fun h => by cases h⟩
  | channel =>
    obtain ⟨a, h⟩ := discard_ok.1 h
    exact ⟨nofun, fun _ => Loading.channelReading_closes h⟩

/-- A look, a failed move and a side that is no side leave the cursor as it was. -/
theorem reading_error {e : Failure} (h : action.reading c = .error e c')
    (hstays : action.failsInPlace = true) : c' = c := by
  cases action with
  | peek | remaining | keyword | skipRest => cases h
  | take what =>
    have h : Cursor.take what c = .error e c' := discard_error.1 h
    unfold Cursor.take at h
    split at h
    · cases h
    · cases h
      rfl
  | expectEnd =>
    have h : Cursor.expectEnd c = .error e c' := h
    unfold Cursor.expectEnd at h
    split at h
    · cases h
    · cases h
      rfl
  | side token =>
    have h : Scalar.side token c = .error e c' := discard_error.1 h
    unfold Scalar.side at h
    cases hside : Vocabulary.find? (α := Side) token with
    | some side =>
      rw [hside] at h
      cases h
    | none =>
      rw [hside] at h
      cases h
      rfl
  | positiveInteger | real | word | wordStatement | classId | channel => cases hstays

theorem advance_after (action : CursorAction) (c : Cursor) : c.Advance (action.after c) := by
  unfold after
  cases hrun : action.reading c with
  | ok u c' => exact action.advances_reading.ok hrun
  | error e c' => exact action.advances_reading.error hrun

theorem after_still (h : action.taken? = some 0) : action.after c = c := by
  have hadvance := action.advance_after c
  have hstays : action.failsInPlace = true := by
    cases action with
    | peek | remaining | keyword | expectEnd | side => rfl
    | take | skipRest | positiveInteger | real | word | wordStatement | classId | channel => cases h
  unfold after at hadvance ⊢
  cases hrun : action.reading c with
  | ok u c' =>
    rw [hrun] at hadvance
    obtain ⟨front, hfront, hlength⟩ := (reading_ok hrun).1 0 h
    rw [List.length_eq_zero_iff.1 hlength, List.nil_append] at hfront
    exact hadvance.eq hfront.symm
  | error e c' => exact reading_error hrun hstays

theorem effect (action : CursorAction) (c : Cursor) : action.Effect c where
  advance := action.advance_after c
  still := after_still
  taken _ _ h := (reading_ok h).1 _
  closed _ h := (reading_ok h).2
  inPlace _ _ h := reading_error h

end CursorAction

end Fabric
