import Fabric.Proofs.Outcomes
import Fabric.Proofs.ReportLines
import Fabric.Proofs.Tokenizing

/-!
# What a fault quotes

A fault is worded with names of the library, with numerals and with tokens of its statement, and
none of them has a line boundary in it (`Problem.Plain.isUnbroken_details`). That the problem of
every failure is worded so is shown reader by reader (`Quotes`): a reader that starts on words takes
words and fails with a plain fault. So the report of a fault has the lines that its layout asks for,
whatever the text says (`parseText_report_lines`).
-/

namespace Fabric

open Text (IsUnbroken IsWord)

theorem LogicalLine.isWord_of_mem {text : String} {line : LogicalLine} (h : line ∈ ofText text) :
    ∀ token ∈ line.allTokens, IsWord token := by
  intro token htoken
  obtain ⟨hne, hplain⟩ := (keeps_ofText text).clean line h token htoken
  exact ⟨hne, fun c hc => (hplain c hc).1⟩

/-! ## Plain problems -/

namespace Problem

/-- What a problem quotes are words, and what it names has no line boundary. -/
def Plain : Problem → Prop
  | .missingValue what => IsUnbroken what
  | .trailingTokens extra => extra ≠ [] ∧ ∀ token ∈ extra, IsWord token
  | .notAnInteger what token | .notANumber what token | .outsideBounds what _ _ token =>
    IsUnbroken what ∧ IsWord token
  | .unknownWord what token allowed | .unknownDistribution what token allowed =>
    IsUnbroken what ∧ IsWord token ∧ ∀ word ∈ allowed, IsUnbroken word
  | .notPositive _ token | .noClassMarker token | .negativeClass _ token | .badSide token =>
    IsWord token
  | .mixedDirections _ | .noLocation _ | .classGap .. => True

variable {p : Problem} {keyword : String}

/-- Tokens that are put together have no line boundary, as a space is none. -/
theorem isUnbroken_extra {extra : List String} (h : ∀ token ∈ extra, IsWord token) :
    IsUnbroken (" ".intercalate extra) :=
  .intercalate (by decide) fun token htoken => (h token htoken).isUnbroken

/-- No wording of a plain problem breaks a line. -/
theorem Plain.isUnbroken_details (h : p.Plain) (hkeyword : IsWord keyword) :
    IsUnbroken (p.details keyword) := by
  have hkeyword := hkeyword.isUnbroken
  have hnumeral := fun n => (Numeral.isWord_text n).isUnbroken
  have hbrief := Binary64.isUnbroken_briefText
  -- Each wording is fixed parts with something between them; parts are put together by `append`.
  cases p with
  | missingValue =>
    exact .append (.append (.append (.append (.ofList (by decide)) h) (.ofList (by decide)))
      hkeyword) (.ofList (by decide))
  | trailingTokens =>
    exact .append (.append (.append (.ofList (by decide)) hkeyword) (.ofList (by decide)))
      (isUnbroken_extra h.2)
  | notAnInteger | notANumber =>
    exact .append (.append (.append (.append (.ofList (by decide)) h.1) (.ofList (by decide)))
      h.2.isUnbroken) (.ofList (by decide))
  | notPositive =>
    exact .append (.append (.append (.append (.ofList (by decide)) hkeyword) (.ofList (by decide)))
      (hnumeral _)) (.ofList (by decide))
  | outsideBounds =>
    exact .append (.append (.append (.append (.append (.append (.append (.append
      (.ofList (by decide)) h.1) (.ofList (by decide))) (hbrief _)) (.ofList (by decide)))
      (hbrief _)) (.ofList (by decide))) (hbrief _)) (.ofList (by decide))
  | unknownWord | unknownDistribution =>
    exact .append (.append (.append (.append (.append (.append (.ofList (by decide)) h.1)
      (.ofList (by decide))) h.2.1.isUnbroken) (.ofList (by decide)))
      (.intercalate (.ofList (by decide)) h.2.2)) (.ofList (by decide))
  | noClassMarker =>
    exact .append (.append (.append (.append (.append (.append (.ofList (by decide))
      (by decide)) (.ofList (by decide))) hkeyword) (.ofList (by decide))) (IsWord.isUnbroken h))
      (.ofList (by decide))
  | badSide =>
    exact .append (.append (.ofList (by decide)) (IsWord.isUnbroken h)) (.ofList (by decide))
  | negativeClass | mixedDirections | noLocation =>
    exact .append (.append (.ofList (by decide)) (hnumeral _)) (.ofList (by decide))
  | classGap =>
    exact .append (.append (.append (.append (.append (.ofList (by decide)) (hnumeral _))
      (.ofList (by decide))) (.ofList (by decide))) (hnumeral _)) (.ofList (by decide))

theorem details_ne_empty (p : Problem) (keyword : String) : p.details keyword ≠ "" := by
  intro h
  cases p with
  | trailingTokens =>
    have hfront := (String.append_eq_empty_iff.1 h).1
    exact absurd (String.append_eq_empty_iff.1 hfront).2 (by decide)
  | _ => exact absurd (String.append_eq_empty_iff.1 h).2 (by decide)

/-- What a report names as the field is the keyword or the class marker. -/
theorem isWord_field (p : Problem) (hkeyword : IsWord keyword) : IsWord (p.field keyword) := by
  have hmarker : IsWord classMarker := by decide
  cases p <;> first | exact hkeyword | exact hmarker

/-- What a report quotes of a plain problem is one line, and not an empty one. -/
theorem Plain.token (h : p.Plain) : ∀ token ∈ p.token?, token ≠ "" ∧ IsUnbroken token := by
  have hword : ∀ {token}, IsWord token → token ≠ "" ∧ IsUnbroken token :=
    fun h => ⟨h.ne_empty, h.isUnbroken⟩
  intro token htoken
  cases p with
  | missingValue | noLocation | classGap => cases htoken
  | trailingTokens extra =>
    cases htoken
    obtain ⟨hne, hwords⟩ := h
    refine ⟨fun hempty => ?_, isUnbroken_extra hwords⟩
    obtain ⟨first, rest, rfl⟩ := List.exists_cons_of_ne_nil hne
    have hfirst := (hwords first List.mem_cons_self).ne_empty
    cases rest <;> simp_all
  | notAnInteger | notANumber | outsideBounds =>
    cases htoken
    exact hword h.2
  | unknownWord | unknownDistribution =>
    cases htoken
    exact hword h.2.1
  | notPositive | noClassMarker | negativeClass | badSide =>
    cases htoken
    exact hword h
  | mixedDirections =>
    cases htoken
    exact hword (Numeral.isWord_text _)

end Problem

/-- A fault of a source with a plain problem of a statement. -/
structure Fault.Plain (f : Fault) (source : String) : Prop where
  source_eq : f.source = source
  keyword : IsWord f.keyword
  problem : f.problem.Plain

/-- If a failure is a fault, it is a plain one. -/
def Failure.Plain (e : Failure) (source : String) : Prop := ∀ f, e = .fault f → f.Plain source

theorem Failure.plain_defect (d : Defect) (source : String) : (Failure.defect d).Plain source :=
  fun _ h => by cases h

theorem Failure.plain_ofFault {f : Fault} {source : String} (h : f.Plain source) :
    (ofFault f).Plain source := by
  unfold ofFault
  split
  · intro f' heq
    cases heq
    exact h
  · exact plain_defect _ _

/-! ## Readers -/

/-- A cursor on a statement of a source, of which all tokens left are words. -/
structure Cursor.OnWords (c : Cursor) (source : String) : Prop where
  source_eq : c.source = source
  keyword : IsWord c.keyword
  remaining : ∀ token ∈ c.remaining, IsWord token

theorem LogicalLine.onWords {line : LogicalLine} (h : ∀ token ∈ line.allTokens, IsWord token)
    (source : String) : (line.cursor source).OnWords source :=
  ⟨rfl, h _ List.mem_cons_self, fun token htoken => h token (List.mem_cons_of_mem _ htoken)⟩

/-- An action that, on the words of a statement, leaves words and gives a value with a property, or
fails with a plain fault of the statement. -/
structure Quotes {σ α : Type} (cursor : σ → Cursor) (P : α → Prop) (m : EStateM Failure σ α) :
    Prop where
  ok : ∀ {source : String} {s s' : σ} {a : α}, (cursor s).OnWords source → m s = .ok a s' →
    (cursor s').OnWords source ∧ P a
  error : ∀ {source : String} {s s' : σ} {e : Failure}, (cursor s).OnWords source →
    m s = .error e s' → e.Plain source

section Quotes

variable {σ α β : Type} {cursor : σ → Cursor} {P : α → Prop} {Q : β → Prop}

theorem Quotes.bind {m : EStateM Failure σ α} {f : α → EStateM Failure σ β}
    (hm : Quotes cursor P m) (hf : ∀ a, P a → Quotes cursor Q (f a)) :
    Quotes cursor Q (m >>= f) where
  ok hs h := by
    obtain ⟨a, t, h₁, h₂⟩ := bind_ok.1 h
    obtain ⟨ht, ha⟩ := hm.ok hs h₁
    exact (hf a ha).ok ht h₂
  error hs h := by
    rcases bind_error.1 h with h | ⟨a, t, h₁, h₂⟩
    · exact hm.error hs h
    · obtain ⟨ht, ha⟩ := hm.ok hs h₁
      exact (hf a ha).error ht h₂

theorem quotes_pure {a : α} (h : P a) : Quotes cursor P (pure a) where
  ok hs hrun := by
    obtain ⟨rfl, rfl⟩ := pure_ok.1 hrun
    exact ⟨hs, h⟩
  error _ hrun := by cases hrun

/-- Nothing is asked of what is given. -/
abbrev Quoting {σ α : Type} (cursor : σ → Cursor) (m : EStateM Failure σ α) : Prop :=
  Quotes cursor (fun _ => True) m

theorem quoting_pure (a : α) : Quoting cursor (pure a) := quotes_pure trivial

end Quotes

namespace Reading

abbrev Quotes {α : Type} (P : α → Prop) (r : Reading α) : Prop := Fabric.Quotes id P r

abbrev Quoting {α : Type} (r : Reading α) : Prop := Fabric.Quoting id r

variable {α β : Type} {P : α → Prop}

theorem quotes_fail {p : Problem} (h : p.Plain) : (Cursor.fail p : Reading α).Quotes P where
  ok _ hrun := by cases hrun
  error hs hrun := by
    cases hrun
    exact Failure.plain_ofFault ⟨hs.source_eq, hs.keyword, h⟩

theorem quotes_getKeyword : Cursor.getKeyword.Quotes IsWord where
  ok hs hrun := by
    cases hrun
    exact ⟨hs, hs.keyword⟩
  error _ hrun := by cases hrun

theorem quotes_getRemaining : Cursor.getRemaining.Quotes (∀ token ∈ ·, IsWord token) where
  ok hs hrun := by
    cases hrun
    exact ⟨hs, hs.remaining⟩
  error _ hrun := by cases hrun

theorem quotes_peek : Cursor.peek.Quoting where
  ok hs hrun := by
    cases hrun
    exact ⟨hs, trivial⟩
  error _ hrun := by cases hrun

theorem quotes_take {what : String} (h : IsUnbroken what) : (Cursor.take what).Quotes IsWord where
  ok {source c c' token} hs hrun := by
    obtain ⟨rest, hr, rfl⟩ := Cursor.take_ok.1 hrun
    have hwords := hs.remaining
    rw [id, hr] at hwords
    obtain ⟨htoken, hrest⟩ := List.forall_mem_cons.1 hwords
    exact ⟨⟨hs.source_eq, hs.keyword, hrest⟩, htoken⟩
  error {source c c' e} hs hrun := by
    unfold Cursor.take at hrun
    cases hr : c.remaining with
    | nil =>
      rw [hr] at hrun
      exact (quotes_fail (P := fun _ : String => True) (p := .missingValue what) h).error hs hrun
    | cons token rest =>
      rw [hr] at hrun
      cases hrun

theorem quotes_skipRest : Cursor.skipRest.Quoting where
  ok hs hrun := by
    cases hrun
    exact ⟨⟨hs.source_eq, hs.keyword, List.forall_mem_nil _⟩, trivial⟩
  error _ hrun := by cases hrun

theorem quotes_expectEnd : Cursor.expectEnd.Quoting where
  ok hs hrun := by
    obtain ⟨-, rfl⟩ := Cursor.expectEnd_ok.1 hrun
    exact ⟨hs, trivial⟩
  error {source c c' e} hs hrun := by
    unfold Cursor.expectEnd at hrun
    split at hrun
    · cases hrun
    · rename_i hleft
      have hplain : (Problem.trailingTokens c.remaining).Plain :=
        ⟨fun hnil => hleft (List.isEmpty_iff.2 hnil), hs.remaining⟩
      exact (quotes_fail (P := fun _ : Unit => True) hplain).error hs hrun

theorem quotes_guard {p : Prop} [Decidable p] {problem : Problem} {k : α → Reading β}
    {r : Reading β} (h : problem.Plain) (hk : ∀ a, (k a).Quoting) (hr : r.Quoting) :
    Reading.Quoting (if p then Cursor.fail problem >>= k else r) := by
  split
  · exact (quotes_fail (P := fun _ => True) h).bind fun a _ => hk a
  · exact hr

end Reading

namespace Scalar

open Reading

variable {what token : String}

theorem quotes_toInteger (hwhat : IsUnbroken what) (htoken : IsWord token) :
    (toInteger what token).Quoting := by
  unfold toInteger
  split
  · exact quoting_pure _
  · exact quotes_fail ⟨hwhat, htoken⟩

theorem quotes_toReal (hwhat : IsUnbroken what) (htoken : IsWord token) :
    (toReal what token).Quoting := by
  unfold toReal
  split
  · exact quoting_pure _
  · exact quotes_fail ⟨hwhat, htoken⟩

theorem quotes_positiveInteger : positiveInteger.Quoting := by
  have hend : ∀ v : Int, (do Cursor.expectEnd; return v : Reading Int).Quoting := fun v =>
    quotes_expectEnd.bind fun _ _ => quoting_pure v
  refine quotes_getKeyword.bind fun what hwhat => ?_
  refine (quotes_take hwhat.isUnbroken).bind fun token htoken => ?_
  exact (quotes_toInteger hwhat.isUnbroken htoken).bind fun v _ =>
    quotes_guard htoken (fun _ => hend v) (hend v)

/-- The name of an operand, or else the keyword, has no line boundary. -/
theorem isUnbroken_name {name : Option String} {keyword : String} (hname : ∀ n ∈ name, IsUnbroken n)
    (hkeyword : IsWord keyword) : IsUnbroken (name.getD keyword) := by
  cases name with
  | none => exact hkeyword.isUnbroken
  | some n => exact hname n rfl

theorem quotes_real (bounds : Bounds) {name : Option String} (hname : ∀ n ∈ name, IsUnbroken n) :
    (real bounds name).Quoting := by
  refine quotes_getKeyword.bind fun keyword hkeyword => ?_
  have hwhat := isUnbroken_name hname hkeyword
  refine (quotes_take hwhat).bind fun token htoken => ?_
  exact (quotes_toReal hwhat htoken).bind fun x _ =>
    quotes_guard ⟨hwhat, htoken⟩ (fun _ => quoting_pure x) (quoting_pure x)

theorem quotes_word (α : Type) [Vocabulary α] {name : Option String}
    {problem : String → String → List String → Problem} (hname : ∀ n ∈ name, IsUnbroken n)
    (hproblem : ∀ {what token}, IsUnbroken what → IsWord token →
      (problem what token (Vocabulary.words α)).Plain) : (word α name problem).Quoting := by
  refine quotes_getKeyword.bind fun keyword hkeyword => ?_
  have hwhat := isUnbroken_name hname hkeyword
  refine (quotes_take hwhat).bind fun token htoken => ?_
  cases Vocabulary.find? (α := α) token with
  | some a => exact quoting_pure a
  | none => exact quotes_fail (hproblem hwhat htoken)

theorem quotes_wordStatement (α : Type) [Vocabulary α]
    (h : ∀ word ∈ Vocabulary.words α, IsUnbroken word) : (wordStatement α).Quoting := by
  have hplain : ∀ {what token}, IsUnbroken what → IsWord token →
      (Problem.unknownWord what token (Vocabulary.words α)).Plain :=
    fun hwhat htoken => ⟨hwhat, htoken, h⟩
  exact (quotes_word α (by simp) hplain).bind fun a _ =>
    quotes_expectEnd.bind fun _ _ => quoting_pure a

theorem quotes_classId : classId.Quoting := by
  have hnumber : ∀ v : Int, (pure v.toNat : Reading Nat).Quoting := fun v => quoting_pure _
  have hrest : (do
      let token ← Cursor.take "class number"
      let value ← toInteger "class number" token
      if value < 0 then Cursor.fail (.negativeClass value token)
      return value.toNat : Reading Nat).Quoting :=
    (quotes_take (by decide)).bind fun token htoken =>
      (quotes_toInteger (by decide) htoken).bind fun v _ =>
        quotes_guard htoken (fun _ => hnumber v) (hnumber v)
  exact (quotes_take (by decide)).bind fun marker hmarker =>
    quotes_guard hmarker (fun _ => hrest) hrest

theorem quotes_side (htoken : IsWord token) : (side token).Quoting := by
  unfold side
  split
  · exact quoting_pure _
  · exact quotes_fail htoken

end Scalar

/-! ## Statements -/

namespace Loading

abbrev Quotes {α : Type} (P : α → Prop) (m : Loading α) : Prop := Fabric.Quotes Desk.cursor P m

abbrev Quoting {α : Type} (m : Loading α) : Prop := Fabric.Quoting Desk.cursor m

variable {α : Type} {P : α → Prop}

theorem quotes_onLine {r : Reading α} (hr : r.Quotes P) : (onLine r).Quotes P where
  ok hs hrun := by
    obtain ⟨c, hc, rfl⟩ := onLine_ok.1 hrun
    exact hr.ok hs hc
  error {source desk desk' e} hs hrun := by
    unfold onLine at hrun
    cases hread : r desk.cursor with
    | ok a c =>
      rw [hread] at hrun
      cases hrun
    | error e' c =>
      rw [hread] at hrun
      cases hrun
      exact hr.error hs hread

theorem quotes_change (f : Draft → Draft) : (change f).Quoting where
  ok hs hrun := by
    cases hrun
    exact ⟨hs, trivial⟩
  error _ hrun := by cases hrun

theorem quotes_fromTables (f : PinTables → Except Defect α) : (fromTables f).Quoting where
  ok {source desk desk' a} hs hrun := by
    obtain ⟨-, rfl⟩ := fromTables_ok.1 hrun
    exact ⟨hs, trivial⟩
  error {source desk desk' e} _ hrun := by
    unfold fromTables at hrun
    split at hrun
    · cases hrun
    · cases hrun
      exact Failure.plain_defect _ _

theorem quotes_onTables (f : PinTables → Except Defect PinTables) : (onTables f).Quoting :=
  (quotes_fromTables f).bind fun _ _ => quotes_change _

theorem quotes_record : record.Quoting where
  ok hs hrun := by
    cases hrun
    exact ⟨hs, trivial⟩
  error _ hrun := by cases hrun

theorem quotes_nextPin : nextPin.Quoting where
  ok hs hrun := by
    cases hrun
    exact ⟨hs, trivial⟩
  error _ hrun := by cases hrun

theorem quotes_expectEnd : (onLine Cursor.expectEnd).Quoting :=
  quotes_onLine Reading.quotes_expectEnd

theorem quotes_channel : channel.Quoting := by
  have hreal : ∀ bounds name, IsUnbroken name →
      (onLine (Scalar.real bounds (some name))).Quoting := fun bounds name hname =>
    quotes_onLine (Scalar.quotes_real bounds (by simpa using hname))
  have hpeak := fun bounds => hreal bounds "peak" (by decide)
  have hxpeak := hreal .fraction "xpeak" (by decide)
  have hdc := hreal .fraction "dc" (by decide)
  have hend : ∀ c : Channel Binary64, Quoting (do onLine Cursor.expectEnd; return c) := fun c =>
    quotes_expectEnd.bind fun _ _ => quoting_pure c
  refine (quotes_onLine Reading.quotes_getKeyword).bind fun keyword hkeyword => ?_
  have hname : IsUnbroken (keyword ++ " distribution") := hkeyword.isUnbroken.append (by decide)
  have hplain : ∀ {what token}, IsUnbroken what → IsWord token →
      (Problem.unknownDistribution what token (Vocabulary.words Profile)).Plain :=
    fun hwhat htoken => ⟨hwhat, htoken, by decide⟩
  refine (quotes_onLine (Scalar.quotes_word Profile (by simpa using hname) hplain)).bind
    fun profile _ => ?_
  refine quotes_record.bind fun _ _ => ?_
  cases profile with
  | uniform => exact (hpeak _).bind fun _ _ => (quoting_pure _).bind fun c _ => hend c
  | delta =>
    exact (hpeak _).bind fun _ _ => hxpeak.bind fun _ _ => hdc.bind fun _ _ =>
      (quoting_pure _).bind fun c _ => hend c
  | gaussian | pulse =>
    exact (hpeak _).bind fun _ _ => (hreal _ "width" (by decide)).bind fun _ _ =>
      hxpeak.bind fun _ _ => hdc.bind fun _ _ => (quoting_pure _).bind fun c _ => hend c

theorem quotes_checkDirection (classId : Nat) (direction : Direction) :
    (checkDirection classId direction).Quoting := by
  refine (quotes_fromTables _).bind fun recorded? _ => ?_
  cases recorded? with
  | none => exact quotes_onTables _
  | some recorded =>
    simp only
    split
    · exact quotes_onLine (Reading.quotes_fail (p := .mixedDirections classId) trivial)
    · exact quoting_pure _

/-- The sides of a pin are read from words that were taken before. -/
theorem quotes_sides (pin : Nat) : (sides pin).Quoting := by
  have heach : ∀ tokens : List String, (∀ token ∈ tokens, IsWord token) →
      Quoting (tokens.forM fun token => do
        let side ← onLine (Scalar.side token)
        onTables (·.addSide pin side)) := by
    intro tokens htokens
    induction tokens with
    | nil => exact quoting_pure _
    | cons token tokens ih =>
      obtain ⟨htoken, htokens⟩ := List.forall_mem_cons.1 htokens
      exact ((quotes_onLine (Scalar.quotes_side htoken)).bind fun _ _ =>
        quotes_onTables _).bind fun _ _ => ih htokens
  have hrest : Quoting (do
      let remaining ← onLine Cursor.getRemaining
      remaining.forM fun token => do
        let side ← onLine (Scalar.side token)
        onTables (·.addSide pin side)
      onLine Cursor.skipRest) :=
    (quotes_onLine Reading.quotes_getRemaining).bind fun remaining hremaining =>
      (heach remaining hremaining).bind fun _ _ => quotes_onLine Reading.quotes_skipRest
  refine (quotes_onLine Reading.quotes_peek).bind fun first _ => ?_
  split
  · exact (quotes_onLine (Reading.quotes_fail (P := fun _ => True) (p := .noLocation pin)
      trivial)).bind fun _ _ => hrest
  · exact hrest

theorem quotes_pin (direction : Direction) : (pin direction).Quoting :=
  quotes_nextPin.bind fun pin _ => (quotes_onLine Scalar.quotes_classId).bind fun classId _ =>
    (quotes_checkDirection classId direction).bind fun _ _ => (quotes_onTables _).bind fun _ _ =>
      (quotes_onTables _).bind fun _ _ => (quotes_sides pin).bind fun _ _ =>
        (quotes_change _).bind fun _ _ => quotes_record

theorem quotes_integer (set : Int → Draft → Draft) : (integer set).Quoting :=
  (quotes_onLine Scalar.quotes_positiveInteger).bind fun _ _ =>
    (quotes_change _).bind fun _ _ => quotes_record

theorem quotes_word (α : Type) [Vocabulary α] (set : α → Draft → Draft)
    (h : ∀ word ∈ Vocabulary.words α, IsUnbroken word) : (word α set).Quoting :=
  (quotes_onLine (Scalar.quotes_wordStatement α h)).bind fun _ _ =>
    (quotes_change _).bind fun _ _ => quotes_record

theorem quotes_real (bounds : Bounds) (set : Binary64 → Draft → Draft) :
    (real bounds set).Quoting :=
  (quotes_onLine (Scalar.quotes_real bounds (by simp))).bind fun _ _ =>
    (quotes_change _).bind fun _ _ => quotes_expectEnd.bind fun _ _ => quotes_record

theorem quotes_statement (f : Field) : (statement f).Quoting := by
  cases f with
  | ioRat | subblocksPerCluster | subblockLutSize => exact quotes_integer _
  | chanWidthX | chanWidthY => exact quotes_channel.bind fun _ _ => quotes_change _
  | chanWidthIo | fcOutput | fcInput | fcPad => exact quotes_real _ _
  | outpin | inpin => exact quotes_pin _
  | fcType | switchBlockType => exact quotes_word _ _ (by decide)

end Loading

/-! ## Texts -/

section Texts

variable {text source : String} {e : Failure} {lines : List LogicalLine}

theorem Draft.enter_plain {draft draft' : Draft} {line : LogicalLine}
    (hwords : ∀ token ∈ line.allTokens, IsWord token) (h : draft.enter line = .error e draft') :
    e.Plain draft.source := by
  unfold enter at h
  split at h
  · cases h
  · rename_i field _
    split at h
    · cases h
    · rename_i failure desk hrun
      cases h
      have hcursor := LogicalLine.onWords hwords draft.source
      exact (Loading.quotes_statement field).error hcursor hrun

theorem Census.citedClasses_plain {halt : Halt}
    (hwords : ∀ line ∈ lines, ∀ token ∈ line.allTokens, IsWord token)
    (h : citedClasses source lines = .error halt) : halt.failure.Plain source := by
  induction lines with
  | nil => cases h
  | cons line rest ih =>
    obtain ⟨hline, hrest⟩ := List.forall_mem_cons.1 hwords
    unfold citedClasses at h
    split at h
    · split at h
      · cases hcited : citedClasses source rest with
        | ok cited =>
          rw [hcited] at h
          cases h
        | error halt' =>
          rw [hcited] at h
          cases h
          exact ih hrest hcited
      · rename_i failure cursor hread
        cases h
        exact Scalar.quotes_classId.error (LogicalLine.onWords hline source) hread
    · exact ih hrest h

theorem Census.ofCited_plain {lastLine : Nat} {cited : List Nat}
    (h : ofCited source lastLine cited = .error e) : e.Plain source := by
  unfold ofCited at h
  simp only at h
  split at h
  · cases h
  · split at h
    · have hmarker : IsWord classMarker := by decide
      rw [← Except.error.inj h]
      exact Failure.plain_ofFault ⟨rfl, hmarker, trivial⟩
    · rw [← Except.error.inj h]
      exact Failure.plain_defect _ _

/-- A text fails to load with a plain fault, if with a fault. -/
theorem Stream.draft_plain (h : (Stream.ofText text source).draft = .error e) :
    e.Plain source := by
  have hwords : ∀ line ∈ LogicalLine.ofText text, ∀ token ∈ line.allTokens, IsWord token :=
    fun line hline => LogicalLine.isWord_of_mem hline
  cases hdiscover : (Stream.ofText text source).discover.1 with
  | error e' =>
    cases (Stream.draft_of_discover hdiscover).symm.trans h
    rw [Stream.discover_ofText] at hdiscover
    cases hcited : Census.citedClasses source (LogicalLine.ofText text) with
    | error halt =>
      rw [hcited] at hdiscover
      cases hdiscover
      exact Census.citedClasses_plain hwords hcited
    | ok cited =>
      rw [hcited] at hdiscover
      exact Census.ofCited_plain hdiscover
  | ok census =>
    obtain ⟨cited, hcited, hcounts⟩ := Stream.discover_counts hdiscover
    rw [Stream.draft_of_census hdiscover] at h
    generalize hrun : (Draft.start source census).enterAll (LogicalLine.ofText text) = entered at h
    obtain ⟨d, _ | halt⟩ := entered
    · cases h
    · cases h
      obtain ⟨before, line, after, d₁, hsplit, hbefore, henter⟩ :=
        Draft.enterAll_halt (congrArg Draft.Entered.halt hrun)
      obtain ⟨rows, hd⟩ := Draft.holds_of_enterAll hcounts hcited hsplit hbefore
      have hline : line ∈ LogicalLine.ofText text := by simp [hsplit]
      exact hd.source ▸ Draft.enter_plain (hwords line hline) henter

end Texts

/-! ## Reports -/

namespace FaultKind

theorem isUnbroken_title (k : FaultKind) : IsUnbroken k.title := by
  cases k <;> exact .ofList (by decide)

theorem suggestion_ne_empty (k : FaultKind) : k.suggestion ≠ "" := by
  cases k <;> decide

theorem isUnbroken_suggestion (k : FaultKind) : IsUnbroken k.suggestion := by
  cases k <;> exact .ofList (by decide)

end FaultKind

/-- The layout of the report of an error on a line of a source. -/
def LocatedError.reportLines (e : LocatedError) (source : String) (line : Nat) : List String :=
  ["", "", Report.banner, "Error Type:     " ++ e.kind.title] ++
    (if source = "" then [] else ["Source File:    " ++ source]) ++
    ["Line:           " ++ Numeral.text line] ++
    (e.field.map ("Field:          " ++ ·)).toList ++
    (e.token.map fun token => "User Input:     '" ++ token ++ "'").toList ++
    ["", "Details:", "  " ++ e.details, "", "Suggestion:", "  " ++ e.kind.suggestion, Report.rule]

namespace Fault.Plain

variable {f : Fault} {source : String} (h : f.Plain source)

include h

theorem hasPlainHeader (hsource : IsUnbroken source) :
    f.toLocatedError.report.HasPlainHeader where
  title := f.problem.kind.isUnbroken_title
  source := by
    rintro _ ⟨⟩
    exact h.source_eq ▸ hsource
  line := by
    rintro _ ⟨⟩
    exact (Numeral.isWord_text _).isUnbroken
  field := by
    rintro _ ⟨⟩
    exact (f.problem.isWord_field h.keyword).isUnbroken
  input token htoken := (h.problem.token token htoken).2

/-- A plain fault is shown on the lines of its layout. -/
theorem shownLines_eq : f.toLocatedError.report.shownLines =
    f.toLocatedError.reportLines source f.line := by
  have hdetails : Report.indented f.details = ["  " ++ f.details] :=
    Report.indented_of_isUnbroken (f.problem.details_ne_empty f.keyword)
      (h.problem.isUnbroken_details h.keyword)
  have hsuggestion : (if f.problem.kind.suggestion.isEmpty then [] else
      "" :: "Suggestion:" :: Report.indented f.problem.kind.suggestion) =
        ["", "Suggestion:", "  " ++ f.problem.kind.suggestion] := by
    have hne := f.problem.kind.suggestion_ne_empty
    rw [if_neg (by simpa using hne),
      Report.indented_of_isUnbroken hne f.problem.kind.isUnbroken_suggestion]
  have hfield : Report.headerLine "Field:          " (some (f.problem.field f.keyword)) =
      ["Field:          " ++ f.problem.field f.keyword] := by
    rw [Report.headerLine_some, if_neg (f.problem.isWord_field h.keyword).ne_empty]
  have hinput : Report.headerLine "User Input:     "
      ((f.problem.token?.filter (!·.isEmpty)).map fun token => "'" ++ token ++ "'") =
        (f.problem.token?.map fun token => "User Input:     '" ++ token ++ "'").toList := by
    cases htoken : f.problem.token? with
    | none => rfl
    | some token =>
      have hne := (h.problem.token token htoken).1
      have hquoted : "User Input:     " ++ ("'" ++ token ++ "'") =
          "User Input:     '" ++ token ++ "'" := by
        rw [String.append_assoc, ← String.append_assoc, String.append_assoc]
        rfl
      simp [Report.headerLine, Option.filter, hne, hquoted]
  unfold Report.shownLines LocatedError.reportLines
  simp only [LocatedError.report, toLocatedError, hdetails, hsuggestion, hfield, hinput,
    Report.headerLine_some, h.source_eq]
  simp

end Fault.Plain

/-- Nothing that a text says breaks or forges a line of the report of its fault: the details have no
line boundary, and the report has the lines of its layout and no others. -/
theorem parseText_report_lines {text source : String} {routing : Routing} {f : Fault}
    (hsource : IsUnbroken source) (h : parseText text source routing = .error (.fault f)) :
    IsUnbroken f.toLocatedError.details ∧
      Text.reportLines f.toLocatedError.report.render.toList =
        (f.toLocatedError.reportLines source f.line).map String.toList := by
  have hplain : f.Plain source := Stream.draft_plain (parseText_fault.1 h) f rfl
  refine ⟨hplain.problem.isUnbroken_details hplain.keyword, ?_⟩
  rw [Report.reportLines_render (hplain.hasPlainHeader hsource), hplain.shownLines_eq]

/-- Blanks between tokens are quoted as one space, also those that end a line of a report, and a
zero-width space is part of a token. -/
theorem report_lines_trailing : ∃ f,
    parseText "io_rat 2\x0bDetails:\u2028x\u200by" "fpga.arch" .global = .error (.fault f) ∧
      f.toLocatedError.token = some "Details: x\u200by" ∧ IsUnbroken f.toLocatedError.details ∧
      Text.reportLines f.toLocatedError.report.render.toList =
        (f.toLocatedError.reportLines "fpga.arch" 1).map String.toList := by
  let f : Fault := ⟨"fpga.arch", 1, "io_rat", .trailingTokens ["Details:", "x\u200by"]⟩
  have hf : parseText "io_rat 2\x0bDetails:\u2028x\u200by" "fpga.arch" .global =
      .error (.fault f) := parseText_fault.2 (by decide +kernel)
  have htoken : f.toLocatedError.token = some "Details: x\u200by" := by decide
  exact ⟨f, hf, htoken, parseText_report_lines (by decide) hf⟩

end Fabric
