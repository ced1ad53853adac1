import Fabric.Proofs.Census
import Fabric.Proofs.Loading

/-!
# Entering lines into a draft

A pin statement is loaded exactly when its line declares a pin and the pin can be entered in the
tables (`Loading.pin_ok`). So a line is entered in exactly one of three ways: it is no statement and
is passed over, it spells a value that is assigned, or it declares a pin (`Draft.enter_ok`).
-/

namespace Fabric

namespace Loading

variable {desk desk' : Desk} {u : Unit}

/-! ## Pin statements -/

theorem checkDirection_ok {c : Nat} {d : Direction} : checkDirection c d desk = .ok u desk' ↔
    ∃ t, desk.draft.tables.Opens c d t ∧ desk' = { desk with draft.tables := t } := by
  simp only [checkDirection, bind_ok, fromTables_ok]
  constructor
  · rintro ⟨recorded, _, ⟨hd, rfl⟩, h⟩
    cases recorded with
    | none =>
      obtain ⟨t, ht, rfl⟩ := onTables_ok.1 h
      exact ⟨t, .inl ⟨hd, ht⟩, rfl⟩
    | some recorded =>
      simp only [ne_eq] at h
      split at h
      · simp [onLine_ok, Cursor.fail_ok] at h
      · rename_i heq
        rw [not_not.1 heq] at hd
        obtain ⟨-, rfl⟩ := pure_ok.1 h
        exact ⟨_, .inr ⟨hd, rfl⟩, rfl⟩
  · rintro ⟨t, ⟨hd, ht⟩ | ⟨hd, rfl⟩, rfl⟩
    · exact ⟨none, _, ⟨hd, rfl⟩, onTables_ok.2 ⟨t, ht, rfl⟩⟩
    · refine ⟨some d, _, ⟨hd, rfl⟩, ?_⟩
      simp [pure_ok]

/-- The loop over side tokens: each names a side, and the sides are added in order. -/
theorem addSides_ok {pin : Nat} : ∀ {tokens : List String} {desk : Desk},
    (tokens.forM fun token => do
      let side ← onLine (Scalar.side token)
      onTables (·.addSide pin side)) desk = .ok u desk' ↔
    ∃ sides t, tokens = sides.map Vocabulary.word ∧ desk.draft.tables.addSides pin sides = .ok t ∧
      desk' = { desk with draft.tables := t } := by
  intro tokens
  induction tokens with
  | nil =>
    intro desk
    simp only [List.forM, pure_ok]
    constructor
    · rintro ⟨-, rfl⟩
      exact ⟨[], _, rfl, rfl, rfl⟩
    · rintro ⟨sides, t, hsides, ht, rfl⟩
      rw [List.map_eq_nil_iff.1 hsides.symm] at ht
      cases ht
      exact ⟨trivial, rfl⟩
  | cons token tokens ih =>
    intro desk
    simp only [List.forM, bind_ok, ih, onLine_ok, onTables_ok, Scalar.side_ok]
    constructor
    · rintro ⟨_, _, ⟨side, _, ⟨_, ⟨rfl, rfl⟩, rfl⟩, t₁, ht₁, rfl⟩, sides, t, rfl, ht, rfl⟩
      refine ⟨side :: sides, t, rfl, ?_, rfl⟩
      unfold PinTables.addSides at ht ⊢
      rw [List.foldlM_cons, ht₁]
      exact ht
    · rintro ⟨sides, t, hsides, ht, rfl⟩
      obtain ⟨side, sides, rfl, rfl, rfl⟩ := List.map_eq_cons_iff.1 hsides.symm
      unfold PinTables.addSides at ht
      rw [List.foldlM_cons] at ht
      cases ht₁ : desk.draft.tables.addSide pin side with
      | error e =>
        rw [ht₁] at ht
        cases ht
      | ok t₁ =>
        rw [ht₁] at ht
        exact ⟨(), _, ⟨side, _, ⟨_, ⟨rfl, rfl⟩, rfl⟩, t₁, ht₁, rfl⟩, sides, t, rfl, ht, rfl⟩

theorem guard_ok {α β : Type} {p : Prop} [Decidable p] {problem : Problem} {k : α → Loading β}
    {r : Loading β} {b : β} :
    (if p then onLine (Cursor.fail problem) >>= k else r) desk = .ok b desk' ↔
      ¬ p ∧ r desk = .ok b desk' := by
  split
  · simp [bind_ok, onLine_ok, Cursor.fail_ok, *]
  · simp [*]

theorem peek_ok {token? : Option String} : onLine Cursor.peek desk = .ok token? desk' ↔
    desk.cursor.remaining.head? = token? ∧ desk = desk' := by
  simp [onLine, Cursor.peek]

theorem skipRest_ok : onLine Cursor.skipRest desk = .ok u desk' ↔
    desk' = { desk with cursor.remaining := [] } := by
  simp [onLine, Cursor.skipRest, eq_comm]

theorem getRemaining_ok {tokens : List String} :
    onLine Cursor.getRemaining desk = .ok tokens desk' ↔
      desk.cursor.remaining = tokens ∧ desk = desk' := by
  simp [onLine, Cursor.getRemaining]

theorem nextPin_ok {p : Nat} :
    nextPin desk = .ok p desk' ↔ desk.draft.nextPin = p ∧ desk = desk' := by
  simp [nextPin]

theorem sides_ok {pin : Nat} : sides pin desk = .ok u desk' ↔
    ∃ sides t, desk.cursor.remaining = sides.map Vocabulary.word ∧ sides ≠ [] ∧
      desk.draft.tables.addSides pin sides = .ok t ∧
      desk' = { cursor := { desk.cursor with remaining := [] },
                draft := { desk.draft with tables := t } } := by
  simp only [Loading.sides, bind_ok, peek_ok, guard_ok, getRemaining_ok, addSides_ok, skipRest_ok]
  constructor
  · rintro ⟨_, _, ⟨rfl, rfl⟩, hsome, _, _, ⟨rfl, rfl⟩, _, _, ⟨sides, t, hr, ht, rfl⟩, rfl⟩
    refine ⟨sides, t, hr, ?_, ht, rfl⟩
    rintro rfl
    rw [hr] at hsome
    exact hsome rfl
  · rintro ⟨sides, t, hr, hne, ht, rfl⟩
    refine ⟨_, _, ⟨rfl, rfl⟩, ?_, _, _, ⟨rfl, rfl⟩, (), _, ⟨sides, t, hr, ht, rfl⟩, rfl⟩
    rw [hr]
    cases sides with
    | nil => exact absurd rfl hne
    | cons side sides => simp

/-- A pin statement is loaded exactly when its line declares a pin of its direction and the pin can
be entered. -/
theorem pin_ok {d : Direction} : pin d desk = .ok u desk' ↔
    ∃ row token t, row.direction = d ∧
      desk.cursor.remaining = classMarker :: token :: row.sides.map Vocabulary.word ∧
      Numeral.read? token = some (row.classId : Int) ∧ row.sides ≠ [] ∧
      desk.draft.tables.Enters desk.draft.nextPin row t ∧
      desk' = finished desk { desk.draft with tables := t, nextPin := desk.draft.nextPin + 1 } := by
  simp only [pin, bind_ok, nextPin_ok, onLine_ok, Scalar.classId_ok, checkDirection_ok,
    onTables_ok, sides_ok, change_ok, record_ok]
  constructor
  · rintro ⟨_, _, ⟨rfl, rfl⟩, c, _, ⟨_, ⟨token, rest, hr, hread, rfl⟩, rfl⟩, _, _, ⟨t₁, hopen, rfl⟩,
      _, _, ⟨t₂, ht₂, rfl⟩, _, _, ⟨t₃, ht₃, rfl⟩, _, _, ⟨sides, t, rfl, hne, ht, rfl⟩, _, _, rfl,
      rfl⟩
    exact ⟨⟨d, c, sides⟩, token, t, rfl, hr, hread, hne, ⟨t₁, t₂, t₃, hopen, ht₂, ht₃, ht⟩, rfl⟩
  · rintro ⟨⟨_, c, sides⟩, token, t, rfl, hr, hread, hne, ⟨t₁, t₂, t₃, hopen, ht₂, ht₃, ht⟩, rfl⟩
    exact ⟨_, _, ⟨rfl, rfl⟩, c, _, ⟨_, ⟨token, _, hr, hread, rfl⟩, rfl⟩, (), _, ⟨t₁, hopen, rfl⟩,
      (), _, ⟨t₂, ht₂, rfl⟩, (), _, ⟨t₃, ht₃, rfl⟩, (), _, ⟨sides, t, rfl, hne, ht, rfl⟩, (), _,
      rfl, rfl⟩

end Loading

/-! ## One line -/

namespace Field

theorem form?_eq_none {f : Field} (h : f.form? = none) : ∃ d : Direction, f = d.field := by
  cases f with
  | outpin => exact ⟨.driver, rfl⟩
  | inpin => exact ⟨.receiver, rfl⟩
  | _ => cases h

end Field

/-- What entering a line can do to a draft: nothing, if no field is named by the keyword; set the
value of a field; or enter a pin. -/
inductive Draft.Enters (d : Draft) (line : LogicalLine) : Draft → Prop where
  | skip (h : ∀ f : Field, line.keyword ≠ f.keyword) : Draft.Enters d line d
  | value {f : Field} {p : Payload} (hf : line.keyword = f.keyword)
      (hp : f.Spells line.operands p) : Draft.Enters d line ((d.assign f p).note line)
  | pin {row : PinRow} {t : PinTables} (hrow : PinRow.Spells line row)
      (ht : d.tables.Enters d.nextPin row t) :
    Draft.Enters d line ({ d with tables := t, nextPin := d.nextPin + 1 }.note line)

theorem Draft.enter_ok {d d' : Draft} {line : LogicalLine} {u : Unit} :
    d.enter line = .ok u d' ↔ d.Enters line d' := by
  unfold Draft.enter
  cases hf : Vocabulary.find? (α := Field) line.keyword with
  | none =>
    have hskip : ∀ f : Field, line.keyword ≠ f.keyword := Vocabulary.find?_eq_none.1 hf
    simp only [EStateM.Result.ok.injEq, true_and]
    constructor
    · rintro rfl
      exact .skip hskip
    · intro h
      cases h with
      | skip _ => rfl
      | value hf _ => exact absurd hf (hskip _)
      | pin hrow _ => exact absurd hrow.keyword (hskip _)
  | some f =>
    have hkey : line.keyword = f.keyword := Vocabulary.find?_eq_some.1 hf
    simp only
    -- A keyword spells one field, so only the case of `Enters` for `f` can be met.
    have hok : (∃ v desk, Loading.statement f { cursor := line.cursor d.source, draft := d } =
        .ok v desk ∧ desk.draft = d') ↔ d.Enters line d' := by
      cases hform : f.form? with
      | none =>
        obtain ⟨dir, rfl⟩ := Field.form?_eq_none hform
        have hpin : Loading.statement dir.field = Loading.pin dir := by cases dir <;> rfl
        simp only [hpin, Loading.pin_ok]
        constructor
        · rintro ⟨_, _, ⟨row, token, t, rfl, hr, hread, hne, ht, rfl⟩, rfl⟩
          exact .pin ⟨hkey, ⟨token, hr, hread⟩, hne⟩ ht
        · intro h
          cases h with
          | skip hskip => exact absurd hkey (hskip _)
          | @value g p hg hp =>
            obtain rfl := Field.keyword_inj (hkey.symm.trans hg)
            obtain ⟨form, hform', -⟩ := hp
            cases hform.symm.trans hform'
          | @pin row t hrow ht =>
            have hdir : row.direction = dir := by
              have := Field.keyword_inj (hrow.keyword.symm.trans hkey)
              revert this
              cases row.direction <;> cases dir <;> simp [Direction.field]
            obtain ⟨token, hr, hread⟩ := hrow.operands
            exact ⟨(), _, ⟨row, token, t, hdir, hr, hread, hrow.sides_ne, ht, rfl⟩, rfl⟩
      | some form =>
        simp only [Loading.statement_ok hform]
        constructor
        · rintro ⟨_, _, ⟨p, hp, rfl⟩, rfl⟩
          exact .value hkey ⟨form, hform, hp⟩
        · intro h
          cases h with
          | skip hskip => exact absurd hkey (hskip _)
          | @value g p hg hp =>
            obtain rfl := Field.keyword_inj (hkey.symm.trans hg)
            obtain ⟨form', hform', hp⟩ := hp
            cases hform.symm.trans hform'
            exact ⟨(), _, ⟨p, hp, rfl⟩, rfl⟩
          | @pin row t hrow ht =>
            obtain rfl := Field.keyword_inj (hkey.symm.trans hrow.keyword)
            cases hdir : row.direction <;> rw [hdir] at hform <;> cases hform
    rw [← hok]
    cases Loading.statement f { cursor := line.cursor d.source, draft := d } with
    | ok v desk => simp
    | error e desk => simp

end Fabric
