import Fabric.Proofs.Entering

/-!
# Loading a whole text

`Draft.Holds` is the invariant of loading: what a draft holds after some lines were entered, said on
these lines alone. The empty draft holds no lines, and entering one more line adds it
(`Holds.step`). A pin always finds room in the tables, because the census counted it: the citations
before it in the text have taken at most the slots that do not belong to the rest
(`room_of_counts`).

Where every line fits the grammar and no class is used in both directions, loading does not stop
(`enterAll_complete`).
-/

namespace Fabric

/-! ## The lines of a field -/

namespace LogicalLine

/-- The lines that state a field, in order. -/
def ofField (f : Field) (lines : List LogicalLine) : List LogicalLine :=
  lines.filter (·.keyword == f.keyword)

/-- Whether a line states some field. -/
def isStatement (line : LogicalLine) : Bool := (Vocabulary.find? (α := Field) line.keyword).isSome

theorem isStatement_of_keyword {line : LogicalLine} {f : Field} (h : line.keyword = f.keyword) :
    line.isStatement = true := by
  unfold isStatement
  rw [Vocabulary.find?_eq_some.2 h]
  rfl

theorem isStatement_eq_false {line : LogicalLine} (h : ∀ f : Field, line.keyword ≠ f.keyword) :
    line.isStatement = false := by
  unfold isStatement
  rw [Vocabulary.find?_eq_none.2 h]
  rfl

theorem ofField_append (f : Field) (xs ys : List LogicalLine) :
    ofField f (xs ++ ys) = ofField f xs ++ ofField f ys := List.filter_append ..

theorem ofField_singleton_pos {f : Field} {line : LogicalLine} (h : line.keyword = f.keyword) :
    ofField f [line] = [line] := by simp [ofField, h]

theorem ofField_singleton_neg {f : Field} {line : LogicalLine} (h : line.keyword ≠ f.keyword) :
    ofField f [line] = [] := by simp [ofField, h]

theorem isPinKeyword_iff {keyword : String} :
    Census.isPinKeyword keyword = true ↔ ∃ d : Direction, keyword = d.field.keyword := by
  simp only [Census.isPinKeyword, Field.pins, List.any_cons, List.any_nil, Bool.or_false,
    Bool.or_eq_true, beq_iff_eq]
  constructor
  · rintro (h | h)
    · exact ⟨.driver, h.symm⟩
    · exact ⟨.receiver, h.symm⟩
  · rintro ⟨_ | _, h⟩
    · exact .inl h.symm
    · exact .inr h.symm

theorem isPinKeyword_of_spells {line : LogicalLine} {row : PinRow} (h : PinRow.Spells line row) :
    Census.isPinKeyword line.keyword = true := isPinKeyword_iff.2 ⟨_, h.keyword⟩

theorem isPinKeyword_eq_false {line : LogicalLine} {f : Field} (h : line.keyword = f.keyword)
    (hf : f.isPin = false) : Census.isPinKeyword line.keyword = false := by
  rw [Bool.eq_false_iff, Ne, isPinKeyword_iff]
  rintro ⟨d, hd⟩
  obtain rfl := Field.keyword_inj (h.symm.trans hd)
  cases d <;> cases hf

/-- A line fits the grammar: a pin line declares a pin, and a line that states another field spells
a value of it. -/
structure Fits (line : LogicalLine) : Prop where
  pin : Census.isPinKeyword line.keyword = true → ∃ row, PinRow.Spells line row
  value : ∀ f : Field, f.isPin = false → line.keyword = f.keyword → ∃ p, f.Spells line.operands p

end LogicalLine

open LogicalLine (pins ofField)

theorem Field.Spells.isPin {f : Field} {tokens : List String} {p : Payload}
    (h : f.Spells tokens p) : f.isPin = false := by
  obtain ⟨form, hform, -⟩ := h
  cases f with
  | outpin | inpin => cases hform
  | _ => rfl

/-! ## The invariant -/

/-- What a draft holds after some lines were entered. The rows are the pins that the lines declare;
each field holds what the last of its lines spells. -/
structure Draft.Holds (source : String) (census : Census) (lines : List LogicalLine)
    (rows : List PinRow) (d : Draft) : Prop where
  tables : d.tables.Shows census (.ofRows rows)
  source : d.source = source
  census : d.census = census
  spelled : List.Forall₂ PinRow.Spells (pins lines) rows
  oneDirection : ∀ row ∈ rows, (PinView.ofRows rows).direction row.classId = some row.direction
  nextPin : d.nextPin = rows.length
  fits : ∀ line ∈ lines, line.Fits
  values : ∀ f : Field, f.isPin = false →
    Option.Rel (fun line p => f.Spells line.operands p) (ofField f lines).getLast? (d.value? f)
  log : d.log.settings = ((lines.filter (·.isStatement)).map fun l => (l.keyword, l.number)).reverse

namespace Draft

theorem holds_start (source : String) (census : Census) :
    (start source census).Holds source census [] [] where
  source := rfl
  census := rfl
  spelled := .nil
  oneDirection row hrow := by cases hrow
  tables := by
    rw [PinView.ofRows_nil]
    exact .allocate census
  nextPin := rfl
  fits line hline := by cases hline
  values f hf := by
    have hnone : (start source census).value? f = none := by cases f <;> rfl
    rw [hnone]
    exact .none
  log := rfl

variable {source : String} {census : Census} {lines : List LogicalLine} {rows : List PinRow}
  {d d' : Draft} {line : LogicalLine}

/-- The field log lists the numbers of the lines of each field. -/
theorem Holds.lines_eq (h : d.Holds source census lines rows) (f : Field) :
    d.log.lines f.keyword = (ofField f lines).map (·.number) := by
  unfold FieldLog.lines
  rw [h.log, List.filter_reverse, List.map_reverse, List.reverse_reverse, List.filter_map,
    List.map_map, List.filter_filter]
  unfold ofField
  congr 1
  refine List.filter_congr fun line _ => ?_
  simp only [Function.comp_apply, Bool.and_eq_left_iff_imp, beq_iff_eq]
  exact LogicalLine.isStatement_of_keyword

theorem Holds.skip (h : d.Holds source census lines rows)
    (hskip : ∀ f : Field, line.keyword ≠ f.keyword) :
    d.Holds source census (lines ++ [line]) rows where
  source := h.source
  census := h.census
  spelled := by
    have hpin : Census.isPinKeyword line.keyword = false := by
      rw [Bool.eq_false_iff, Ne, LogicalLine.isPinKeyword_iff]
      rintro ⟨dir, hdir⟩
      exact hskip _ hdir
    rw [LogicalLine.pins_append, LogicalLine.pins_cons_neg _ hpin, LogicalLine.pins_nil,
      List.append_nil]
    exact h.spelled
  oneDirection := h.oneDirection
  tables := h.tables
  nextPin := h.nextPin
  fits l hl := by
    rcases List.mem_append.1 hl with hl | hl
    · exact h.fits l hl
    · obtain rfl := List.mem_singleton.1 hl
      refine ⟨fun hpin => ?_, fun f _ hf => absurd hf (hskip f)⟩
      obtain ⟨dir, hdir⟩ := LogicalLine.isPinKeyword_iff.1 hpin
      exact absurd hdir (hskip _)
  values f hf := by
    rw [LogicalLine.ofField_append, LogicalLine.ofField_singleton_neg (hskip f), List.append_nil]
    exact h.values f hf
  log := by
    rw [h.log, List.filter_append]
    simp [LogicalLine.isStatement_eq_false hskip]

theorem note_settings (d : Draft) (line : LogicalLine) :
    (d.note line).log.settings = (line.keyword, line.number) :: d.log.settings := rfl

theorem Holds.value (h : d.Holds source census lines rows) {f : Field} {p : Payload}
    (hf : line.keyword = f.keyword) (hp : f.Spells line.operands p) :
    ((d.assign f p).note line).Holds source census (lines ++ [line]) rows := by
  have hsame : SamePins d ((d.assign f p).note line) :=
    (samePins_assign d f p).trans (samePins_note _ line)
  have hpin := LogicalLine.isPinKeyword_eq_false hf hp.isPin
  exact {
    source := hsame.source.trans h.source
    census := hsame.census.trans h.census
    spelled := by
      rw [LogicalLine.pins_append, LogicalLine.pins_cons_neg _ hpin, LogicalLine.pins_nil,
        List.append_nil]
      exact h.spelled
    oneDirection := h.oneDirection
    tables := by
      rw [hsame.tables]
      exact h.tables
    nextPin := hsame.nextPin.trans h.nextPin
    fits := by
      intro l hl
      rcases List.mem_append.1 hl with hl | hl
      · exact h.fits l hl
      · obtain rfl := List.mem_singleton.1 hl
        refine ⟨fun hpin' => ?_, fun g _ hg => ?_⟩
        · rw [hpin] at hpin'
          cases hpin'
        · obtain rfl := Field.keyword_inj (hf.symm.trans hg)
          exact ⟨p, hp⟩
    values := by
      intro g hg
      have hvalue : ((d.assign f p).note line).value? g = (d.assign f p).value? g := by
        cases g <;> rfl
      rw [hvalue, value?_assign d hp, LogicalLine.ofField_append]
      -- The new line is the last one of its own field and no line of any other.
      by_cases hfg : f = g
      · subst hfg
        rw [if_pos rfl, LogicalLine.ofField_singleton_pos hf, List.getLast?_concat]
        exact .some hp
      · have hne : line.keyword ≠ g.keyword := fun hg' =>
          hfg (Field.keyword_inj (hf.symm.trans hg'))
        rw [if_neg hfg, LogicalLine.ofField_singleton_neg hne, List.append_nil]
        exact h.values g hg
    log := by
      rw [note_settings, assign_log, h.log, List.filter_append, List.map_append,
        List.reverse_append]
      simp [LogicalLine.isStatement_of_keyword hf] }

/-- Entering a pin of a class that has no other direction keeps every class in one direction. -/
theorem oneDirection_append {row : PinRow}
    (h : ∀ r ∈ rows, (PinView.ofRows rows).direction r.classId = some r.direction)
    (hd : ∀ dir, (PinView.ofRows rows).direction row.classId = some dir → dir = row.direction) :
    ∀ r ∈ rows ++ [row],
      (PinView.ofRows (rows ++ [row])).direction r.classId = some r.direction := by
  intro r hr
  cases hdir : (PinView.ofRows rows).direction row.classId with
  | some dir =>
    obtain rfl := hd dir hdir
    rw [PinView.direction_append_self rows row hdir]
    rcases List.mem_append.1 hr with hr | hr
    · exact h r hr
    · obtain rfl := List.mem_singleton.1 hr
      exact hdir
  | none =>
    rw [PinView.direction_append_none rows row hdir]
    rcases List.mem_append.1 hr with hr | hr
    · have hne : r.classId ≠ row.classId := by
        intro heq
        rw [← heq, h r hr] at hdir
        cases hdir
      rw [Function.update_of_ne hne]
      exact h r hr
    · obtain rfl := List.mem_singleton.1 hr
      exact Function.update_self ..

theorem Holds.pin (h : d.Holds source census lines rows) {row : PinRow} {t : PinTables}
    (hroom : PinTables.Room census rows row.classId) (hrow : PinRow.Spells line row)
    (ht : d.tables.Enters d.nextPin row t) :
    Holds source census (lines ++ [line]) (rows ++ [row])
      ({ d with tables := t, nextPin := d.nextPin + 1 }.note line) := by
  have hpin := LogicalLine.isPinKeyword_of_spells hrow
  rw [h.nextPin] at ht
  obtain ⟨hd, ht⟩ := h.tables.of_enters hroom ht
  exact {
    source := h.source
    census := h.census
    spelled := by
      rw [LogicalLine.pins_append, LogicalLine.pins_cons_pos _ hpin, LogicalLine.pins_nil]
      exact List.rel_append h.spelled (.cons hrow .nil)
    oneDirection := oneDirection_append h.oneDirection hd
    tables := ht
    nextPin := by
      rw [List.length_append, List.length_singleton, ← h.nextPin]
      rfl
    fits := by
      intro l hl
      rcases List.mem_append.1 hl with hl | hl
      · exact h.fits l hl
      · obtain rfl := List.mem_singleton.1 hl
        refine ⟨fun _ => ⟨row, hrow⟩, fun f hf hkey => ?_⟩
        rw [LogicalLine.isPinKeyword_eq_false hkey hf] at hpin
        cases hpin
    values := by
      intro f hf
      have hne : line.keyword ≠ f.keyword := by
        intro hkey
        rw [LogicalLine.isPinKeyword_eq_false hkey hf] at hpin
        cases hpin
      rw [LogicalLine.ofField_append, LogicalLine.ofField_singleton_neg hne, List.append_nil]
      have hvalue := h.values f hf
      cases f <;> exact hvalue
    log := by
      rw [note_settings, List.filter_append, List.map_append, List.reverse_append, ← h.log]
      simp [LogicalLine.isStatement_of_keyword hrow.keyword] }

/-- Entering one more line adds it to what a draft holds. -/
theorem Holds.step (h : d.Holds source census lines rows)
    (hroom : ∀ c, Census.isPinKeyword line.keyword = true → line.Cites c →
      PinTables.Room census rows c) (he : d.Enters line d') :
    ∃ rows', d'.Holds source census (lines ++ [line]) rows' := by
  cases he with
  | skip hskip => exact ⟨rows, h.skip hskip⟩
  | value hf hp => exact ⟨rows, h.value hf hp⟩
  | @pin row t hrow ht =>
    exact ⟨rows ++ [row],
      h.pin (hroom _ (LogicalLine.isPinKeyword_of_spells hrow) hrow.cites) hrow ht⟩

end Draft

/-! ## Room for every pin -/

/-- The members of a class among rows, counted. -/
theorem PinView.length_members (rows : List PinRow) (c : Nat) :
    ((ofRows rows).members c).length = (rows.map (·.classId)).count c := by
  change (rows.findIdxs _).length = _
  rw [List.length_findIdxs, List.count_eq_countP, List.countP_map]
  rfl

theorem cites_of_spells {lines : List LogicalLine} {rows : List PinRow}
    (h : List.Forall₂ PinRow.Spells lines rows) :
    List.Forall₂ LogicalLine.Cites lines (rows.map (·.classId)) := by
  rw [List.forall₂_map_right_iff]
  exact h.imp fun _ _ hrow => hrow.cites

theorem cites_unique {lines : List LogicalLine} {cited cited' : List Nat}
    (h : List.Forall₂ LogicalLine.Cites lines cited)
    (h' : List.Forall₂ LogicalLine.Cites lines cited') : cited = cited' :=
  List.right_unique_forall₂' (fun _ _ _ hc hc' => hc.unique hc') h h'

/-- The cited classes are those that some pin line cites. -/
theorem mem_cited {lines : List LogicalLine} {cited : List Nat}
    (h : List.Forall₂ LogicalLine.Cites (pins lines) cited) {c : Nat} :
    c ∈ cited ↔ ∃ line ∈ pins lines, line.Cites c := by
  constructor
  · exact fun hc => exists_of_mem_right h hc
  · rintro ⟨line, hline, hc⟩
    obtain ⟨c', hc', hcites⟩ := exists_of_mem_left h hline
    exact hc.unique hcites ▸ hc'

/-- The pin that a line declares finds room in the tables: the census counted its citation besides
those of the rows before it. -/
theorem room_of_counts {census : Census} {cited : List Nat} {before after : List LogicalLine}
    {line : LogicalLine} {rows : List PinRow} {c : Nat} (hcounts : census.Counts cited)
    (hcited : List.Forall₂ LogicalLine.Cites (pins (before ++ line :: after)) cited)
    (hrows : List.Forall₂ PinRow.Spells (pins before) rows)
    (hpin : Census.isPinKeyword line.keyword = true) (hc : line.Cites c) :
    PinTables.Room census rows c := by
  rw [LogicalLine.pins_append, LogicalLine.pins_cons_pos _ hpin] at hcited
  obtain ⟨rest, hrest⟩ : ∃ rest, cited = rows.map (·.classId) ++ c :: rest := by
    have hbefore := List.forall₂_take (pins before).length hcited
    have hafter := List.forall₂_drop (pins before).length hcited
    rw [List.take_left] at hbefore
    rw [List.drop_left] at hafter
    obtain ⟨c', rest, hc', -, hrest⟩ := List.forall₂_cons_left_iff.1 hafter
    refine ⟨rest, ?_⟩
    rw [← List.take_append_drop (pins before).length cited, hrest, hc.unique hc',
      cites_unique hbefore (cites_of_spells hrows)]
  subst hrest
  refine ⟨(hcounts.mem_iff c).1 (by simp), ?_, ?_⟩
  · rw [PinView.length_members, hcounts.slots, List.count_append, List.count_cons_self]
    omega
  · rw [hcounts.total, List.length_append, List.length_map, List.length_cons]
    omega

/-! ## Runs -/

namespace Draft

theorem enterAll_append (d : Draft) (xs ys : List LogicalLine) :
    d.enterAll (xs ++ ys) = match (d.enterAll xs).halt with
      | none => (d.enterAll xs).draft.enterAll ys
      | some _ => d.enterAll xs := by
  induction xs generalizing d with
  | nil => rfl
  | cons line xs ih =>
    simp only [List.cons_append, enterAll]
    cases d.enter line with
    | ok u d' => exact ih d'
    | error e d' => rfl

/-- Entering one more line after a run that did not stop. -/
theorem enterAll_concat_ok {d d' : Draft} {before : List LogicalLine} {line : LogicalLine} :
    d.enterAll (before ++ [line]) = ⟨d', none⟩ ↔
      ∃ d₁, d.enterAll before = ⟨d₁, none⟩ ∧ d₁.Enters line d' := by
  rw [enterAll_append]
  rcases d.enterAll before with ⟨d₁, _ | halt⟩
  · simp only [enterAll, Entered.mk.injEq, and_true, exists_eq_left']
    rw [← @enter_ok d₁ d' line ()]
    cases d₁.enter line with
    | ok u d₂ => simp
    | error e d₂ => simp
  · simp

variable {source : String} {census : Census} {cited : List Nat} {lines : List LogicalLine}

/-- A run that stops does so at some line, after a run over the lines before it. -/
theorem enterAll_halt {d : Draft} {lines : List LogicalLine} {halt : Halt}
    (h : (d.enterAll lines).halt = some halt) : ∃ before line after d₁,
      lines = before ++ line :: after ∧ d.enterAll before = ⟨d₁, none⟩ ∧
        d₁.enter line = .error halt.failure (d.enterAll lines).draft := by
  induction lines generalizing d with
  | nil => cases h
  | cons line lines ih =>
    unfold enterAll at h ⊢
    cases he : d.enter line with
    | ok u d₁ =>
      simp only [he] at h
      obtain ⟨before, line', after, d₂, rfl, hrun, he'⟩ := ih h
      refine ⟨line :: before, line', after, d₂, rfl, ?_, he'⟩
      simp only [he]
      exact hrun
    | error e d₁ =>
      simp only [he, Option.some.injEq] at h
      subst h
      exact ⟨[], line, lines, d, rfl, rfl, he⟩

/-- The run lemma of loading: on tables that the census sized, whatever lines were entered without
stopping, the draft holds them. -/
theorem holds_of_enterAll (hcounts : census.Counts cited)
    (hcited : List.Forall₂ LogicalLine.Cites (pins lines) cited) {before after : List LogicalLine}
    (hsplit : lines = before ++ after) {d : Draft}
    (hrun : (start source census).enterAll before = ⟨d, none⟩) :
    ∃ rows, d.Holds source census before rows := by
  -- From the right: what the draft holds before the last line says that its pin has room.
  induction before using List.reverseRecOn generalizing after d with
  | nil =>
    cases hrun
    exact ⟨[], holds_start source census⟩
  | append_singleton before line ih =>
    obtain ⟨d₁, hrun₁, he⟩ := enterAll_concat_ok.1 hrun
    rw [List.append_assoc, List.singleton_append] at hsplit
    obtain ⟨rows, h⟩ := ih hsplit hrun₁
    subst hsplit
    exact h.step (fun c hpin hc => room_of_counts hcounts hcited h.spelled hpin hc) he

/-- A line that fits the grammar can be entered where its pin finds room, if its class has no other
direction and its numbers fit a cell. -/
theorem Holds.enters {rows : List PinRow} {d : Draft} {line : LogicalLine}
    (h : d.Holds source census lines rows) (hfits : line.Fits)
    (hroom : ∀ row, PinRow.Spells line row → PinTables.Room census rows row.classId ∧
      rows.length ≤ Cells.maxInteger ∧ row.classId ≤ Cells.maxInteger ∧
      ∀ dir, (PinView.ofRows rows).direction row.classId = some dir → dir = row.direction) :
    ∃ d', d.Enters line d' := by
  by_cases hpin : Census.isPinKeyword line.keyword = true
  · obtain ⟨row, hrow⟩ := hfits.pin hpin
    obtain ⟨hfree, hcell, hclass, hdir⟩ := hroom row hrow
    obtain ⟨t, ht, -⟩ := h.tables.enter hfree hdir hcell hclass
    rw [← h.nextPin] at ht
    exact ⟨_, .pin hrow ht⟩
  · by_cases hskip : ∀ f : Field, line.keyword ≠ f.keyword
    · exact ⟨d, .skip hskip⟩
    · simp only [ne_eq, not_forall, not_not] at hskip
      obtain ⟨f, hf⟩ := hskip
      have hfpin : f.isPin = false := by
        cases f with
        | outpin => exact absurd (LogicalLine.isPinKeyword_iff.2 ⟨.driver, hf⟩) hpin
        | inpin => exact absurd (LogicalLine.isPinKeyword_iff.2 ⟨.receiver, hf⟩) hpin
        | _ => rfl
      obtain ⟨p, hp⟩ := hfits.value f hfpin hf
      exact ⟨_, .value hf hp⟩

end Draft

/-! ## Runs that do not stop -/

/-- No class is cited both by a pin line of one direction and by one of the other. -/
def LogicalLine.OneDirection (lines : List LogicalLine) : Prop :=
  ∀ x ∈ lines, ∀ y ∈ lines, x.keyword = Field.inpin.keyword → y.keyword = Field.outpin.keyword →
    ∀ c, x.Cites c → ¬ y.Cites c

/-- Where no class is used in both directions, a class that has a direction has that of every pin.
-/
theorem LogicalLine.OneDirection.agree {lines : List LogicalLine} (hone : OneDirection lines)
    {x y : LogicalLine} {rx ry : PinRow} (hx : x ∈ lines) (hy : y ∈ lines)
    (hrx : PinRow.Spells x rx) (hry : PinRow.Spells y ry) (hclass : rx.classId = ry.classId) :
    rx.direction = ry.direction := by
  have hcx := hrx.cites
  have hcy := hry.cites
  have hkx := hrx.keyword
  have hky := hry.keyword
  rw [hclass] at hcx
  cases hdx : rx.direction with
  | driver =>
    rw [hdx] at hkx
    cases hdy : ry.direction with
    | driver => rfl
    | receiver =>
      rw [hdy] at hky
      exact absurd hcx (hone y hy x hx hky hkx _ hcy)
  | receiver =>
    rw [hdx] at hkx
    cases hdy : ry.direction with
    | driver =>
      rw [hdy] at hky
      exact absurd hcy (hone x hx y hy hkx hky _ hcx)
    | receiver => rfl

namespace Census.Counts

variable {census : Census} {cited : List Nat}

/-- There are at most as many classes as citations. -/
theorem numClasses_le (h : census.Counts cited) : census.numClasses ≤ cited.length := by
  have hsub : List.range census.numClasses ⊆ cited := by
    intro c hc
    exact (h.mem_iff c).2 (List.mem_range.1 hc)
  have hle := (List.nodup_range.subperm hsub).length_le
  rwa [List.length_range] at hle

end Census.Counts

/-- In a text whose pins can be numbered, a pin finds room, and its numbers fit a cell. -/
theorem room_and_cells {census : Census} {cited : List Nat} {before after : List LogicalLine}
    {line : LogicalLine} {rows : List PinRow} {c : Nat} (hcounts : census.Counts cited)
    (hcited : List.Forall₂ LogicalLine.Cites (pins (before ++ line :: after)) cited)
    (hlen : (pins (before ++ line :: after)).length ≤ Cells.maxInteger + 1)
    (hrows : List.Forall₂ PinRow.Spells (pins before) rows)
    (hpin : Census.isPinKeyword line.keyword = true) (hc : line.Cites c) :
    PinTables.Room census rows c ∧ rows.length ≤ Cells.maxInteger ∧ c ≤ Cells.maxInteger := by
  have hroom := room_of_counts hcounts hcited hrows hpin hc
  have hpins := hroom.isPin
  have hclass := hroom.isClass
  have hclasses := hcounts.numClasses_le
  rw [hcounts.total] at hpins
  rw [hcited.length_eq] at hlen
  exact ⟨hroom, by omega, by omega⟩

namespace Draft

variable {source : String} {census : Census} {cited : List Nat} {lines : List LogicalLine}

/-- Loading does not stop where every line fits the grammar, no class is used in both directions
and the pins can be numbered. -/
theorem enterAll_complete (source : String) (hcounts : census.Counts cited)
    (hcited : List.Forall₂ LogicalLine.Cites (pins lines) cited) (hfits : ∀ line ∈ lines, line.Fits)
    (hone : LogicalLine.OneDirection lines) (hlen : (pins lines).length ≤ Cells.maxInteger + 1) :
    ∃ d, (start source census).enterAll lines = ⟨d, none⟩ := by
  -- Room is counted over the whole text, so the induction is over its prefixes.
  suffices hprefix : ∀ before after, lines = before ++ after →
      ∃ d, (start source census).enterAll before = ⟨d, none⟩ from
    hprefix lines [] (List.append_nil _).symm
  intro before
  induction before using List.reverseRecOn with
  | nil => exact fun _ _ => ⟨_, rfl⟩
  | append_singleton before line ih =>
    intro after hsplit
    rw [List.append_assoc, List.singleton_append] at hsplit
    obtain ⟨d, hrun⟩ := ih _ hsplit
    obtain ⟨rows, h⟩ := holds_of_enterAll hcounts hcited hsplit hrun
    have hline : line ∈ lines := by simp [hsplit]
    have hbefore : ∀ l ∈ before, l ∈ lines := fun l hl => by simp [hsplit, hl]
    obtain ⟨d', he⟩ := h.enters (hfits line hline) fun row hrow => by
      have hpin := LogicalLine.isPinKeyword_of_spells hrow
      obtain ⟨hroom, hcell, hclass⟩ :=
        room_and_cells hcounts (hsplit ▸ hcited) (hsplit ▸ hlen) h.spelled hpin hrow.cites
      refine ⟨hroom, hcell, hclass, fun dir hdir => ?_⟩
      obtain ⟨r, hfind, rfl⟩ := Option.map_eq_some_iff.1 hdir
      obtain ⟨l, hl, hr⟩ := exists_of_mem_right h.spelled (List.mem_of_find?_eq_some hfind)
      have hclasses : r.classId = row.classId := by simpa using List.find?_some hfind
      exact hone.agree (hbefore l (List.mem_of_mem_filter hl)) hline hr hrow hclasses
    exact ⟨d', enterAll_concat_ok.2 ⟨d, hrun, he⟩⟩

/-! ## Whole texts -/

variable {rows : List PinRow} {d : Draft}

/-- The rows of a text cite what the text cites. -/
theorem Holds.cited_eq (h : d.Holds source census lines rows)
    (hcited : List.Forall₂ LogicalLine.Cites (pins lines) cited) :
    rows.map (·.classId) = cited := cites_unique (cites_of_spells h.spelled) hcited

theorem Holds.length_rows (h : d.Holds source census lines rows) (hcounts : census.Counts cited)
    (hcited : List.Forall₂ LogicalLine.Cites (pins lines) cited) :
    rows.length = census.totalPins := by
  rw [hcounts.total, ← h.cited_eq hcited, List.length_map]

theorem Holds.length_members (h : d.Holds source census lines rows) (hcounts : census.Counts cited)
    (hcited : List.Forall₂ LogicalLine.Cites (pins lines) cited) (c : Nat) :
    ((PinView.ofRows rows).members c).length = census.slots c := by
  rw [PinView.length_members, h.cited_eq hcited, hcounts.slots]

/-- The rows of the first lines of a text are of classes of its census. -/
theorem Holds.classId_lt {before after : List LogicalLine} (h : d.Holds source census before rows)
    (hcounts : census.Counts cited)
    (hcited : List.Forall₂ LogicalLine.Cites (pins (before ++ after)) cited) {row : PinRow}
    (hrow : row ∈ rows) : row.classId < census.numClasses := by
  rw [LogicalLine.pins_append] at hcited
  have hbefore := List.forall₂_take (pins before).length hcited
  rw [List.take_left] at hbefore
  have hmem : row.classId ∈ rows.map (·.classId) := List.mem_map_of_mem hrow
  rw [h.cited_eq hbefore] at hmem
  exact (hcounts.mem_iff _).1 (List.mem_of_mem_take hmem)

/-- A field that is stated holds what its last line spells. -/
theorem Holds.value_of_getLast? (h : d.Holds source census lines rows) {f : Field}
    (hf : f.isPin = false) {line : LogicalLine} (hline : (ofField f lines).getLast? = some line) :
    ∃ p, f.Spells line.operands p ∧ d.value? f = some p := by
  have hvalue := h.values f hf
  rw [hline] at hvalue
  cases hd : d.value? f with
  | none =>
    rw [hd] at hvalue
    cases hvalue
  | some p =>
    rw [hd] at hvalue
    cases hvalue with
    | some hp => exact ⟨p, hp, rfl⟩

theorem Holds.exists_value_iff (h : d.Holds source census lines rows) {f : Field}
    (hf : f.isPin = false) : (∃ p, d.value? f = some p) ↔ ofField f lines ≠ [] := by
  constructor
  · rintro ⟨p, hp⟩ hempty
    have hvalue := h.values f hf
    rw [hempty, hp] at hvalue
    cases hvalue
  · intro hstated
    obtain ⟨p, -, hp⟩ := h.value_of_getLast? hf (List.getLast?_eq_getLast_of_ne_nil hstated)
    exact ⟨p, hp⟩

end Draft

end Fabric
