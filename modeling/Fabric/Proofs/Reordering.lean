import Fabric.Proofs.Outcomes

/-!
# The order of statements

Two lists of lines agree (`LogicalLine.Agree`) if their pin lines have the same tokens in the same
order, and so have the lines of each other field. How lines of different fields are mixed, what
other lines there are and how lines are numbered is left open. Lines that agree are loaded or not
alike (`Agree.loadable`), their drafts hold the same pins and values (`Agree.rows_eq`,
`Agree.value?_eq`), and the same is found in them but for line numbers (`Agree.diagnosed`). So a
text may be reordered as long as pin lines, and lines of one keyword, keep their order
(`parseText_reordered`).
-/

namespace Fabric

namespace LogicalLine

/-! ## Lines with the same tokens -/

section SameTokens

variable {line line' : LogicalLine}

theorem allTokens_inj : line.allTokens = line'.allTokens ↔
    line.keyword = line'.keyword ∧ line.operands = line'.operands := by
  simp [allTokens]

theorem Cites.of_allTokens {c : Nat} (h : line.Cites c) (heq : line.allTokens = line'.allTokens) :
    line'.Cites c := by
  obtain ⟨token, rest, hops, hread⟩ := h
  exact ⟨token, rest, (allTokens_inj.1 heq).2 ▸ hops, hread⟩

theorem spells_of_allTokens {row : PinRow} (h : PinRow.Spells line row)
    (heq : line.allTokens = line'.allTokens) : PinRow.Spells line' row := by
  obtain ⟨hkey, hops⟩ := allTokens_inj.1 heq
  exact ⟨hkey ▸ h.keyword, hops ▸ h.operands, h.sides_ne⟩

theorem Fits.of_allTokens (h : line.Fits) (heq : line.allTokens = line'.allTokens) :
    line'.Fits := by
  obtain ⟨hkey, hops⟩ := allTokens_inj.1 heq
  constructor
  · intro hpin
    obtain ⟨row, hrow⟩ := h.pin (hkey ▸ hpin)
    exact ⟨row, spells_of_allTokens hrow heq⟩
  · intro f hf hkey'
    obtain ⟨p, hp⟩ := h.value f hf (hkey.trans hkey')
    exact ⟨p, hops ▸ hp⟩

end SameTokens

section SameLists

variable {xs ys : List LogicalLine}

theorem exists_of_map_allTokens (h : xs.map allTokens = ys.map allTokens) {x : LogicalLine}
    (hx : x ∈ xs) : ∃ y ∈ ys, x.allTokens = y.allTokens := by
  have hmem : x.allTokens ∈ xs.map allTokens := List.mem_map_of_mem hx
  rw [h] at hmem
  obtain ⟨y, hy, heq⟩ := List.mem_map.1 hmem
  exact ⟨y, hy, heq.symm⟩

/-- Choosing lines by their keywords chooses lines with the same tokens. -/
theorem map_allTokens_filter (h : xs.map allTokens = ys.map allTokens) (p : String → Bool) :
    (xs.filter (p ·.keyword)).map allTokens = (ys.filter (p ·.keyword)).map allTokens := by
  induction xs generalizing ys with
  | nil =>
    obtain rfl := List.map_eq_nil_iff.1 h.symm
    rfl
  | cons x xs ih =>
    obtain ⟨y, ys, rfl, hy, hys⟩ := List.map_eq_cons_iff.1 h.symm
    have hkey := (allTokens_inj.1 hy).1
    rw [List.filter_cons, List.filter_cons, hkey]
    split
    · rw [List.map_cons, List.map_cons, hy, ih hys.symm]
    · exact ih hys.symm

/-- What each line has in common with an entry, the lines with the same tokens have as well. -/
theorem forall₂_of_map_allTokens {β : Type} {R : LogicalLine → β → Prop} {bs : List β}
    (hR : ∀ {x y b}, R x b → x.allTokens = y.allTokens → R y b)
    (h : xs.map allTokens = ys.map allTokens) (hxs : List.Forall₂ R xs bs) :
    List.Forall₂ R ys bs := by
  induction hxs generalizing ys with
  | nil =>
    obtain rfl := List.map_eq_nil_iff.1 h.symm
    exact .nil
  | cons hx _ ih =>
    obtain ⟨y, ys, rfl, hy, hys⟩ := List.map_eq_cons_iff.1 h.symm
    exact .cons (hR hx hy.symm) (ih hys.symm)

end SameLists

/-! ## Lines that agree -/

/-- The pin lines have the same tokens in the same order, and so have the lines of each field that
holds a value. -/
structure Agree (lines lines' : List LogicalLine) : Prop where
  pinTokens : (pins lines).map allTokens = (pins lines').map allTokens
  fieldTokens : ∀ f : Field, f.isPin = false →
    (ofField f lines).map allTokens = (ofField f lines').map allTokens

/-- Lines that can be loaded: each fits the grammar, the cited classes are the first numbers, and no
class is used in both directions. -/
structure Loadable (lines : List LogicalLine) : Prop where
  fits : ∀ line ∈ lines, line.Fits
  contiguous : Contiguous lines
  oneDirection : OneDirection lines

namespace Agree

variable {lines lines' : List LogicalLine}

theorem symm (h : Agree lines lines') : Agree lines' lines :=
  ⟨h.pinTokens.symm, fun f hf => (h.fieldTokens f hf).symm⟩

/-- A line that states a field has a line with the same tokens on the other side. -/
theorem exists_mem (h : Agree lines lines') {line : LogicalLine} (hline : line ∈ lines) {f : Field}
    (hkey : line.keyword = f.keyword) : ∃ line' ∈ lines', line.allTokens = line'.allTokens := by
  cases hf : f.isPin with
  | true =>
    have hpin : Census.isPinKeyword line.keyword = true := by
      rw [isPinKeyword_iff]
      cases f with
      | outpin => exact ⟨.driver, hkey⟩
      | inpin => exact ⟨.receiver, hkey⟩
      | _ => cases hf
    obtain ⟨line', hline', heq⟩ :=
      exists_of_map_allTokens h.pinTokens (List.mem_filter.2 ⟨hline, hpin⟩)
    exact ⟨line', List.mem_of_mem_filter hline', heq⟩
  | false =>
    obtain ⟨line', hline', heq⟩ :=
      exists_of_map_allTokens (h.fieldTokens f hf) (List.mem_filter.2 ⟨hline, by simp [hkey]⟩)
    exact ⟨line', List.mem_of_mem_filter hline', heq⟩

theorem isCited (h : Agree lines lines') {c : Nat} (hc : IsCited lines c) : IsCited lines' c := by
  obtain ⟨line, hline, hcites⟩ := hc
  obtain ⟨line', hline', heq⟩ := exists_of_map_allTokens h.pinTokens hline
  exact ⟨line', hline', hcites.of_allTokens heq⟩

theorem isCited_iff (h : Agree lines lines') (c : Nat) : IsCited lines c ↔ IsCited lines' c :=
  ⟨h.isCited, h.symm.isCited⟩

theorem contiguous (h : Agree lines lines') (hc : Contiguous lines) : Contiguous lines' := by
  obtain ⟨k, hk⟩ := hc
  exact ⟨k, fun c => (h.isCited_iff c).symm.trans (hk c)⟩

theorem fits (h : Agree lines lines') (hfits : ∀ line ∈ lines, line.Fits) :
    ∀ line ∈ lines', line.Fits := by
  intro line' hline'
  have hother : ∀ f : Field, line'.keyword = f.keyword → line'.Fits := by
    intro f hf
    obtain ⟨line, hline, heq⟩ := h.symm.exists_mem hline' hf
    exact (hfits line hline).of_allTokens heq.symm
  constructor
  · intro hpin
    obtain ⟨dir, hdir⟩ := isPinKeyword_iff.1 hpin
    exact (hother _ hdir).pin hpin
  · intro f hf hkey
    exact (hother f hkey).value f hf hkey

theorem oneDirection (h : Agree lines lines') (hone : OneDirection lines) :
    OneDirection lines' := by
  intro x hx y hy hkx hky c hcx hcy
  obtain ⟨x', hx', hxeq⟩ := h.symm.exists_mem hx hkx
  obtain ⟨y', hy', hyeq⟩ := h.symm.exists_mem hy hky
  exact hone x' hx' y' hy' ((allTokens_inj.1 hxeq).1 ▸ hkx) ((allTokens_inj.1 hyeq).1 ▸ hky) c
    (hcx.of_allTokens hxeq) (hcy.of_allTokens hyeq)

theorem loadable (h : Agree lines lines') (hload : Loadable lines) : Loadable lines' :=
  ⟨h.fits hload.fits, h.contiguous hload.contiguous, h.oneDirection hload.oneDirection⟩

end Agree

end LogicalLine

open LogicalLine (pins ofField allTokens Agree Loadable)

/-! ## Drafts -/

/-- A text is loaded exactly when its lines can be. -/
theorem exists_draft_iff {text : String} (source : String) (hlen : text.length ≤ Cells.maxInteger) :
    (∃ d, (Stream.ofText text source).draft = .ok d) ↔ Loadable (LogicalLine.ofText text) := by
  constructor
  · rintro ⟨d, hd⟩
    obtain ⟨census, cited, rows, hcounts, hcited, h⟩ := Stream.holds_of_draft hd
    refine ⟨h.fits, ⟨census.numClasses, fun c => ?_⟩, h.oneDirection_lines⟩
    exact (mem_cited hcited).symm.trans (hcounts.mem_iff c)
  · intro h
    have hpins := length_pins_ofText text
    have hcite : LogicalLine.AllCite (LogicalLine.ofText text) := by
      intro line hline
      obtain ⟨hline, hpin⟩ := List.mem_filter.1 hline
      obtain ⟨row, hrow⟩ := (h.fits line hline).pin hpin
      exact ⟨_, hrow.cites⟩
    obtain ⟨census, cited, hcounts, hcited, hcensus⟩ :=
      Stream.exists_census source hcite h.contiguous
    obtain ⟨d, hrun⟩ :=
      Draft.enterAll_complete source hcounts hcited h.fits h.oneDirection (by omega)
    exact ⟨d, by rw [Stream.draft_of_census hcensus, hrun]⟩

namespace Draft

variable {d d' : Draft} {k : Nat} {rows : List PinRow} {a : Description Binary64}

/-- Drafts with the same values yield the same description with the same pins. -/
theorem Yields.of_value?_eq (hy : d.Yields k rows a)
    (h : ∀ f : Field, f.isPin = false → d'.value? f = d.value? f) : d'.Yields k rows a := by
  have hset : ∀ {α : Type} {g : α → Payload} {x y : Option α}, g.Injective →
      x.map g = y.map g → x = y := by
    intro α g x y hg heq
    exact Option.map_injective hg heq
  have hinteger : Payload.integer.Injective := fun _ _ heq => Payload.integer.inj heq
  have hreal : Payload.real.Injective := fun _ _ heq => Payload.real.inj heq
  have hchannel : Payload.channel.Injective := fun _ _ heq => Payload.channel.inj heq
  have hmeasure : Payload.fcMeasure.Injective := fun _ _ heq => Payload.fcMeasure.inj heq
  have hswitch : Payload.switchBlock.Injective := fun _ _ heq => Payload.switchBlock.inj heq
  have hdetailed : d'.detailed = d.detailed := by
    unfold Draft.detailed
    rw [hset hreal (h .fcOutput rfl), hset hreal (h .fcInput rfl), hset hreal (h .fcPad rfl),
      hset hmeasure (h .fcType rfl), hset hswitch (h .switchBlockType rfl)]
  exact {
    classes := hy.classes
    pins := hy.pins
    ioRat := (hset hinteger (h .ioRat rfl)).trans hy.ioRat
    chanWidthIo := (hset hreal (h .chanWidthIo rfl)).trans hy.chanWidthIo
    chanX := (hset hchannel (h .chanWidthX rfl)).trans hy.chanX
    chanY := (hset hchannel (h .chanWidthY rfl)).trans hy.chanY
    subblocksPerCluster := (hset hinteger (h .subblocksPerCluster rfl)).trans hy.subblocksPerCluster
    subblockLutSize := (hset hinteger (h .subblockLutSize rfl)).trans hy.subblockLutSize
    detailed := hdetailed.trans hy.detailed }

end Draft

namespace LogicalLine.Agree

variable {lines lines' : List LogicalLine} {source source' : String} {census census' : Census}
  {rows rows' : List PinRow} {d d' : Draft}

theorem rows_eq (h : Agree lines lines') (hd : d.Holds source census lines rows)
    (hd' : d'.Holds source' census' lines' rows') : rows = rows' := by
  have hspelled : List.Forall₂ PinRow.Spells (pins lines') rows :=
    forall₂_of_map_allTokens spells_of_allTokens h.pinTokens hd.spelled
  exact List.right_unique_forall₂' (fun _ _ _ hrow hrow' => hrow.unique hrow') hspelled hd'.spelled

/-- A field holds what its last line spells, and that has the same tokens in both. -/
theorem value?_eq (h : Agree lines lines') (hd : d.Holds source census lines rows)
    (hd' : d'.Holds source' census' lines' rows') {f : Field} (hf : f.isPin = false) :
    d'.value? f = d.value? f := by
  have hlast : (ofField f lines).getLast?.map allTokens =
      (ofField f lines').getLast?.map allTokens := by
    rw [← List.getLast?_map, ← List.getLast?_map, h.fieldTokens f hf]
  have hvalue := hd.values f hf
  have hvalue' := hd'.values f hf
  revert hlast hvalue hvalue'
  generalize (ofField f lines).getLast? = last
  generalize (ofField f lines').getLast? = last'
  generalize d.value? f = value
  generalize d'.value? f = value'
  intro hlast hvalue hvalue'
  cases hvalue with
  | none =>
    cases hvalue' with
    | none => rfl
    | some => cases hlast
  | some hp =>
    cases hvalue' with
    | none => cases hlast
    | some hq =>
      rw [(allTokens_inj.1 (Option.some.inj hlast)).2] at hp
      rw [hp.unique hq]

end LogicalLine.Agree

/-! ## Findings -/

/-- What a finding is about: how grave it is, its code and its field. -/
def Finding.subject (finding : Finding) : IssueLevel × IssueCode × Option Field :=
  (finding.level, finding.code, finding.field?)

/-- Whether there are only remarks can be seen from what findings are about. -/
theorem Finding.forall_isRemark_iff {findings : List Finding} :
    (∀ x ∈ findings, x.IsRemark) ↔ ∀ s ∈ findings.map subject, s.1 = .info := by
  have hremark : ∀ x : Finding, x.IsRemark ↔ x.subject.1 = .info := by
    intro x
    cases x <;> simp [IsRemark, subject, level]
  simp only [hremark, List.forall_mem_map]

namespace LogicalLine.Agree

variable {lines lines' : List LogicalLine} {routing : Routing}

theorem length_ofField (h : Agree lines lines') {f : Field} (hf : f.isPin = false) :
    (ofField f lines).length = (ofField f lines').length := by
  simpa only [List.length_map] using congrArg List.length (h.fieldTokens f hf)

theorem ofField_eq_nil_iff (h : Agree lines lines') {f : Field} (hf : f.isPin = false) :
    ofField f lines = [] ↔ ofField f lines' = [] := by
  rw [← List.length_eq_zero_iff, h.length_ofField hf, List.length_eq_zero_iff]

theorem length_pins (h : Agree lines lines') : (pins lines).length = (pins lines').length := by
  simpa only [List.length_map] using congrArg List.length h.pinTokens

theorem pins_eq_nil_iff (h : Agree lines lines') : pins lines = [] ↔ pins lines' = [] := by
  rw [← List.length_eq_zero_iff, h.length_pins, List.length_eq_zero_iff]

/-- How often a field is stated is what decides about it. -/
theorem ofLines_subject (h : Agree lines lines') {f : Field} (hf : f.isPin = false) :
    (Finding.ofLines f lines).map Finding.subject =
      (Finding.ofLines f lines').map Finding.subject := by
  have hlength := h.length_ofField hf
  unfold Finding.ofLines
  match ofField f lines, ofField f lines', hlength with
  | [], [], _ => rfl
  | [_], [_], _ => rfl
  | _ :: _ :: _, _ :: _ :: _, _ => rfl

theorem isPin_of_mem_wanted {f : Field} (hf : f ∈ routing.wanted) : f.isPin = false := by
  rw [← Draft.mandatory_eq] at hf
  exact (Draft.mem_mandatory.1 hf).1

theorem ofPresence_subject (h : Agree lines lines') (routing : Routing) :
    (Finding.ofPresence routing lines).map Finding.subject =
      (Finding.ofPresence routing lines').map Finding.subject := by
  unfold Finding.ofPresence
  rw [List.map_append, List.map_append, List.map_flatMap, List.map_flatMap]
  congr 1
  · exact List.flatMap_congr fun f hf => h.ofLines_subject (isPin_of_mem_wanted hf)
  · simp only [h.pins_eq_nil_iff]

theorem ofPresence_eq_nil_iff (h : Agree lines lines') :
    Finding.ofPresence routing lines = [] ↔ Finding.ofPresence routing lines' = [] := by
  have hlength := congrArg List.length (h.ofPresence_subject routing)
  rw [List.length_map, List.length_map] at hlength
  rw [← List.length_eq_zero_iff, hlength, List.length_eq_zero_iff]

theorem ofIgnored_eq (h : Agree lines lines') :
    Finding.ofIgnored lines = Finding.ofIgnored lines' := by
  unfold Finding.ofIgnored
  congr 1
  refine List.filter_congr fun f hf => ?_
  have hpin : f.isPin = false := by
    simp only [Field.detailed, List.mem_cons, List.not_mem_nil, or_false] at hf
    rcases hf with rfl | rfl | rfl | rfl | rfl <;> rfl
  simp only [ne_eq, h.ofField_eq_nil_iff hpin]

theorem statedOnce (h : Agree lines lines') {f : Field} {p : Payload}
    (hp : f.StatedOnce lines p) : f.StatedOnce lines' p := by
  obtain ⟨line, hline, hp⟩ := hp
  have htokens := h.fieldTokens f hp.isPin
  rw [hline] at htokens
  obtain ⟨line', hline', heq⟩ := List.map_eq_singleton_iff.1 htokens.symm
  exact ⟨line', hline', (allTokens_inj.1 heq).2 ▸ hp⟩

/-- The same is found in both, but for line numbers. -/
theorem diagnosed (h : Agree lines lines') {xs : List Finding} (hx : Diagnosed lines routing xs) :
    ∃ ys, Diagnosed lines' routing ys ∧ xs.map Finding.subject = ys.map Finding.subject := by
  cases hx with
  | global =>
    refine ⟨_, .global, ?_⟩
    rw [List.map_append, List.map_append, h.ofPresence_subject, h.ofIgnored_eq]
  | incomplete hsome =>
    exact ⟨_, .incomplete (h.ofPresence_eq_nil_iff.not.1 hsome), h.ofPresence_subject _⟩
  | complete hnone hx hy hio houtput hinput hpad hmeasure =>
    exact ⟨_, .complete (h.ofPresence_eq_nil_iff.1 hnone) (h.statedOnce hx) (h.statedOnce hy)
      (h.statedOnce hio) (h.statedOnce houtput) (h.statedOnce hinput) (h.statedOnce hpad)
      (h.statedOnce hmeasure), rfl⟩

theorem subjects_eq (h : Agree lines lines') {xs ys : List Finding}
    (hx : Diagnosed lines routing xs) (hy : Diagnosed lines' routing ys) :
    xs.map Finding.subject = ys.map Finding.subject := by
  obtain ⟨zs, hz, heq⟩ := h.diagnosed hx
  rw [heq, hz.unique hy]

end LogicalLine.Agree

/-- The levels, codes and fields of the issues of a rejection, in order. -/
def Rejection.outline (r : Rejection) : List (IssueLevel × String × Option String) :=
  r.issues.map fun i => (i.level, i.code, i.field)

theorem Rejection.outline_ofFindings (source : String) (findings : List Finding)
    (file : Option String) : (ofIssues (findings.map (Finding.issue source)) file).outline =
      ((findings.map Finding.subject).filter (·.1 == .error)).map
        fun (level, code, field) => (level, code.name, field.map Field.keyword) := by
  unfold outline ofIssues
  rw [List.filter_map, List.filter_map, List.map_map, List.map_map]
  rfl

/-! ## Texts -/

section Texts

variable {text text' source source' : String} {routing : Routing}

/-- A text ends with a fault exactly if its lines cannot be loaded. -/
theorem exists_fault_iff (source : String) (routing : Routing)
    (hlen : text.length ≤ Cells.maxInteger) :
    (∃ f, parseText text source routing = .error (.fault f)) ↔
      ¬ Loadable (LogicalLine.ofText text) := by
  simp only [parseText_fault]
  rw [← exists_draft_iff source hlen]
  constructor
  · rintro ⟨f, hf⟩ ⟨d, hd⟩
    cases hf.symm.trans hd
  · intro hnone
    obtain ⟨f, hf⟩ := (firstFault_or_draft source hlen).resolve_right hnone
    exact ⟨f, hf.draft_eq hlen⟩

variable (hlen : text.length ≤ Cells.maxInteger) (hlen' : text'.length ≤ Cells.maxInteger)
  (h : Agree (LogicalLine.ofText text) (LogicalLine.ofText text'))

include hlen hlen' h

theorem LogicalLine.Agree.exists_fault
    (hf : ∃ f, parseText text source routing = .error (.fault f)) :
    ∃ f, parseText text' source' routing = .error (.fault f) := by
  rw [exists_fault_iff _ _ hlen] at hf
  rw [exists_fault_iff _ _ hlen']
  exact fun hload => hf (h.symm.loadable hload)

/-- A text that is accepted is the same description as a text that agrees with it. -/
theorem LogicalLine.Agree.parseText_ok {a : Description Binary64}
    (ha : parseText text source routing = .ok a) : parseText text' source' routing = .ok a := by
  have hload : Loadable (LogicalLine.ofText text) := by
    by_contra hnot
    obtain ⟨f, hf⟩ := (exists_fault_iff source routing hlen).2 hnot
    cases hf.symm.trans ha
  obtain ⟨d, hdraft⟩ := (exists_draft_iff source hlen).2 hload
  obtain ⟨d', hdraft'⟩ := (exists_draft_iff source' hlen').2 (h.loadable hload)
  obtain ⟨census, cited, rows, hcounts, hcited, hd⟩ := Stream.holds_of_draft hdraft
  obtain ⟨census', cited', rows', hcounts', hcited', hd'⟩ := Stream.holds_of_draft hdraft'
  obtain rfl := h.rows_eq hd hd'
  rw [parseText_of_draft hdraft, Draft.accept_ok] at ha
  obtain ⟨⟨xs, hxs, hremarks⟩, hfrozen⟩ := ha
  rw [parseText_of_draft hdraft', Draft.accept_ok]
  constructor
  · obtain ⟨_, hfindings, hdiagnosed⟩ := hd.findings_ok routing
    obtain ⟨ys, hys, hdiagnosed'⟩ := hd'.findings_ok routing
    obtain rfl := Except.ok.inj (hfindings.symm.trans hxs)
    refine ⟨ys, hys, ?_⟩
    rw [Finding.forall_isRemark_iff] at hremarks ⊢
    rw [← h.subjects_eq hdiagnosed hdiagnosed']
    exact hremarks
  · have hclasses : census'.numClasses = census.numClasses := by
      refine eq_of_forall_lt_iff fun c => ?_
      rw [← hcounts.mem_iff, ← hcounts'.mem_iff, ← hd.cited_eq hcited, ← hd'.cited_eq hcited']
    have hy := (hd.toDescription_ok hcounts hcited).1 hfrozen
    rw [hd'.toDescription_ok hcounts' hcited', hclasses]
    exact hy.of_value?_eq fun f hf => h.value?_eq hd hd' hf

/-- A text that is rejected is rejected for the same as a text that agrees with it. -/
theorem LogicalLine.Agree.parseText_inconsistent (source' : String) {r : Rejection}
    (hr : parseText text source routing = .error (.inconsistent r)) :
    ∃ r', parseText text' source' routing = .error (.inconsistent r') ∧
      r'.outline = r.outline := by
  have houtcome := parseText_outcome source routing hlen
  have houtcome' := parseText_outcome source' routing hlen'
  have hfault : (∃ f, parseText text' source' routing = .error (.fault f)) →
      ∃ f, parseText text source routing = .error (.fault f) := h.symm.exists_fault hlen' hlen
  rw [hr] at houtcome hfault
  generalize parseText text' source' routing = result' at houtcome' hfault ⊢
  cases houtcome with
  | rejected hnone hx hfound =>
    cases houtcome' with
    | fault hf =>
      obtain ⟨f, hf⟩ := hfault ⟨_, rfl⟩
      cases hf
    | rejected hnone' hy hfound' =>
      refine ⟨_, rfl, ?_⟩
      rw [Rejection.outline_ofFindings, Rejection.outline_ofFindings, h.subjects_eq hx hy]
    | accepted hnone' hy hremarks =>
      obtain ⟨x, hx', hnot⟩ := hfound
      rw [Finding.forall_isRemark_iff, ← h.subjects_eq hx hy, ← Finding.forall_isRemark_iff]
        at hremarks
      exact absurd (hremarks x hx') hnot

end Texts

/-! ## Reordering -/

namespace LogicalLine

/-- Lines in another order: the same lists of tokens, of which pin lines keep their order, and so do
lines with one keyword. -/
structure Reordered (lines lines' : List LogicalLine) : Prop where
  perm : (lines.map allTokens).Perm (lines'.map allTokens)
  pins : (pins lines).map allTokens = (LogicalLine.pins lines').map allTokens
  others : ∀ keyword, Census.isPinKeyword keyword = false →
    (lines.filter (·.keyword == keyword)).map allTokens =
      (lines'.filter (·.keyword == keyword)).map allTokens

theorem Reordered.agree {lines lines' : List LogicalLine} (h : Reordered lines lines') :
    Agree lines lines' where
  pinTokens := h.pins
  fieldTokens f hf := by
    refine h.others f.keyword ?_
    cases f <;> first | decide | cases hf

/-- The numbers of the lines do not matter. -/
theorem Reordered.renumber {lines lines' lines'' : List LogicalLine} (h : Reordered lines lines')
    (heq : lines'.map allTokens = lines''.map allTokens) : Reordered lines lines'' where
  perm := heq ▸ h.perm
  pins := h.pins.trans (map_allTokens_filter heq _)
  others keyword hkey := (h.others keyword hkey).trans (map_allTokens_filter heq (· == keyword))

/-- Two lines side by side may change places, if they have different keywords and do not both
declare pins. -/
theorem Reordered.swap (before after : List LogicalLine) {x y : LogicalLine}
    (hkey : x.keyword ≠ y.keyword) (hpin : Census.isPinKeyword x.keyword = true →
      Census.isPinKeyword y.keyword = false) :
    Reordered (before ++ x :: y :: after) (before ++ y :: x :: after) where
  perm := ((List.Perm.swap y x after).append_left before).map allTokens
  pins := by
    have hpair : LogicalLine.pins [x, y] = LogicalLine.pins [y, x] := by
      cases hx : Census.isPinKeyword x.keyword with
      | true => simp [LogicalLine.pins, hx, hpin hx]
      | false => simp [LogicalLine.pins, List.filter_cons, hx]
    have hsplit : ∀ u v : LogicalLine, LogicalLine.pins (before ++ u :: v :: after) =
        LogicalLine.pins before ++ LogicalLine.pins [u, v] ++ LogicalLine.pins after := by
      intro u v
      rw [← pins_append, ← pins_append, List.append_assoc]
      rfl
    rw [hsplit, hsplit, hpair]
  others keyword _ := by
    have hpair : [x, y].filter (·.keyword == keyword) = [y, x].filter (·.keyword == keyword) := by
      by_cases hx : x.keyword = keyword
      · have hy : y.keyword ≠ keyword := fun hy => hkey (hx.trans hy.symm)
        simp [hx, hy]
      · simp [List.filter_cons, hx]
    have hsplit : ∀ u v : LogicalLine, before ++ u :: v :: after = before ++ [u, v] ++ after := by
      simp
    rw [hsplit, hsplit, List.filter_append, List.filter_append, hpair, List.filter_append,
      List.filter_append]

end LogicalLine

/-- Texts whose lines are the same up to their order, where pin lines and lines of one keyword keep
theirs, are accepted alike, as the same description, and rejected alike, with issues of the same
codes and fields in the same order. -/
theorem parseText_reordered {text text' : String} (source source' : String) (routing : Routing)
    (hlen : text.length ≤ Cells.maxInteger) (hlen' : text'.length ≤ Cells.maxInteger)
    (h : LogicalLine.Reordered (LogicalLine.ofText text) (LogicalLine.ofText text')) :
    (∀ a, parseText text source routing = .ok a ↔ parseText text' source' routing = .ok a) ∧
    ∀ outline, (∃ r, parseText text source routing = .error (.inconsistent r) ∧
        r.outline = outline) ↔
      ∃ r, parseText text' source' routing = .error (.inconsistent r) ∧ r.outline = outline := by
  have hagree := h.agree
  constructor
  · intro a
    exact ⟨hagree.parseText_ok hlen hlen', hagree.symm.parseText_ok hlen' hlen⟩
  · intro outline
    constructor
    · rintro ⟨r, hr, rfl⟩
      exact hagree.parseText_inconsistent hlen hlen' source' hr
    · rintro ⟨r, hr, rfl⟩
      exact hagree.symm.parseText_inconsistent hlen' hlen source hr

/-- A pin line and another line change places: for global routing the two texts are one description,
and for detailed routing both are rejected for the same fields. -/
theorem reordered_pin_and_ratio :
    let rest := "chan_width_io 1\nchan_width_x uniform 1\nchan_width_y uniform 1\n" ++
      "subblocks_per_cluster 1\nsubblock_lut_size 4\n"
    let text := "io_rat 2\noutpin class: 0 top\n" ++ rest
    let text' := "outpin class: 0 top\nio_rat 2\n" ++ rest
    (∃ a, parseText text "a" .global = .ok a ∧ parseText text' "b" .global = .ok a) ∧
    ∃ r r', parseText text "a" .detailed = .error (.inconsistent r) ∧
      parseText text' "b" .detailed = .error (.inconsistent r') ∧ r'.outline = r.outline := by
  intro rest text text'
  have hlines : LogicalLine.ofText text = [⟨1, "io_rat", ["2"]⟩,
      ⟨2, "outpin", ["class:", "0", "top"]⟩, ⟨3, "chan_width_io", ["1"]⟩,
      ⟨4, "chan_width_x", ["uniform", "1"]⟩, ⟨5, "chan_width_y", ["uniform", "1"]⟩,
      ⟨6, "subblocks_per_cluster", ["1"]⟩, ⟨7, "subblock_lut_size", ["4"]⟩] := by
    decide +kernel
  have hlines' : LogicalLine.ofText text' = [⟨1, "outpin", ["class:", "0", "top"]⟩,
      ⟨2, "io_rat", ["2"]⟩, ⟨3, "chan_width_io", ["1"]⟩,
      ⟨4, "chan_width_x", ["uniform", "1"]⟩, ⟨5, "chan_width_y", ["uniform", "1"]⟩,
      ⟨6, "subblocks_per_cluster", ["1"]⟩, ⟨7, "subblock_lut_size", ["4"]⟩] := by
    decide +kernel
  have hreordered : LogicalLine.Reordered (LogicalLine.ofText text) (LogicalLine.ofText text') := by
    rw [hlines, hlines']
    exact (LogicalLine.Reordered.swap [] _ (by decide) (by decide)).renumber rfl
  have hboth := fun routing => parseText_reordered "a" "b" routing (by decide +kernel)
    (by decide +kernel) hreordered
  have hok : (parseText text "a" .global).isOk = true := by decide +kernel
  have hrejected : (match parseText text "a" .detailed with
    | .error (.inconsistent _) => true
    | _ => false) = true := by decide +kernel
  constructor
  · cases ha : parseText text "a" .global with
    | ok a => exact ⟨a, rfl, ((hboth .global).1 a).1 ha⟩
    | error e =>
      rw [ha] at hok
      cases hok
  · cases hr : parseText text "a" .detailed with
    | error e =>
      cases e with
      | inconsistent r =>
        obtain ⟨r', hr', houtline⟩ := ((hboth .detailed).2 r.outline).1 ⟨r, hr, rfl⟩
        exact ⟨r, r', rfl, hr', houtline⟩
      | _ =>
        rw [hr] at hrejected
        cases hrejected
    | ok a =>
      rw [hr] at hrejected
      cases hrejected

end Fabric
