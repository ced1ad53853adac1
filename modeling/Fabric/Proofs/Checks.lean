import Fabric.Parse
import Fabric.Proofs.Run

/-!
# What the checks accept

A draft is accepted exactly when its findings are remarks only and it can be frozen (`accept_ok`).
No field is found missing or repeated, and some pin is found, exactly when each mandatory field has
one line and some line declares a pin (`presenceFindings_eq_nil`). Global routing finds nothing else
but remarks; detailed routing also wants uniform channels of one width and Fc values that keep the
rule of their measure (`findings_global`, `findings_detailed`).
-/

namespace Fabric

namespace Finding

/-- A remark, which rejects nothing. -/
def IsRemark (finding : Finding) : Prop := ∃ f, finding = .ignored f

theorem toIssue_isError {source : String} {finding : Finding} {issue : Issue}
    (h : finding.toIssue source = .ok issue) : issue.isError = true ↔ ¬ finding.IsRemark := by
  unfold toIssue at h
  obtain ⟨message, -, h⟩ := except_bind_ok.1 h
  rw [except_pure_ok] at h
  subst h
  cases finding <;> simp [Issue.isError, level, IsRemark]

/-- A remark can always be worded. -/
theorem toIssue_ignored (source : String) (f : Field) :
    ∃ issue, (ignored f).toIssue source = .ok issue := ⟨_, rfl⟩

end Finding

namespace Draft

variable {d : Draft} {routing : Routing} {a : Description Binary64}

/-- A draft is accepted exactly when nothing but remarks is found and it can be frozen. -/
theorem accept_ok : d.accept routing = .ok a ↔
    (∃ findings, d.findings routing = .ok findings ∧ ∀ f ∈ findings, f.IsRemark) ∧
      d.toDescription = .ok a := by
  have hissues : ∀ issues : List Issue, (do
      if issues.any (·.isError) then
        throw (ParseError.inconsistent (.ofIssues issues (some d.source)))
      d.toDescription.mapError .defect : Except ParseError (Description Binary64)) = .ok a ↔
        (∀ i ∈ issues, ¬ i.isError = true) ∧ d.toDescription = .ok a := by
    intro issues
    by_cases hany : issues.any (·.isError) = true
    · obtain ⟨i, hi, herror⟩ := List.any_eq_true.1 hany
      simp only [hany, if_true]
      constructor
      · intro h
        cases h
      · rintro ⟨hnone, -⟩
        exact absurd herror (hnone i hi)
    · have hnone : ∀ i ∈ issues, ¬ i.isError = true := by
        intro i hi herror
        exact hany (List.any_eq_true.2 ⟨i, hi, herror⟩)
      simp only [hany]
      exact ⟨fun h => ⟨hnone, mapError_ok.1 h⟩, fun h => mapError_ok.2 h.2⟩
  unfold accept
  rw [except_bind_ok]
  simp only [hissues, mapError_ok, issues, except_bind_ok, mapM_ok]
  constructor
  · rintro ⟨issues, ⟨findings, hfindings, hall⟩, hnone, hfrozen⟩
    refine ⟨⟨findings, hfindings, fun f hf => ?_⟩, hfrozen⟩
    obtain ⟨i, hi, hissue⟩ := exists_of_mem_left hall hf
    by_contra hremark
    exact hnone i hi ((Finding.toIssue_isError hissue).2 hremark)
  · rintro ⟨⟨findings, hfindings, hremarks⟩, hfrozen⟩
    obtain ⟨issues, hall⟩ : ∃ issues,
        List.Forall₂ (fun f i => Finding.toIssue d.source f = .ok i) findings issues := by
      refine exists_forall₂ fun f hf => ?_
      obtain ⟨field, rfl⟩ := hremarks f hf
      exact Finding.toIssue_ignored d.source field
    refine ⟨issues, ⟨findings, hfindings, hall⟩, fun i hi herror => ?_, hfrozen⟩
    obtain ⟨f, hf, hissue⟩ := exists_of_mem_right hall hi
    exact (Finding.toIssue_isError hissue).1 herror (hremarks f hf)

/-! ## Presence -/

theorem mem_mandatory {f : Field} : f ∈ mandatory routing ↔
    f.isPin = false ∧ (routing = .detailed ∨ f.isDetailed = false) := by
  have hall := Vocabulary.Lawful.mem_all f
  cases routing <;> simp [mandatory, hall]

theorem presenceFindings_eq_nil : d.presenceFindings routing = [] ↔
    (∀ f ∈ mandatory routing, (d.log.lines f.keyword).length = 1) ∧
      ∃ dir : Direction, d.log.lines dir.field.keyword ≠ [] := by
  have hpins : (Field.pins.all fun f => d.log.count f.keyword == 0) = true ↔
      ¬ ∃ dir : Direction, d.log.lines dir.field.keyword ≠ [] := by
    simp only [Field.pins, List.all_cons, List.all_nil, Bool.and_true, Bool.and_eq_true, beq_iff_eq,
      FieldLog.count, List.length_eq_zero_iff, not_exists, not_not]
    constructor
    · rintro ⟨hout, hin⟩ (_ | _)
      · exact hout
      · exact hin
    · intro h
      exact ⟨h .driver, h .receiver⟩
  unfold presenceFindings
  rw [List.append_eq_nil_iff, List.flatMap_eq_nil_iff]
  refine and_congr (forall₂_congr fun f _ => ?_) ?_
  · rcases d.log.lines f.keyword with _ | ⟨x, _ | ⟨y, rest⟩⟩ <;> simp
  · by_cases h : ∃ dir : Direction, d.log.lines dir.field.keyword ≠ []
    · have hfalse : ¬ (Field.pins.all fun f => d.log.count f.keyword == 0) = true := fun hall =>
        hpins.1 hall h
      simp only [hfalse]
      simpa using h
    · simp only [hpins.2 h]
      simpa using h

/-- In a draft that holds lines, nothing is missing or repeated exactly when each mandatory field
has one of the lines and some line declares a pin. -/
theorem Holds.presence_iff {source : String} {census : Census} {lines : List LogicalLine}
    {rows : List PinRow} (h : d.Holds source census lines rows) :
    d.presenceFindings routing = [] ↔
      (∀ f ∈ mandatory routing, (LogicalLine.ofField f lines).length = 1) ∧
        ∃ dir : Direction, LogicalLine.ofField dir.field lines ≠ [] := by
  simp only [presenceFindings_eq_nil, h.lines_eq, List.length_map, ne_eq, List.map_eq_nil_iff]

theorem not_isRemark_of_mem_presence {f : Finding} (h : f ∈ d.presenceFindings routing) :
    ¬ f.IsRemark := by
  rintro ⟨field, rfl⟩
  unfold presenceFindings at h
  rcases List.mem_append.1 h with h | h
  · obtain ⟨g, -, h⟩ := List.mem_flatMap.1 h
    split at h <;> simp at h
  · split at h <;> simp at h

/-! ## Findings of a routing mode -/

/-- Global routing is content with what is present exactly once. -/
theorem findings_global : (∃ findings, d.findings .global = .ok findings ∧
    ∀ f ∈ findings, f.IsRemark) ↔ d.presenceFindings .global = [] := by
  unfold findings
  simp only [Except.ok.injEq, exists_eq_left']
  constructor
  · intro h
    refine List.eq_nil_iff_forall_not_mem.2 fun f hf => ?_
    exact not_isRemark_of_mem_presence hf (h f (List.mem_append_left _ hf))
  · intro h f hf
    rw [h, List.nil_append] at hf
    obtain ⟨field, -, rfl⟩ := List.mem_map.1 hf
    exact ⟨field, rfl⟩

theorem required_ok {α : Type} {value : Option α} {x : α} :
    required value = .ok x ↔ value = some x := by
  unfold required
  cases value <;> simp

/-- What detailed routing wants of the values of a draft. -/
structure SuitsDetailed (d : Draft) : Prop where
  channels : ∃ x y io, d.chanX = some x ∧ d.chanY = some y ∧ d.chanWidthIo = some io ∧
    x.profile = .uniform ∧ y.profile = .uniform ∧ (x.peak == y.peak) = true ∧ (x.peak == io) = true
  fc : ∃ measure output input pad, d.fcMeasure = some measure ∧ d.fcOutput = some output ∧
    d.fcInput = some input ∧ d.fcPad = some pad ∧ breaksFcRule measure output = false ∧
    breaksFcRule measure input = false ∧ breaksFcRule measure pad = false

theorem channelFindings_remarks : (∃ findings, d.channelFindings = .ok findings ∧
    ∀ f ∈ findings, f.IsRemark) ↔ ∃ x y, d.chanX = some x ∧ d.chanY = some y ∧
      x.profile = .uniform ∧ y.profile = .uniform ∧
      ∃ io, d.chanWidthIo = some io ∧ (x.peak == y.peak) = true ∧ (x.peak == io) = true := by
  simp only [channelFindings, except_bind_ok, required_ok]
  constructor
  · rintro ⟨findings, ⟨x, hx, y, hy, h⟩, hremarks⟩
    refine ⟨x, y, hx, hy, ?_⟩
    split at h
    · rw [except_pure_ok] at h
      subst h
      obtain ⟨f, hf⟩ := hremarks _ List.mem_cons_self
      cases hf
    · rename_i huniform
      rw [not_or, not_not, not_not] at huniform
      obtain ⟨io, hio, h⟩ := except_bind_ok.1 h
      rw [except_pure_ok] at h
      subst h
      refine ⟨huniform.1, huniform.2, io, required_ok.1 hio, ?_⟩
      split at hremarks
      · obtain ⟨f, hf⟩ := hremarks _ List.mem_cons_self
        cases hf
      · rename_i hequal
        simpa [bne] using hequal
  · rintro ⟨x, y, hx, hy, hux, huy, io, hio, hxy, hxio⟩
    refine ⟨[], ⟨x, hx, y, hy, ?_⟩, fun f hf => by cases hf⟩
    rw [if_neg (by simp [hux, huy]), hio]
    simp [bne, hxy, hxio, required, bind, Except.bind, pure, Except.pure]

theorem fcFindings_remarks : (∃ findings, d.fcFindings = .ok findings ∧
    ∀ f ∈ findings, f.IsRemark) ↔ ∃ measure output input pad, d.fcMeasure = some measure ∧
      d.fcOutput = some output ∧ d.fcInput = some input ∧ d.fcPad = some pad ∧
      breaksFcRule measure output = false ∧ breaksFcRule measure input = false ∧
      breaksFcRule measure pad = false := by
  simp only [fcFindings, except_bind_ok, required_ok, except_pure_ok]
  constructor
  · rintro ⟨findings, ⟨measure, hm, output, ho, input, hi, pad, hp, rfl⟩, hremarks⟩
    refine ⟨measure, output, input, pad, hm, ho, hi, hp, ?_⟩
    split at hremarks
    · rename_i hempty
      simpa [List.filter_eq_nil_iff] using hempty
    · obtain ⟨f, hf⟩ := hremarks _ List.mem_cons_self
      cases hf
  · rintro ⟨measure, output, input, pad, hm, ho, hi, hp, hfo, hfi, hfp⟩
    refine ⟨_, ⟨measure, hm, output, ho, input, hi, pad, hp, rfl⟩, ?_⟩
    simp [hfo, hfi, hfp]

/-- Detailed routing also wants channels and Fc values that suit it. -/
theorem findings_detailed : (∃ findings, d.findings .detailed = .ok findings ∧
    ∀ f ∈ findings, f.IsRemark) ↔ d.presenceFindings .detailed = [] ∧ d.SuitsDetailed := by
  have hsuits : d.SuitsDetailed ↔
      (∃ findings, d.channelFindings = .ok findings ∧ ∀ f ∈ findings, f.IsRemark) ∧
      ∃ findings, d.fcFindings = .ok findings ∧ ∀ f ∈ findings, f.IsRemark := by
    rw [channelFindings_remarks, fcFindings_remarks]
    constructor
    · rintro ⟨⟨x, y, io, hx, hy, hio, hux, huy, hxy, hxio⟩, hfc⟩
      exact ⟨⟨x, y, hx, hy, hux, huy, io, hio, hxy, hxio⟩, hfc⟩
    · rintro ⟨⟨x, y, hx, hy, hux, huy, io, hio, hxy, hxio⟩, hfc⟩
      exact ⟨⟨x, y, io, hx, hy, hio, hux, huy, hxy, hxio⟩, hfc⟩
  rw [hsuits]
  unfold findings
  by_cases hempty : d.presenceFindings .detailed = []
  · simp only [hempty, List.isEmpty_nil, if_true, except_bind_ok, except_pure_ok, true_and]
    constructor
    · rintro ⟨_, ⟨xs, hxs, ys, hys, rfl⟩, hremarks⟩
      exact ⟨⟨xs, hxs, fun f hf => hremarks f (List.mem_append_left _ hf)⟩,
        ys, hys, fun f hf => hremarks f (List.mem_append_right _ hf)⟩
    · rintro ⟨⟨xs, hxs, hx⟩, ys, hys, hy⟩
      refine ⟨_, ⟨xs, hxs, ys, hys, rfl⟩, fun f hf => ?_⟩
      exact (List.mem_append.1 hf).elim (hx f) (hy f)
  · have hfalse : (d.presenceFindings .detailed).isEmpty = false := by simpa using hempty
    simp only [hfalse, Bool.false_eq_true, if_false, Except.ok.injEq, exists_eq_left', hempty,
      false_and, iff_false]
    intro hremarks
    obtain ⟨f, hf⟩ := List.exists_mem_of_ne_nil _ hempty
    exact not_isRemark_of_mem_presence hf (hremarks f hf)

/-- Where nothing but remarks is found, nothing is missing or repeated. -/
theorem presence_of_remarks (h : ∃ findings, d.findings routing = .ok findings ∧
    ∀ f ∈ findings, f.IsRemark) : d.presenceFindings routing = [] := by
  cases routing with
  | global => exact findings_global.1 h
  | detailed => exact (findings_detailed.1 h).1

end Draft

end Fabric
