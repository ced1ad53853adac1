import Fabric.Proofs.Findings

/-!
# How a parse ends

A parse ends with a description, with the first fault of its text, or with the rejection of a text
that has none (`parseText_precedence`). No text reaches a defect, every fault names a line of the
text, and a rejection can be reported (`parseText_diagnosable`). A text is taken to be no longer
than a cell can count, as any text in memory is: the class numbers that it can cite without a gap
then fit the tables.
-/

namespace Fabric

open LogicalLine (pins ofField)

variable {text source : String} {routing : Routing}

/-! ## Drafts that are accepted or rejected -/

namespace Draft

theorem accept_ne_fault (d : Draft) (f : Fault) : d.accept routing ≠ .error (.fault f) := by
  unfold accept
  cases d.issues routing with
  | error e => simp [Except.mapError, bind, Except.bind]
  | ok issues =>
    simp only [Except.mapError, bind, Except.bind]
    split
    · intro h
      cases h
    · cases d.toDescription <;> simp

variable {census : Census} {cited : List Nat} {lines : List LogicalLine} {rows : List PinRow}
  {d : Draft}

/-- A draft in which nothing but remarks is found has the values of a description. -/
theorem Holds.accept_remarks (h : d.Holds source census lines rows) (hcounts : census.Counts cited)
    (hcited : List.Forall₂ LogicalLine.Cites (pins lines) cited)
    (hremarks : ∃ findings, d.findings routing = .ok findings ∧ ∀ x ∈ findings, x.IsRemark) :
    ∃ a, d.accept routing = .ok a := by
  obtain ⟨a, ha⟩ := h.exists_yields (presence_of_remarks hremarks) census.numClasses
  exact ⟨a, accept_ok.2 ⟨hremarks, (h.toDescription_ok hcounts hcited).2 ha⟩⟩

end Draft

/-! ## Reports of rejections -/

namespace Rejection

/-- The last line that the issue of a finding names is a number, if it names any. -/
theorem lastLine?_issue {finding : Finding} (source : String) (h : finding.Wordable) :
    ∃ last, lastLine? (finding.issue source) = .ok last ∧
      ∀ value, last = some value → ∃ n ≤ Cells.maxInteger + 1, value = .int (n : Nat) := by
  cases finding with
  | «repeated» f numbers =>
    have hget : (Finding.issue source (.repeated f numbers)).details.get? "lines" =
        some (.list (numbers.map fun (n : Nat) => .int n)) := rfl
    unfold lastLine?
    rw [hget]
    cases hnumbers : numbers with
    | nil => exact ⟨none, rfl, fun value hvalue => by cases hvalue⟩
    | cons n rest =>
      refine ⟨_, rfl, fun value hvalue => ?_⟩
      rw [← hnumbers, List.getLast?_map] at hvalue
      obtain ⟨last, hlast, rfl⟩ := Option.map_eq_some_iff.1 hvalue
      exact ⟨last, h.2 last (List.mem_of_getLast? hlast), rfl⟩
  | _ => exact ⟨none, rfl, fun value hvalue => by cases hvalue⟩

/-- A rejection for issues of findings can be reported. -/
theorem report_ok {findings : List Finding} (file : Option String)
    (h : ∀ finding ∈ findings, finding.Wordable) :
    ∃ report, (ofIssues (findings.map (Finding.issue source)) file).report = .ok report := by
  unfold report
  cases hhead : (ofIssues (findings.map (Finding.issue source)) file).issues.head? with
  | none => exact ⟨_, rfl⟩
  | some issue =>
    have hmem := List.mem_of_mem_filter (List.mem_of_mem_head? hhead)
    obtain ⟨finding, hfinding, rfl⟩ := List.mem_map.1 hmem
    obtain ⟨last, hlast, hnumber⟩ := lastLine?_issue source (h finding hfinding)
    simp only [hlast, bind, Except.bind]
    cases last with
    | none => exact ⟨_, rfl⟩
    | some value =>
      obtain ⟨n, hn, rfl⟩ := hnumber value rfl
      have htext : (Value.int (n : Nat)).text = .ok (Numeral.text n) := Value.text_int hn
      simp only [htext]
      exact ⟨_, rfl⟩

end Rejection

/-! ## Outcomes -/

/-- How the parse of a text may end: with its first fault, or, if it has none, rejected for all that
is found but remarks, or, if only remarks are found, with a description. -/
inductive Outcome (text source : String) (routing : Routing) :
    Except ParseError (Description Binary64) → Prop where
  | fault {f : Fault} (h : FirstFault source (LogicalLine.ofText text) f) :
    Outcome text source routing (.error (.fault f))
  | rejected {findings : List Finding}
      (hnone : ∀ f, ¬ FirstFault source (LogicalLine.ofText text) f)
      (h : Diagnosed (LogicalLine.ofText text) routing findings)
      (hfound : ∃ x ∈ findings, ¬ x.IsRemark) :
    Outcome text source routing (.error (.inconsistent
      (.ofIssues (findings.map (Finding.issue source)) (some source))))
  | accepted {findings : List Finding} {a : Description Binary64}
      (hnone : ∀ f, ¬ FirstFault source (LogicalLine.ofText text) f)
      (h : Diagnosed (LogicalLine.ofText text) routing findings)
      (hremarks : ∀ x ∈ findings, x.IsRemark) : Outcome text source routing (.ok a)

/-- A text has at most one first fault. -/
theorem FirstFault.unique {f f' : Fault} (hlen : text.length ≤ Cells.maxInteger)
    (h : FirstFault source (LogicalLine.ofText text) f)
    (h' : FirstFault source (LogicalLine.ofText text) f') : f = f' := by
  cases (h.draft_eq hlen).symm.trans (h'.draft_eq hlen)
  rfl

/-- A parse ends with a fault exactly when loading does. -/
theorem parseText_fault {f : Fault} : parseText text source routing = .error (.fault f) ↔
    (Stream.ofText text source).draft = .error (.fault f) := by
  cases hload : (Stream.ofText text source).draft with
  | error e =>
    unfold parseText Stream.parse
    rw [hload]
    cases e <;> simp [Except.mapError, Failure.toParseError, bind, Except.bind]
  | ok d =>
    rw [parseText_of_draft hload]
    simp [d.accept_ne_fault f]

theorem parseText_outcome (source : String) (routing : Routing)
    (hlen : text.length ≤ Cells.maxInteger) :
    Outcome text source routing (parseText text source routing) := by
  -- A text has a first fault or a draft; both at once would give its loading two results.
  obtain ⟨f, hf⟩ | ⟨d, hload⟩ := firstFault_or_draft source hlen
  · have hfault : parseText text source routing = .error (.fault f) :=
      parseText_fault.2 (hf.draft_eq hlen)
    rw [hfault]
    exact .fault hf
  have hnone : ∀ f, ¬ FirstFault source (LogicalLine.ofText text) f := by
    intro f hf
    cases hload.symm.trans (hf.draft_eq hlen)
  obtain ⟨census, cited, rows, hcounts, hcited, hd⟩ := Stream.holds_of_draft hload
  obtain ⟨findings, hfindings, hdiagnosed⟩ := hd.findings_ok routing
  rw [parseText_of_draft hload]
  by_cases hremarks : ∀ x ∈ findings, x.IsRemark
  · obtain ⟨a, ha⟩ := hd.accept_remarks hcounts hcited ⟨findings, hfindings, hremarks⟩
    rw [ha]
    exact .accepted hnone hdiagnosed hremarks
  · simp only [not_forall] at hremarks
    obtain ⟨x, hx, hremark⟩ := hremarks
    have herror : ∃ i ∈ findings.map (Finding.issue source), i.isError = true :=
      ⟨_, List.mem_map_of_mem hx, (Finding.issue_isError source x).2 hremark⟩
    have hissues := hd.issues_ok hlen hfindings hdiagnosed
    rw [(Draft.accept_inconsistent hissues).2 ⟨herror, rfl⟩, hd.source]
    exact .rejected hnone hdiagnosed ⟨x, hx, hremark⟩

/-- Which error a text gets: the first of its faults, if it has any; otherwise, and only then, a
rejection, if something but remarks is found. A fault of a statement is on the line that is numbered
by the last physical line of the statement. -/
theorem parseText_precedence (source : String) (routing : Routing)
    (hlen : text.length ≤ Cells.maxInteger) :
    (∀ f, parseText text source routing = .error (.fault f) ↔
      FirstFault source (LogicalLine.ofText text) f) ∧
    (∀ r, parseText text source routing = .error (.inconsistent r) ↔
      (∀ f, ¬ FirstFault source (LogicalLine.ofText text) f) ∧
        ∃ findings, Diagnosed (LogicalLine.ofText text) routing findings ∧
          (∃ x ∈ findings, ¬ x.IsRemark) ∧
          r = .ofIssues (findings.map (Finding.issue source)) (some source)) ∧
    ∀ line ∈ LogicalLine.ofText text, line.StandsIn text := by
  have houtcome := parseText_outcome source routing hlen
  generalize parseText text source routing = result at houtcome ⊢
  refine ⟨fun f => ?_, fun r => ?_, fun line hline => LogicalLine.standsIn_of_mem hline⟩
  · cases houtcome with
    | fault h =>
      constructor
      · intro heq
        cases heq
        exact h
      · intro h'
        rw [h.unique hlen h']
    | rejected hnone => simp [hnone f]
    | accepted hnone => simp [hnone f]
  · cases houtcome with
    | fault h =>
      constructor
      · intro heq
        cases heq
      · rintro ⟨hnone, -⟩
        exact absurd h (hnone _)
    | rejected hnone h hfound =>
      constructor
      · intro heq
        cases heq
        exact ⟨hnone, _, h, hfound, rfl⟩
      · rintro ⟨-, findings, h', -, rfl⟩
        rw [h.unique h']
    | accepted hnone h hremarks =>
      constructor
      · intro heq
        cases heq
      · rintro ⟨-, findings, h', ⟨x, hx, hremark⟩, -⟩
        rw [← h.unique h'] at hx
        exact absurd (hremarks x hx) hremark

/-- A bad class part is reported before the bad value on the first line. -/
theorem precedence_class_part :
    parseText "io_rat 0\ninpin class: 0 top\ninpin class: \\\nx" "late" .detailed = .error (.fault
      { source := "late", line := 4, keyword := "inpin",
        problem := .notAnInteger "class number" "x" }) := by
  have hlines : LogicalLine.ofText "io_rat 0\ninpin class: 0 top\ninpin class: \\\nx" =
      [⟨1, "io_rat", ["0"]⟩, ⟨2, "inpin", ["class:", "0", "top"]⟩,
        ⟨4, "inpin", ["class:", "x"]⟩] := by decide +kernel
  have hcite : LogicalLine.AllCite
      [⟨1, "io_rat", ["0"]⟩, ⟨2, "inpin", ["class:", "0", "top"]⟩] := by
    intro line hline
    obtain rfl := List.mem_singleton.1 hline
    exact ⟨0, "0", ["top"], rfl, rfl⟩
  rw [(parseText_precedence "late" .detailed (by decide)).1, hlines]
  exact @FirstFault.classPart "late" _ _ [] ⟨4, "inpin", ["class:", "x"]⟩ _ rfl hcite rfl
    (.notAnInteger rfl)

/-- A parse does not end with a defect: there is a description, or a fault that can be worded and
that names a line of the text, or a rejection with some issue, which can be reported. -/
theorem parseText_diagnosable (source : String) (routing : Routing)
    (hlen : text.length ≤ Cells.maxInteger) :
    (∃ a, parseText text source routing = .ok a) ∨
    (∃ f, parseText text source routing = .error (.fault f) ∧ f.problem.numberFault? = none ∧
      1 ≤ f.line ∧ f.line ≤ (Text.physicalLines text.toList).length) ∨
    ∃ r report, parseText text source routing = .error (.inconsistent r) ∧ r.issues ≠ [] ∧
      r.report = .ok report := by
  have houtcome := parseText_outcome source routing hlen
  generalize parseText text source routing = result at houtcome ⊢
  cases houtcome with
  | accepted => exact .inl ⟨_, rfl⟩
  | fault h => exact .inr (.inl ⟨_, rfl, h.wordable hlen, h.line_bounds⟩)
  | rejected hnone h hfound =>
    obtain ⟨report, hreport⟩ := @Rejection.report_ok source _ (some source) (h.wordable hlen)
    obtain ⟨x, hx, hremark⟩ := hfound
    have hmem : x.issue source ∈
        (Rejection.ofIssues (List.map (Finding.issue source) _) (some source)).issues :=
      List.mem_filter.2 ⟨List.mem_map_of_mem hx, (Finding.issue_isError source x).2 hremark⟩
    exact .inr (.inr ⟨_, report, rfl, List.ne_nil_of_mem hmem, hreport⟩)

/-- A class that is left out is reported on the only line of a text. -/
theorem diagnosable_gap : ∃ f, parseText "outpin class: 1 top" "gap" .global = .error (.fault f) ∧
    f.problem.numberFault? = none ∧ f.line = 1 := by
  have hfault : (match parseText "outpin class: 1 top" "gap" .global with
    | .error (.fault _) => true
    | _ => false) = true := by decide +kernel
  have hlines : (Text.physicalLines "outpin class: 1 top".toList).length = 1 := by decide +kernel
  rcases @parseText_diagnosable "outpin class: 1 top" "gap" .global (by decide) with
    ⟨a, ha⟩ | ⟨f, hf, hwordable, hfirst, hlast⟩ | ⟨r, report, hr, -⟩
  · rw [ha] at hfault
    cases hfault
  · exact ⟨f, hf, hwordable, le_antisymm (hlines ▸ hlast) hfirst⟩
  · rw [hr] at hfault
    cases hfault

end Fabric
