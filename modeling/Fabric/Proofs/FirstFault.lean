import Fabric.Proofs.Acceptance
import Fabric.Proofs.Failing
import Fabric.Proofs.Numbering

/-!
# The fault that a text is reported with

A text is read twice, so its faults are reported in three ranks: the first pin line with a bad class
part, then a gap in the cited classes, then the first line with a problem. `FirstFault` says so on
the logical lines alone. Loading stops with exactly that fault (`FirstFault.draft_eq`), and where
there is none it does not stop (`firstFault_or_draft`).
-/

namespace Fabric

open LogicalLine (pins)

namespace LogicalLine

/-- Some pin line cites a class. -/
def IsCited (lines : List LogicalLine) (c : Nat) : Prop := ∃ line ∈ pins lines, line.Cites c

/-- The cited classes are the first numbers. -/
def Contiguous (lines : List LogicalLine) : Prop := ∃ k, ∀ c, IsCited lines c ↔ c < k

/-- The class part of every pin line is good. -/
def AllCite (lines : List LogicalLine) : Prop := ∀ line ∈ pins lines, ∃ c, line.Cites c

end LogicalLine

open LogicalLine (IsCited Contiguous AllCite Faulty FaultFree)

/-- The fault that lines are reported with. A bad class part comes before all else, wherever it
stands; then a gap, which names the least class that is not cited and the greatest that is; then the
first problem. -/
inductive FirstFault (source : String) (lines : List LogicalLine) : Fault → Prop where
  | classPart {before after : List LogicalLine} {line : LogicalLine} {p : Problem}
      (hsplit : lines = before ++ line :: after) (hbefore : AllCite before)
      (hpin : Census.isPinKeyword line.keyword = true) (hp : BadClassPart line.operands p) :
    FirstFault source lines (line.fault source p)
  | gap {missing highest : Nat} {last : LogicalLine} (hcite : AllCite lines)
      (hgap : ¬ Contiguous lines) (hmissing : ¬ IsCited lines missing)
      (hleast : ∀ c < missing, IsCited lines c) (hhighest : IsCited lines highest)
      (hgreatest : ∀ c, IsCited lines c → c ≤ highest) (hlast : lines.getLast? = some last) :
    FirstFault source lines
      { source, line := last.number, keyword := classMarker, problem := .classGap missing highest }
  | statement {before after : List LogicalLine} {line : LogicalLine} {p : Problem}
      (hcite : AllCite lines) (hcontiguous : Contiguous lines)
      (hsplit : lines = before ++ line :: after) (hfree : FaultFree before)
      (hp : Faulty before line p) :
    FirstFault source lines (line.fault source p)

/-! ## The census -/

namespace LogicalLine

/-- The class parts of all pin lines are good, or one of them is the first that is bad. -/
theorem allCite_or_first (lines : List LogicalLine) : AllCite lines ∨
    ∃ before line after p, lines = before ++ line :: after ∧ AllCite before ∧
      Census.isPinKeyword line.keyword = true ∧ BadClassPart line.operands p := by
  have hall : ∀ {xs : List LogicalLine}, (∀ before line after, xs = before ++ line :: after →
      ¬ (Census.isPinKeyword line.keyword = true ∧ ∃ p, BadClassPart line.operands p)) →
        AllCite xs := by
    intro xs h line hline
    obtain ⟨hline, hpin⟩ := List.mem_filter.1 hline
    obtain ⟨before, after, rfl⟩ := List.append_of_mem hline
    exact (cites_or_bad line).resolve_right fun hbad => h before line after rfl ⟨hpin, hbad⟩
  obtain hnone | ⟨before, line, after, heq, ⟨hpin, p, hp⟩, hfirst⟩ := forall_not_or_first
    (fun _ line => Census.isPinKeyword line.keyword = true ∧
      ∃ p, BadClassPart line.operands p) lines
  · exact .inl (hall hnone)
  · exact .inr ⟨before, line, after, p, heq, hall hfirst, hpin, hp⟩

end LogicalLine

namespace Census

variable {source : String} {cited : List Nat}

/-- The cited classes are sought up to the first bad class part. -/
theorem citedClasses_error {before after : List LogicalLine} {line : LogicalLine} {p : Problem}
    (hbefore : AllCite before) (hpin : isPinKeyword line.keyword = true)
    (hp : BadClassPart line.operands p) : citedClasses source (before ++ line :: after) =
      .error ⟨.fault (line.fault source p), line.number⟩ := by
  induction before with
  | nil =>
    obtain ⟨cursor, hfails⟩ := Scalar.classId_fails (c := line.cursor source) hp
    have hwordable : (line.fault source p).problem.Wordable := hp.wordable
    rw [List.nil_append, citedClasses, if_pos hpin, hfails, ← hwordable.ofFault_eq]
    rfl
  | cons first before ih =>
    have hrest : AllCite before := fun l hl => hbefore l (by
      rw [← List.singleton_append, LogicalLine.pins_append]
      exact List.mem_append_right _ hl)
    rw [List.cons_append, citedClasses, ih hrest]
    by_cases hfirst : isPinKeyword first.keyword = true
    · obtain ⟨c, hc⟩ := hbefore first (by
        rw [LogicalLine.pins_cons_pos _ hfirst]
        exact List.mem_cons_self)
      obtain ⟨cursor, hread⟩ := (@classId_cursor_ok _ source _).2 hc
      rw [if_pos hfirst, hread]
      rfl
    · rw [if_neg hfirst]

/-- The least number that is not cited is found among one more numbers than are cited. -/
theorem leastUnused?_eq_some {missing : Nat} (hmissing : missing ∉ cited)
    (hleast : ∀ c < missing, c ∈ cited) : leastUnused? cited = some missing := by
  -- All numbers below it are cited, so there are no more of them than distinct citations.
  have hcard : missing ≤ cited.eraseDups.length := by
    have hsub : Finset.range missing ⊆ cited.toFinset := by
      intro c hc
      exact List.mem_toFinset.2 (hleast c (Finset.mem_range.1 hc))
    rw [length_eraseDups, ← Finset.card_range missing]
    exact Finset.card_le_card hsub
  unfold leastUnused?
  rw [List.find?_range_eq_some]
  refine ⟨by simpa using hmissing, List.mem_range.2 (Nat.lt_succ_of_le hcard), fun c hc => ?_⟩
  simpa using hleast c hc

theorem classBound_eq {highest : Nat} (hhighest : highest ∈ cited)
    (hgreatest : ∀ c ∈ cited, c ≤ highest) : classBound cited = highest + 1 := by
  apply le_antisymm
  · exact classBound_le.2 fun c hc => Nat.lt_succ_of_le (hgreatest c hc)
  · exact lt_classBound hhighest

theorem pred_classBound_mem (h : 0 < classBound cited) : classBound cited - 1 ∈ cited := by
  by_contra hnot
  have hle : classBound cited ≤ classBound cited - 1 := by
    refine classBound_le.2 fun c hc => lt_of_le_of_ne ?_ ?_
    · exact Nat.le_sub_one_of_lt (lt_classBound hc)
    · rintro rfl
      exact hnot hc
  omega

theorem ofCited_gap {lastLine missing highest : Nat} (hmissing : missing ∉ cited)
    (hleast : ∀ c < missing, c ∈ cited) (hhighest : highest ∈ cited)
    (hgreatest : ∀ c ∈ cited, c ≤ highest) (hlt : missing < highest) :
    ofCited source lastLine cited = .error (.ofFault
      { source, line := lastLine, keyword := classMarker,
        problem := .classGap missing highest }) := by
  have hbound := classBound_eq hhighest hgreatest
  have hlength : ¬ cited.eraseDups.length = classBound cited := by
    rw [length_eraseDups_eq_classBound]
    intro hall
    exact hmissing (hall missing (by omega))
  unfold ofCited
  simp only
  rw [if_neg hlength, leastUnused?_eq_some hmissing hleast, hbound, Nat.add_sub_cancel]

/-- The cited numbers are the first numbers exactly when none below the bound is left out. -/
theorem contiguous_iff {lines : List LogicalLine}
    (hcited : List.Forall₂ LogicalLine.Cites (pins lines) cited) :
    Contiguous lines ↔ ∀ c < classBound cited, c ∈ cited := by
  have hmem : ∀ c, IsCited lines c ↔ c ∈ cited := fun c => (mem_cited hcited).symm
  unfold Contiguous
  simp only [hmem]
  constructor
  · rintro ⟨k, hk⟩ c hc
    have hbound : classBound cited ≤ k := classBound_le.2 fun c hc => (hk c).1 hc
    exact (hk c).2 (Nat.lt_of_lt_of_le hc hbound)
  · intro hall
    exact ⟨classBound cited, fun c => ⟨lt_classBound, hall c⟩⟩

end Census

namespace LogicalLine

variable {lines : List LogicalLine}

theorem AllCite.exists_cited (h : AllCite lines) :
    ∃ cited, List.Forall₂ Cites (pins lines) cited := exists_forall₂ h

/-- Where the cited classes are not the first numbers, one of them is the greatest, and a lesser
number is the least that is not cited. -/
theorem AllCite.exists_gap (h : AllCite lines) (hgap : ¬ Contiguous lines) :
    ∃ missing highest last, ¬ IsCited lines missing ∧ (∀ c < missing, IsCited lines c) ∧
      IsCited lines highest ∧ (∀ c, IsCited lines c → c ≤ highest) ∧
        lines.getLast? = some last := by
  obtain ⟨cited, hcited⟩ := h.exists_cited
  have hmem : ∀ c, IsCited lines c ↔ c ∈ cited := fun c => (mem_cited hcited).symm
  rw [Census.contiguous_iff hcited] at hgap
  simp only [not_forall] at hgap
  obtain ⟨c, hc, hnot⟩ := hgap
  have hhighest : Census.classBound cited - 1 ∈ cited :=
    Census.pred_classBound_mem (Nat.zero_lt_of_lt hc)
  have hsome : ∃ c, ¬ IsCited lines c := ⟨c, fun hcites => hnot ((hmem c).1 hcites)⟩
  obtain ⟨line, hline, -⟩ := (hmem _).2 hhighest
  have hlines : lines ≠ [] := List.ne_nil_of_mem (List.mem_of_mem_filter hline)
  -- No bound on the least number is needed here: that it is found at all is `leastUnused?_eq_some`.
  classical
  refine ⟨Nat.find hsome, Census.classBound cited - 1, lines.getLast hlines, Nat.find_spec hsome,
    fun c hc => not_not.1 (Nat.find_min hsome hc), (hmem _).2 hhighest, fun c hcites => ?_,
    List.getLast?_eq_getLast_of_ne_nil hlines⟩
  exact Nat.le_sub_one_of_lt (Census.lt_classBound ((hmem c).1 hcites))

theorem lt_of_gap {missing highest : Nat} (hgap : ¬ Contiguous lines)
    (hmissing : ¬ IsCited lines missing) (hleast : ∀ c < missing, IsCited lines c)
    (hgreatest : ∀ c, IsCited lines c → c ≤ highest) : missing < highest := by
  by_contra hnot
  refine hgap ⟨missing, fun c => ⟨fun hc => ?_, hleast c⟩⟩
  have hle := (hgreatest c hc).trans (not_lt.1 hnot)
  refine lt_of_le_of_ne hle ?_
  rintro rfl
  exact hmissing hc

end LogicalLine

/-! ## Loading -/

namespace Draft

variable {census : Census} {cited : List Nat} {lines : List LogicalLine}

/-- Loading does not stop on lines that are free of faults. -/
theorem enterAll_faultFree (source : String) (hcounts : census.Counts cited)
    (hcited : List.Forall₂ LogicalLine.Cites (pins lines) cited)
    (hlen : (pins lines).length ≤ Cells.maxInteger + 1) : ∀ {before after : List LogicalLine},
    lines = before ++ after → FaultFree before →
      ∃ d, (start source census).enterAll before = ⟨d, none⟩ := by
  -- From the right, as a problem of a line is one after the lines before it.
  intro before
  induction before using List.reverseRecOn with
  | nil => exact fun _ _ => ⟨_, rfl⟩
  | append_singleton before line ih =>
    intro after hsplit hfree
    rw [List.append_assoc, List.singleton_append] at hsplit
    obtain ⟨d, hrun⟩ := ih hsplit hfree.of_append
    obtain ⟨rows, h⟩ := holds_of_enterAll hcounts hcited hsplit hrun
    have hline : line ∈ lines := by simp [hsplit]
    have hcites : Census.isPinKeyword line.keyword = true → ∃ c, line.Cites c := fun hpin => by
      obtain ⟨c, -, hc⟩ := exists_of_mem_left hcited (List.mem_filter.2 ⟨hline, hpin⟩)
      exact ⟨c, hc⟩
    have hfits := LogicalLine.fits_of_not_faulty hcites hfree.last
    obtain ⟨d', he⟩ := h.enters hfits fun row hrow => by
      have hpin := LogicalLine.isPinKeyword_of_spells hrow
      obtain ⟨hroom, hcell, hclass⟩ :=
        room_and_cells hcounts (hsplit ▸ hcited) (hsplit ▸ hlen) h.spelled hpin hrow.cites
      refine ⟨hroom, hcell, hclass, fun dir hdir => ?_⟩
      have hagrees := (LogicalLine.exists_row_of_not_faulty hpin hrow.cites hfree.last).1
      by_contra hne
      exact hagrees ((LogicalLine.conflicts_iff h.spelled hrow.keyword).2 ⟨dir, hdir, hne⟩)
    exact ⟨d', enterAll_concat_ok.2 ⟨d, hrun, he⟩⟩

/-- Loading stops at the first line that has a problem. -/
theorem enterAll_faulty (source : String) (hcounts : census.Counts cited)
    {before after : List LogicalLine} {line : LogicalLine} {p : Problem}
    (hcited : List.Forall₂ LogicalLine.Cites (pins (before ++ line :: after)) cited)
    (hlen : (pins (before ++ line :: after)).length ≤ Cells.maxInteger + 1)
    (hfree : FaultFree before) (hp : Faulty before line p) :
    ((start source census).enterAll (before ++ line :: after)).halt =
      some ⟨.fault (line.fault source p), line.number⟩ := by
  obtain ⟨d, hrun⟩ := enterAll_faultFree source hcounts hcited hlen rfl hfree
  obtain ⟨rows, h⟩ := holds_of_enterAll hcounts hcited rfl hrun
  obtain ⟨d', he⟩ := h.enter_fails
    (fun c hpin hc => room_and_cells hcounts hcited hlen h.spelled hpin hc) hp
  rw [enterAll_append, hrun]
  simp only [enterAll]
  rw [he]

end Draft

namespace Stream

variable {text source : String} {d : Draft}

theorem draft_of_discover {s : Stream} {e : Failure} (h : s.discover.1 = .error e) :
    s.draft = .error e := by
  unfold draft
  rw [h]
  rfl

theorem discover_ofText (text source : String) : (ofText text source).discover.1 =
    match Census.citedClasses source (LogicalLine.ofText text) with
    | .error halt => .error halt.failure
    | .ok cited =>
      Census.ofCited source (Census.lastLineNumber (LogicalLine.ofText text)) cited := by
  unfold discover
  simp only
  change (match Census.citedClasses source (LogicalLine.ofText text) with
    | .error halt => _
    | .ok cited => _ : Except Failure Census × Stream).1 = _
  cases Census.citedClasses source (LogicalLine.ofText text) <;> rfl

/-- The census of a text that cites the first numbers can be taken. -/
theorem exists_census (source : String) (hcite : AllCite (LogicalLine.ofText text))
    (hcontiguous : Contiguous (LogicalLine.ofText text)) : ∃ census cited, census.Counts cited ∧
      List.Forall₂ LogicalLine.Cites (pins (LogicalLine.ofText text)) cited ∧
        (ofText text source).discover.1 = .ok census := by
  obtain ⟨cited, hcited⟩ := hcite.exists_cited
  have hall := (Census.contiguous_iff hcited).1 hcontiguous
  exact ⟨_, cited, Census.Counts.of_cited hall, hcited, discover_ok.2 ⟨cited, hcited, hall, rfl⟩⟩

theorem draft_of_census {text source : String} {census : Census}
    (h : (ofText text source).discover.1 = .ok census) : (ofText text source).draft =
      match (Draft.start source census).enterAll (LogicalLine.ofText text) with
      | ⟨_, some halt⟩ => .error halt.failure
      | ⟨d, none⟩ => .ok d := by
  have hload : ((ofText text source).load census).1 =
      (Draft.start source census).enterAll (LogicalLine.ofText text) := rfl
  unfold draft
  rw [h]
  simp only [bind, Except.bind]
  rw [hload]
  rcases (Draft.start source census).enterAll (LogicalLine.ofText text) with ⟨d, _ | halt⟩ <;> rfl

/-- The draft of a text holds it. -/
theorem holds_of_draft {text source : String} {d : Draft}
    (h : (ofText text source).draft = .ok d) : ∃ census cited rows, census.Counts cited ∧
      List.Forall₂ LogicalLine.Cites (pins (LogicalLine.ofText text)) cited ∧
        Draft.Holds source census (LogicalLine.ofText text) rows d := by
  cases hcensus : (ofText text source).discover.1 with
  | error e =>
    rw [draft_of_discover hcensus] at h
    cases h
  | ok census =>
    rw [draft_of_census hcensus] at h
    generalize hrun : (Draft.start source census).enterAll (LogicalLine.ofText text) = entered at h
    rcases entered with ⟨d', _ | halt⟩
    · obtain rfl := Except.ok.inj h
      obtain ⟨cited, hcited, hcounts⟩ := discover_counts hcensus
      obtain ⟨rows, hd⟩ := Draft.holds_of_enterAll hcounts hcited (List.append_nil _).symm hrun
      exact ⟨census, cited, rows, hcounts, hcited, hd⟩
    · cases h

end Stream

section Texts

variable {text source : String} {f : Fault}

/-- A gap can be worded, as one of its numbers was read and the other is less. -/
theorem wordable_gap {lines : List LogicalLine} {missing highest : Nat}
    (hhighest : IsCited lines highest) (hlt : missing < highest) :
    (Problem.classGap missing highest).Wordable := by
  obtain ⟨line, -, token, rest, -, hread⟩ := hhighest
  have hhigh := Numeral.isWritable_of_read? hread
  have hlow : Numeral.isWritable (missing : Int) = true := by
    rw [Numeral.isWritable_natCast] at hhigh ⊢
    exact Nat.lt_trans hlt hhigh
  refine Problem.wordable_of (fun n hn => ?_) (List.forall_mem_nil _)
  simp only [Problem.integers, List.mem_cons, List.not_mem_nil, or_false] at hn
  rcases hn with rfl | rfl
  · exact hlow
  · exact hhigh

/-- A gap in the cited classes is reported on the last line. -/
theorem Stream.discover_gap {missing highest : Nat} {last : LogicalLine}
    (hcite : AllCite (LogicalLine.ofText text)) (hgap : ¬ Contiguous (LogicalLine.ofText text))
    (hmissing : ¬ IsCited (LogicalLine.ofText text) missing)
    (hleast : ∀ c < missing, IsCited (LogicalLine.ofText text) c)
    (hhighest : IsCited (LogicalLine.ofText text) highest)
    (hgreatest : ∀ c, IsCited (LogicalLine.ofText text) c → c ≤ highest)
    (hlast : (LogicalLine.ofText text).getLast? = some last) :
    (Stream.ofText text source).discover.1 = .error (.fault
      { source, line := last.number, keyword := classMarker,
        problem := .classGap missing highest }) := by
  obtain ⟨cited, hcited⟩ := hcite.exists_cited
  have hlt := LogicalLine.lt_of_gap hgap hmissing hleast hgreatest
  have hnumber : Census.lastLineNumber (LogicalLine.ofText text) = last.number := by
    unfold Census.lastLineNumber
    rw [hlast]
    rfl
  rw [Stream.discover_ofText, Census.citedClasses_ok.2 hcited, hnumber]
  -- The gap is stated of citing lines, the census counts in the list of what they cite.
  simp only [← mem_cited hcited, IsCited] at hmissing hleast hgreatest
  have hwordable : Problem.Wordable (Fault.problem
      ⟨source, last.number, classMarker, .classGap missing highest⟩) := wordable_gap hhighest hlt
  rw [← hwordable.ofFault_eq]
  exact Census.ofCited_gap hmissing hleast ((mem_cited hcited).2 hhighest) hgreatest hlt

/-- A text that has a fault is not loaded: loading stops with it. -/
theorem FirstFault.draft_eq (hlen : text.length ≤ Cells.maxInteger)
    (h : FirstFault source (LogicalLine.ofText text) f) :
    (Stream.ofText text source).draft = .error (.fault f) := by
  have hpins : (pins (LogicalLine.ofText text)).length ≤ Cells.maxInteger + 1 :=
    (length_pins_ofText text).trans (by omega)
  cases h with
  | classPart hsplit hbefore hpin hp =>
    apply Stream.draft_of_discover
    rw [Stream.discover_ofText, hsplit, Census.citedClasses_error hbefore hpin hp]
  | gap hcite hgap hmissing hleast hhighest hgreatest hlast =>
    apply Stream.draft_of_discover
    exact Stream.discover_gap hcite hgap hmissing hleast hhighest hgreatest hlast
  | statement hcite hcontiguous hsplit hfree hp =>
    obtain ⟨census, cited, hcounts, hcited, hcensus⟩ :=
      Stream.exists_census source hcite hcontiguous
    rw [Stream.draft_of_census hcensus]
    rw [hsplit] at hcited hpins ⊢
    have hhalt := Draft.enterAll_faulty source hcounts hcited hpins hfree hp
    generalize (Draft.start source census).enterAll _ = entered at hhalt ⊢
    rcases entered with ⟨d, halt⟩
    simp only at hhalt
    subst hhalt
    rfl

/-- The first fault of a text can be worded. -/
theorem FirstFault.wordable (hlen : text.length ≤ Cells.maxInteger)
    (h : FirstFault source (LogicalLine.ofText text) f) : f.problem.Wordable := by
  cases h with
  | classPart hsplit hbefore hpin hp => exact hp.wordable
  | gap hcite hgap hmissing hleast hhighest hgreatest hlast =>
    exact wordable_gap hhighest (LogicalLine.lt_of_gap hgap hmissing hleast hgreatest)
  | statement hcite hcontiguous hsplit hfree hp =>
    refine hp.wordable fun c hpin hc => ?_
    have hpins := length_pins_ofText text
    rw [hsplit, LogicalLine.pins_append, LogicalLine.pins_cons_pos _ hpin, List.length_append,
      List.length_cons] at hpins
    omega

/-- The first fault of a text is on a line of it. -/
theorem FirstFault.line_bounds (h : FirstFault source (LogicalLine.ofText text) f) :
    1 ≤ f.line ∧ f.line ≤ (Text.physicalLines text.toList).length := by
  cases h with
  | classPart hsplit | statement _ _ hsplit =>
    apply LogicalLine.number_bounds
    rw [hsplit]
    exact List.mem_append_right _ List.mem_cons_self
  | gap _ _ _ _ _ _ hlast => exact LogicalLine.number_bounds (List.mem_of_getLast? hlast)

/-- A text has a fault, or it is loaded. -/
theorem firstFault_or_draft (source : String) (hlen : text.length ≤ Cells.maxInteger) :
    (∃ f, FirstFault source (LogicalLine.ofText text) f) ∨
      ∃ d, (Stream.ofText text source).draft = .ok d := by
  have hpins : (pins (LogicalLine.ofText text)).length ≤ Cells.maxInteger + 1 :=
    (length_pins_ofText text).trans (by omega)
  obtain hcite | ⟨before, line, after, p, hsplit, hbefore, hpin, hp⟩ :=
    LogicalLine.allCite_or_first (LogicalLine.ofText text)
  swap
  · exact .inl ⟨_, .classPart hsplit hbefore hpin hp⟩
  by_cases hcontiguous : Contiguous (LogicalLine.ofText text)
  swap
  · obtain ⟨missing, highest, last, hmissing, hleast, hhighest, hgreatest, hlast⟩ :=
      hcite.exists_gap hcontiguous
    exact .inl ⟨_, .gap hcite hcontiguous hmissing hleast hhighest hgreatest hlast⟩
  obtain hfree | ⟨before, line, after, p, hsplit, hfree, hp⟩ :=
    LogicalLine.faultFree_or_first (LogicalLine.ofText text)
  swap
  · exact .inl ⟨_, .statement hcite hcontiguous hsplit hfree hp⟩
  right
  obtain ⟨census, cited, hcounts, hcited, hcensus⟩ := Stream.exists_census source hcite hcontiguous
  obtain ⟨d, hrun⟩ := Draft.enterAll_faultFree source hcounts hcited hpins
    (List.append_nil _).symm hfree
  exact ⟨d, by rw [Stream.draft_of_census hcensus, hrun]⟩

end Texts

end Fabric
