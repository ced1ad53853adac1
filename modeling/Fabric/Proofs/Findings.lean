import Fabric.Proofs.FirstFault
import Fabric.Proofs.Numbering

/-!
# What is found in a text that loads

The checks read the field log and the values of a draft. `Diagnosed` says on the logical lines alone
what they find: missing and repeated fields with the numbers of their lines, the lack of pins, and
then, with nothing of that, the mismatches of detailed routing. As the draft holds the lines, that
is exactly what is found, in the same order (`Draft.Holds.findings_ok`), and as the numbers in the
issues count lines, each finding is recorded with its wording (`Finding.toIssue_ok`).
-/

namespace Fabric

open LogicalLine (pins ofField)

/-! ## What there is to find -/

/-- The fields that a routing mode wants stated once, in reporting order. -/
def Routing.wanted : Routing → List Field
  | .global =>
    [.ioRat, .chanWidthX, .chanWidthY, .chanWidthIo, .subblocksPerCluster, .subblockLutSize]
  | .detailed =>
    [.ioRat, .chanWidthX, .chanWidthY, .chanWidthIo, .subblocksPerCluster, .subblockLutSize,
      .fcOutput, .fcInput, .fcPad, .fcType, .switchBlockType]

/-- A field has exactly one line, which spells a value. -/
def Field.StatedOnce (f : Field) (lines : List LogicalLine) (p : Payload) : Prop :=
  ∃ line, ofField f lines = [line] ∧ f.Spells line.operands p

namespace Finding

/-- What is wrong with the number of lines of a field. -/
def ofLines (f : Field) (lines : List LogicalLine) : List Finding :=
  match (ofField f lines).map (·.number) with
  | [] => [.missing f]
  | [_] => []
  | numbers => [.repeated f numbers]

/-- What is missing or repeated in lines. -/
def ofPresence (routing : Routing) (lines : List LogicalLine) : List Finding :=
  routing.wanted.flatMap (ofLines · lines) ++ if pins lines = [] then [.noPins] else []

/-- What is wrong with channels for detailed routing. -/
def ofChannels (x y : Channel Binary64) (io : Binary64) : List Finding :=
  if x.profile = .uniform ∧ y.profile = .uniform then
    if (x.peak == y.peak) = true ∧ (x.peak == io) = true then []
    else [.unequalWidths x.peak y.peak io]
  else [.notUniform x.profile y.profile]

/-- What is wrong with Fc values: those that are less than one where they are absolute, or more than
one where they are fractional. -/
def ofFc (measure : FcMeasure) (values : List (Field × Binary64)) : List Finding :=
  match values.filter (fun entry => measure = .absolute ∧ entry.2.lt Draft.one ∨
    measure = .fractional ∧ Draft.one.lt entry.2) with
  | [] => []
  | offending => [.fcOutOfRange measure offending]

/-- The remarks on fields that only detailed routing reads. -/
def ofIgnored (lines : List LogicalLine) : List Finding :=
  (Field.detailed.filter (ofField · lines ≠ [])).map .ignored

end Finding

open Finding (ofPresence ofChannels ofFc ofIgnored)

/-- What is found in lines. Global routing remarks on the fields that it ignores; detailed routing
looks at the values only if nothing is missing or repeated. -/
inductive Diagnosed (lines : List LogicalLine) : Routing → List Finding → Prop where
  | global : Diagnosed lines .global (ofPresence .global lines ++ ofIgnored lines)
  | incomplete (h : ofPresence .detailed lines ≠ []) :
    Diagnosed lines .detailed (ofPresence .detailed lines)
  | complete (h : ofPresence .detailed lines = []) {x y : Channel Binary64}
      {io output input pad : Binary64} {measure : FcMeasure}
      (hx : Field.chanWidthX.StatedOnce lines (.channel x))
      (hy : Field.chanWidthY.StatedOnce lines (.channel y))
      (hio : Field.chanWidthIo.StatedOnce lines (.real io))
      (houtput : Field.fcOutput.StatedOnce lines (.real output))
      (hinput : Field.fcInput.StatedOnce lines (.real input))
      (hpad : Field.fcPad.StatedOnce lines (.real pad))
      (hmeasure : Field.fcType.StatedOnce lines (.fcMeasure measure)) :
    Diagnosed lines .detailed (ofChannels x y io ++
      ofFc measure [(.fcOutput, output), (.fcInput, input), (.fcPad, pad)])

theorem Field.StatedOnce.unique {f : Field} {lines : List LogicalLine} {p q : Payload}
    (hp : f.StatedOnce lines p) (hq : f.StatedOnce lines q) : p = q := by
  obtain ⟨line, hline, hp⟩ := hp
  obtain ⟨line', hline', hq⟩ := hq
  obtain rfl := List.singleton_inj.1 (hline.symm.trans hline')
  exact hp.unique hq

/-- Lines have one diagnosis for each routing mode. -/
theorem Diagnosed.unique {lines : List LogicalLine} {routing : Routing} {xs ys : List Finding}
    (hxs : Diagnosed lines routing xs) (hys : Diagnosed lines routing ys) : xs = ys := by
  cases hxs with
  | global =>
    cases hys
    rfl
  | incomplete h =>
    cases hys with
    | incomplete => rfl
    | complete h' => exact absurd h' h
  | complete h hx hy hio houtput hinput hpad hmeasure =>
    cases hys with
    | incomplete h' => exact absurd h h'
    | complete _ hx' hy' hio' houtput' hinput' hpad' hmeasure' =>
      cases hx.unique hx'
      cases hy.unique hy'
      cases hio.unique hio'
      cases houtput.unique houtput'
      cases hinput.unique hinput'
      cases hpad.unique hpad'
      cases hmeasure.unique hmeasure'
      rfl

/-! ## What the checks find -/

namespace Draft

theorem mandatory_eq (routing : Routing) : mandatory routing = routing.wanted := by
  cases routing <;> rfl

variable {source : String} {census : Census} {lines : List LogicalLine} {rows : List PinRow}
  {d : Draft}

theorem Holds.count_eq (h : d.Holds source census lines rows) (f : Field) :
    d.log.count f.keyword = (ofField f lines).length := by
  unfold FieldLog.count
  rw [h.lines_eq, List.length_map]

theorem pins_eq_nil_iff {lines : List LogicalLine} :
    pins lines = [] ↔ ∀ f ∈ Field.pins, ofField f lines = [] := by
  simp only [pins, ofField, List.filter_eq_nil_iff, Census.isPinKeyword, List.any_eq_true,
    not_exists, not_and, beq_iff_eq]
  constructor
  · intro h f hf line hline hkey
    exact h line hline f hf hkey.symm
  · intro h line hline f hf hkey
    exact h f hf line hline hkey.symm

theorem Holds.presenceFindings_eq (h : d.Holds source census lines rows) (routing : Routing) :
    d.presenceFindings routing = ofPresence routing lines := by
  have hpins : (Field.pins.all fun f => d.log.count f.keyword == 0) = true ↔ pins lines = [] := by
    simp only [List.all_eq_true, beq_iff_eq, h.count_eq, List.length_eq_zero_iff, pins_eq_nil_iff]
  unfold presenceFindings ofPresence
  simp only [mandatory_eq, h.lines_eq, hpins]
  rfl

theorem Holds.ignoredFindings_eq (h : d.Holds source census lines rows) :
    d.ignoredFindings = ofIgnored lines := by
  unfold ignoredFindings ofIgnored
  simp only [h.count_eq, List.length_pos_iff]

theorem channelFindings_eq {x y : Channel Binary64} {io : Binary64} (hx : d.chanX = some x)
    (hy : d.chanY = some y) (hio : d.chanWidthIo = some io) :
    d.channelFindings = .ok (ofChannels x y io) := by
  unfold channelFindings ofChannels
  rw [hx, hy, hio]
  simp only [required, bind, Except.bind, pure, Except.pure]
  by_cases huniform : x.profile = .uniform ∧ y.profile = .uniform
  · rw [if_pos huniform, if_neg (by simp [huniform])]
    by_cases hequal : (x.peak == y.peak) = true ∧ (x.peak == io) = true
    · simp [hequal, bne]
    · rw [if_neg hequal, if_pos (by simpa [bne, or_iff_not_imp_left] using hequal)]
  · rw [if_neg huniform, if_pos (by simpa [or_iff_not_imp_left] using huniform)]

theorem fcFindings_eq {measure : FcMeasure} {output input pad : Binary64}
    (hmeasure : d.fcMeasure = some measure) (houtput : d.fcOutput = some output)
    (hinput : d.fcInput = some input) (hpad : d.fcPad = some pad) : d.fcFindings =
      .ok (ofFc measure [(.fcOutput, output), (.fcInput, input), (.fcPad, pad)]) := by
  unfold fcFindings ofFc
  rw [hmeasure, houtput, hinput, hpad]
  simp only [required, bind, Except.bind, pure, Except.pure]
  have hrule : (fun entry : Field × Binary64 => breaksFcRule measure entry.2) = fun entry =>
      decide (measure = .absolute ∧ entry.2.lt one ∨ measure = .fractional ∧ one.lt entry.2) := by
    funext entry
    cases measure <;> simp [breaksFcRule]
  rw [hrule]
  generalize List.filter _ _ = offending
  cases offending <;> rfl

/-- A field of which one line is wanted, and nothing is missing or repeated, is stated once, with
the value that the draft holds. -/
theorem Holds.statedOnce (h : d.Holds source census lines rows) {f : Field}
    (hf : f ∈ Routing.detailed.wanted) (hnone : ofPresence .detailed lines = []) :
    ∃ p, f.StatedOnce lines p ∧ d.value? f = some p := by
  rw [← h.presenceFindings_eq] at hnone
  rw [← mandatory_eq] at hf
  obtain ⟨line, hline⟩ := List.length_eq_one_iff.1 ((h.presence_iff.1 hnone).1 f hf)
  have hlast : (ofField f lines).getLast? = some line := by
    rw [hline]
    rfl
  obtain ⟨p, hp, hvalue⟩ := h.value_of_getLast? (mem_mandatory.1 hf).1 hlast
  exact ⟨p, ⟨line, hline, hp⟩, hvalue⟩

/-- The checks find what the lines of the draft are diagnosed with. -/
theorem Holds.findings_ok (h : d.Holds source census lines rows) (routing : Routing) :
    ∃ findings, d.findings routing = .ok findings ∧ Diagnosed lines routing findings := by
  cases routing with
  | global =>
    refine ⟨_, ?_, .global⟩
    unfold findings
    rw [h.presenceFindings_eq, h.ignoredFindings_eq]
  | detailed =>
    by_cases hnone : ofPresence .detailed lines = []
    · have hstated : ∀ f ∈ Routing.detailed.wanted,
          ∃ p, f.StatedOnce lines p ∧ d.value? f = some p := fun f hf => h.statedOnce hf hnone
      obtain ⟨_, hx, hvx⟩ := hstated .chanWidthX (by decide)
      obtain ⟨_, hy, hvy⟩ := hstated .chanWidthY (by decide)
      obtain ⟨_, hio, hvio⟩ := hstated .chanWidthIo (by decide)
      obtain ⟨_, houtput, hvoutput⟩ := hstated .fcOutput (by decide)
      obtain ⟨_, hinput, hvinput⟩ := hstated .fcInput (by decide)
      obtain ⟨_, hpad, hvpad⟩ := hstated .fcPad (by decide)
      obtain ⟨_, hmeasure, hvmeasure⟩ := hstated .fcType (by decide)
      simp only [value?, Option.map_eq_some_iff] at hvx hvy hvio hvoutput hvinput hvpad hvmeasure
      obtain ⟨x, hvx, rfl⟩ := hvx
      obtain ⟨y, hvy, rfl⟩ := hvy
      obtain ⟨io, hvio, rfl⟩ := hvio
      obtain ⟨output, hvoutput, rfl⟩ := hvoutput
      obtain ⟨input, hvinput, rfl⟩ := hvinput
      obtain ⟨pad, hvpad, rfl⟩ := hvpad
      obtain ⟨measure, hvmeasure, rfl⟩ := hvmeasure
      refine ⟨_, ?_, .complete hnone hx hy hio houtput hinput hpad hmeasure⟩
      unfold findings
      rw [h.presenceFindings_eq, hnone, channelFindings_eq hvx hvy hvio,
        fcFindings_eq hvmeasure hvoutput hvinput hvpad]
      rfl
    · refine ⟨_, ?_, .incomplete hnone⟩
      unfold findings
      rw [h.presenceFindings_eq]
      simp only
      rw [if_neg (by simpa using hnone)]

end Draft

/-! ## The issues -/

/-- What a piece of a template is filled with. -/
inductive TemplatePiece.Fills (args : Arguments) : TemplatePiece → String → Prop where
  | text (s : String) : Fills args (.text s) s
  | argument {name text : String} {value : Value} (hvalue : args.get? name = some value)
      (htext : value.text = .ok text) : Fills args (.argument name) text

/-- The message of a code whose arguments are all given and can be written. -/
theorem IssueCode.message_ok {code : IssueCode} {args : Arguments} {texts : List String}
    (h : List.Forall₂ (TemplatePiece.Fills args) code.pieces texts) :
    code.message args = .ok (String.join texts) := by
  have hfill : ∀ {pieces : List TemplatePiece} {texts : List String},
      List.Forall₂ (TemplatePiece.Fills args) pieces texts →
        TemplatePiece.fill args pieces = .ok texts ∧
          TemplatePiece.firstMissing? args pieces = none := by
    intro pieces texts h
    induction h with
    | nil => exact ⟨rfl, rfl⟩
    | cons hpiece htail ih =>
      obtain ⟨hfill, hnone⟩ := ih
      cases hpiece with
      | text s =>
        simp only [TemplatePiece.fill, TemplatePiece.firstMissing?, hfill, hnone]
        exact ⟨rfl, trivial⟩
      | argument hvalue htext =>
        simp only [TemplatePiece.fill, TemplatePiece.firstMissing?, hvalue, htext, hfill, hnone]
        exact ⟨rfl, rfl⟩
  obtain ⟨hfilled, hnone⟩ := hfill h
  unfold message
  rw [hfilled, hnone]
  rfl

namespace Value

theorem literal_int {n : Nat} (h : n ≤ Cells.maxInteger + 1) :
    (int n).literal = .ok (Numeral.text n) := by
  unfold literal intText Numeral.text?
  rw [if_pos (Cells.isWritable_of_le h)]

theorem text_int {n : Nat} (h : n ≤ Cells.maxInteger + 1) :
    (int n).text = .ok (Numeral.text n) := by
  simp only [text]
  exact literal_int h

theorem text_numbers {numbers : List Nat} (h : ∀ n ∈ numbers, n ≤ Cells.maxInteger + 1) :
    (list (numbers.map fun (n : Nat) => int n)).text =
      .ok ("[" ++ ", ".intercalate (numbers.map fun (n : Nat) => Numeral.text n) ++ "]") := by
  have hliterals : literals (numbers.map fun (n : Nat) => int n) =
      .ok (numbers.map fun (n : Nat) => Numeral.text n) := by
    induction numbers with
    | nil => rfl
    | cons n numbers ih =>
      rw [List.forall_mem_cons] at h
      simp only [List.map_cons, literals, literal_int h.1, ih h.2]
      rfl
  unfold text literal
  simp only
  rw [hliterals]
  rfl

end Value

namespace Finding

/-- The message that a finding is recorded with, in pieces. -/
def wording (source : String) : Finding → List String
  | .missing f => ["'", f.keyword, "' not set in file ", source, "."]
  | .repeated f numbers =>
    ["'", f.keyword, "' set ", Numeral.text numbers.length, " times in file ", source, " (lines ",
      "[" ++ ", ".intercalate (numbers.map fun (n : Nat) => Numeral.text n) ++ "]", ")."]
  | .noPins => ["Logic block in file ", source, " has no inpin or outpin statements."]
  | .notUniform x y => [(notUniform x y).reason]
  | .unequalWidths x y io => [(unequalWidths x y io).reason]
  | .fcOutOfRange measure offending => [(fcOutOfRange measure offending).reason]
  | .ignored f =>
    ["'", f.keyword, "' is only used for detailed routing and is ignored in ",
      Vocabulary.word Routing.global, " mode."]

/-- The issue that records a finding. -/
def issue (source : String) (finding : Finding) : Issue where
  level := finding.level
  code := finding.code.name
  message := String.join (finding.wording source)
  field := finding.field?.map Field.keyword
  details := finding.details source

/-- The numbers of a finding can be written. -/
def Wordable : Finding → Prop
  | .repeated _ numbers =>
    numbers.length ≤ Cells.maxInteger + 1 ∧ ∀ n ∈ numbers, n ≤ Cells.maxInteger + 1
  | _ => True

open TemplatePiece.Fills in
theorem wording_fills {finding : Finding} (source : String) (h : finding.Wordable) :
    List.Forall₂ (TemplatePiece.Fills (finding.details source)) finding.code.pieces
      (finding.wording source) := by
  cases finding with
  | missing f =>
    exact .cons (text _) (.cons (argument rfl rfl) (.cons (text _) (.cons (argument rfl rfl)
      (.cons (text _) .nil))))
  | repeated f numbers =>
    have hcount := Value.text_int h.1
    have hnumbers := Value.text_numbers h.2
    exact .cons (text _) (.cons (argument rfl rfl) (.cons (text _) (.cons (argument rfl hcount)
      (.cons (text _) (.cons (argument rfl rfl) (.cons (text _) (.cons (argument rfl hnumbers)
      (.cons (text _) .nil))))))))
  | noPins => exact .cons (text _) (.cons (argument rfl rfl) (.cons (text _) .nil))
  | notUniform x y => exact .cons (argument rfl rfl) .nil
  | unequalWidths x y io => exact .cons (argument rfl rfl) .nil
  | fcOutOfRange measure offending => exact .cons (argument rfl rfl) .nil
  | ignored f =>
    exact .cons (text _) (.cons (argument rfl rfl) (.cons (text _) (.cons (argument rfl rfl)
      (.cons (text _) .nil))))

theorem toIssue_ok {finding : Finding} (source : String) (h : finding.Wordable) :
    finding.toIssue source = .ok (finding.issue source) := by
  unfold toIssue
  simp only
  rw [IssueCode.message_ok (wording_fills source h)]
  rfl

theorem issue_isError (source : String) (finding : Finding) :
    (finding.issue source).isError = true ↔ ¬ finding.IsRemark := by
  cases finding <;> simp [issue, Issue.isError, level, IsRemark]

end Finding

section Texts

variable {text source : String} {routing : Routing} {findings : List Finding}

/-- The count and the numbers of repeated lines of a text can be written. -/
theorem wordable_of_mem_presence (hlen : text.length ≤ Cells.maxInteger) {finding : Finding}
    (h : finding ∈ ofPresence routing (LogicalLine.ofText text)) : finding.Wordable := by
  rcases List.mem_append.1 h with h | h
  · obtain ⟨f, -, h⟩ := List.mem_flatMap.1 h
    have hcount : ((ofField f (LogicalLine.ofText text)).map (·.number)).length ≤
        Cells.maxInteger + 1 := by
      rw [List.length_map]
      exact (List.length_filter_le ..).trans ((length_ofText text).trans (by omega))
    have hnumbers : ∀ n ∈ (ofField f (LogicalLine.ofText text)).map (·.number),
        n ≤ Cells.maxInteger + 1 := by
      intro n hn
      obtain ⟨line, hline, rfl⟩ := List.mem_map.1 hn
      have hbound := (LogicalLine.number_bounds (List.mem_of_mem_filter hline)).2
      have hraws := length_physicalLines text.toList
      rw [String.length_toList] at hraws
      omega
    -- Only two or more lines give a finding with numbers.
    unfold Finding.ofLines at h
    generalize (ofField f (LogicalLine.ofText text)).map (·.number) = numbers at h hcount hnumbers
    match numbers, h with
    | [], h =>
      obtain rfl := List.mem_singleton.1 h
      trivial
    | _ :: _ :: _, h =>
      obtain rfl := List.mem_singleton.1 h
      exact ⟨hcount, hnumbers⟩
  · split at h
    · obtain rfl := List.mem_singleton.1 h
      trivial
    · cases h

theorem wordable_of_mem_ignored {lines : List LogicalLine} {finding : Finding}
    (h : finding ∈ ofIgnored lines) : finding.Wordable := by
  obtain ⟨f, -, rfl⟩ := List.mem_map.1 h
  trivial

theorem wordable_of_mem_channels {x y : Channel Binary64} {io : Binary64} {finding : Finding}
    (h : finding ∈ ofChannels x y io) : finding.Wordable := by
  unfold ofChannels at h
  split at h
  · split at h
    · cases h
    · obtain rfl := List.mem_singleton.1 h
      trivial
  · obtain rfl := List.mem_singleton.1 h
    trivial

theorem wordable_of_mem_fc {measure : FcMeasure} {values : List (Field × Binary64)}
    {finding : Finding} (h : finding ∈ ofFc measure values) : finding.Wordable := by
  unfold ofFc at h
  split at h
  · cases h
  · obtain rfl := List.mem_singleton.1 h
    trivial

/-- What is found in the lines of a text can be worded. -/
theorem Diagnosed.wordable (hlen : text.length ≤ Cells.maxInteger)
    (h : Diagnosed (LogicalLine.ofText text) routing findings) :
    ∀ finding ∈ findings, finding.Wordable := by
  intro finding hmem
  cases h with
  | global =>
    exact (List.mem_append.1 hmem).elim (wordable_of_mem_presence hlen) wordable_of_mem_ignored
  | incomplete => exact wordable_of_mem_presence hlen hmem
  | complete => exact (List.mem_append.1 hmem).elim wordable_of_mem_channels wordable_of_mem_fc

/-- The issues of a draft that holds a text are those of what is found. -/
theorem Draft.Holds.issues_ok {census : Census} {rows : List PinRow} {d : Draft}
    (hlen : text.length ≤ Cells.maxInteger)
    (h : d.Holds source census (LogicalLine.ofText text) rows)
    (hfindings : d.findings routing = .ok findings)
    (hdiagnosed : Diagnosed (LogicalLine.ofText text) routing findings) :
    d.issues routing = .ok (findings.map (Finding.issue source)) := by
  have hissues : findings.mapM (Finding.toIssue source) =
      .ok (findings.map (Finding.issue source)) :=
    mapM_eq_map fun finding hmem =>
      Finding.toIssue_ok source (hdiagnosed.wordable hlen finding hmem)
  unfold issues
  rw [hfindings, h.source]
  simp only [bind, Except.bind]
  rw [hissues]
  rfl

/-! ## Rejections -/

/-- A draft is rejected exactly when some issue is an error, and with all issues that are. -/
theorem Draft.accept_inconsistent {d : Draft} {issues : List Issue} {r : Rejection}
    (h : d.issues routing = .ok issues) : d.accept routing = .error (.inconsistent r) ↔
      (∃ i ∈ issues, i.isError = true) ∧ r = .ofIssues issues (some d.source) := by
  unfold accept
  rw [h]
  simp only [Except.mapError, bind, Except.bind]
  by_cases hany : issues.any (·.isError) = true
  · rw [if_pos hany]
    have hsome := List.any_eq_true.1 hany
    simp only [hsome, true_and]
    constructor
    · intro heq
      cases heq
      rfl
    · rintro rfl
      rfl
  · rw [if_neg hany]
    have hnone : ¬ ∃ i ∈ issues, i.isError = true := fun hsome => hany (List.any_eq_true.2 hsome)
    simp only [hnone, false_and, iff_false]
    cases d.toDescription <;> simp

/-- A text that is loaded is parsed as its draft is accepted. -/
theorem parseText_of_draft {d : Draft} (h : (Stream.ofText text source).draft = .ok d) :
    parseText text source routing = d.accept routing := by
  unfold parseText Stream.parse
  rw [h]
  rfl

/-! ## The theorem -/

end Texts

end Fabric
