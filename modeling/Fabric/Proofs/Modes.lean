import Fabric.Proofs.Outcomes
import Fabric.Proofs.RoundTrip

/-!
# Detailed routing compared with global routing

Loading does not look at the routing mode, so a text has the same fault in both modes; these differ
in what the checks want of a loaded draft. Detailed routing accepts a draft exactly when global
routing does, each field that only it reads has one line, and the description suits
(`Draft.Holds.accept_detailed`). `parseText_detailed_iff` says the same of texts.
-/

namespace Fabric

open LogicalLine (pins ofField)

/-! ## What suits, in a draft and in its description -/

section Suits

variable {a : Description Binary64} {d : Draft} {k : Nat} {rows : List PinRow}

/-- Of two finite values, the one that is not less is at least as great. -/
theorem Binary64.le_of_lt_eq_false {x y : Binary64} (hx : x.isFinite = true)
    (hy : y.isFinite = true) (h : y.lt x = false) : x.le y = true := by
  cases x with
  | nan => cases hx
  | signed sx mx =>
    cases y with
    | nan => cases hy
    | signed sy my =>
      simp only [lt, place?, decide_eq_false_iff_not, not_lt] at h
      simpa only [le, place?, decide_eq_true_eq] using h

theorem Draft.isFinite_one : one.isFinite = true := by decide +kernel

/-- A finite Fc value that does not break the rule of its measure keeps it. -/
theorem Draft.keepsFcRule_of_not_breaks {measure : FcMeasure} {x : Binary64}
    (hx : x.isFinite = true) : breaksFcRule measure x = false →
      match measure with
      | .absolute => one.le x = true
      | .fractional => x.le one = true := by
  intro h
  cases measure with
  | absolute => exact Binary64.le_of_lt_eq_false isFinite_one hx h
  | fractional => exact Binary64.le_of_lt_eq_false hx isFinite_one h

/-- A draft with the parameters of detailed routing suits exactly if the description that it yields
does, as the values of that are finite. -/
theorem Draft.Yields.suitsDetailed_iff (hy : d.Yields k rows a)
    (hfinite : ∀ entry ∈ a.bounded, entry.2.isFinite = true) (hsome : a.detailed.isSome = true) :
    d.SuitsDetailed ↔ a.SuitsDetailed := by
  refine ⟨fun h => ?_, fun h => h.draft hy⟩
  obtain ⟨x, y, io, hx, hy', hio, hux, huy, hwidths⟩ := h.channels
  obtain rfl := Option.some.inj (hy.chanX.symm.trans hx)
  obtain rfl := Option.some.inj (hy.chanY.symm.trans hy')
  obtain rfl := Option.some.inj (hy.chanWidthIo.symm.trans hio)
  refine ⟨⟨hux, huy⟩, hwidths, ?_⟩
  obtain ⟨r, hr⟩ := Option.isSome_iff_exists.1 hsome
  obtain ⟨houtput, hinput, hpad, hmeasure, -⟩ := Draft.detailed_eq_some.1 (hy.detailed.trans hr)
  obtain ⟨measure, output, input, pad, hm, ho, hi, hp, hkeeps⟩ := h.fc
  obtain rfl := Option.some.inj (hmeasure.symm.trans hm)
  obtain rfl := Option.some.inj (houtput.symm.trans ho)
  obtain rfl := Option.some.inj (hinput.symm.trans hi)
  obtain rfl := Option.some.inj (hpad.symm.trans hp)
  obtain ⟨hfo, hfi, hfp⟩ := Description.isFinite_detailed hfinite hr
  refine ⟨r, hr, fun x hx => ?_⟩
  simp only [List.mem_cons, List.not_mem_nil, or_false] at hx
  rcases hx with rfl | rfl | rfl
  · exact Draft.keepsFcRule_of_not_breaks hfo hkeeps.1
  · exact Draft.keepsFcRule_of_not_breaks hfi hkeeps.2.1
  · exact Draft.keepsFcRule_of_not_breaks hfp hkeeps.2.2

end Suits

/-! ## Drafts -/

namespace Draft

variable {source : String} {census : Census} {cited : List Nat} {lines : List LogicalLine}
  {rows : List PinRow} {d : Draft} {a : Description Binary64}

/-- Detailed routing misses nothing exactly when global routing does not and each field that only it
reads has one line. -/
theorem Holds.presence_detailed (h : d.Holds source census lines rows) :
    d.presenceFindings .detailed = [] ↔ d.presenceFindings .global = [] ∧
      ∀ f : Field, f.isDetailed = true → (ofField f lines).length = 1 := by
  rw [h.presence_iff, h.presence_iff]
  constructor
  · rintro ⟨hstated, hpin⟩
    have hone : ∀ f : Field, f.isPin = false → (ofField f lines).length = 1 := fun f hf =>
      hstated f (mem_mandatory.2 ⟨hf, .inl rfl⟩)
    refine ⟨⟨fun f hf => hone f (mem_mandatory.1 hf).1, hpin⟩, fun f hf => ?_⟩
    exact hone f (Field.isPin_of_isDetailed hf)
  · rintro ⟨⟨hstated, hpin⟩, hdetailed⟩
    refine ⟨fun f hf => ?_, hpin⟩
    cases hread : f.isDetailed with
    | false => exact hstated f (mem_mandatory.2 ⟨(mem_mandatory.1 hf).1, .inr hread⟩)
    | true => exact hdetailed f hread

/-- Detailed routing accepts a draft exactly when global routing does, each field that only it reads
has one line, and the description suits. -/
theorem Holds.accept_detailed (h : d.Holds source census lines rows) (hcounts : census.Counts cited)
    (hcited : List.Forall₂ LogicalLine.Cites (pins lines) cited) :
    d.accept .detailed = .ok a ↔ d.accept .global = .ok a ∧
      (∀ f : Field, f.isDetailed = true → (ofField f lines).length = 1) ∧ a.SuitsDetailed := by
  -- The checks read the draft, but what suits is said of the description: it is frozen first.
  have hsuits : d.toDescription = .ok a →
      (∀ f : Field, f.isDetailed = true → (ofField f lines).length = 1) →
        (d.SuitsDetailed ↔ a.SuitsDetailed) := by
    intro hfrozen honce
    have hy := (h.toDescription_ok hcounts hcited).1 hfrozen
    refine hy.suitsDetailed_iff (fun entry hentry => ((h.real_of_yields hy).1 entry hentry).1) ?_
    rw [← hy.detailed, detailed_isSome]
    intro f hf
    refine (h.exists_value_iff (Field.isPin_of_isDetailed hf)).2 (List.ne_nil_of_length_pos ?_)
    rw [honce f hf]
    exact Nat.one_pos
  rw [accept_ok, accept_ok, findings_detailed, findings_global, h.presence_detailed]
  constructor
  · rintro ⟨⟨⟨hpresent, honce⟩, hdraft⟩, hfrozen⟩
    exact ⟨⟨hpresent, hfrozen⟩, honce, (hsuits hfrozen honce).1 hdraft⟩
  · rintro ⟨⟨hpresent, hfrozen⟩, honce, ha⟩
    exact ⟨⟨⟨hpresent, honce⟩, (hsuits hfrozen honce).2 ha⟩, hfrozen⟩

end Draft

/-! ## Texts -/

section Texts

variable {text source : String} {routing : Routing} {a : Description Binary64}

theorem Channel.normal_eq {c : Channel Binary64} (h : ∀ x ∈ c.unused, x = .zero) :
    c.normal = c := by
  obtain ⟨profile, peak, width, xpeak, dc⟩ := c
  cases profile <;> simp only [unused, List.forall_mem_cons] at h <;> simp [normal, h]

/-- What a text is parsed to is equal to itself: no value in it is not a number. -/
theorem parseText_beq_self (h : parseText text source routing = .ok a) : (a == a) = true := by
  obtain ⟨census, cited, rows, d, -, -, hd, -, hy⟩ := parseText_holds h
  obtain ⟨hreal, hunused⟩ := hd.real_of_yields hy
  have hnormal : a.normal = a := by
    unfold Description.normal
    rw [Channel.normal_eq fun x hx => hunused x (List.mem_append_left _ hx),
      Channel.normal_eq fun x hx => hunused x (List.mem_append_right _ hx)]
  have hbeq := Description.normal_beq (fun entry hentry => (hreal entry hentry).1) fun x hx => by
    rw [hunused x hx]
    rfl
  rwa [hnormal] at hbeq

theorem parseText_detailed_ok : parseText text source .detailed = .ok a ↔
    parseText text source .global = .ok a ∧
      (∀ f : Field, f.isDetailed = true → (ofField f (LogicalLine.ofText text)).length = 1) ∧
        a.SuitsDetailed := by
  cases hload : (Stream.ofText text source).draft with
  | ok d =>
    obtain ⟨census, cited, rows, hcounts, hcited, hd⟩ := Stream.holds_of_draft hload
    rw [parseText_of_draft hload, parseText_of_draft hload]
    exact hd.accept_detailed hcounts hcited
  | error e =>
    have herror : ∀ routing, parseText text source routing = .error e.toParseError := by
      intro routing
      unfold parseText Stream.parse
      rw [hload]
      rfl
    simp [herror]

end Texts

/-- Detailed routing is global routing with conditions of its own. What it parses a text to, global
routing parses it to as well. What global routing parses a text to, detailed routing does exactly
when each field that only it reads has one line and the description suits. The two find the same
fault in a text. -/
theorem parseText_detailed_iff (text source : String) :
    (∀ a, parseText text source .detailed = .ok a →
      parseText text source .global = .ok a ∧ (a == a) = true) ∧
    (∀ a, parseText text source .global = .ok a → (parseText text source .detailed = .ok a ↔
      (∀ f : Field, f.isDetailed = true → (ofField f (LogicalLine.ofText text)).length = 1) ∧
        a.SuitsDetailed)) ∧
    ∀ f, parseText text source .global = .error (.fault f) ↔
      parseText text source .detailed = .error (.fault f) := by
  refine ⟨fun a h => ?_, fun a h => ?_, fun f => ?_⟩
  · exact ⟨(parseText_detailed_ok.1 h).1, parseText_beq_self h⟩
  · rw [parseText_detailed_ok, and_iff_right h]
  · rw [parseText_fault, parseText_fault]

/-- Of two texts, both modes take the one and both find the same fault in the other. -/
theorem detailed_two_pins :
    let text := "io_rat 2\nchan_width_io 1\nchan_width_x uniform 1\nchan_width_y uniform 1\n" ++
      "inpin class: 0 top left\ninpin class: 0 right\nsubblocks_per_cluster 1\n" ++
      "subblock_lut_size 4\nFc_type fractional\nFc_output 0.5\nFc_input 1\nFc_pad 0.25\n" ++
      "switch_block_type wilton\n"
    (∃ a, parseText text "two pins" .detailed = .ok a ∧ parseText text "two pins" .global = .ok a ∧
      a.SuitsDetailed) ∧
    ∃ f, parseText "io_rat 0" "zero" .global = .error (.fault f) ∧
      parseText "io_rat 0" "zero" .detailed = .error (.fault f) := by
  intro text
  constructor
  · have hok : (parseText text "two pins" .detailed).isOk = true := by decide +kernel
    cases h : parseText text "two pins" .detailed with
    | ok a =>
      obtain ⟨hglobal, hdetailed, -⟩ := parseText_detailed_iff text "two pins"
      have hsame := (hglobal a h).1
      exact ⟨a, rfl, hsame, ((hdetailed a hsame).1 h).2⟩
    | error e =>
      rw [h] at hok
      cases hok
  · have hfault : (match parseText "io_rat 0" "zero" .global with
      | .error (.fault _) => true
      | _ => false) = true := by decide +kernel
    cases h : parseText "io_rat 0" "zero" .global with
    | error e =>
      cases e with
      | fault f => exact ⟨f, rfl, ((parseText_detailed_iff "io_rat 0" "zero").2.2 f).1 h⟩
      | _ =>
        rw [h] at hfault
        cases hfault
    | ok a =>
      rw [h] at hfault
      cases hfault

end Fabric
