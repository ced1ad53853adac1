import Fabric.Proofs.Reordering

/-!
# Lines that state nothing

Loading takes no notice of lines whose keyword is none of the fields', nor of how lines are laid
out. Texts with the same statements (`LogicalLine.SameStatements`) therefore end in the same way,
but for line numbers (`parseText_sameStatements`). For descriptions and rejections this is a case of
`LogicalLine.Agree`. Which fault is first depends on more than that, namely on the order of all
statements: a statement that is at fault stands after the same statements in both texts
(`SameStatements.exists_split`), and is at fault in the same way (`Faulty.of_sameStatements`).
-/

namespace Fabric

namespace LogicalLine

/-! ## The same statements -/

/-- The lines that state a field have the same tokens in the same order. -/
def SameStatements (lines lines' : List LogicalLine) : Prop :=
  (lines.filter (·.isStatement)).map allTokens = (lines'.filter (·.isStatement)).map allTokens

theorem isStatement_of_isPinKeyword {line : LogicalLine}
    (h : Census.isPinKeyword line.keyword = true) : line.isStatement = true := by
  obtain ⟨dir, hdir⟩ := isPinKeyword_iff.1 h
  exact isStatement_of_keyword hdir

/-- Lines chosen by keywords of fields are chosen among the statements. -/
theorem filter_statements {p : String → Bool} (lines : List LogicalLine)
    (hp : ∀ line : LogicalLine, p line.keyword = true → line.isStatement = true) :
    (lines.filter (·.isStatement)).filter (p ·.keyword) = lines.filter (p ·.keyword) := by
  rw [List.filter_filter]
  apply List.filter_congr
  intro line _
  cases hline : p line.keyword with
  | false => rfl
  | true => rw [hp line hline, Bool.and_true]

namespace SameStatements

variable {lines lines' : List LogicalLine}

theorem symm (h : SameStatements lines lines') : SameStatements lines' lines := Eq.symm h

theorem map_filter (h : SameStatements lines lines') {p : String → Bool}
    (hp : ∀ line : LogicalLine, p line.keyword = true → line.isStatement = true) :
    (lines.filter (p ·.keyword)).map allTokens = (lines'.filter (p ·.keyword)).map allTokens := by
  rw [← filter_statements lines hp, ← filter_statements lines' hp]
  exact map_allTokens_filter h p

theorem agree (h : SameStatements lines lines') : Agree lines lines' where
  pinTokens := h.map_filter fun _ => isStatement_of_isPinKeyword
  fieldTokens f _ := by
    apply h.map_filter (p := (· == f.keyword))
    intro line hline
    exact isStatement_of_keyword (beq_iff_eq.1 hline)

/-- A statement has its counterpart after the same statements. -/
theorem exists_split {before after : List LogicalLine} {line : LogicalLine}
    (h : SameStatements (before ++ line :: after) lines') (hline : line.isStatement = true) :
    ∃ before' line' after', lines' = before' ++ line' :: after' ∧
      SameStatements before before' ∧ line.allTokens = line'.allTokens := by
  unfold SameStatements at h
  rw [List.filter_append, List.filter_cons_of_pos hline, List.map_append, List.map_cons] at h
  obtain ⟨stated, rest, hstated, hbefore, hrest⟩ := List.map_eq_append_iff.1 h.symm
  obtain ⟨line', rest', rfl, hline', -⟩ := List.map_eq_cons_iff.1 hrest
  obtain ⟨before', tail, rfl, hbefore', htail⟩ := List.filter_eq_append_iff.1 hstated
  obtain ⟨skipped, after', rfl, hskipped, -, -⟩ := List.filter_eq_cons_iff.1 htail
  refine ⟨before' ++ skipped, line', after', (List.append_assoc ..).symm, ?_, hline'.symm⟩
  have hnone : skipped.filter (·.isStatement) = [] := List.filter_eq_nil_iff.2 hskipped
  unfold SameStatements
  rw [List.filter_append, hnone, List.append_nil, hbefore', hbefore]

end SameStatements

/-! ## The same faults -/

theorem AllCite.of_agree {lines lines' : List LogicalLine} (hcite : AllCite lines)
    (h : Agree lines lines') : AllCite lines' := by
  intro line' hline'
  obtain ⟨line, hline, heq⟩ := exists_of_map_allTokens h.pinTokens.symm hline'
  obtain ⟨c, hc⟩ := hcite line hline
  exact ⟨c, hc.of_allTokens heq.symm⟩

section Faults

variable {before before' : List LogicalLine} {line line' : LogicalLine} {c : Nat} {p : Problem}

/-- A class is first cited by pin lines with the same tokens. -/
theorem Conflicts.of_agree (hconflict : Conflicts before line c) (h : Agree before before')
    (heq : line.allTokens = line'.allTokens) : Conflicts before' line' c := by
  obtain ⟨earlier, first, rest, hpins, hearlier, hcites, hne⟩ := hconflict
  have htokens := h.pinTokens
  rw [hpins, List.map_append, List.map_cons] at htokens
  obtain ⟨earlier', tail, hpins', hbefore, htail⟩ := List.map_eq_append_iff.1 htokens.symm
  obtain ⟨first', rest', rfl, hfirst, -⟩ := List.map_eq_cons_iff.1 htail
  refine ⟨earlier', first', rest', hpins', ?_, hcites.of_allTokens hfirst.symm, ?_⟩
  · intro l' hl' hcites'
    obtain ⟨l, hl, hleq⟩ := exists_of_map_allTokens hbefore hl'
    exact hearlier l hl (hcites'.of_allTokens hleq)
  · rw [(allTokens_inj.1 hfirst).1, ← (allTokens_inj.1 heq).1]
    exact hne

/-- Lines with the same tokens have the same faults, each on its own line. -/
theorem fault_eq (heq : line.allTokens = line'.allTokens) (source : String) (p : Problem) :
    line'.fault source p = { line.fault source p with line := line'.number } := by
  unfold fault
  rw [(allTokens_inj.1 heq).1]

theorem Faulty.isStatement (h : Faulty before line p) : line.isStatement = true := by
  cases h with
  | value hf => exact isStatement_of_keyword hf
  | mixedDirections hpin | noLocation hpin | badSide hpin =>
    exact isStatement_of_isPinKeyword hpin

theorem Faulty.of_sameStatements (hp : Faulty before line p) (h : SameStatements before before')
    (heq : line.allTokens = line'.allTokens) : Faulty before' line' p := by
  obtain ⟨hkey, hops⟩ := allTokens_inj.1 heq
  have hagrees : ∀ {c}, ¬ Conflicts before line c → ¬ Conflicts before' line' c := by
    intro c hnot hconflict
    exact hnot (hconflict.of_agree h.agree.symm heq.symm)
  cases hp with
  | value hf hp => exact .value (hkey ▸ hf) (hops ▸ hp)
  | mixedDirections hpin hc hconflict =>
    exact .mixedDirections (hkey ▸ hpin) (hc.of_allTokens heq) (hconflict.of_agree h.agree heq)
  | noLocation hpin hc hnot hsides =>
    rw [h.agree.length_pins]
    exact .noLocation (hkey ▸ hpin) (hc.of_allTokens heq) (hagrees hnot) (hops ▸ hsides)
  | badSide hpin hc hnot hsides hside =>
    exact .badSide (hkey ▸ hpin) (hc.of_allTokens heq) (hagrees hnot) (hops ▸ hsides) hside

theorem FaultFree.of_sameStatements {lines lines' : List LogicalLine} (hfree : FaultFree lines)
    (h : SameStatements lines lines') : FaultFree lines' := by
  intro before' line' after' hsplit p hp
  rw [hsplit] at h
  obtain ⟨before, line, after, hsplit', hbefore, heq⟩ := h.symm.exists_split hp.isStatement
  exact hfree before line after hsplit' p (hp.of_sameStatements hbefore heq)

end Faults

end LogicalLine

open LogicalLine (SameStatements)

/-- The first fault is the same but for its line number. -/
theorem FirstFault.of_sameStatements {source : String} {lines lines' : List LogicalLine} {f : Fault}
    (hf : FirstFault source lines f) (h : SameStatements lines lines') :
    ∃ n, FirstFault source lines' { f with line := n } := by
  cases hf with
  | @classPart before after line p hsplit hbefore hpin hp =>
    rw [hsplit] at h
    obtain ⟨before', line', after', hsplit', hsame, heq⟩ :=
      h.exists_split (LogicalLine.isStatement_of_isPinKeyword hpin)
    obtain ⟨hkey, hops⟩ := LogicalLine.allTokens_inj.1 heq
    refine ⟨line'.number, ?_⟩
    rw [← LogicalLine.fault_eq heq]
    exact .classPart hsplit' (hbefore.of_agree hsame.agree) (hkey ▸ hpin) (hops ▸ hp)
  | @gap missing highest last hcite hgap hmissing hleast hhighest hgreatest hlast =>
    have hagree := h.agree
    have hhighest' := hagree.isCited hhighest
    -- The gap is put on the last line, whether that is a statement or not.
    obtain ⟨line', hline', -⟩ := hhighest'
    have hne : lines' ≠ [] := List.ne_nil_of_mem (List.mem_of_mem_filter hline')
    refine ⟨(lines'.getLast hne).number, ?_⟩
    apply FirstFault.gap
    · exact hcite.of_agree hagree
    · exact fun hc => hgap (hagree.symm.contiguous hc)
    · exact fun hc => hmissing (hagree.symm.isCited hc)
    · exact fun c hc => hagree.isCited (hleast c hc)
    · exact hagree.isCited hhighest
    · exact fun c hc => hgreatest c (hagree.symm.isCited hc)
    · exact List.getLast?_eq_getLast_of_ne_nil hne
  | @statement before after line p hcite hcontiguous hsplit hfree hp =>
    have hagree := h.agree
    rw [hsplit] at h
    obtain ⟨before', line', after', hsplit', hsame, heq⟩ := h.exists_split hp.isStatement
    refine ⟨line'.number, ?_⟩
    rw [← LogicalLine.fault_eq heq]
    exact .statement (hcite.of_agree hagree) (hagree.contiguous hcontiguous) hsplit'
      (hfree.of_sameStatements hsame) (hp.of_sameStatements hsame heq)

/-! ## The same outcome -/

/-- Two parses end alike: with one description, with faults that differ in their line numbers only,
or with rejections whose issues have the same levels, codes and fields in order. -/
inductive SameOutcome : Except ParseError (Description Binary64) →
    Except ParseError (Description Binary64) → Prop where
  | accepted (a : Description Binary64) : SameOutcome (.ok a) (.ok a)
  | fault (f : Fault) (n : Nat) :
    SameOutcome (.error (.fault f)) (.error (.fault { f with line := n }))
  | rejected {r r' : Rejection} (h : r'.outline = r.outline) :
    SameOutcome (.error (.inconsistent r)) (.error (.inconsistent r'))

/-- Texts with the same statements end alike, whatever other lines they have and however their lines
are laid out. -/
theorem parseText_sameStatements {text text' : String} (source : String) (routing : Routing)
    (hlen : text.length ≤ Cells.maxInteger) (hlen' : text'.length ≤ Cells.maxInteger)
    (h : SameStatements (LogicalLine.ofText text) (LogicalLine.ofText text')) :
    SameOutcome (parseText text source routing) (parseText text' source routing) := by
  have hagree := h.agree
  have houtcome := parseText_outcome source routing hlen
  generalize hresult : parseText text source routing = result at houtcome ⊢
  cases houtcome with
  | accepted =>
    rw [hagree.parseText_ok hlen hlen' hresult]
    exact .accepted _
  | rejected =>
    obtain ⟨r', hr', houtline⟩ := hagree.parseText_inconsistent hlen hlen' source hresult
    rw [hr']
    exact .rejected houtline
  | fault hf =>
    obtain ⟨n, hf'⟩ := hf.of_sameStatements h
    rw [parseText_fault.2 (hf'.draft_eq hlen')]
    exact .fault _ n

/-- A line that states nothing, a comment, an empty line and a continuation move the fault of a bad
value to another line and change nothing else about it. -/
theorem sameStatements_bad_ratio :
    let text := "io_rat 2\nio_rat x"
    let text' := "speed 1\nio_rat 2 # per row\n\nio_rat \\\n x"
    SameStatements (LogicalLine.ofText text) (LogicalLine.ofText text') ∧
    ∃ f, parseText text "a" .global = .error (.fault f) ∧ f.line = 2 ∧
      parseText text' "a" .global = .error (.fault { f with line := 5 }) := by
  intro text text'
  have hlines : LogicalLine.ofText text = [⟨1, "io_rat", ["2"]⟩, ⟨2, "io_rat", ["x"]⟩] := by
    decide +kernel
  have hlines' : LogicalLine.ofText text' =
      [⟨1, "speed", ["1"]⟩, ⟨2, "io_rat", ["2"]⟩, ⟨5, "io_rat", ["x"]⟩] := by
    decide +kernel
  have hsame : SameStatements (LogicalLine.ofText text) (LogicalLine.ofText text') := by
    rw [hlines, hlines']
    rfl
  refine ⟨hsame, ?_⟩
  have hline : (match parseText text "a" .global with
    | .error (.fault f) => f.line == 2
    | _ => false) = true := by decide +kernel
  have hline' : (match parseText text' "a" .global with
    | .error (.fault f) => f.line == 5
    | _ => false) = true := by decide +kernel
  have hboth := parseText_sameStatements "a" .global (by decide +kernel) (by decide +kernel) hsame
  generalize parseText text "a" .global = result at hline hboth ⊢
  generalize parseText text' "a" .global = result' at hline' hboth ⊢
  cases hboth with
  | accepted => cases hline
  | rejected => cases hline
  | fault f n =>
    obtain rfl : n = 5 := beq_iff_eq.1 hline'
    exact ⟨f, rfl, beq_iff_eq.1 hline, rfl⟩

end Fabric
