import Fabric.Proofs.FirstFault

/-!
# The census is exact

Where the class part of every pin line is good, whatever else the text holds, there are two outcomes
of the census (`discover_exact`). If the cited classes are the first numbers, it counts for each of
them the lines that cite it. If not, it names the least number that is not cited and the greatest
that is. The least is sought among one number more than there are distinct ones cited, and a search
in such a range cannot fail (`Census.leastUnused?_found`).
-/

namespace Fabric

open LogicalLine (pins IsCited AllCite)

/-! ## Lines that cite a class -/

namespace LogicalLine

instance decidableCites (line : LogicalLine) (c : Nat) : Decidable (line.Cites c) :=
  match h : line.operands with
  | marker :: token :: rest =>
    decidable_of_iff (marker = classMarker ∧ Numeral.read? token = some (c : Int)) (by
      unfold Cites
      rw [h]
      constructor
      · rintro ⟨rfl, hread⟩
        exact ⟨token, rest, rfl, hread⟩
      · rintro ⟨_, _, hops, hread⟩
        cases hops
        exact ⟨rfl, hread⟩)
  | [] => .isFalse fun ⟨_, _, hops, _⟩ => by cases h.symm.trans hops
  | [_] => .isFalse fun ⟨_, _, hops, _⟩ => by cases h.symm.trans hops

/-- The pin lines that cite a class. -/
def citing (c : Nat) (lines : List LogicalLine) : List LogicalLine :=
  (pins lines).filter (·.Cites c)

/-- A number is cited as often as there are lines that cite it. -/
theorem length_filter_cites {lines : List LogicalLine} {cited : List Nat}
    (h : List.Forall₂ Cites lines cited) (c : Nat) :
    (lines.filter (·.Cites c)).length = cited.count c := by
  induction h with
  | nil => rfl
  | @cons line c' lines cited hc _ ih =>
    by_cases hcites : line.Cites c
    · obtain rfl := hc.unique hcites
      simp [hcites, ih]
    · have hne : c' ≠ c := by
        intro heq
        exact hcites (heq ▸ hc)
      simp [hcites, hne, ih]

end LogicalLine

/-! ## The least number that is not cited -/

namespace Census

/-- Some number up to the number of distinct ones is not among them. -/
theorem exists_not_mem_le (cited : List Nat) : ∃ c, c ≤ cited.toFinset.card ∧ c ∉ cited := by
  by_contra hnone
  have hsub : Finset.range (cited.toFinset.card + 1) ⊆ cited.toFinset := by
    intro c hc
    by_contra hnot
    refine hnone ⟨c, Nat.le_of_lt_succ (Finset.mem_range.1 hc), ?_⟩
    intro hmem
    exact hnot (List.mem_toFinset.2 hmem)
  have hcard := Finset.card_le_card hsub
  rw [Finset.card_range] at hcard
  omega

/-- The search for the least number that is not cited finds it in its range. -/
theorem leastUnused?_found (cited : List Nat) : ∃ missing, leastUnused? cited = some missing ∧
    missing ≤ cited.toFinset.card ∧ missing ∉ cited ∧ ∀ c < missing, c ∈ cited := by
  obtain ⟨free, hle, hfree⟩ := exists_not_mem_le cited
  have hsome : ∃ c, c ∉ cited := ⟨free, hfree⟩
  have hleast : ∀ c < Nat.find hsome, c ∈ cited := by
    intro c hc
    exact not_not.1 (Nat.find_min hsome hc)
  have hmissing := Nat.find_spec hsome
  refine ⟨Nat.find hsome, leastUnused?_eq_some hmissing hleast, ?_, hmissing, hleast⟩
  exact (Nat.find_min' hsome hfree).trans hle

end Census

/-! ## The outcome -/

/-- What the census of `k` classes says of lines: how many of them cite each class, and how many pin
lines there are. -/
structure Census.Tallies (census : Census) (k : Nat) (lines : List LogicalLine) : Prop where
  numClasses : census.numClasses = k
  pinsPerClass : ∀ c < k, census.pinsPerClass[c]? = some (LogicalLine.citing c lines).length
  totalPins : census.totalPins = (pins lines).length

/-- What a report of a gap says of lines: the least number that is not cited and the greatest that
is, on the last line. -/
structure Fault.ReportsGap (f : Fault) (missing highest : Nat) (lines : List LogicalLine) :
    Prop where
  problem : f.problem = .classGap missing highest
  not_cited : ¬ IsCited lines missing
  least : ∀ c < missing, IsCited lines c
  isCited : IsCited lines highest
  greatest : ∀ c, IsCited lines c → c ≤ highest
  line : ∃ last, lines.getLast? = some last ∧ f.line = last.number
  details : f.details = "Class index " ++ Numeral.text missing ++
    " not used in architecture file. " ++
    "Specified class indices are not consecutive (highest index is " ++ Numeral.text highest ++ ")."

section Outcome

variable {lines : List LogicalLine} {cited : List Nat}

theorem Census.tallies {k : Nat} (hcited : List.Forall₂ LogicalLine.Cites (pins lines) cited)
    (hk : ∀ c, c ∈ cited ↔ c < k) (hall : ∀ c < Census.classBound cited, c ∈ cited) :
    Census.Tallies ⟨(List.range (Census.classBound cited)).map fun c => cited.count c⟩ k lines := by
  have hcounts := Census.Counts.of_cited hall
  have hbound : Census.classBound cited = k := by
    apply le_antisymm
    · exact Census.classBound_le.2 fun c hc => (hk c).1 hc
    · by_contra hnot
      exact absurd (Census.lt_classBound ((hk _).2 (not_le.1 hnot))) (Nat.lt_irrefl _)
  refine ⟨by simp [Census.numClasses, hbound], fun c hc => ?_, ?_⟩
  · rw [LogicalLine.citing, LogicalLine.length_filter_cites hcited]
    simp [hbound, hc]
  · rw [hcounts.total, hcited.length_eq]

end Outcome

/-- The census of a text whose pin lines all cite a class. If the cited numbers are the first `k`
ones, it counts the lines that cite each of them; if they are no first numbers, it ends with the
report of the gap. The least number that is not cited is always found in the range of the search. -/
theorem discover_exact {text : String} (source : String)
    (hcite : AllCite (LogicalLine.ofText text)) :
    (∀ k, (∀ c, IsCited (LogicalLine.ofText text) c ↔ c < k) → ∃ census,
      (Stream.ofText text source).discover.1 = .ok census ∧
        census.Tallies k (LogicalLine.ofText text)) ∧
    ((¬ ∃ k, ∀ c, IsCited (LogicalLine.ofText text) c ↔ c < k) → ∃ f missing highest,
      (Stream.ofText text source).discover.1 = .error (.fault f) ∧
        f.ReportsGap missing highest (LogicalLine.ofText text)) ∧
    ∀ cited, List.Forall₂ LogicalLine.Cites (pins (LogicalLine.ofText text)) cited →
      ∃ missing ∈ List.range (cited.toFinset.card + 1),
        Census.leastUnused? cited = some missing ∧ missing ∉ cited ∧ ∀ c < missing, c ∈ cited := by
  obtain ⟨cited, hcited⟩ := hcite.exists_cited
  have hmem : ∀ c, IsCited (LogicalLine.ofText text) c ↔ c ∈ cited := by
    intro c
    exact (mem_cited hcited).symm
  refine ⟨fun k hk => ?_, fun hgap => ?_, fun cited' _ => ?_⟩
  · have hall := (Census.contiguous_iff hcited).1 ⟨k, hk⟩
    refine ⟨_, Stream.discover_ok.2 ⟨cited, hcited, hall, rfl⟩, ?_⟩
    exact Census.tallies hcited (fun c => (hmem c).symm.trans (hk c)) hall
  · obtain ⟨missing, highest, last, hmissing, hleast, hhighest, hgreatest, hlast⟩ :=
      hcite.exists_gap hgap
    refine ⟨_, missing, highest,
      Stream.discover_gap hcite hgap hmissing hleast hhighest hgreatest hlast, ?_⟩
    exact {
      problem := rfl
      not_cited := hmissing
      least := hleast
      isCited := hhighest
      greatest := hgreatest
      line := ⟨last, hlast, rfl⟩
      details := rfl }
  · obtain ⟨missing, hfound, hle, hmissing, hleast⟩ := Census.leastUnused?_found cited'
    exact ⟨missing, List.mem_range.2 (Nat.lt_succ_of_le hle), hfound, hmissing, hleast⟩

/-- Two classes are counted between a bad value and bad or missing sides. Where the class 1 is left
out, the gap is reported on the last line, which is no pin line. -/
theorem discover_exact_amid_faults :
    let text := "io_rat x\ninpin class: 1 nowhere\noutpin class: +0\ninpin class: 01"
    let gapped := "inpin class: 2 top\ninpin class: 0\nFc_pad"
    (∃ census, (Stream.ofText text "text").discover.1 = .ok census ∧
      census.Tallies 2 (LogicalLine.ofText text)) ∧
    ∃ f missing highest, (Stream.ofText gapped "gapped").discover.1 = .error (.fault f) ∧
      f.ReportsGap missing highest (LogicalLine.ofText gapped) := by
  intro text gapped
  have hcited : List.Forall₂ LogicalLine.Cites (pins (LogicalLine.ofText text)) [1, 0, 1] := by
    decide +kernel
  have hgapped : List.Forall₂ LogicalLine.Cites (pins (LogicalLine.ofText gapped)) [2, 0] := by
    decide +kernel
  constructor
  · have hcite : AllCite (LogicalLine.ofText text) := fun line hline =>
      (exists_of_mem_left hcited hline).imp fun _ h => h.2
    refine (discover_exact "text" hcite).1 2 fun c => ?_
    rw [IsCited, ← mem_cited hcited]
    simp
    omega
  · have hcite : AllCite (LogicalLine.ofText gapped) := fun line hline =>
      (exists_of_mem_left hgapped hline).imp fun _ h => h.2
    refine (discover_exact "gapped" hcite).2.1 ?_
    rintro ⟨k, hk⟩
    have htwo := (hk 2).1 ((mem_cited hgapped).1 (by decide))
    have hone := (mem_cited hgapped).2 ((hk 1).2 (by omega))
    simp at hone

end Fabric
