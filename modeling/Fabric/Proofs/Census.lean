import Fabric.Proofs.PinView
import Mathlib.Algebra.BigOperators.Group.Finset.Basic
import Mathlib.Algebra.GroupWithZero.Nat

/-!
# The census counts the cited classes

The census of a text succeeds exactly when every pin line cites a class and the cited numbers are
`0, 1, …, k - 1` (`discover_ok`). It then has one member slot for each citation of a class and one
place for each pin (`Census.Counts`).
-/

namespace Fabric

/-! ## Cited classes -/

namespace LogicalLine

theorem pins_nil : pins [] = [] := rfl

theorem pins_append (xs ys : List LogicalLine) : pins (xs ++ ys) = pins xs ++ pins ys :=
  List.filter_append ..

theorem pins_cons_pos {line : LogicalLine} (lines : List LogicalLine)
    (h : Census.isPinKeyword line.keyword = true) : pins (line :: lines) = line :: pins lines :=
  List.filter_cons_of_pos h

theorem pins_cons_neg {line : LogicalLine} (lines : List LogicalLine)
    (h : Census.isPinKeyword line.keyword = false) : pins (line :: lines) = pins lines :=
  List.filter_cons_of_neg (by simp [h])

end LogicalLine

namespace Census

open LogicalLine (Cites pins)

theorem classId_cursor_ok {line : LogicalLine} {source : String} {c : Nat} :
    (∃ cursor, Scalar.classId (line.cursor source) = .ok c cursor) ↔ line.Cites c := by
  simp only [Scalar.classId_ok]
  constructor
  · rintro ⟨_, token, rest, hops, hread, -⟩
    exact ⟨token, rest, hops, hread⟩
  · rintro ⟨token, rest, hops, hread⟩
    exact ⟨_, token, rest, hops, hread, rfl⟩

/-- The cited classes are found exactly when every pin line cites one. -/
theorem citedClasses_ok {source : String} : ∀ {lines : List LogicalLine} {cited : List Nat},
    citedClasses source lines = .ok cited ↔ List.Forall₂ Cites (pins lines) cited := by
  intro lines
  induction lines with
  | nil =>
    intro cited
    simp [citedClasses, LogicalLine.pins_nil, eq_comm]
  | cons line lines ih =>
    intro cited
    unfold citedClasses
    by_cases hpin : isPinKeyword line.keyword = true
    · rw [if_pos hpin, LogicalLine.pins_cons_pos lines hpin, List.forall₂_cons_left_iff]
      cases hread : Scalar.classId (line.cursor source) with
      | ok c cursor =>
        have hc : line.Cites c := classId_cursor_ok.1 ⟨cursor, hread⟩
        cases hrest : citedClasses source lines with
        | ok cs =>
          have hcs := ih.1 hrest
          simp only [Except.map, Except.ok.injEq]
          constructor
          · rintro rfl
            exact ⟨c, cs, hc, hcs, rfl⟩
          · rintro ⟨c', cs', hc', hcs', rfl⟩
            rw [hc.unique hc', Except.ok.inj (hrest.symm.trans (ih.2 hcs'))]
        | error halt =>
          simp only [Except.map, reduceCtorEq, false_iff]
          rintro ⟨c', cs', -, hcs', -⟩
          cases hrest.symm.trans (ih.2 hcs')
      | error failure cursor =>
        simp only [reduceCtorEq, false_iff]
        rintro ⟨c', cs', hc', -, -⟩
        obtain ⟨cursor', hok⟩ := (@classId_cursor_ok _ source _).2 hc'
        cases hread.symm.trans hok
    · rw [if_neg hpin, LogicalLine.pins_cons_neg lines (by simpa using hpin)]
      exact ih

/-! ## The bound of the cited classes -/

theorem classBound_append (xs : List Nat) (c : Nat) :
    classBound (xs ++ [c]) = max (classBound xs) (c + 1) := by
  simp [classBound]

theorem classBound_le {cited : List Nat} {n : Nat} :
    classBound cited ≤ n ↔ ∀ c ∈ cited, c < n := by
  induction cited using List.reverseRecOn with
  | nil => simp [classBound]
  | append_singleton cited c ih =>
    rw [classBound_append, max_le_iff, ih]
    constructor
    · rintro ⟨hall, hc⟩ x hx
      rcases List.mem_append.1 hx with hx | hx
      · exact hall x hx
      · rw [List.mem_singleton.1 hx]
        exact hc
    · intro hall
      exact ⟨fun x hx => hall x (List.mem_append_left _ hx),
        hall c (List.mem_append_right _ (List.mem_singleton_self c))⟩

theorem lt_classBound {cited : List Nat} {c : Nat} (h : c ∈ cited) : c < classBound cited :=
  classBound_le.1 le_rfl c h

theorem length_eraseDups (xs : List Nat) : xs.eraseDups.length = xs.toFinset.card := by
  induction hn : xs.length using Nat.strong_induction_on generalizing xs with
  | _ n ih =>
    cases xs with
    | nil => rfl
    | cons x xs =>
      have hle := List.length_filter_le (fun y => !y == x) xs
      have hset : (xs.filter fun y => !y == x).toFinset = xs.toFinset.erase x := by
        ext y
        simp [and_comm]
      rw [List.eraseDups_cons, List.length_cons, ih _ (by rw [← hn, List.length_cons]; omega) _ rfl,
        hset, List.toFinset_cons, ← Finset.erase_insert_eq_erase,
        Finset.card_erase_add_one (Finset.mem_insert_self x _)]

/-- There are as many distinct cited numbers as the bound says exactly when none is left out. -/
theorem length_eraseDups_eq_classBound {cited : List Nat} :
    cited.eraseDups.length = classBound cited ↔ ∀ c < classBound cited, c ∈ cited := by
  have hsub : cited.toFinset ⊆ Finset.range (classBound cited) := by
    intro c hc
    exact Finset.mem_range.2 (lt_classBound (List.mem_toFinset.1 hc))
  rw [length_eraseDups]
  constructor
  · intro hcard c hc
    have heq := Finset.eq_of_subset_of_card_le hsub (by rw [hcard, Finset.card_range])
    rw [← List.mem_toFinset, heq]
    exact Finset.mem_range.2 hc
  · intro hall
    have heq : cited.toFinset = Finset.range (classBound cited) := by
      refine hsub.antisymm fun c hc => ?_
      exact List.mem_toFinset.2 (hall c (Finset.mem_range.1 hc))
    rw [heq, Finset.card_range]

/-- The counts of all numbers below a bound of a list add up to its length. -/
theorem sum_count (xs : List Nat) {n : Nat} (h : ∀ c ∈ xs, c < n) :
    ((List.range n).map fun c => xs.count c).sum = xs.length := by
  have hsum := Multiset.sum_count_eq_card (s := Finset.range n) (m := (xs : Multiset Nat))
    (fun c hc => Finset.mem_range.2 (h c hc))
  simp only [Finset.sum, Finset.range_val, Multiset.coe_count, Multiset.coe_card] at hsum
  exact hsum

/-! ## The census -/

theorem ofCited_ok {source : String} {lastLine : Nat} {cited : List Nat} {census : Census} :
    ofCited source lastLine cited = .ok census ↔ (∀ c < classBound cited, c ∈ cited) ∧
      census = ⟨(List.range (classBound cited)).map fun c => cited.count c⟩ := by
  unfold ofCited
  rw [← length_eraseDups_eq_classBound]
  by_cases h : cited.eraseDups.length = classBound cited
  · simp [h, eq_comm]
  · simp only [h, if_false, false_and, iff_false]
    split <;> simp

theorem pinsPerClass_eq (census : Census) :
    census.pinsPerClass = (List.range census.numClasses).map census.slots := by
  refine List.ext_getElem (by simp [numClasses]) fun c hc _ => ?_
  simp [slots, hc]

/-- A census counts citations: each class has one slot for each time it is cited, no class is left
out, and there are as many pins as citations. -/
structure Counts (census : Census) (cited : List Nat) : Prop where
  slots : ∀ c, census.slots c = cited.count c
  mem_iff : ∀ c, c ∈ cited ↔ c < census.numClasses
  total : census.totalPins = cited.length

theorem Counts.of_cited {cited : List Nat} (hall : ∀ c < classBound cited, c ∈ cited) :
    Counts ⟨(List.range (classBound cited)).map fun c => cited.count c⟩ cited where
  slots c := by
    unfold Census.slots
    rw [List.getD_eq_getElem?_getD]
    by_cases hc : c < classBound cited
    · simp [hc]
    · have hnot : c ∉ cited := fun h => hc (lt_classBound h)
      simp [hc, List.count_eq_zero.2 hnot]
  mem_iff c := by
    simp only [numClasses, List.length_map, List.length_range]
    exact ⟨lt_classBound, hall c⟩
  total := sum_count cited fun _ => lt_classBound

end Census

/-- The census of a text succeeds exactly when every pin line cites a class and no number below a
cited one is left out. -/
theorem Stream.discover_ok {s : Stream} {census : Census} : s.discover.1 = .ok census ↔
    ∃ cited, List.Forall₂ LogicalLine.Cites (LogicalLine.pins s.rewind.logicalLines) cited ∧
      (∀ c < Census.classBound cited, c ∈ cited) ∧
      census = ⟨(List.range (Census.classBound cited)).map fun c => cited.count c⟩ := by
  simp only [← @Census.citedClasses_ok s.source]
  unfold Stream.discover
  simp only
  cases h : Census.citedClasses s.source s.rewind.logicalLines with
  | error halt => simp
  | ok cited => simp [Census.ofCited_ok]

/-- A census counts the classes that the pin lines cite. -/
theorem Stream.discover_counts {s : Stream} {census : Census} (h : s.discover.1 = .ok census) :
    ∃ cited, List.Forall₂ LogicalLine.Cites (LogicalLine.pins s.rewind.logicalLines) cited ∧
      census.Counts cited := by
  obtain ⟨cited, hcites, hall, rfl⟩ := Stream.discover_ok.1 h
  exact ⟨cited, hcites, .of_cited hall⟩

end Fabric
