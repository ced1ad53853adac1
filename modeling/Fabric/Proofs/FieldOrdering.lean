import Fabric.Config.Schema
import Fabric.Proofs.Reading

/-!
# Names that can be put in order

Sorting by runs gives a list as soon as no comparison is refused among what is sorted, and what it
gives was there before (`RunSort.sort_ok`). Texts can always be compared, so the errors of fields
whose names are texts are always kept in order (`FieldOrder.addAll_ok`, `FieldOrder.addGroup_ok`).
-/

namespace Fabric

/-- A fold of actions that keep a property, none of which is refused. -/
theorem foldlM_ok {ε α β : Type} {Q : β → Prop} {f : β → α → Except ε β} {xs : List α}
    (hf : ∀ b x, Q b → x ∈ xs → ∃ b', f b x = .ok b' ∧ Q b') {b : β} (hb : Q b) :
    ∃ b', xs.foldlM f b = .ok b' ∧ Q b' := by
  induction xs generalizing b with
  | nil => exact ⟨b, rfl, hb⟩
  | cons x xs ih =>
    obtain ⟨b₁, hstep, hb₁⟩ := hf b x hb List.mem_cons_self
    obtain ⟨b₂, hrest, hb₂⟩ := ih (fun b y hb hy => hf b y hb (List.mem_cons_of_mem _ hy)) hb₁
    exact ⟨b₂, by rw [List.foldlM_cons, hstep]; exact hrest, hb₂⟩

/-! ## Sorting by runs -/

namespace RunSort

variable {α ε : Type} {less : α → α → Except ε Bool} {P : α → Prop}

section Sorting

variable (hless : ∀ a b, P a → P b → ∃ isLess, less a b = .ok isLess)

include hless

theorem insert_ok {x : α} {xs : List α} (hx : P x) (hxs : ∀ y ∈ xs, P y) :
    ∃ ys, insert less x xs = .ok ys ∧ ∀ y ∈ ys, P y := by
  -- The halves are shorter than the list, so the induction is on the length.
  induction hlength : xs.length using Nat.strongRecOn generalizing xs with
  | ind n ih =>
    subst hlength
    unfold insert
    split
    · exact ⟨[x], rfl, List.forall_mem_singleton.2 hx⟩
    · rename_i middle after hdrop
      have hmem : ∀ y ∈ middle :: after, P y := fun y hy =>
        hxs y (List.mem_of_mem_drop (hdrop ▸ hy))
      have hbefore : ∀ y ∈ xs.take (xs.length / 2), P y := fun y hy =>
        hxs y (List.mem_of_mem_take hy)
      obtain ⟨hmiddle, hafter⟩ := List.forall_mem_cons.1 hmem
      have hcut := congrArg List.length hdrop
      rw [List.length_drop, List.length_cons] at hcut
      obtain ⟨isLess, hcompare⟩ := hless x middle hx hmiddle
      cases isLess with
      | true =>
        obtain ⟨ys, hys, hP⟩ := ih _ (by rw [List.length_take]; omega) hbefore rfl
        refine ⟨ys ++ middle :: after, ?_, List.forall_mem_append.2 ⟨hP, hmem⟩⟩
        simp only [hcompare, hys, bind, Except.bind, pure, Except.pure, if_true]
      | false =>
        obtain ⟨ys, hys, hP⟩ := ih _ (by omega) hafter rfl
        refine ⟨xs.take (xs.length / 2) ++ middle :: ys, ?_,
          List.forall_mem_append.2 ⟨hbefore, List.forall_mem_cons.2 ⟨hmiddle, hP⟩⟩⟩
        simp only [hcompare, hys, bind, Except.bind, pure, Except.pure, Bool.false_eq_true,
          if_false]

theorem splitRun_ok (isDescending : Bool) {previous : α} {xs : List α} (hprevious : P previous)
    (hxs : ∀ x ∈ xs, P x) : ∃ run others,
      splitRun less isDescending previous xs = .ok (run, others) ∧ (∀ x ∈ run, P x) ∧
        ∀ x ∈ others, P x := by
  induction xs generalizing previous with
  | nil => exact ⟨[], [], rfl, List.forall_mem_nil _, List.forall_mem_nil _⟩
  | cons x rest ih =>
    obtain ⟨hx, hrest⟩ := List.forall_mem_cons.1 hxs
    obtain ⟨isLess, hcompare⟩ := hless x previous hx hprevious
    obtain ⟨run, others, hsplit, hrun, hothers⟩ := ih hx hrest
    unfold splitRun
    by_cases hgoes : isLess = isDescending
    · refine ⟨x :: run, others, ?_, List.forall_mem_cons.2 ⟨hx, hrun⟩, hothers⟩
      simp [hcompare, hsplit, hgoes, bind, Except.bind, pure, Except.pure]
    · refine ⟨[], x :: rest, ?_, List.forall_mem_nil _, hxs⟩
      simp [hcompare, hgoes, bind, Except.bind, pure, Except.pure]

/-- What can be compared with each other can be sorted. -/
theorem sort_ok {xs : List α} (hxs : ∀ x ∈ xs, P x) :
    ∃ ys, sort less xs = .ok ys ∧ ∀ y ∈ ys, P y := by
  match xs with
  | [] => exact ⟨[], rfl, hxs⟩
  | [x] => exact ⟨[x], rfl, hxs⟩
  | first :: second :: rest =>
    obtain ⟨hfirst, hsecond, hrest⟩ : P first ∧ P second ∧ ∀ x ∈ rest, P x := by
      simpa only [List.forall_mem_cons] using hxs
    obtain ⟨isDescending, hcompare⟩ := hless second first hsecond hfirst
    obtain ⟨run, others, hsplit, hrun, hothers⟩ := splitRun_ok hless isDescending hsecond hrest
    have hstart : ∀ x ∈ (if isDescending then (first :: second :: run).reverse
        else first :: second :: run), P x := by
      have hall : ∀ x ∈ first :: second :: run, P x := by
        simpa only [List.forall_mem_cons] using ⟨hfirst, hsecond, hrun⟩
      split
      · exact fun x hx => hall x (List.mem_reverse.1 hx)
      · exact hall
    obtain ⟨ys, hys, hP⟩ := foldlM_ok (Q := fun ys => ∀ y ∈ ys, P y)
      (fun sorted x hsorted hx => insert_ok hless (hothers x hx) hsorted) hstart
    refine ⟨ys, ?_, hP⟩
    unfold sort
    simp only [hcompare, hsplit, bind, Except.bind]
    exact hys

end Sorting

end RunSort

/-! ## Names that are texts -/

namespace Value

/-- A value that is a text. -/
def IsText (v : Value) : Prop := ∃ s, v = .string s

theorem isText_string (s : String) : IsText (.string s) := ⟨s, rfl⟩

/-- Texts are never refused a comparison. -/
theorem IsText.before_ok {a b : Value} (ha : a.IsText) (hb : b.IsText) :
    ∃ isLess, a.before b = .ok isLess := by
  obtain ⟨s, rfl⟩ := ha
  obtain ⟨t, rfl⟩ := hb
  exact ⟨_, before_string s t⟩

end Value

namespace FieldOrder

/-- All names in an order are texts. -/
structure OfTexts (order : FieldOrder) : Prop where
  all : ∀ x ∈ order.all, x.1.IsText
  unruled : ∀ name ∈ order.unruled, name.IsText

theorem ofTexts_empty : OfTexts {} := ⟨List.forall_mem_nil _, List.forall_mem_nil _⟩

variable {order inner : FieldOrder} {name : Value}

theorem sortAll_ok {names : List (Value × Bool)} (h : ∀ x ∈ names, x.1.IsText) :
    ∃ sorted, sortAll names = .ok sorted ∧ ∀ x ∈ sorted, x.1.IsText :=
  RunSort.sort_ok (P := fun x : Value × Bool => x.1.IsText) (fun _ _ ha hb => ha.before_ok hb) h

/-- A name that is a text is added to the names of an order. -/
theorem sortAll_concat_ok (h : order.OfTexts) (hname : name.IsText) (isUnruled : Bool) :
    ∃ sorted, sortAll (order.all ++ [(name, isUnruled)]) = .ok sorted ∧ ∀ x ∈ sorted, x.1.IsText :=
  sortAll_ok (List.forall_mem_append.2 ⟨h.all, List.forall_mem_singleton.2 hname⟩)

theorem add_ok (h : order.OfTexts) (hname : name.IsText) (isUnruled : Bool) :
    ∃ order', order.add name isUnruled = .ok order' ∧ order'.OfTexts := by
  obtain ⟨all, hall, hallTexts⟩ := sortAll_concat_ok h hname isUnruled
  obtain ⟨unruled, hunruled, hunruledTexts⟩ := RunSort.sort_ok (P := Value.IsText)
    (fun _ _ ha hb => ha.before_ok hb)
    (List.forall_mem_append.2 ⟨h.unruled, List.forall_mem_singleton.2 hname⟩)
  unfold add
  cases isUnruled with
  | true =>
    refine ⟨⟨all, unruled⟩, ?_, hallTexts, hunruledTexts⟩
    simp only [hall, hunruled, bind, Except.bind, if_true, pure, Except.pure]
  | false =>
    refine ⟨⟨all, order.unruled⟩, ?_, hallTexts, h.unruled⟩
    simp only [hall, bind, Except.bind, Bool.false_eq_true, if_false, pure, Except.pure]

theorem addAll_ok (h : order.OfTexts) (hname : name.IsText) (errors : List FieldError) :
    ∃ order', order.addAll name errors = .ok order' ∧ order'.OfTexts := by
  obtain ⟨order', hadd, horder'⟩ := foldlM_ok (Q := OfTexts)
    (fun order (error : FieldError) ho (_ : error ∈ errors) => add_ok ho hname error.isUnruled) h
  exact ⟨order', mapError_ok.2 hadd, horder'⟩

/-- Members of a group can be compared, also with the group itself. -/
theorem beforeMember_ok {a b : Option Value} (ha : ∀ v ∈ a, v.IsText) (hb : ∀ v ∈ b, v.IsText) :
    ∃ isLess, beforeMember a b = .ok isLess := by
  cases a with
  | none => exact ⟨_, rfl⟩
  | some a =>
    cases b with
    | none => exact ⟨_, rfl⟩
    | some b => exact (ha a rfl).before_ok (hb b rfl)

theorem addGroup_ok (h : order.OfTexts) (hname : name.IsText) (hinner : inner.OfTexts) :
    ∃ order', order.addGroup name inner = .ok order' ∧ order'.OfTexts := by
  obtain ⟨all, hall, hallTexts⟩ := sortAll_concat_ok h hname false
  have hmembers : ∀ member ∈ (inner.all.filter (·.2)).map fun x => some x.1,
      ∀ v ∈ member, v.IsText := by
    intro member hmember v hv
    obtain ⟨x, hx, rfl⟩ := List.mem_map.1 hmember
    cases hv
    exact hinner.all x (List.mem_of_mem_filter hx)
  obtain ⟨group, hgroup, -⟩ := foldlM_ok
    (Q := fun sorted : List (Option Value) => ∀ member ∈ sorted, ∀ v ∈ member, v.IsText)
    (fun sorted member hsorted hmember => RunSort.sort_ok (fun _ _ => beforeMember_ok)
      (List.forall_mem_append.2
        ⟨hsorted, List.forall_mem_singleton.2 (hmembers member hmember)⟩))
    (List.forall_mem_singleton.2 (fun _ hv => nomatch hv : ∀ v ∈ (none : Option Value), v.IsText))
  refine ⟨{ order with all }, ?_, hallTexts, h.unruled⟩
  unfold addGroup
  simp only [hall, bind, Except.bind]
  exact except_bind_ok.2 ⟨group, hgroup, rfl⟩

end FieldOrder

end Fabric
