import Fabric.Proofs.Freezing

/-!
# Where logical lines stand

A logical line stands on a group of physical lines: each but the last goes on with the next, its
tokens are those of the group, and its number is the place of the last (`standsIn_of_mem`). So the
logical lines of a text are numbered in ascending order (`numbers_increasing`), by places of the
text (`number_bounds`).
-/

namespace Fabric

namespace LogicalLine

/-- A logical line stands on the physical lines `run` and `last` of a text. Neither does a line
before them go on with them, nor do they go on, unless the text ends with them. -/
structure StandsOn (line : LogicalLine) (raws before run : List (List Char)) (last : List Char)
    (after : List (List Char)) : Prop where
  text : raws = before ++ run ++ last :: after
  begins : ∀ raw, before.getLast? = some raw → continues raw = false
  goesOn : ∀ raw ∈ run, continues raw = true
  ends : continues last = false ∨ after = []
  number : line.number = before.length + run.length + 1
  allTokens : line.allTokens = (run ++ [last]).flatMap tokens

theorem mem_ofTokens? {number : Nat} {ts : List String} {line : LogicalLine}
    (h : line ∈ (ofTokens? number ts).toList) : line.number = number ∧ line.allTokens = ts := by
  cases ts with
  | nil => cases h
  | cons t ts =>
    obtain rfl := List.mem_singleton.1 h
    exact ⟨rfl, rfl⟩

/-- The logical lines still to come stand on physical lines of the text, if what is pending are the
tokens of the physical lines that went on so far. -/
theorem standsOn_of_mem_listFrom {raws : List (List Char)} : ∀ {before run : List (List Char)},
    (∀ raw, before.getLast? = some raw → continues raw = false) →
    (∀ raw ∈ run, continues raw = true) →
    ∀ line ∈ listFrom (run.flatMap tokens) (before.length + run.length) raws,
      ∃ before' run' last after,
        line.StandsOn (before ++ run ++ raws) before' run' last after := by
  induction raws with
  | nil =>
    intro before run hbefore hrun line hline
    obtain ⟨hnumber, htokens⟩ := mem_ofTokens? hline
    -- The text ends with a line that goes on; it is the last of its group.
    rcases List.eq_nil_or_concat run with rfl | ⟨run', last, rfl⟩
    · cases htokens
    · rw [List.concat_eq_append] at *
      refine ⟨before, run', last, [], by simp, hbefore, ?_, .inr rfl, ?_, htokens⟩
      · exact fun raw hraw => hrun raw (List.mem_append_left _ hraw)
      · rw [hnumber, List.length_append, List.length_singleton, Nat.add_assoc]
  | cons raw rest ih =>
    intro before run hbefore hrun line hline
    have htokens : run.flatMap tokens ++ tokens raw = (run ++ [raw]).flatMap tokens := by simp
    unfold listFrom at hline
    simp only [htokens] at hline
    by_cases hcontinues : continues raw = true
    · rw [if_pos hcontinues] at hline
      have hrun' : ∀ r ∈ run ++ [raw], continues r = true := by
        intro r hr
        rcases List.mem_append.1 hr with hr | hr
        · exact hrun r hr
        · rwa [List.mem_singleton.1 hr]
      have hlength : before.length + run.length + 1 = before.length + (run ++ [raw]).length := by
        rw [List.length_append, List.length_singleton, Nat.add_assoc]
      rw [hlength] at hline
      obtain ⟨before', run', last, after, hstands⟩ := ih hbefore hrun' line hline
      rw [List.append_assoc, List.append_assoc, List.singleton_append] at hstands
      exact ⟨before', run', last, after, by rwa [List.append_assoc]⟩
    · have hends : continues raw = false := by simpa using hcontinues
      rw [if_neg hcontinues] at hline
      rcases List.mem_append.1 hline with hline | hline
      · obtain ⟨hnumber, hall⟩ := mem_ofTokens? hline
        exact ⟨before, run, raw, rest, rfl, hbefore, hrun, .inl hends, hnumber, hall⟩
      · have hbefore' : ∀ r, (before ++ run ++ [raw]).getLast? = some r → continues r = false := by
          intro r hr
          rw [List.getLast?_concat] at hr
          obtain rfl := Option.some.inj hr
          exact hends
        have hlength : before.length + run.length + 1 = (before ++ run ++ [raw]).length := by
          rw [List.length_append, List.length_append, List.length_singleton]
        rw [hlength] at hline
        obtain ⟨before', run', last, after, hstands⟩ :=
          @ih (before ++ run ++ [raw]) [] hbefore' (List.forall_mem_nil _) line hline
        rw [List.append_nil, List.append_assoc, List.singleton_append] at hstands
        exact ⟨before', run', last, after, hstands⟩

/-- A logical line stands on physical lines of a text. -/
def StandsIn (line : LogicalLine) (text : String) : Prop :=
  ∃ before run last after, line.StandsOn (Text.physicalLines text.toList) before run last after

/-- Every logical line of a text stands in it. -/
theorem standsIn_of_mem {text : String} {line : LogicalLine} (h : line ∈ ofText text) :
    line.StandsIn text := by
  have hstart : ∀ raw, ([] : List (List Char)).getLast? = some raw → continues raw = false := by
    intro raw hraw
    cases hraw
  exact standsOn_of_mem_listFrom hstart (List.forall_mem_nil _) line h

/-- A logical line is numbered by a physical line of the text. -/
theorem number_bounds {text : String} {line : LogicalLine} (h : line ∈ ofText text) :
    1 ≤ line.number ∧ line.number ≤ (Text.physicalLines text.toList).length := by
  obtain ⟨before, run, last, after, hstands⟩ := standsIn_of_mem h
  rw [hstands.number, hstands.text, List.length_append, List.length_append, List.length_cons]
  omega

/-! ## Order -/

theorem le_number_of_mem_listFrom {pending : List String} {number : Nat} {raws : List (List Char)}
    {line : LogicalLine} (h : line ∈ listFrom pending number raws) : number ≤ line.number := by
  induction raws generalizing pending number with
  | nil => exact (mem_ofTokens? h).1.ge
  | cons raw rest ih =>
    unfold listFrom at h
    simp only at h
    split at h
    · exact Nat.le_of_succ_le (ih h)
    · rcases List.mem_append.1 h with h | h
      · rw [(mem_ofTokens? h).1]
        exact Nat.le_succ number
      · exact Nat.le_of_succ_le (ih h)

/-- A logical line that is begun after some physical lines ends after them. -/
theorem lt_number_of_mem_listFrom {number : Nat} {raws : List (List Char)} {line : LogicalLine}
    (h : line ∈ listFrom [] number raws) : number < line.number := by
  cases raws with
  | nil => cases h
  | cons raw rest =>
    unfold listFrom at h
    simp only at h
    split at h
    · exact le_number_of_mem_listFrom h
    · rcases List.mem_append.1 h with h | h
      · rw [(mem_ofTokens? h).1]
        exact Nat.lt_succ_self number
      · exact le_number_of_mem_listFrom h

theorem listFrom_increasing {pending : List String} {number : Nat} {raws : List (List Char)} :
    (listFrom pending number raws).Pairwise (·.number < ·.number) := by
  induction raws generalizing pending number with
  | nil => cases pending <;> simp [listFrom, ofTokens?]
  | cons raw rest ih =>
    unfold listFrom
    simp only
    split
    · exact ih
    · refine List.pairwise_append.2 ⟨?_, ih, fun x hx y hy => ?_⟩
      · cases pending ++ tokens raw <;> simp [ofTokens?]
      · rw [(mem_ofTokens? hx).1]
        exact lt_number_of_mem_listFrom hy

/-- The logical lines of a text are numbered in ascending order. -/
theorem numbers_increasing (text : String) : (ofText text).Pairwise (·.number < ·.number) :=
  listFrom_increasing

end LogicalLine

end Fabric
