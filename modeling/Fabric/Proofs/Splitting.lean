import Fabric.Proofs.Lines

/-!
# Physical lines one by one

A text is a last line, or a line, its end and a shorter text (`Text.lineInduction`); its physical
lines follow that shape (`Text.physicalLines_cons`). What is read from a physical line is decided by
its content, which neither blanks nor a comment at its end change (`content_append_blanks`,
`content_append_comment`), and the words of a line are free of blanks (`Text.mem_words`).
-/

namespace Fabric

namespace Text

/-! ## Words -/

/-- The parts between separators hold characters of the text, and no separator. -/
theorem mem_splitOnP {p : Char → Bool} {text piece : List Char} (h : piece ∈ text.splitOnP p) :
    ∀ c ∈ piece, c ∈ text ∧ p c = false := by
  induction text generalizing piece with
  | nil =>
    rw [List.splitOnP_nil, List.mem_singleton] at h
    rw [h]
    exact List.forall_mem_nil _
  | cons x text ih =>
    have hrest : ∀ {part : List Char}, part ∈ text.splitOnP p →
        ∀ c ∈ part, c ∈ x :: text ∧ p c = false := by
      intro part hpart c hc
      exact ⟨List.mem_cons_of_mem _ (ih hpart c hc).1, (ih hpart c hc).2⟩
    rw [List.splitOnP_cons_eq_if_modifyHead] at h
    split at h
    · rcases List.mem_cons.1 h with rfl | h
      · exact List.forall_mem_nil _
      · exact hrest h
    · rename_i hx
      obtain ⟨first, others, hsplit⟩ := List.exists_cons_of_ne_nil (List.splitOnP_ne_nil p text)
      rw [hsplit] at h hrest
      rw [List.modifyHead_cons] at h
      rcases List.mem_cons.1 h with rfl | h
      · refine List.forall_mem_cons.2 ⟨⟨List.mem_cons_self, Bool.not_eq_true _ ▸ hx⟩, ?_⟩
        exact hrest List.mem_cons_self
      · exact hrest (List.mem_cons_of_mem _ h)

theorem mem_words {text w : List Char} (h : w ∈ words text) :
    ∀ c ∈ w, c ∈ text ∧ isBlank c = false :=
  mem_splitOnP (List.mem_of_mem_filter h)

theorem words_blanks {blanks : List Char} (h : ∀ c ∈ blanks, isBlank c = true) :
    words blanks = [] := by
  have hwords := words_append_blanks [] h
  rwa [List.nil_append, words_nil] at hwords

theorem words_blanks_append {blanks : List Char} (h : ∀ c ∈ blanks, isBlank c = true)
    (ys : List Char) : words (blanks ++ ys) = words ys := by
  induction blanks with
  | nil => rfl
  | cons c blanks ih =>
    have hskip := words_append_blank [] (blanks ++ ys) (h c List.mem_cons_self)
    rw [List.cons_append, ← ih fun d hd => h d (List.mem_cons_of_mem _ hd)]
    exact hskip

/-- Blanks, of which there is at least one, separate words. -/
theorem words_append_blanks_append (xs ys : List Char) {blanks : List Char} (hne : blanks ≠ [])
    (h : ∀ c ∈ blanks, isBlank c = true) : words (xs ++ blanks ++ ys) = words xs ++ words ys := by
  obtain ⟨c, blanks, rfl⟩ := List.exists_cons_of_ne_nil hne
  rw [List.append_assoc, List.cons_append,
    words_append_blank xs (blanks ++ ys) (h c List.mem_cons_self),
    words_blanks_append fun d hd => h d (List.mem_cons_of_mem _ hd)]

/-! ## Trimming -/

theorem trimEnd_append_blanks (xs : List Char) {blanks : List Char}
    (h : ∀ c ∈ blanks, isBlank c = true) : trimEnd (xs ++ blanks) = trimEnd xs := by
  unfold trimEnd
  rw [List.reverse_append, List.dropWhile_append_of_pos]
  intro c hc
  exact h c (List.mem_reverse.1 hc)

/-- A text that ends in no blank is not trimmed. -/
theorem trimEnd_concat (xs : List Char) {c : Char} (h : isBlank c = false) :
    trimEnd (xs ++ [c]) = xs ++ [c] := by
  unfold trimEnd
  rw [List.reverse_concat, List.dropWhile_cons_of_neg (by simp [h]), ← List.reverse_concat,
    List.reverse_reverse]

/-! ## Physical lines -/

theorem physicalLines_singleton {line : List Char} (hne : line ≠ []) (h : '\n' ∉ line) :
    physicalLines line = [line] := by
  unfold physicalLines dropEmptyLast
  rw [List.splitOn_eq_singleton h, List.getLast?_singleton, if_neg]
  exact fun hline => hne (Option.some.inj hline)

theorem physicalLines_cons {line : List Char} (h : '\n' ∉ line) (rest : List Char) :
    physicalLines (line ++ '\n' :: rest) = line :: physicalLines rest := by
  unfold physicalLines dropEmptyLast
  rw [List.splitOn_append_cons_self_of_not_mem h]
  obtain ⟨first, others, hsplit⟩ := List.exists_cons_of_ne_nil (List.splitOn_ne_nil '\n' rest)
  rw [hsplit, List.getLast?_cons_cons]
  split
  · rfl
  · rfl

/-- A text is its last line, or it is a line with its end before another text. -/
@[elab_as_elim]
theorem lineInduction {motive : List Char → Prop} (last : ∀ line, '\n' ∉ line → motive line)
    (cons : ∀ line rest, '\n' ∉ line → motive rest → motive (line ++ '\n' :: rest))
    (text : List Char) : motive text := by
  induction hlength : text.length using Nat.strong_induction_on generalizing text with
  | _ n ih =>
    by_cases hend : '\n' ∈ text
    · obtain ⟨line, rest, rfl, hline⟩ := List.eq_append_cons_of_mem hend
      refine cons line rest hline (ih rest.length ?_ rest rfl)
      rw [← hlength, List.length_append, List.length_cons]
      omega
    · exact last text hend

end Text

namespace LogicalLine

/-! ## Contents -/

theorem content_of_not_mem {raw : List Char} (h : '#' ∉ raw) : content raw = Text.trimEnd raw := by
  unfold content
  rw [List.takeWhile_eq_self_iff.2]
  intro c hc
  exact decide_eq_true fun heq => h (heq ▸ hc)

/-- Nothing after a comment sign is read. -/
theorem content_append_of_mem {raw : List Char} (h : '#' ∈ raw) (suffix : List Char) :
    content (raw ++ suffix) = content raw := by
  obtain ⟨before, after, rfl, hbefore⟩ := List.eq_append_cons_of_mem h
  have hplain : ∀ c ∈ before, decide (c ≠ '#') = true := by
    intro c hc
    exact decide_eq_true fun heq => hbefore (heq ▸ hc)
  unfold content
  rw [List.append_assoc, List.takeWhile_append_of_pos hplain, List.takeWhile_append_of_pos hplain,
    List.cons_append, List.takeWhile_cons_of_neg (by simp), List.takeWhile_cons_of_neg (by simp)]

theorem content_append_comment (raw comment : List Char) :
    content (raw ++ '#' :: comment) = content raw := by
  by_cases hmem : '#' ∈ raw
  · exact content_append_of_mem hmem _
  · have hplain : ∀ c ∈ raw, decide (c ≠ '#') = true := by
      intro c hc
      exact decide_eq_true fun heq => hmem (heq ▸ hc)
    rw [content_of_not_mem hmem]
    unfold content
    rw [List.takeWhile_append_of_pos hplain, List.takeWhile_cons_of_neg (by simp),
      List.append_nil]

theorem content_append_blanks (raw : List Char) {blanks : List Char}
    (h : ∀ c ∈ blanks, Text.isBlank c = true) : content (raw ++ blanks) = content raw := by
  by_cases hmem : '#' ∈ raw
  · exact content_append_of_mem hmem _
  · have hblanks : '#' ∉ blanks := by
      intro hsign
      cases h _ hsign
    have hboth : '#' ∉ raw ++ blanks := by
      rw [List.mem_append, not_or]
      exact ⟨hmem, hblanks⟩
    rw [content_of_not_mem hmem, content_of_not_mem hboth, Text.trimEnd_append_blanks raw h]

/-- A physical line of blanks with a comment holds nothing. -/
theorem content_blanks {blanks : List Char} (h : ∀ c ∈ blanks, Text.isBlank c = true) :
    content blanks = [] := content_append_blanks [] h

/-! ## Reading physical lines -/

theorem listFrom_of_continues {raw : List Char} (h : continues raw = true) (pending : List String)
    (number : Nat) (rest : List (List Char)) : listFrom pending number (raw :: rest) =
      listFrom (pending ++ tokens raw) (number + 1) rest := if_pos h

theorem listFrom_of_ends {raw : List Char} (h : continues raw = false) (pending : List String)
    (number : Nat) (rest : List (List Char)) : listFrom pending number (raw :: rest) =
      (ofTokens? (number + 1) (pending ++ tokens raw)).toList ++ listFrom [] (number + 1) rest :=
  if_neg (by simp [h])

/-- What is read from physical lines is decided by their contents. -/
theorem listFrom_congr {raws raws' : List (List Char)} (h : raws.map content = raws'.map content)
    (pending : List String) (number : Nat) :
    listFrom pending number raws = listFrom pending number raws' := by
  induction raws generalizing raws' pending number with
  | nil =>
    obtain rfl : raws' = [] := List.map_eq_nil_iff.1 h.symm
    rfl
  | cons raw raws ih =>
    obtain ⟨raw', rest', rfl, hraw, hrest⟩ := List.map_eq_cons_iff.1 h.symm
    have hcontinues : continues raw' = continues raw := by
      unfold continues
      rw [hraw]
    have htokens : tokens raw' = tokens raw := by
      unfold tokens
      rw [hcontinues, hraw]
    cases hgoes : continues raw with
    | true =>
      rw [listFrom_of_continues hgoes, listFrom_of_continues (hcontinues.trans hgoes), htokens,
        ih hrest.symm]
    | false =>
      rw [listFrom_of_ends hgoes, listFrom_of_ends (hcontinues.trans hgoes), htokens,
        ih hrest.symm]

end LogicalLine

end Fabric
