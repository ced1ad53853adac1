import Fabric.Proofs.Freezing
import Mathlib.Data.List.TakeWhile

/-!
# Lines of tokens

A text laid out from rows of tokens, one row a line with a space between tokens, has the rows as its
logical lines (`LogicalLine.allTokens_layRows`). The tokens may hold neither blanks nor the marks of
comments and of continuation; an empty row is an empty line, of which no logical line is left.
-/

namespace Fabric

/-! ## Words -/

namespace Text

theorem words_eq_self {w : List Char} (hne : w ≠ []) (h : ∀ c ∈ w, isBlank c = false) :
    words w = [w] := by
  unfold words
  rw [List.splitOnP_eq_singleton h, List.filter_cons_of_pos (by simpa using hne), List.filter_nil]

/-- A blank separates words. -/
theorem words_append_blank (xs ys : List Char) {blank : Char} (h : isBlank blank = true) :
    words (xs ++ blank :: ys) = words xs ++ words ys := by
  unfold words
  rw [List.splitOnP_append_cons xs ys h, List.filter_append]

theorem words_append_blanks (xs : List Char) {blanks : List Char}
    (h : ∀ c ∈ blanks, isBlank c = true) : words (xs ++ blanks) = words xs := by
  induction blanks generalizing xs with
  | nil => rw [List.append_nil]
  | cons c blanks ih =>
    have hblanks : words blanks = [] := by
      have hrest := ih [] fun d hd => h d (List.mem_cons_of_mem _ hd)
      rwa [List.nil_append, words_nil] at hrest
    rw [words_append_blank xs blanks (h c List.mem_cons_self), hblanks, List.append_nil]

/-- Blanks at the end of a text are what trimming takes off. -/
theorem exists_trimEnd (text : List Char) : ∃ blanks, (∀ c ∈ blanks, isBlank c = true) ∧
    trimEnd text ++ blanks = text := by
  refine ⟨(text.reverse.takeWhile isBlank).reverse, fun c hc => ?_, ?_⟩
  · exact List.mem_takeWhile_imp (List.mem_reverse.1 hc)
  · unfold trimEnd
    rw [← List.reverse_append, List.takeWhile_append_dropWhile, List.reverse_reverse]

theorem words_trimEnd (text : List Char) : words (trimEnd text) = words text := by
  obtain ⟨blanks, hblanks, htext⟩ := exists_trimEnd text
  rw [← words_append_blanks (trimEnd text) hblanks, htext]

/-- The words of parts with a space between them are those of each part. -/
theorem words_intercalate (parts : List String) :
    words (" ".intercalate parts).toList = parts.flatMap fun part => words part.toList := by
  rw [String.toList_intercalate]
  induction parts with
  | nil => rfl
  | cons part parts ih =>
    cases parts with
    | nil => simp
    | cons next parts =>
      rw [List.map_cons, List.map_cons, List.intercalate_cons_cons, List.append_assoc]
      rw [List.map_cons] at ih
      have hspace : isBlank ' ' = true := by decide
      have hblank := words_append_blank part.toList
        (" ".toList.intercalate (next.toList :: parts.map String.toList)) hspace
      rw [ih] at hblank
      exact hblank

end Text

/-! ## Tokens -/

/-- A token of a logical line: it has a character, and none of its characters is a blank or a mark
of comments or of continuation. -/
structure IsToken (token : String) : Prop where
  ne_nil : token.toList ≠ []
  plain : ∀ c ∈ token.toList, Text.isBlank c = false ∧ c ≠ '#' ∧ c ≠ '\\'

-- The characters are gone through as a list; over all characters the search would not end.
instance : DecidablePred IsToken := fun token =>
  decidable_of_iff ((!token.toList.isEmpty && token.toList.all fun c =>
      !Text.isBlank c && c != '#' && c != '\\') = true) <| by
    simp only [Bool.and_eq_true, Bool.not_eq_true', List.isEmpty_eq_false_iff, List.all_eq_true,
      bne_iff_ne, and_assoc]
    exact ⟨fun h => ⟨h.1, h.2⟩, fun h => ⟨h.ne_nil, h.plain⟩⟩

theorem IsToken.words {token : String} (h : IsToken token) :
    Text.words token.toList = [token.toList] :=
  Text.words_eq_self h.ne_nil fun c hc => (h.plain c hc).1

/-- A text that has each row of tokens on a line of its own. -/
def layRows (rows : List (List String)) : String :=
  "\n".intercalate (rows.map (" ".intercalate ·)) ++ "\n"

/-- What stands on the line of a row: its tokens, and spaces. -/
theorem mem_intercalate {row : List String} {c : Char} (h : c ∈ (" ".intercalate row).toList) :
    c = ' ' ∨ ∃ token ∈ row, c ∈ token.toList := by
  rw [String.toList_intercalate] at h
  induction row with
  | nil => cases h
  | cons token row ih =>
    cases row with
    | nil =>
      rw [List.map_singleton, List.intercalate_singleton] at h
      exact .inr ⟨token, List.mem_cons_self, h⟩
    | cons next row =>
      rw [List.map_cons, List.map_cons, List.intercalate_cons_cons] at h
      rw [List.map_cons] at ih
      rcases List.mem_append.1 h with h | h
      · rcases List.mem_append.1 h with h | h
        · exact .inr ⟨token, List.mem_cons_self, h⟩
        · exact .inl (List.mem_singleton.1 h)
      · obtain hspace | ⟨token', htoken', hc⟩ := ih h
        · exact .inl hspace
        · exact .inr ⟨token', List.mem_cons_of_mem _ htoken', hc⟩

/-- The line of a row neither ends within it nor holds a mark. -/
theorem line_plain {row : List String} (h : ∀ token ∈ row, IsToken token) :
    ∀ c ∈ (" ".intercalate row).toList, c ≠ '\n' ∧ c ≠ '#' ∧ c ≠ '\\' := by
  intro c hc
  obtain rfl | ⟨token, htoken, hc⟩ := mem_intercalate hc
  · decide
  · obtain ⟨hblank, hmarks⟩ := (h token htoken).plain c hc
    refine ⟨?_, hmarks⟩
    rintro rfl
    cases hblank

/-! ## Physical lines -/

/-- The physical lines of a text whose lines are all ended are what was put on them. -/
theorem physicalLines_intercalate {lines : List (List Char)} (hne : lines ≠ [])
    (h : ∀ line ∈ lines, '\n' ∉ line) :
    Text.physicalLines (['\n'].intercalate lines ++ ['\n']) = lines := by
  unfold Text.physicalLines Text.dropEmptyLast
  rw [List.splitOn_append_cons_self, List.splitOn_intercalate '\n' h hne, List.splitOn_nil,
    List.getLast?_concat, if_pos rfl, List.dropLast_concat]

theorem physicalLines_layRows {rows : List (List String)} (hne : rows ≠ [])
    (h : ∀ row ∈ rows, ∀ token ∈ row, IsToken token) :
    Text.physicalLines (layRows rows).toList =
      rows.map fun row => (" ".intercalate row).toList := by
  unfold layRows
  rw [String.toList_append, String.toList_intercalate, List.map_map]
  refine physicalLines_intercalate (by simpa using hne) fun line hline => ?_
  obtain ⟨row, hrow, rfl⟩ := List.mem_map.1 hline
  intro hend
  exact (line_plain (h row hrow) _ hend).1 rfl

namespace LogicalLine

/-- A physical line without marks goes on to no other, and its words are its tokens. -/
theorem content_plain {raw : List Char} (h : ∀ c ∈ raw, c ≠ '\n' ∧ c ≠ '#' ∧ c ≠ '\\') :
    continues raw = false ∧ tokens raw = (Text.words raw).map String.ofList := by
  have hcomment : raw.takeWhile (· ≠ '#') = raw :=
    List.takeWhile_eq_self_iff.2 fun c hc => decide_eq_true (h c hc).2.1
  have hcontinues : continues raw = false := by
    unfold continues content
    rw [hcomment, beq_eq_false_iff_ne]
    intro hlast
    obtain ⟨blanks, -, hraw⟩ := Text.exists_trimEnd raw
    have hmem : '\\' ∈ raw := hraw ▸ List.mem_append_left _ (List.mem_of_getLast? hlast)
    exact (h _ hmem).2.2 rfl
  refine ⟨hcontinues, ?_⟩
  unfold tokens
  simp only [hcontinues, Bool.false_eq_true, if_false]
  rw [content, hcomment, Text.words_trimEnd]

theorem allTokens_ofTokens? (number : Nat) (ts : List String) :
    (ofTokens? number ts).toList.map allTokens = [ts].filter (· ≠ []) := by
  cases ts <;> rfl

/-- Where no physical line goes on, each is a logical line of its own, if it has a token. -/
theorem allTokens_listFrom {raws : List (List Char)} (h : ∀ raw ∈ raws, continues raw = false)
    (number : Nat) :
    (listFrom [] number raws).map allTokens = (raws.map tokens).filter (· ≠ []) := by
  induction raws generalizing number with
  | nil => rfl
  | cons raw rest ih =>
    unfold listFrom
    simp only [List.nil_append, h raw List.mem_cons_self, Bool.false_eq_true, if_false]
    rw [List.map_append, allTokens_ofTokens?,
      ih (fun raw' hraw' => h raw' (List.mem_cons_of_mem _ hraw')), List.map_cons,
      ← List.filter_append]
    rfl

/-- The logical lines of rows of tokens are the rows that have a token. -/
theorem allTokens_layRows {rows : List (List String)} (hne : rows ≠ [])
    (h : ∀ row ∈ rows, ∀ token ∈ row, IsToken token) :
    (ofText (layRows rows)).map allTokens = rows.filter (· ≠ []) := by
  have hline : ∀ row ∈ rows, continues (" ".intercalate row).toList = false ∧
      tokens (" ".intercalate row).toList = row := by
    intro row hrow
    obtain ⟨hcontinues, htokens⟩ := content_plain (line_plain (h row hrow))
    refine ⟨hcontinues, ?_⟩
    rw [htokens, Text.words_intercalate, List.map_flatMap]
    have hwords : ∀ token ∈ row, (Text.words token.toList).map String.ofList = [token] := by
      intro token htoken
      rw [(h row hrow token htoken).words, List.map_singleton, String.ofList_toList]
    rw [List.flatMap_congr hwords, List.flatMap_singleton']
  unfold ofText
  rw [physicalLines_layRows hne h, allTokens_listFrom, List.map_map]
  · refine congrArg (List.filter _) ?_
    exact (List.map_congr_left fun row hrow => (hline row hrow).2).trans (List.map_id rows)
  · intro raw hraw
    obtain ⟨row, hrow, rfl⟩ := List.mem_map.1 hraw
    exact (hline row hrow).1

end LogicalLine

end Fabric
