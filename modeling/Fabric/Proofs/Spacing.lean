import Fabric.Proofs.Tokenizing

/-!
# Ways to space statements

Rows of tokens can be written in many ways: with any blanks between the tokens, on lines that are
broken anywhere between, before or after them, with comments at the end of lines and with lines that
hold no token between the rows. `Spaced` says what such a text is, and every such text reads as its
rows (`spaced_reads`).

A text is read by physical lines, but it is written by tokens and gaps, and a gap may end a line. So
what is read is followed along the text with the part of the current physical line that is already
behind (`LogicalLine.rows_gap`, `LogicalLine.rows_body`).
-/

namespace Fabric

/-! ## Spaced texts -/

/-- Blanks within a line. -/
def IsSpacing (blanks : List Char) : Prop := ∀ c ∈ blanks, Text.isBlank c = true ∧ c ≠ '\n'

-- As for `IsToken`, the characters are gone through as a list.
instance (blanks : List Char) : Decidable (IsSpacing blanks) :=
  List.decidableBAll (fun c => Text.isBlank c = true ∧ c ≠ '\n') blanks

/-- What may follow the content of a line: nothing, or a comment, which may hold anything but the
end of the line. -/
inductive IsComment : List Char → Prop where
  | none : IsComment []
  | sign {comment : List Char} (h : '\n' ∉ comment) : IsComment ('#' :: comment)

/-- A token that can be written: signs of continuation may stand in it. -/
structure IsSpellable (token : String) : Prop where
  ne_nil : token.toList ≠ []
  plain : ∀ c ∈ token.toList, Text.isBlank c = false ∧ c ≠ '#'

instance : DecidablePred IsSpellable := fun token =>
  decidable_of_iff ((!token.toList.isEmpty && token.toList.all fun c =>
      !Text.isBlank c && c != '#') = true) <| by
    simp only [Bool.and_eq_true, Bool.not_eq_true', List.isEmpty_eq_false_iff, List.all_eq_true,
      bne_iff_ne]
    exact ⟨fun h => ⟨h.1, h.2⟩, fun h => ⟨h.ne_nil, h.plain⟩⟩

/-- What may stand beside tokens: blanks, among which the line may be broken any number of times.
The flag says whether it is. A break is a sign of continuation and an end of a line, between which
there may be blanks and a comment. -/
inductive Gap : Bool → List Char → Prop where
  | spacing {blanks : List Char} (h : IsSpacing blanks) : Gap false blanks
  | broken {before after comment rest : List Char} {again : Bool} (hbefore : IsSpacing before)
    (hafter : IsSpacing after) (hcomment : IsComment comment) (hrest : Gap again rest) :
    Gap true (before ++ '\\' :: (after ++ comment) ++ '\n' :: rest)

/-- The tokens of a row from the first on, up to the end of the line that closes the row. Where
nothing but blanks comes after the last token on its line, that may not end in a sign of
continuation. -/
inductive Body : List String → List Char → Prop where
  | last {token : String} {gap comment : List Char} {broken : Bool} (htoken : IsSpellable token)
    (hgap : Gap broken gap) (hcomment : IsComment comment)
    (hsign : broken = true ∨ token.toList.getLast? ≠ some '\\') :
    Body [token] (token.toList ++ gap ++ comment)
  | cons {token : String} {tokens : List String} {gap body : List Char} {broken : Bool}
    (htoken : IsSpellable token) (hgap : Gap broken gap) (hne : gap ≠ []) (hbody : Body tokens body) :
    Body (token :: tokens) (token.toList ++ gap ++ body)

/-- A text in which rows of tokens are written. The end of the text may be the end of its last
line. -/
inductive Spaced : List (List String) → List Char → Prop where
  | ended {blanks comment : List Char} (hblanks : IsSpacing blanks) (hcomment : IsComment comment) :
    Spaced [] (blanks ++ comment)
  | blankLine {blanks comment rest : List Char} {rows : List (List String)}
    (hblanks : IsSpacing blanks) (hcomment : IsComment comment) (hrest : Spaced rows rest) :
    Spaced rows (blanks ++ comment ++ '\n' :: rest)
  | lastRow {tokens : List String} {gap body : List Char} {broken : Bool} (hgap : Gap broken gap)
    (hbody : Body tokens body) : Spaced [tokens] (gap ++ body)
  | row {tokens : List String} {gap body rest : List Char} {broken : Bool}
    {rows : List (List String)} (hgap : Gap broken gap) (hbody : Body tokens body)
    (hrest : Spaced rows rest) : Spaced (tokens :: rows) (gap ++ body ++ '\n' :: rest)

/-! ## Characters of the parts -/

theorem isSpacing_nil : IsSpacing [] := List.forall_mem_nil _

theorem IsSpacing.isBlank {blanks : List Char} (h : IsSpacing blanks) :
    ∀ c ∈ blanks, Text.isBlank c = true := fun c hc => (h c hc).1

theorem IsSpacing.not_mem_lineEnd {blanks : List Char} (h : IsSpacing blanks) : '\n' ∉ blanks :=
  fun hmem => (h _ hmem).2 rfl

theorem IsSpacing.not_mem_sign {blanks : List Char} (h : IsSpacing blanks) : '#' ∉ blanks := by
  intro hmem
  cases (h _ hmem).1

theorem IsComment.not_mem_lineEnd {comment : List Char} (h : IsComment comment) :
    '\n' ∉ comment := by
  cases h with
  | none => exact List.not_mem_nil
  | sign h =>
    rw [List.mem_cons, not_or]
    exact ⟨by decide, h⟩

theorem IsSpellable.not_mem_lineEnd {token : String} (h : IsSpellable token) :
    '\n' ∉ token.toList := by
  intro hmem
  cases (h.plain _ hmem).1

theorem IsSpellable.words {token : String} (h : IsSpellable token) :
    Text.words token.toList = [token.toList] :=
  Text.words_eq_self h.ne_nil fun c hc => (h.plain c hc).1

namespace LogicalLine

/-! ## Lines of a spaced text -/

theorem content_append_isComment (raw : List Char) {comment : List Char} (h : IsComment comment) :
    content (raw ++ comment) = content raw := by
  cases h with
  | none => rw [List.append_nil]
  | sign => exact content_append_comment raw _

/-- A line that is broken goes on with the next, and its tokens are those before the break. -/
theorem tokens_broken {line before after comment : List Char} (hline : '#' ∉ line)
    (hbefore : IsSpacing before) (hafter : IsSpacing after) (hcomment : IsComment comment) :
    continues (line ++ before ++ '\\' :: (after ++ comment)) = true ∧
      tokens (line ++ before ++ '\\' :: (after ++ comment)) =
        (Text.words line).map String.ofList := by
  have hcontent : content (line ++ before ++ '\\' :: (after ++ comment)) =
      line ++ before ++ ['\\'] := by
    have hsplit : line ++ before ++ '\\' :: (after ++ comment) =
        line ++ before ++ ['\\'] ++ after ++ comment := by simp
    rw [hsplit, content_append_isComment _ hcomment, content_append_blanks _ hafter.isBlank,
      content_of_not_mem, Text.trimEnd_concat _ (by decide)]
    simp only [List.mem_append, List.mem_singleton, not_or]
    exact ⟨⟨hline, hbefore.not_mem_sign⟩, by decide⟩
  have hcontinues : continues (line ++ before ++ '\\' :: (after ++ comment)) = true := by
    unfold continues
    rw [hcontent, List.getLast?_concat]
    rfl
  refine ⟨hcontinues, ?_⟩
  unfold tokens
  simp only [hcontinues, hcontent, if_true]
  rw [List.dropLast_concat, Text.words_append_blanks line hbefore.isBlank]

/-- A line without tokens goes on with no other. -/
theorem tokens_blank {blanks comment : List Char} (hblanks : IsSpacing blanks)
    (hcomment : IsComment comment) :
    continues (blanks ++ comment) = false ∧ tokens (blanks ++ comment) = [] := by
  have hcontent : content (blanks ++ comment) = [] := by
    rw [content_append_isComment _ hcomment, content_blanks hblanks.isBlank]
  have hcontinues : continues (blanks ++ comment) = false := by
    unfold continues
    rw [hcontent]
    rfl
  refine ⟨hcontinues, ?_⟩
  unfold tokens
  simp only [hcontinues, hcontent, Bool.false_eq_true, if_false]
  rfl

/-- A line whose last token does not end in a sign of continuation goes on with no other. -/
theorem tokens_closed {line blanks comment : List Char} {token : String} (hline : '#' ∉ line)
    (htoken : IsSpellable token) (hblanks : IsSpacing blanks) (hcomment : IsComment comment)
    (hsign : token.toList.getLast? ≠ some '\\') :
    continues (line ++ token.toList ++ blanks ++ comment) = false ∧
      tokens (line ++ token.toList ++ blanks ++ comment) =
        (Text.words (line ++ token.toList)).map String.ofList := by
  obtain hnil | ⟨begun, c, hchars⟩ := List.eq_nil_or_concat token.toList
  · exact absurd hnil htoken.ne_nil
  rw [List.concat_eq_append] at hchars
  have hc : c ∈ token.toList := hchars ▸ List.mem_concat_self
  have hcontent : content (line ++ token.toList ++ blanks ++ comment) = line ++ token.toList := by
    rw [content_append_isComment _ hcomment, content_append_blanks _ hblanks.isBlank,
      content_of_not_mem, hchars, ← List.append_assoc, Text.trimEnd_concat _ (htoken.plain c hc).1]
    rw [List.mem_append, not_or]
    exact ⟨hline, fun hmem => (htoken.plain _ hmem).2 rfl⟩
  have hcontinues : continues (line ++ token.toList ++ blanks ++ comment) = false := by
    unfold continues
    rw [hcontent, List.getLast?_append_of_ne_nil _ htoken.ne_nil]
    exact beq_eq_false_iff_ne.2 hsign
  refine ⟨hcontinues, ?_⟩
  unfold tokens
  simp only [hcontinues, hcontent, Bool.false_eq_true, if_false]

/-! ## Rows of a text -/

/-- The rows of tokens that are read from a text, where `pending` are the tokens of a logical line
that was begun before it. -/
def rows (pending : List String) (text : List Char) : List (List String) :=
  (listFrom pending 0 (Text.physicalLines text)).map allTokens

/-- The tokens of logical lines do not depend on their numbers. -/
theorem allTokens_listFrom_number (pending : List String) (number number' : Nat)
    (raws : List (List Char)) : (listFrom pending number raws).map allTokens =
      (listFrom pending number' raws).map allTokens := by
  induction raws generalizing pending number number' with
  | nil =>
    unfold listFrom
    rw [allTokens_ofTokens?, allTokens_ofTokens?]
  | cons raw raws ih =>
    cases hgoes : continues raw with
    | true =>
      rw [listFrom_of_continues hgoes, listFrom_of_continues hgoes]
      exact ih _ _ _
    | false =>
      rw [listFrom_of_ends hgoes, listFrom_of_ends hgoes, List.map_append, List.map_append,
        allTokens_ofTokens?, allTokens_ofTokens?, ih [] (number + 1) (number' + 1)]

theorem rows_of_continues {line : List Char} (hline : '\n' ∉ line) (hgoes : continues line = true)
    (pending : List String) (rest : List Char) :
    rows pending (line ++ '\n' :: rest) = rows (pending ++ tokens line) rest := by
  unfold rows
  rw [Text.physicalLines_cons hline, listFrom_of_continues hgoes]
  exact allTokens_listFrom_number _ _ _ _

theorem rows_of_ends {line : List Char} (hline : '\n' ∉ line) (hends : continues line = false)
    (pending : List String) (rest : List Char) : rows pending (line ++ '\n' :: rest) =
      [pending ++ tokens line].filter (· ≠ []) ++ rows [] rest := by
  unfold rows
  rw [Text.physicalLines_cons hline, listFrom_of_ends hends, List.map_append, allTokens_ofTokens?]
  exact congrArg (_ ++ ·) (allTokens_listFrom_number _ _ _ _)

/-- The last physical line of a text may lack its end. -/
theorem rows_of_last {line : List Char} (hline : '\n' ∉ line) (hends : continues line = false)
    (pending : List String) : rows pending line = [pending ++ tokens line].filter (· ≠ []) := by
  unfold rows
  by_cases hne : line = []
  · have htokens : tokens line = [] := hne ▸ rfl
    rw [htokens, hne, List.append_nil]
    exact allTokens_ofTokens? 0 pending
  · rw [Text.physicalLines_singleton hne hline, listFrom_of_ends hends, List.map_append,
      allTokens_ofTokens?]
    exact List.append_nil _

/-- What comes after a line that ends a row, and the rows that are read from it. -/
inductive Follows : List Char → List (List String) → Prop where
  | textEnd : Follows [] []
  | line (rest : List Char) : Follows ('\n' :: rest) (rows [] rest)

theorem rows_closing {line tail : List Char} {after : List (List String)} (hline : '\n' ∉ line)
    (hends : continues line = false) (htail : Follows tail after) (pending : List String) :
    rows pending (line ++ tail) = [pending ++ tokens line].filter (· ≠ []) ++ after := by
  cases htail with
  | textEnd => rw [List.append_nil, List.append_nil, rows_of_last hline hends]
  | line rest => exact rows_of_ends hline hends pending rest

/-! ## Following the parts of a row -/

/-- The part of a physical line behind which a token may begin. -/
structure Begun (line : List Char) : Prop where
  not_mem_lineEnd : '\n' ∉ line
  not_mem_sign : '#' ∉ line
  words_append : ∀ text, Text.words (line ++ text) = Text.words line ++ Text.words text

theorem Begun.blanks {blanks : List Char} (h : IsSpacing blanks) : Begun blanks where
  not_mem_lineEnd := h.not_mem_lineEnd
  not_mem_sign := h.not_mem_sign
  words_append text := by
    rw [Text.words_blanks_append h.isBlank, Text.words_blanks h.isBlank, List.nil_append]

section Token

variable {line : List Char} {token : String} (hline : Begun line) (htoken : IsSpellable token)

include hline htoken

theorem Begun.lineEnd_token : '\n' ∉ line ++ token.toList := by
  rw [List.mem_append, not_or]
  exact ⟨hline.not_mem_lineEnd, htoken.not_mem_lineEnd⟩

theorem Begun.sign_token : '#' ∉ line ++ token.toList := by
  rw [List.mem_append, not_or]
  exact ⟨hline.not_mem_sign, fun hmem => (htoken.plain _ hmem).2 rfl⟩

theorem Begun.words_token : (Text.words (line ++ token.toList)).map String.ofList =
    (Text.words line).map String.ofList ++ [token] := by
  rw [hline.words_append, htoken.words, List.map_append, List.map_singleton, String.ofList_toList]

/-- Behind a token and blanks another token may begin. -/
theorem Begun.token_blanks {blanks : List Char} (hblanks : IsSpacing blanks) (hne : blanks ≠ []) :
    Begun (line ++ token.toList ++ blanks) where
  not_mem_lineEnd := by
    rw [List.mem_append, not_or]
    exact ⟨hline.lineEnd_token htoken, hblanks.not_mem_lineEnd⟩
  not_mem_sign := by
    rw [List.mem_append, not_or]
    exact ⟨hline.sign_token htoken, hblanks.not_mem_sign⟩
  words_append text := by
    rw [Text.words_append_blanks_append _ _ hne hblanks.isBlank,
      Text.words_append_blanks _ hblanks.isBlank]

end Token

/-- Behind a gap that breaks the line, the tokens before it are read, and some blanks are behind on
the new line. -/
theorem rows_gap {gap : List Char} (h : Gap true gap) : ∃ blanks, IsSpacing blanks ∧
    ∀ (line : List Char) (pending : List String) (rest : List Char), '\n' ∉ line → '#' ∉ line →
      rows pending (line ++ gap ++ rest) =
        rows (pending ++ (Text.words line).map String.ofList) (blanks ++ rest) := by
  generalize hbroken : true = broken at h
  induction h with
  | spacing => cases hbroken
  | @broken before after comment rest' again hbefore hafter hcomment hrest ih =>
    have hbreak : ∀ (line : List Char) (pending : List String) (rest : List Char), '\n' ∉ line →
        '#' ∉ line → rows pending
          (line ++ (before ++ '\\' :: (after ++ comment) ++ '\n' :: rest') ++ rest) =
            rows (pending ++ (Text.words line).map String.ofList) (rest' ++ rest) := by
      intro line pending rest hend hsign
      obtain ⟨hgoes, htokens⟩ := tokens_broken hsign hbefore hafter hcomment
      have hline : '\n' ∉ line ++ before ++ '\\' :: (after ++ comment) := by
        simp only [List.mem_append, List.mem_cons, not_or]
        exact ⟨⟨hend, hbefore.not_mem_lineEnd⟩, by decide, hafter.not_mem_lineEnd,
          hcomment.not_mem_lineEnd⟩
      rw [← htokens, ← rows_of_continues hline hgoes]
      simp only [List.append_assoc, List.cons_append]
    cases again with
    | false =>
      cases hrest with
      | spacing hblanks => exact ⟨rest', hblanks, hbreak⟩
    | true =>
      obtain ⟨blanks, hblanks, hrows⟩ := ih rfl
      refine ⟨blanks, hblanks, fun line pending rest hend hsign => ?_⟩
      have hagain := hrows [] (pending ++ (Text.words line).map String.ofList) rest
        List.not_mem_nil List.not_mem_nil
      rw [List.nil_append, Text.words_nil, List.map_nil, List.append_nil] at hagain
      rw [hbreak line pending rest hend hsign, hagain]

/-- The tokens of a row are read as one row, together with those that are behind. -/
theorem rows_body {ts : List String} {body : List Char} (h : Body ts body) {tail : List Char}
    {after : List (List String)} (htail : Follows tail after) {line : List Char}
    (hline : Begun line) (pending : List String) : rows pending (line ++ body ++ tail) =
      (pending ++ (Text.words line).map String.ofList ++ ts) :: after := by
  induction h generalizing line pending with
  | @last token gap comment broken htoken hgap hcomment hsign =>
    have hend := hline.lineEnd_token htoken
    have hread := hline.words_token htoken
    have hrow : ∀ before : List String, [before ++ [token]].filter (· ≠ []) = [before ++ [token]] :=
      fun before => List.filter_cons_of_pos (by simp)
    cases hgap with
    | spacing hblanks =>
      obtain ⟨hends, htokens⟩ := tokens_closed hline.not_mem_sign htoken hblanks hcomment
        (hsign.resolve_left Bool.false_ne_true)
      have hclosing : '\n' ∉ line ++ token.toList ++ gap ++ comment := by
        simp only [List.mem_append, not_or] at hend ⊢
        exact ⟨⟨hend, hblanks.not_mem_lineEnd⟩, hcomment.not_mem_lineEnd⟩
      have hrows := rows_closing hclosing hends htail pending
      rw [htokens, hread, ← List.append_assoc, hrow] at hrows
      rw [← List.append_assoc, ← List.append_assoc, hrows]
      rfl
    | broken hbefore hafter hcomment' hrest =>
      obtain ⟨blanks, hblanks, hrows⟩ := rows_gap (.broken hbefore hafter hcomment' hrest)
      obtain ⟨hends, htokens⟩ := tokens_blank hblanks hcomment
      have hclosing : '\n' ∉ blanks ++ comment := by
        rw [List.mem_append, not_or]
        exact ⟨hblanks.not_mem_lineEnd, hcomment.not_mem_lineEnd⟩
      have hclosed := rows_closing hclosing hends htail
        (pending ++ (Text.words (line ++ token.toList)).map String.ofList)
      rw [htokens, List.append_nil, hread, ← List.append_assoc pending, hrow] at hclosed
      have hfollow := hrows (line ++ token.toList) pending (comment ++ tail) hend
        (hline.sign_token htoken)
      rw [hread, ← List.append_assoc pending, ← List.append_assoc blanks, hclosed] at hfollow
      simp only [List.append_assoc] at hfollow ⊢
      exact hfollow
  | @cons token tokens gap body broken htoken hgap hne hbody ih =>
    have hread := hline.words_token htoken
    cases hgap with
    | spacing hblanks =>
      have hrows := ih (hline.token_blanks htoken hblanks hne) pending
      rw [Text.words_append_blanks _ hblanks.isBlank, hread] at hrows
      simp only [List.append_assoc, List.singleton_append] at hrows ⊢
      exact hrows
    | broken hbefore hafter hcomment' hrest =>
      obtain ⟨blanks, hblanks, hrows⟩ := rows_gap (.broken hbefore hafter hcomment' hrest)
      have hfollow := hrows (line ++ token.toList) pending (body ++ tail)
        (hline.lineEnd_token htoken) (hline.sign_token htoken)
      rw [← List.append_assoc blanks, ih (.blanks hblanks), hread,
        Text.words_blanks hblanks.isBlank] at hfollow
      simp only [List.append_assoc, List.singleton_append, List.map_nil] at hfollow ⊢
      exact hfollow

/-- A row with a gap before it is read as one row. -/
theorem rows_row {ts : List String} {gap body : List Char} {broken : Bool} (hgap : Gap broken gap)
    (hbody : Body ts body) {tail : List Char} {after : List (List String)}
    (htail : Follows tail after) : rows [] (gap ++ body ++ tail) = ts :: after := by
  cases hgap with
  | spacing hblanks =>
    rw [rows_body hbody htail (.blanks hblanks), Text.words_blanks hblanks.isBlank]
    rfl
  | broken hbefore hafter hcomment hrest =>
    obtain ⟨blanks, hblanks, hrows⟩ := rows_gap (.broken hbefore hafter hcomment hrest)
    have hfollow := hrows [] [] (body ++ tail) List.not_mem_nil List.not_mem_nil
    rw [← List.append_assoc blanks, rows_body hbody htail (.blanks hblanks),
      Text.words_blanks hblanks.isBlank] at hfollow
    rw [List.append_assoc]
    exact hfollow

theorem rows_spaced {rs : List (List String)} {text : List Char} (h : Spaced rs text) :
    rows [] text = rs := by
  induction h with
  | @ended blanks comment hblanks hcomment =>
    obtain ⟨hends, htokens⟩ := tokens_blank hblanks hcomment
    rw [rows_of_last _ hends, htokens]
    · rfl
    · rw [List.mem_append, not_or]
      exact ⟨hblanks.not_mem_lineEnd, hcomment.not_mem_lineEnd⟩
  | @blankLine blanks comment rest rs hblanks hcomment _ ih =>
    obtain ⟨hends, htokens⟩ := tokens_blank hblanks hcomment
    rw [rows_of_ends _ hends, htokens, ih]
    · rfl
    · rw [List.mem_append, not_or]
      exact ⟨hblanks.not_mem_lineEnd, hcomment.not_mem_lineEnd⟩
  | lastRow hgap hbody =>
    have hrow := rows_row hgap hbody .textEnd
    rwa [List.append_nil] at hrow
  | row hgap hbody _ ih => rw [rows_row hgap hbody (.line _), ih]

end LogicalLine

/-- A text in which rows of tokens are written is read as these rows. -/
theorem spaced_reads {rows : List (List String)} {text : String} (source : String)
    (h : Spaced rows text.toList) : ∃ lines final,
      (Stream.ofText text source).ReadsOut lines final ∧ lines.map LogicalLine.allTokens = rows := by
  obtain ⟨final, hreads, -⟩ := (Stream.ofText text source).exists_readsOut
  exact ⟨_, final, hreads, LogicalLine.rows_spaced h⟩

/-- The rows need not show in the text: a comment ends in a sign of continuation, a row begins after
a break, a break follows a token directly, tokens end in signs of continuation, a line holds nothing
but a break, and the text ends within its last line. -/
theorem spaced_reads_broken :
    Spaced [[".model", "a\\b", "c\\", "d"], ["x\\"], ["y"]]
      "# note \\\n \\ # lead\n.model a\\b\\\n\t\\\n c\\ d # end \\\n \nx\\\\\n\n y".toList ∧
    ∃ lines final, (Stream.ofText
      "# note \\\n \\ # lead\n.model a\\b\\\n\t\\\n c\\ d # end \\\n \nx\\\\\n\n y" "a.arch").ReadsOut
        lines final ∧
      lines.map LogicalLine.allTokens = [[".model", "a\\b", "c\\", "d"], ["x\\"], ["y"]] := by
  have hspace : Gap false [' '] := .spacing (by decide)
  have hnothing : Gap false [] := .spacing (by decide)
  have hbreak : ∀ {before rest : List Char} {again : Bool}, IsSpacing before → Gap again rest →
      Gap true (before ++ '\\' :: '\n' :: rest) := by
    intro before rest again hbefore hrest
    have hgap := Gap.broken hbefore isSpacing_nil .none hrest
    rwa [List.append_assoc] at hgap
  have hlead : Gap true " \\ # lead\n".toList :=
    @Gap.broken [' '] [' '] "# lead".toList [] _ (by decide) (by decide) (.sign (by decide)) hnothing
  have hbreaks : Gap true "\\\n\t\\\n ".toList :=
    hbreak isSpacing_nil (@hbreak ['\t'] _ _ (by decide) hspace)
  have hmodel : Body [".model", "a\\b", "c\\", "d"] ".model a\\b\\\n\t\\\n c\\ d # end \\".toList :=
    .cons (by decide) hspace (by decide) (.cons (by decide) hbreaks (by decide)
      (.cons (by decide) hspace (by decide)
        (@Body.last _ _ "# end \\".toList _ (by decide) hspace (.sign (by decide))
          (.inr (by decide)))))
  have hx : Body ["x\\"] "x\\\\\n".toList :=
    .last (by decide) (hbreak isSpacing_nil hnothing) .none (.inl rfl)
  have hy : Body ["y"] "y".toList := .last (by decide) hnothing .none (.inr (by decide))
  have htext : Spaced [[".model", "a\\b", "c\\", "d"], ["x\\"], ["y"]]
      "# note \\\n \\ # lead\n.model a\\b\\\n\t\\\n c\\ d # end \\\n \nx\\\\\n\n y".toList :=
    @Spaced.blankLine [] "# note \\".toList _ _ isSpacing_nil (.sign (by decide))
      (.row hlead hmodel (@Spaced.blankLine [' '] [] _ _ (by decide) .none
        (.row hnothing hx (.lastRow hspace hy))))
  exact ⟨htext, spaced_reads "a.arch" htext⟩

end Fabric
