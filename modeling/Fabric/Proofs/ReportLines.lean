import Fabric.Proofs.LineEnds
import Fabric.Proofs.Numerals
import Fabric.Report

/-!
# The lines of a report

A report whose header says nothing with a line boundary in it is, split into lines, the lines that
its layout asks for and no other (`Report.reportLines_render`): the details and the suggestion may
have any number of lines, but each of them is indented, so none can pass for a line of the header.
A text without a line boundary is called *unbroken*.
-/

namespace Fabric

namespace Text

/-- No character of a text ends a line of a report. -/
def IsUnbroken (text : String) : Prop := ∀ c ∈ text.toList, isLineBoundary c = false

-- The instance is named: characters are finitely many, and trying all of them takes too long.
instance : DecidablePred IsUnbroken := fun text => List.decidableBAll _ text.toList

/-- The characters of a literal are seen as they stand, without decoding its bytes. -/
theorem IsUnbroken.ofList {chars : List Char} (h : chars.all (!isLineBoundary ·) = true) :
    IsUnbroken (String.ofList chars) := by
  unfold IsUnbroken
  rw [String.toList_ofList]
  simpa using h

theorem isUnbroken_append {s t : String} :
    IsUnbroken (s ++ t) ↔ IsUnbroken s ∧ IsUnbroken t := by
  unfold IsUnbroken
  rw [String.toList_append, List.forall_mem_append]

theorem IsUnbroken.append {s t : String} (hs : IsUnbroken s) (ht : IsUnbroken t) :
    IsUnbroken (s ++ t) := isUnbroken_append.2 ⟨hs, ht⟩

/-- What is free of blanks is unbroken, as every line boundary is a blank. -/
theorem isUnbroken_of_not_blank {text : String} (h : ∀ c ∈ text.toList, isBlank c = false) :
    IsUnbroken text := by
  intro c hc
  by_contra hboundary
  rw [Bool.not_eq_false] at hboundary
  cases (h c hc).symm.trans (isBlank_of_isLineBoundary hboundary)

/-- What holds of the characters of parts and of a separator holds of all characters between. -/
theorem forall_mem_intercalate {P : Char → Prop} {sep : String} {parts : List String}
    (hsep : ∀ c ∈ sep.toList, P c) (h : ∀ part ∈ parts, ∀ c ∈ part.toList, P c) :
    ∀ c ∈ (sep.intercalate parts).toList, P c := by
  induction parts with
  | nil => exact List.forall_mem_nil _
  | cons part parts ih =>
    obtain ⟨hpart, hparts⟩ := List.forall_mem_cons.1 h
    cases parts with
    | nil => simpa using hpart
    | cons next parts =>
      rw [String.intercalate_cons_cons, String.toList_append, String.toList_append]
      exact List.forall_mem_append.2 ⟨List.forall_mem_append.2 ⟨hpart, hsep⟩, ih hparts⟩

theorem IsUnbroken.intercalate {sep : String} {parts : List String} (hsep : IsUnbroken sep)
    (h : ∀ part ∈ parts, IsUnbroken part) : IsUnbroken (sep.intercalate parts) :=
  forall_mem_intercalate hsep h

/-- A text with a character and without a blank, as a token or a numeral. -/
structure IsWord (text : String) : Prop where
  ne_empty : text ≠ ""
  plain : ∀ c ∈ text.toList, isBlank c = false

instance : DecidablePred IsWord := fun text =>
  have := List.decidableBAll (isBlank · = false) text.toList
  decidable_of_iff (text ≠ "" ∧ ∀ c ∈ text.toList, isBlank c = false)
    ⟨fun h => ⟨h.1, h.2⟩, fun h => ⟨h.ne_empty, h.plain⟩⟩

theorem IsWord.isUnbroken {text : String} (h : IsWord text) : IsUnbroken text :=
  isUnbroken_of_not_blank h.plain

/-! ## Lines put together -/

/-- A line feed within a part separates like one between two parts. -/
theorem intercalate_break (before : List String) (text : String) (after : List String) :
    "\n".intercalate (before ++ ("\n" ++ text) :: after) =
      "\n".intercalate (before ++ "" :: text :: after) := by
  induction before with
  | nil => cases after <;> simp [String.append_assoc]
  | cons part before ih =>
    cases before <;> simp_all [String.append_assoc]

theorem splitOnP_intercalate {lines : List String} (hne : lines ≠ [])
    (h : ∀ line ∈ lines, IsUnbroken line) :
    ("\n".intercalate lines).toList.splitOnP isLineBoundary = lines.map String.toList := by
  induction lines with
  | nil => exact absurd rfl hne
  | cons line lines ih =>
    obtain ⟨hline, hlines⟩ := List.forall_mem_cons.1 h
    cases lines with
    | nil => simpa using List.splitOnP_eq_singleton hline
    | cons next lines =>
      have hbreak : isLineBoundary '\n' = true := rfl
      have htext : ("\n".intercalate (line :: next :: lines)).toList =
          line.toList ++ '\n' :: ("\n".intercalate (next :: lines)).toList := by simp
      rw [htext, List.splitOnP_append_cons _ _ hbreak, ih (List.cons_ne_nil _ _) hlines,
        List.splitOnP_eq_singleton hline]
      rfl

/-- Unbroken lines, of which the last is not empty, are the lines of the text that has one of them
on each line. -/
theorem reportLines_intercalate {lines : List String} {last : String}
    (h : ∀ line ∈ lines ++ [last], IsUnbroken line) (hlast : last ≠ "") :
    reportLines ("\n".intercalate (lines ++ [last])).toList =
      (lines ++ [last]).map String.toList := by
  have hreturn : '\r' ∉ ("\n".intercalate (lines ++ [last])).toList := by
    have hne : ∀ c ∈ ("\n".intercalate (lines ++ [last])).toList, c ≠ '\r' := by
      refine forall_mem_intercalate (by simp) fun line hline c hc => ?_
      rintro rfl
      cases h line hline _ hc
    exact fun hmem => hne _ hmem rfl
  have hunify : unifyLineEnds ("\n".intercalate (lines ++ [last])).toList =
      ("\n".intercalate (lines ++ [last])).toList := by
    have happend := unifyLineEnds_append hreturn []
    rwa [List.append_nil, unifyLineEnds, List.append_nil] at happend
  unfold reportLines dropEmptyLast
  rw [hunify, splitOnP_intercalate (by simp) h, if_neg]
  rw [List.map_append, List.map_singleton, List.getLast?_concat]
  simpa using hlast

end Text

open Text (IsUnbroken IsWord)

theorem Numeral.isWord_text (n : Int) : IsWord (text n) where
  ne_empty := by
    cases n with
    | ofNat m => exact fun h => Nat.toDigits_ne_nil (String.ofList_eq_empty_iff.1 h)
    | negSucc m => exact fun h => List.cons_ne_nil _ _ (String.ofList_eq_empty_iff.1 h)
  plain c hc := isBlank_of_isNumeralChar (isNumeralChar_text n c hc)

theorem Binary64.isUnbroken_briefText (x : Binary64) : IsUnbroken x.briefText :=
  Text.isUnbroken_of_not_blank (DecimalStyle.isBlank_write _ _ x)

namespace Report

/-! ## The layout -/

/-- The lines that a report is to show. -/
def shownLines (r : Report) : List String :=
  ["", "", banner, "Error Type:     " ++ r.title] ++
    headerLine "Source File:    " r.source ++
    (r.line.map ("Line:           " ++ ·)).toList ++
    headerLine "Field:          " r.field ++
    headerLine "User Input:     "
      ((r.input.filter (!·.isEmpty)).map fun text => "'" ++ text ++ "'") ++
    ["", "Details:"] ++ indented r.details ++
    (if r.suggestion.isEmpty then [] else "" :: "Suggestion:" :: indented r.suggestion) ++ [rule]

/-- Nothing in the header of a report breaks a line. -/
structure HasPlainHeader (r : Report) : Prop where
  title : IsUnbroken r.title
  source : ∀ text ∈ r.source, IsUnbroken text
  line : ∀ text ∈ r.line, IsUnbroken text
  field : ∀ text ∈ r.field, IsUnbroken text
  input : ∀ text ∈ r.input, IsUnbroken text

/-- The parts of a rendered report that begin with a line feed put an empty line before them. -/
theorem render_eq (r : Report) : r.render = "\n".intercalate r.shownLines := by
  have hfirst : ∀ after, "\n".intercalate ("\n" :: after) = "\n".intercalate ("" :: "" :: after) :=
    fun after => by simpa using Text.intercalate_break [] "" after
  have hdetails : ∀ before after, "\n".intercalate (before ++ "\nDetails:" :: after) =
      "\n".intercalate (before ++ "" :: "Details:" :: after) :=
    fun before after => Text.intercalate_break before "Details:" after
  have hsuggestion : ∀ before after, "\n".intercalate (before ++ "\nSuggestion:" :: after) =
      "\n".intercalate (before ++ "" :: "Suggestion:" :: after) :=
    fun before after => Text.intercalate_break before "Suggestion:" after
  unfold render shownLines
  generalize headerLine "Source File:    " r.source = source
  generalize (r.line.map ("Line:           " ++ ·)).toList = line
  generalize headerLine "Field:          " r.field = field
  generalize headerLine "User Input:     " _ = input
  -- Everything between the first line feed and the details stays as it is.
  let header := [banner, "Error Type:     " ++ r.title] ++ source ++ line ++ field ++ input
  have hopened := fun after =>
    (hfirst (header ++ "\nDetails:" :: (indented r.details ++ after))).trans
      (hdetails ("" :: "" :: header) (indented r.details ++ after))
  cases r.suggestion.isEmpty with
  | true => simpa [header] using hopened [rule]
  | false =>
    have hclosed := hsuggestion ("" :: "" :: header ++ "" :: "Details:" :: indented r.details)
      (indented r.suggestion ++ [rule])
    have hboth := hopened ("\nSuggestion:" :: indented r.suggestion ++ [rule])
    simp only [header, List.cons_append, List.nil_append, List.append_assoc] at hboth hclosed ⊢
    exact hboth.trans hclosed

theorem headerLine_some (label text : String) :
    headerLine label (some text) = if text = "" then [] else [label ++ text] := by
  simp [headerLine]

theorem isUnbroken_headerLine {label : String} {value : Option String} (hlabel : IsUnbroken label)
    (h : ∀ text ∈ value, IsUnbroken text) : ∀ line ∈ headerLine label value, IsUnbroken line := by
  unfold headerLine
  cases value with
  | none => exact List.forall_mem_nil _
  | some text =>
    dsimp only
    split
    · exact List.forall_mem_nil _
    · exact List.forall_mem_singleton.2 (hlabel.append (h text rfl))

/-- A text cut at line boundaries has unbroken lines, also when they are indented. -/
theorem isUnbroken_indented (text : String) : ∀ line ∈ indented text, IsUnbroken line := by
  intro line hline
  obtain ⟨cut, hcut, rfl⟩ := List.mem_map.1 hline
  refine IsUnbroken.append (by decide) ?_
  have hsplit : cut ∈ (Text.unifyLineEnds text.toList).splitOnP Text.isLineBoundary := by
    unfold Text.reportLines Text.dropEmptyLast at hcut
    split at hcut
    · exact List.mem_of_mem_dropLast hcut
    · exact hcut
  intro c hc
  rw [String.toList_ofList] at hc
  exact (Text.mem_splitOnP hsplit c hc).2

/-- An unbroken text is one line. -/
theorem indented_of_isUnbroken {text : String} (hne : text ≠ "") (h : IsUnbroken text) :
    indented text = ["  " ++ text] := by
  have hlines : Text.reportLines text.toList = [text.toList] := by
    simpa using @Text.reportLines_intercalate [] text (by simpa using h) hne
  unfold indented
  rw [hlines, List.map_singleton, String.ofList_toList]

theorem isUnbroken_shownLines {r : Report} (h : r.HasPlainHeader) :
    ∀ line ∈ r.shownLines, IsUnbroken line := by
  have hinput : ∀ text ∈ (r.input.filter (!·.isEmpty)).map fun text => "'" ++ text ++ "'",
      IsUnbroken text := by
    intro text htext
    obtain ⟨quoted, hquoted, rfl⟩ := Option.mem_map.1 htext
    have hplain := h.input quoted (Option.mem_filter_iff.1 hquoted).1
    exact (IsUnbroken.append (by decide) hplain).append (by decide)
  have hline : ∀ line ∈ (r.line.map ("Line:           " ++ ·)).toList, IsUnbroken line := by
    intro line hline
    obtain ⟨text, htext, rfl⟩ := Option.mem_map.1 (Option.mem_toList.1 hline)
    exact IsUnbroken.append (by decide) (h.line text htext)
  have hsuggestion : ∀ line ∈ (if r.suggestion.isEmpty then [] else
      "" :: "Suggestion:" :: indented r.suggestion), IsUnbroken line := by
    split
    · exact List.forall_mem_nil _
    · exact List.forall_mem_cons.2 ⟨by decide, List.forall_mem_cons.2
        ⟨by decide, isUnbroken_indented _⟩⟩
  have htitle : IsUnbroken ("Error Type:     " ++ r.title) := IsUnbroken.append (by decide) h.title
  have hfirst : ∀ line ∈ ["", "", banner, "Error Type:     " ++ r.title], IsUnbroken line := by
    simp only [List.forall_mem_cons, htitle, List.not_mem_nil, false_implies,
      implies_true, and_true]
    decide
  unfold shownLines
  simp only [List.forall_mem_append]
  exact ⟨⟨⟨⟨⟨⟨⟨⟨hfirst, isUnbroken_headerLine (by decide) h.source⟩, hline⟩,
    isUnbroken_headerLine (by decide) h.field⟩, isUnbroken_headerLine (by decide) hinput⟩,
    by decide⟩, isUnbroken_indented _⟩, hsuggestion⟩, by decide⟩

theorem reportLines_render {r : Report} (h : r.HasPlainHeader) :
    Text.reportLines r.render.toList = r.shownLines.map String.toList := by
  rw [render_eq]
  exact Text.reportLines_intercalate (isUnbroken_shownLines h) (by decide)

end Report

end Fabric
