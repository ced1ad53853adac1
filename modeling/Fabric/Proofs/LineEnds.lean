import Fabric.File.Source
import Fabric.Proofs.Spacing

/-!
# Ends of lines

Blanks and comments at the ends of physical lines are not read (`Trails.map_content`), and the
carriage return of a line end is such a blank (`trails_withReturns`). A file keeps its text up to its
line ends, so where carriage returns stand at line ends only, parsing a file is parsing its text
(`line_ends_unread`).
-/

namespace Fabric

/-! ## What is added to lines -/

/-- A text to which something was added at the end of each physical line: blanks, a comment, both or
nothing. -/
inductive Trails : List Char → List Char → Prop where
  | ended : Trails [] []
  | last {line blanks comment : List Char} (hne : line ≠ []) (hline : '\n' ∉ line)
    (hblanks : IsSpacing blanks) (hcomment : IsComment comment) :
    Trails line (line ++ blanks ++ comment)
  | line {line blanks comment rest rest' : List Char} (hline : '\n' ∉ line)
    (hblanks : IsSpacing blanks) (hcomment : IsComment comment) (hrest : Trails rest rest') :
    Trails (line ++ '\n' :: rest) (line ++ blanks ++ comment ++ '\n' :: rest')

namespace Text

/-- Puts a carriage return before every line feed. -/
def withReturns (text : List Char) : List Char :=
  text.flatMap fun c => if c = '\n' then ['\r', '\n'] else [c]

/-- Every carriage return belongs to a line end. -/
def ReturnsPaired : List Char → Prop
  | [] => True
  | c :: rest => (c = '\r' → rest.head? = some '\n') ∧ ReturnsPaired rest

instance : DecidablePred ReturnsPaired := go
where
  go : (text : List Char) → Decidable (ReturnsPaired text)
    | [] => inferInstanceAs (Decidable True)
    | _ :: rest =>
      have := go rest
      inferInstanceAs (Decidable (_ ∧ _))

theorem withReturns_of_not_mem {line : List Char} (h : '\n' ∉ line) : withReturns line = line := by
  have hkeep : ∀ c ∈ line, (if c = '\n' then ['\r', '\n'] else [c]) = [c] :=
    fun c hc => if_neg fun heq : c = '\n' => h (heq ▸ hc)
  exact (List.flatMap_congr hkeep).trans (List.flatMap_singleton' line)

theorem withReturns_cons {line : List Char} (h : '\n' ∉ line) (rest : List Char) :
    withReturns (line ++ '\n' :: rest) = line ++ ['\r'] ++ '\n' :: withReturns rest := by
  have happend : withReturns (line ++ '\n' :: rest) =
      withReturns line ++ withReturns ('\n' :: rest) := List.flatMap_append
  rw [happend, withReturns_of_not_mem h, List.append_assoc]
  rfl

theorem ReturnsPaired.append {before after : List Char} (h : ReturnsPaired (before ++ after)) :
    ReturnsPaired after := by
  induction before with
  | nil => exact h
  | cons c before ih => exact ih h.2

/-- Before a line feed, at most the last character of a line is a carriage return. -/
theorem ReturnsPaired.line {line rest : List Char} (h : ReturnsPaired (line ++ '\n' :: rest))
    (hline : '\n' ∉ line) : '\r' ∉ line ∨ ∃ begun, '\r' ∉ begun ∧ line = begun ++ ['\r'] := by
  by_cases hmem : '\r' ∈ line
  · obtain ⟨begun, after, rfl, hbegun⟩ := List.eq_append_cons_of_mem hmem
    cases after with
    | nil => exact .inr ⟨begun, hbegun, rfl⟩
    | cons c after =>
      rw [List.append_assoc] at h
      obtain rfl : c = '\n' := Option.some.inj (h.append.1 rfl)
      exact absurd (by simp) hline
  · exact .inl hmem

theorem ReturnsPaired.last {line : List Char} (h : ReturnsPaired line) (hline : '\n' ∉ line) :
    '\r' ∉ line := by
  intro hmem
  obtain ⟨begun, after, rfl⟩ := List.append_of_mem hmem
  have hend := List.mem_of_head? (h.append.1 rfl)
  exact hline (List.mem_append_right _ (List.mem_cons_of_mem _ hend))

theorem unifyLineEnds_cons_of_ne {c : Char} (h : c ≠ '\r') (rest : List Char) :
    unifyLineEnds (c :: rest) = c :: unifyLineEnds rest := by
  rw [unifyLineEnds]
  · exact fun _ hc => absurd hc h
  · exact h

theorem unifyLineEnds_append {line : List Char} (h : '\r' ∉ line) (rest : List Char) :
    unifyLineEnds (line ++ rest) = line ++ unifyLineEnds rest := by
  induction line with
  | nil => rfl
  | cons c line ih =>
    rw [List.mem_cons, not_or] at h
    rw [List.cons_append, unifyLineEnds_cons_of_ne (Ne.symm h.1), ih h.2, List.cons_append]

end Text

/-! ## Texts that read alike -/

theorem isSpacing_return : IsSpacing ['\r'] := by decide

theorem trails_last {line : List Char} (hline : '\n' ∉ line) : Trails line line := by
  by_cases hne : line = []
  · exact hne ▸ .ended
  · have htrails := Trails.last hne hline isSpacing_nil .none
    rwa [List.append_nil, List.append_nil] at htrails

theorem trails_withReturns (text : List Char) : Trails text (Text.withReturns text) := by
  induction text using Text.lineInduction with
  | last line hline =>
    rw [Text.withReturns_of_not_mem hline]
    exact trails_last hline
  | cons line rest hline ih =>
    have htrails := Trails.line hline isSpacing_return .none ih
    rwa [List.append_nil, ← Text.withReturns_cons hline] at htrails

/-- Unifying the line ends of a text takes away carriage returns at the ends of its lines. -/
theorem trails_unifyLineEnds {text : List Char} (h : Text.ReturnsPaired text) :
    Trails (Text.unifyLineEnds text) text := by
  induction text using Text.lineInduction with
  | last line hline =>
    have hunify := Text.unifyLineEnds_append (h.last hline) []
    rw [List.append_nil, Text.unifyLineEnds, List.append_nil] at hunify
    rw [hunify]
    exact trails_last hline
  | cons line rest hline ih =>
    have hrest := ih h.append.2
    obtain hreturn | ⟨begun, hreturn, rfl⟩ := h.line hline
    · rw [Text.unifyLineEnds_append hreturn, Text.unifyLineEnds_cons_of_ne (by decide)]
      have htrails := Trails.line hline isSpacing_nil .none hrest
      rwa [List.append_nil, List.append_nil] at htrails
    · rw [List.append_assoc, Text.unifyLineEnds_append hreturn]
      rw [List.mem_append, not_or] at hline
      have htrails := Trails.line hline.1 isSpacing_return .none hrest
      rwa [List.append_nil, List.append_assoc] at htrails

theorem Trails.map_content {text text' : List Char} (h : Trails text text') :
    (Text.physicalLines text).map LogicalLine.content =
      (Text.physicalLines text').map LogicalLine.content := by
  have hcontent : ∀ {line blanks comment : List Char}, IsSpacing blanks → IsComment comment →
      LogicalLine.content (line ++ blanks ++ comment) = LogicalLine.content line := by
    intro line blanks comment hblanks hcomment
    rw [LogicalLine.content_append_isComment _ hcomment,
      LogicalLine.content_append_blanks _ hblanks.isBlank]
  have hend : ∀ {line blanks comment : List Char}, '\n' ∉ line → IsSpacing blanks →
      IsComment comment → '\n' ∉ line ++ blanks ++ comment := by
    intro line blanks comment hline hblanks hcomment
    simp only [List.mem_append, not_or]
    exact ⟨⟨hline, hblanks.not_mem_lineEnd⟩, hcomment.not_mem_lineEnd⟩
  induction h with
  | ended => rfl
  | last hne hline hblanks hcomment =>
    rw [Text.physicalLines_singleton hne hline,
      Text.physicalLines_singleton (by simp [hne]) (hend hline hblanks hcomment),
      List.map_singleton, List.map_singleton, hcontent hblanks hcomment]
  | line hline hblanks hcomment _ ih =>
    rw [Text.physicalLines_cons hline, Text.physicalLines_cons (hend hline hblanks hcomment),
      List.map_cons, List.map_cons, hcontent hblanks hcomment, ih]

namespace Stream

/-- Read to its end, a stream gives logical lines. -/
def Gives (s : Stream) (lines : List LogicalLine) : Prop := ∃ t, s.ReadsOut lines t

theorem gives_iff {s : Stream} {lines : List LogicalLine} :
    s.Gives lines ↔ lines = s.logicalLines := by
  constructor
  · rintro ⟨t, ht⟩
    exact ht.eq
  · rintro rfl
    obtain ⟨t, ht, -⟩ := s.exists_readsOut
    exact ⟨t, ht⟩

theorem logicalLines_trails {text text' : String} (source : String)
    (h : Trails text.toList text'.toList) :
    (ofText text' source).logicalLines = (ofText text source).logicalLines :=
  LogicalLine.listFrom_congr h.map_content.symm [] 0

/-- Parsing reads nothing of a stream but its name and its logical lines. -/
theorem parse_congr {s t : Stream} (hsource : s.source = t.source)
    (hlines : s.rewind.logicalLines = t.rewind.logicalLines) (routing : Routing) :
    s.parse routing = t.parse routing := by
  have hdiscover : s.discover.1 = t.discover.1 := by
    unfold discover
    simp only [hsource, hlines]
    split <;> rfl
  have hload : ∀ census, (s.load census).1 = (t.load census).1 := by
    intro census
    unfold load
    rw [hsource, hlines]
  unfold parse draft
  simp only [hdiscover, hload]

/-- Texts that differ in what was added to their lines are parsed alike. -/
theorem parseText_trails {text text' : String} (h : Trails text.toList text'.toList)
    (source : String) (routing : Routing) :
    parseText text' source routing = parseText text source routing :=
  parse_congr (s := ofText text' source) (t := ofText text source) rfl
    (logicalLines_trails source h) routing

end Stream

/-! ## Files -/

theorem decode_toUTF8 (text : String) : Text.Utf8.decode text.toUTF8 = .ok text := by
  have hdecoded : String.fromUTF8? text.toUTF8 = some text :=
    dif_pos (show text.toUTF8.IsValidUTF8 from text.isValidUTF8)
  unfold Text.Utf8.decode
  rw [hdecoded]

/-- What can be read is a file. -/
theorem isFile_of_readBytes {fs : FileSystem} {path : Path} {bytes : ByteArray}
    (h : fs.readBytes path = .ok bytes) : fs.isFile path = .ok true := by
  unfold FileSystem.readBytes at h
  unfold FileSystem.isFile FileSystem.find?
  split at h
  · cases h
  · rename_i hnull
    rw [if_neg hnull]
    split at h
    · cases h
    · cases h
    · rename_i hlookup
      rw [hlookup]
      rfl

theorem readText_of_readBytes {fs : FileSystem} {path : Path} {text : String}
    (h : fs.readBytes path = .ok text.toUTF8) :
    fs.readText path = .ok (String.ofList (Text.unifyLineEnds text.toList)) := by
  unfold FileSystem.readText FileSystem.readTextWith
  rw [h]
  change (Text.Utf8.decode text.toUTF8 |>.mapError FileFault.notUtf8).bind _ = _
  rw [decode_toUTF8]
  rfl

theorem ofFile_of_readBytes {fs : FileSystem} {path : Path} {text : String}
    (h : fs.readBytes path = .ok text.toUTF8) : Stream.ofFile fs path =
      .ok (Stream.ofText (String.ofList (Text.unifyLineEnds text.toList)) path.text) := by
  unfold Stream.ofFile
  rw [isFile_of_readBytes h, readText_of_readBytes h]
  rfl

theorem parseFile_of_ofFile {fs : FileSystem} {path : Path} {stream : Stream}
    (h : Stream.ofFile fs path = .ok stream) (routing : Routing) :
    parseFile fs path routing = (stream.parse routing).mapError .parse := by
  unfold parseFile
  rw [h]
  rfl

/-- What stands at the ends of lines is not read: neither blanks nor comments there, nor the carriage
returns of line ends, change the logical lines of a text or their numbers. So a file whose carriage
returns all belong to line ends is parsed as its text is. -/
theorem line_ends_unread (text source : String) :
    (∀ text' : String, Trails text.toList text'.toList → ∀ lines,
      (Stream.ofText text' source).Gives lines ↔ (Stream.ofText text source).Gives lines) ∧
    (∀ lines, (Stream.ofText (String.ofList (Text.withReturns text.toList)) source).Gives lines ↔
      (Stream.ofText text source).Gives lines) ∧
    (Text.ReturnsPaired text.toList → ∀ (fs : FileSystem) (path : Path) (routing : Routing),
      fs.readBytes path = .ok text.toUTF8 →
        parseFile fs path routing = (parseText text path.text routing).mapError .parse) := by
  have hgives : ∀ text' : String, Trails text.toList text'.toList → ∀ lines,
      (Stream.ofText text' source).Gives lines ↔ (Stream.ofText text source).Gives lines := by
    intro text' htrails lines
    rw [Stream.gives_iff, Stream.gives_iff, Stream.logicalLines_trails source htrails]
  refine ⟨hgives, hgives _ ?_, fun hpaired fs path routing hread => ?_⟩
  · rw [String.toList_ofList]
    exact trails_withReturns text.toList
  · have htrails : Trails (String.ofList (Text.unifyLineEnds text.toList)).toList text.toList := by
      rw [String.toList_ofList]
      exact trails_unifyLineEnds hpaired
    rw [parseFile_of_ofFile (ofFile_of_readBytes hread),
      Stream.parseText_trails htrails path.text routing]
    rfl

/-- Blanks and comments are added to a line that is broken, to one with a comment and to the last one,
and a file holds the text with its carriage returns. -/
theorem line_ends_unread_file :
    (Trails "io_rat \\\r\n 2 # pads\r\nfc_type".toList
        "io_rat \\\r \t# \\\r\n 2 # pads\r#\nfc_type #".toList ∧
      (∀ lines,
        (Stream.ofText "io_rat \\\r \t# \\\r\n 2 # pads\r#\nfc_type #" "a.arch").Gives lines ↔
          (Stream.ofText "io_rat \\\r\n 2 # pads\r\nfc_type" "a.arch").Gives lines)) ∧
    Text.ReturnsPaired "io_rat \\\r\n 2 # pads\r\nfc_type".toList ∧
    parseFile ⟨["w"], [(["w", "a.arch"],
        .file "io_rat \\\r\n 2 # pads\r\nfc_type".toUTF8 true)]⟩ (.ofString "a.arch") .global =
      (parseText "io_rat \\\r\n 2 # pads\r\nfc_type" (Path.ofString "a.arch").text .global).mapError
        .parse := by
  have htrails : Trails "io_rat \\\r\n 2 # pads\r\nfc_type".toList
      "io_rat \\\r \t# \\\r\n 2 # pads\r#\nfc_type #".toList :=
    @Trails.line "io_rat \\\r".toList " \t".toList "# \\\r".toList _ _ (by decide) (by decide)
      (.sign (by decide)) (@Trails.line " 2 # pads\r".toList [] ['#'] _ _ (by decide) isSpacing_nil
        (.sign (by decide)) (@Trails.last "fc_type".toList [' '] ['#'] (by decide) (by decide)
          (by decide) (.sign (by decide))))
  have hpaired : Text.ReturnsPaired "io_rat \\\r\n 2 # pads\r\nfc_type".toList := by decide
  refine ⟨⟨htrails, (line_ends_unread _ "a.arch").1 _ htrails⟩, hpaired, ?_⟩
  exact (line_ends_unread _ "a.arch").2.2 hpaired _ _ _ rfl

end Fabric
