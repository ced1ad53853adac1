import Fabric.Build
import Fabric.Proofs.Echoing
import Fabric.Proofs.GridFaults
import Fabric.Proofs.LineEnds
import Fabric.Proofs.Outcomes

/-!
# How a build ends

A build under a configuration that was read ends with a result or with one build error that has a
report, except for two failures that escape: a number that is too large while the grid is sized, and
a null character in the path of the echo report. `build_outcome` says exactly when each of these
happens, and that a build that fails leaves the files alone. A grid that is too large has an error
of its own, but a count that is too large for a binary64 value fails before that (`build_escapes`).

All of this is about paths that are Unicode text, as every `String` is. A system may hold names of
other bytes and write them with surrogates; the echo report of such a path cannot be encoded, which
is one more failure that escapes, and it comes after the echo file was emptied (`BuildAtomic.cut`).
-/

namespace Fabric

/-! ## Configurations that were read -/

namespace RunConfig

variable {fs : FileSystem} {path : Path} {config : RunConfig}

theorem isWritable_of_mem {count : Count} (h : config.isWritable = true)
    (hcount : count ∈ config.counts) : Numeral.isWritable count.value = true :=
  List.all_eq_true.1 h count hcount

theorem loaded_of_fitting {entries : List (Value × Value)}
    (h : ofFitting fs path entries = .ok config) : config.sizing.Loaded := by
  unfold ofFitting at h
  obtain ⟨routing, -, h⟩ := except_bind_ok.1 h
  obtain ⟨echoFile, -, h⟩ := except_bind_ok.1 h
  obtain ⟨blocks, -, h⟩ := except_bind_ok.1 h
  obtain ⟨pads, -, h⟩ := except_bind_ok.1 h
  obtain ⟨ratio, -, h⟩ := except_bind_ok.1 h
  obtain ⟨_, hcheck, h⟩ := except_bind_ok.1 h
  rw [mapError_ok] at hcheck
  dsimp only at h
  split at h
  · cases h
  · rename_i hwritable
    rw [Bool.not_eq_true, Bool.not_eq_false'] at hwritable
    cases h
    exact {
      check := hcheck
      ratio := ⟨ratio, rfl⟩
      blocks := isWritable_of_mem hwritable (.head _)
      pads := isWritable_of_mem hwritable (.tail _ (.head _))
      fixed := fun hfixed => by
        have hmem : ∀ count, _ := fun count => @isWritable_of_mem _ count hwritable
        unfold counts at hmem
        rw [hfixed] at hmem
        exact ⟨hmem _ (by simp), hmem _ (by simp)⟩ }

/-- The sizing of a configuration that was read is as it should be. -/
theorem loaded_of_value {content : Value} (h : ofValue fs path content = .ok config) :
    config.sizing.Loaded := by
  unfold ofValue at h
  split at h
  · cases h
  · obtain ⟨errors, -, h⟩ := except_bind_ok.1 h
    dsimp only at h
    split at h
    · cases h
    · exact loaded_of_fitting h
  · obtain ⟨_, -, h⟩ := except_bind_ok.1 h
    cases h

end RunConfig

/-! ## Files -/

section Files

variable {fs : FileSystem} {path : Path}

theorem hasNull_of_isFile (h : fs.isFile path = .ok true) : FileSystem.hasNull path = false := by
  cases hnull : FileSystem.hasNull path with
  | false => rfl
  | true =>
    unfold FileSystem.isFile FileSystem.find? at h
    rw [if_pos hnull] at h
    cases h

/-- Where the path can be given to the system, reading fails in the system or for bytes that are no
text. -/
theorem readText_error {fault : FileFault} (hnull : FileSystem.hasNull path = false)
    (h : fs.readText path = .error fault) :
    (∃ e, fault = .error e) ∨ ∃ e, fault = .notUtf8 e := by
  unfold FileSystem.readText FileSystem.readTextWith at h
  rcases except_bind_error.1 h with h | ⟨bytes, -, h⟩
  · unfold FileSystem.readBytes at h
    rw [hnull, if_neg Bool.false_ne_true] at h
    left
    split at h
    · cases h
      exact ⟨_, rfl⟩
    · cases h
      exact ⟨_, rfl⟩
    · split at h <;> cases h
      exact ⟨_, rfl⟩
  · rcases except_bind_error.1 h with h | ⟨text, -, h⟩
    · obtain ⟨e, -, rfl⟩ := mapError_error.1 h
      exact .inr ⟨e, rfl⟩
    · cases h

/-- A file is opened, unless the path holds a null character or the file system fails; then nothing
is changed. -/
theorem openToWrite_cases (fs : FileSystem) (path : Path) :
    (FileSystem.hasNull path = true ∧ FileSystem.openToWrite path fs = .error .nullInPath fs) ∨
    (FileSystem.hasNull path = false ∧
      ((∃ file after, FileSystem.openToWrite path fs = .ok file after) ∨
        ∃ e, FileSystem.openToWrite path fs = .error (.error e) fs)) := by
  unfold FileSystem.openToWrite
  cases hnull : FileSystem.hasNull path with
  | true => exact .inl ⟨rfl, rfl⟩
  | false =>
    refine .inr ⟨rfl, ?_⟩
    rw [if_neg Bool.false_ne_true]
    split
    · exact .inr ⟨_, rfl⟩
    · split
      · exact .inr ⟨_, rfl⟩
      · exact .inl ⟨_, _, rfl⟩
      · exact .inl ⟨_, _, rfl⟩

variable {encode : String → Except Text.Utf8.Surrogates ByteArray} {text : String}
  {file : FileSystem.OpenFile} {fs' : FileSystem}

theorem writeTextWith_of_opened (hopen : FileSystem.openToWrite path fs = .ok file fs')
    {content : ByteArray} (hencode : encode text = .ok content) :
    FileSystem.writeTextWith encode path text fs =
      .ok () (fs'.put file.names (.file content file.readable)) := by
  refine (bind_of_ok hopen).trans ?_
  rw [hencode]
  rfl

theorem writeTextWith_of_closed {fault : FileFault}
    (hopen : FileSystem.openToWrite path fs = .error fault fs') :
    FileSystem.writeTextWith encode path text fs = .error fault fs' :=
  bind_error.2 (.inl hopen)

/-- A stream from a file is that of the text of the file. -/
theorem ofFile_ok {stream : Stream} (h : Stream.ofFile fs path = .ok stream) :
    ∃ text, fs.readText path = .ok text ∧ stream = .ofText text path.text := by
  unfold Stream.ofFile at h
  obtain ⟨present, -, h⟩ := except_bind_ok.1 h
  dsimp only at h
  split at h
  · cases h
  · obtain ⟨text, htext, h⟩ := except_bind_ok.1 h
    cases h
    exact ⟨text, mapError_ok.1 htext, rfl⟩

/-- Where a file gives no stream, there is a report of why. -/
theorem ofFile_error {fault : SourceFault} (archPath : String)
    (h : Stream.ofFile fs path = .error fault) :
    ∃ report, (BuildCause.source fault).report? archPath = some report := by
  unfold Stream.ofFile at h
  rcases except_bind_error.1 h with h | ⟨present, hfile, h⟩
  · obtain ⟨e, -, rfl⟩ := mapError_error.1 h
    exact ⟨_, rfl⟩
  rw [mapError_ok] at hfile
  dsimp only at h
  split at h
  · cases h
    exact ⟨_, rfl⟩
  rename_i hpresent
  rw [Bool.not_eq_true, Bool.not_eq_false'] at hpresent
  have hnull := hasNull_of_isFile (hpresent ▸ hfile)
  rcases except_bind_error.1 h with h | ⟨text, -, h⟩
  · obtain ⟨cause, hcause, rfl⟩ := mapError_error.1 h
    rcases readText_error hnull hcause with ⟨e, rfl⟩ | ⟨e, rfl⟩
    · dsimp only [SourceFault.ofFileFault]
      split
      · exact ⟨_, rfl⟩
      · exact ⟨_, rfl⟩
    · exact ⟨_, rfl⟩
  · cases h

end Files

/-! ## Steps of a build -/

namespace BuildCause

variable {archPath : String} {cause : BuildCause}

theorem toFailure_reported {report : Report} (h : cause.report? archPath = some report) :
    cause.toFailure archPath = .reported report cause := by
  unfold toFailure
  rw [h]

theorem toFailure_escaped (h : cause.report? archPath = none) :
    cause.toFailure archPath = .escaped cause := by
  unfold toFailure
  rw [h]

end BuildCause

section Steps

variable {fs : FileSystem} {path : Path} {archPath : String} {routing : Routing}

/-- A file holds a well-formed description that can be echoed, or there is a report of why not. -/
theorem parseFile_cases (archPath : String) (routing : Routing)
    (hlen : ∀ text, fs.readText path = .ok text → text.length ≤ Cells.maxInteger) :
    (∃ a, parseFile fs path routing = .ok a ∧ a.WellFormed ∧
      a.pins.length ≤ Cells.maxInteger + 1) ∨
    ∃ e report, parseFile fs path routing = .error e ∧
      (BuildCause.ofFileParse e).report? archPath = some report := by
  cases hfile : Stream.ofFile fs path with
  | error fault =>
    obtain ⟨report, hreport⟩ := ofFile_error archPath hfile
    refine .inr ⟨.source fault, report, ?_, hreport⟩
    unfold parseFile
    rw [hfile]
    rfl
  | ok stream =>
    obtain ⟨text, htext, rfl⟩ := ofFile_ok hfile
    have hlen := hlen text htext
    rw [parseFile_of_ofFile hfile]
    change (∃ a, (parseText text path.text routing).mapError _ = _ ∧ _) ∨
      ∃ e report, (parseText text path.text routing).mapError _ = _ ∧ _
    have houtcome := parseText_outcome path.text routing hlen
    generalize hparse : parseText text path.text routing = result at houtcome ⊢
    cases houtcome with
    | fault => exact .inr ⟨_, _, rfl, rfl⟩
    | @rejected findings _ h =>
      obtain ⟨report, hreport⟩ := @Rejection.report_ok path.text findings (some path.text)
        (h.wordable hlen)
      exact .inr ⟨_, report, rfl, toOption_ok.2 hreport⟩
    | accepted =>
      have hpins := Description.length_pins_of_parse hparse
      exact .inl ⟨_, rfl, Description.wellFormed_of_parse hparse, by omega⟩

section Echo

variable {encode : String → Except Text.Utf8.Surrogates ByteArray} {a : Description Binary64}
  {source text : String} {after : FileSystem}

theorem writeEcho_of_written (htext : a.echo source routing = .ok text)
    (h : FileSystem.writeTextWith encode path text fs = .ok () after) :
    writeEcho encode a source routing path fs = .ok () after := by
  unfold writeEcho
  rw [htext]
  change EStateM.adaptExcept _ _ fs = _
  unfold EStateM.adaptExcept
  rw [h]

theorem writeEcho_of_unwritten {fault : FileFault} (htext : a.echo source routing = .ok text)
    (h : FileSystem.writeTextWith encode path text fs = .error fault after) :
    writeEcho encode a source routing path fs = .error (.write fault) after := by
  unfold writeEcho
  rw [htext]
  change EStateM.adaptExcept _ _ fs = _
  unfold EStateM.adaptExcept
  rw [h]

end Echo

/-- The echo report of a well-formed description is written unless the file system fails or the path
holds a null character. -/
theorem writeEcho_cases {a : Description Binary64} (ha : a.WellFormed)
    (hpins : a.pins.length ≤ Cells.maxInteger + 1) (source : String) (file : Path) :
    (FileSystem.hasNull file = true ∧
      writeEcho Text.Utf8.encode a source routing file fs = .error (.write .nullInPath) fs) ∨
    (FileSystem.hasNull file = false ∧
      ((∃ after, writeEcho Text.Utf8.encode a source routing file fs = .ok () after) ∨
        ∃ e, writeEcho Text.Utf8.encode a source routing file fs =
          .error (.write (.error e)) fs)) := by
  obtain ⟨text, htext⟩ := ha.echo_ok hpins source routing
  rcases openToWrite_cases fs file with
    ⟨hnull, hfault⟩ | ⟨hnull, ⟨opened, after, hopen⟩ | ⟨e, herror⟩⟩
  · exact .inl ⟨hnull, writeEcho_of_unwritten htext (writeTextWith_of_closed hfault)⟩
  · exact .inr ⟨hnull, .inl ⟨_, writeEcho_of_written htext (writeTextWith_of_opened hopen rfl)⟩⟩
  · exact .inr ⟨hnull,
      .inr ⟨e, writeEcho_of_unwritten htext (writeTextWith_of_closed herror)⟩⟩

end Steps

/-! ## Outcomes -/

/-- How a build may end, and the files after it: with a result; with a build error that has a
report; or, if an architecture was read but some number is too large for its grid, or if all was
made but the path of the echo report holds a null character, with that fault, which has none. -/
inductive BuildOutcome (fs : FileSystem) (archPath : String) (config : RunConfig) :
    Except BuildFailure BuildResult × FileSystem → Prop where
  | built {result : BuildResult} {after : FileSystem}
    (hprepared : prepare fs archPath config = .ok result)
    (hsizable : ∀ fault, ¬ config.sizing.Unsizable result.architecture.ioRat fault)
    (hecho : ∀ file, config.echoFile = some file → FileSystem.hasNull file = false) :
    BuildOutcome fs archPath config (.ok result, after)
  | reported {cause : BuildCause} {report : Report}
    (hreport : cause.report? archPath = some report)
    (hgrid : ∀ e, cause = .grid (.error e) →
      e.kind = .tooSmall ∨ e.kind = .degenerate ∨ e.kind = .coordinateOverflow)
    (hsizable : ∀ a, parseFile fs (.ofString archPath) config.routing = .ok a →
      ∀ fault, ¬ config.sizing.Unsizable a.ioRat fault)
    (hecho : ∀ result, prepare fs archPath config = .ok result →
      ∃ file, config.echoFile = some file ∧ FileSystem.hasNull file = false) :
    BuildOutcome fs archPath config (.error (.reported report cause), fs)
  | unsized {a : Description Binary64} {fault : NumberFault}
    (hparse : parseFile fs (.ofString archPath) config.routing = .ok a)
    (h : config.sizing.Unsizable a.ioRat fault) :
    BuildOutcome fs archPath config (.error (.escaped (.grid (.number fault))), fs)
  | nullInEchoFile {result : BuildResult} {file : Path}
    (hprepared : prepare fs archPath config = .ok result)
    (hfile : config.echoFile = some file) (hnull : FileSystem.hasNull file = true) :
    BuildOutcome fs archPath config (.error (.escaped (.write .nullInPath)), fs)

section Outcomes

variable {fs : FileSystem} {archPath : String} {config : RunConfig}

section Endings

variable {encode : String → Except Text.Utf8.Surrogates ByteArray} {result : BuildResult}
  {cause : BuildCause} {file : Path} {after : FileSystem}

theorem buildWith_of_ok (h : buildSteps encode archPath config fs = .ok result after) :
    buildWith encode fs archPath config = (.ok result, after) := by
  unfold buildWith
  rw [h]

theorem buildWith_of_error (h : buildSteps encode archPath config fs = .error cause after) :
    buildWith encode fs archPath config = (.error (cause.toFailure archPath), after) := by
  unfold buildWith
  rw [h]

/-- Where nothing is made, nothing has been written. -/
theorem buildWith_of_unprepared (h : prepare fs archPath config = .error cause) :
    buildWith encode fs archPath config = (.error (cause.toFailure archPath), fs) := by
  refine buildWith_of_error (bind_error.2 (.inr ⟨fs, fs, rfl, bind_error.2 (.inl ?_)⟩))
  rw [h]
  rfl

/-- What is made is returned, or echoed first. -/
theorem buildSteps_of_prepared (h : prepare fs archPath config = .ok result) :
    buildSteps encode archPath config fs = (match config.echoFile with
      | none => return result
      | some file => do
        writeEcho encode result.architecture archPath config.routing file
        return result : EStateM BuildCause FileSystem BuildResult) fs := by
  have hmade : (ofExcept (prepare fs archPath config) : EStateM BuildCause FileSystem _) fs =
      .ok result fs := by
    rw [h]
    rfl
  exact (bind_of_ok rfl).trans (bind_of_ok hmade)

theorem buildWith_of_silent (h : prepare fs archPath config = .ok result)
    (hfile : config.echoFile = none) :
    buildWith encode fs archPath config = (.ok result, fs) := by
  refine buildWith_of_ok ((buildSteps_of_prepared h).trans ?_)
  rw [hfile]
  rfl

theorem buildWith_of_echoed (h : prepare fs archPath config = .ok result)
    (hfile : config.echoFile = some file)
    (hecho : writeEcho encode result.architecture archPath config.routing file fs =
      .ok () after) :
    buildWith encode fs archPath config = (.ok result, after) := by
  refine buildWith_of_ok ((buildSteps_of_prepared h).trans ?_)
  rw [hfile]
  exact bind_of_ok hecho

/-- A build whose echo fails leaves the files as the echo left them. -/
theorem buildWith_of_unechoed (h : prepare fs archPath config = .ok result)
    (hfile : config.echoFile = some file)
    (hecho : writeEcho encode result.architecture archPath config.routing file fs =
      .error cause after) :
    buildWith encode fs archPath config = (.error (cause.toFailure archPath), after) := by
  refine buildWith_of_error ((buildSteps_of_prepared h).trans ?_)
  rw [hfile]
  exact bind_error.2 (.inl hecho)

end Endings

theorem prepare_of_parse {a : Description Binary64}
    (h : parseFile fs (.ofString archPath) config.routing = .ok a) :
    prepare fs archPath config = do
      let layout ← (config.sizing.layout a.ioRat).mapError .grid
      return { architecture := a, layout } := by
  unfold prepare
  rw [h]
  rfl

/-- Where all is made, only the echo report can fail. -/
theorem outcome_of_prepared {result : BuildResult}
    (hparse : parseFile fs (.ofString archPath) config.routing = .ok result.architecture)
    (hprepared : prepare fs archPath config = .ok result) (ha : result.architecture.WellFormed)
    (hpins : result.architecture.pins.length ≤ Cells.maxInteger + 1)
    (hsizable : ∀ fault, ¬ config.sizing.Unsizable result.architecture.ioRat fault) :
    BuildOutcome fs archPath config (build fs archPath config) := by
  unfold build
  cases hfile : config.echoFile with
  | none =>
    rw [buildWith_of_silent hprepared hfile]
    exact .built hprepared hsizable (by simp [hfile])
  | some file =>
    rcases @writeEcho_cases fs config.routing _ ha hpins archPath file with
      ⟨hnull, hfault⟩ | ⟨hnull, ⟨after, hok⟩ | ⟨e, herror⟩⟩
    · rw [buildWith_of_unechoed hprepared hfile hfault]
      exact .nullInEchoFile hprepared hfile hnull
    · rw [buildWith_of_echoed hprepared hfile hok]
      refine .built hprepared hsizable fun file' hfile' => ?_
      cases hfile.symm.trans hfile'
      exact hnull
    · rw [buildWith_of_unechoed hprepared hfile herror]
      refine .reported rfl (fun e h => by cases h) (fun a ha => ?_) fun _ _ => ⟨file, hfile, hnull⟩
      cases hparse.symm.trans ha
      exact hsizable

/-- A build under a configuration that was read ends with a result or a reported error, except for
numbers that are too large for the grid and for a null character in the path of the echo report; a
build that fails has changed no file. This is about paths that are Unicode text; a file name that a
system writes with surrogates is none. -/
theorem build_outcome {fs' : FileSystem} {path : Path} {content : Value}
    (hconfig : RunConfig.ofValue fs' path content = .ok config)
    (hlen : ∀ text, fs.readText (.ofString archPath) = .ok text →
      text.length ≤ Cells.maxInteger) :
    BuildOutcome fs archPath config (build fs archPath config) := by
  have hloaded := RunConfig.loaded_of_value hconfig
  unfold build
  obtain ⟨a, hparse, ha, hpins⟩ | ⟨e, report, hparse, hreport⟩ :=
    parseFile_cases archPath config.routing hlen
  · have hprepare := prepare_of_parse hparse
    have houtcome : config.sizing.LayoutOutcome a.ioRat (config.sizing.layout a.ioRat) :=
      hloaded.layout_outcome ha.ioRat.1
    generalize config.sizing.layout a.ioRat = grid at houtcome hprepare
    cases houtcome with
    | laidOut hsizable => exact outcome_of_prepared hparse hprepare ha hpins hsizable
    | refused hsizable hkind =>
      rw [buildWith_of_unprepared hprepare, BuildCause.toFailure_reported rfl]
      refine .reported rfl (fun e h => ?_) (fun a' ha' => ?_) fun result h => ?_
      · cases h
        exact hkind
      · cases hparse.symm.trans ha'
        exact hsizable
      · cases hprepare.symm.trans h
    | unsized h =>
      rw [buildWith_of_unprepared hprepare, BuildCause.toFailure_escaped rfl]
      exact .unsized hparse h
  · have hprepare : prepare fs archPath config = .error (.ofFileParse e) := by
      unfold prepare
      rw [hparse]
      rfl
    rw [buildWith_of_unprepared hprepare, BuildCause.toFailure_reported hreport]
    refine .reported hreport (fun e' h => ?_) (fun a' ha' => ?_) fun result h => ?_
    · cases e <;> cases h
    · cases hparse.symm.trans ha'
    · cases hprepare.symm.trans h

end Outcomes

/-- A build of ten blocks and sixteen pads that is to be echoed. -/
theorem build_outcome_echoed :
    let text := "io_rat 4\nchan_width_io 1.0\nchan_width_x uniform 1.0\n" ++
      "chan_width_y uniform 1.0\noutpin class: 0 top\ninpin class: 1 bottom\n" ++
      "subblocks_per_cluster 4\nsubblock_lut_size 4\n"
    let fs : FileSystem := ⟨["w"], [(["w", "a.arch"], .file text.toUTF8 true)]⟩
    ∃ config, RunConfig.ofValue fs RunConfig.memoryPath (.mapping
        [(.string "num_blocks", .int 10), (.string "num_pads", .int 16),
          (.string "echo_file", .string "a.echo")]) = .ok config ∧
      BuildOutcome fs "a.arch" config (build fs "a.arch" config) := by
  intro text fs
  have hconfig : RunConfig.ofValue fs RunConfig.memoryPath (.mapping
      [(.string "num_blocks", .int 10), (.string "num_pads", .int 16),
        (.string "echo_file", .string "a.echo")]) = .ok
        { routing := .global, sizing := { numBlocks := 10, numPads := 16 }
          echoFile := some (.ofString "a.echo") } := toOption_ok.1 (by decide +kernel)
  have hread : fs.readBytes (.ofString "a.arch") = .ok text.toUTF8 := rfl
  have hlen : (String.ofList (Text.unifyLineEnds text.toList)).length ≤ Cells.maxInteger := by
    decide +kernel
  refine ⟨_, hconfig, build_outcome hconfig fun text' htext' => ?_⟩
  rwa [← Except.ok.inj ((readText_of_readBytes hread).symm.trans htext')]

/-- A number of blocks that the schema allows is too large to be divided, and the fault of that
escapes. -/
theorem build_escapes :
    let text := "io_rat 4\nchan_width_io 1.0\nchan_width_x uniform 1.0\n" ++
      "chan_width_y uniform 1.0\noutpin class: 0 top\ninpin class: 1 bottom\n" ++
      "subblocks_per_cluster 4\nsubblock_lut_size 4\n"
    let fs : FileSystem := ⟨["w"], [(["w", "a.arch"], .file text.toUTF8 true)]⟩
    ∃ config, RunConfig.ofValue fs RunConfig.memoryPath (.mapping
        [(.string "num_blocks", .int (10 ^ 400)), (.string "num_pads", .int 0)]) = .ok config ∧
      build fs "a.arch" config = (.error (.escaped (.grid (.number .integerTooLarge))), fs) := by
  intro text fs
  have hconfig : RunConfig.ofValue fs RunConfig.memoryPath (.mapping
      [(.string "num_blocks", .int (10 ^ 400)), (.string "num_pads", .int 0)]) = .ok
        { routing := .global, sizing := { numBlocks := .number (10 ^ 400), numPads := 0 } } :=
    toOption_ok.1 (by decide +kernel)
  refine ⟨_, hconfig, ?_⟩
  have hread : fs.readBytes (.ofString "a.arch") = .ok text.toUTF8 := rfl
  have hioRat : ((parseText (String.ofList (Text.unifyLineEnds text.toList)) "a.arch"
      .global).toOption.map Description.ioRat) = some 4 := by decide +kernel
  obtain ⟨a, ha, hioRat⟩ := Option.map_eq_some_iff.1 hioRat
  have hparse : parseFile fs (.ofString "a.arch") .global = .ok a := by
    rw [parseFile_of_ofFile (ofFile_of_readBytes hread)]
    exact mapError_ok.2 (toOption_ok.1 ha)
  have hsize : ({ numBlocks := .number (10 ^ 400), numPads := 0 } : Sizing).layout 4 =
      .error (.number .integerTooLarge) := by decide +kernel
  have hprepare := @prepare_of_parse fs "a.arch"
    { routing := .global, sizing := { numBlocks := .number (10 ^ 400), numPads := 0 } } a hparse
  rw [hioRat, hsize] at hprepare
  exact buildWith_of_unprepared hprepare

end Fabric
