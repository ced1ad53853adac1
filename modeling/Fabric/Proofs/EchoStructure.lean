import Fabric.Proofs.Atomicity
import Fabric.Proofs.ReportLines

/-!
# What an echo report determines

Two descriptions with one echo report have the same structure: the same numbers, pins, classes and
profiles of channels (`parseText_echo_determines`). Only real values may differ, as they are shown
with six digits. The report is cut into its lines, a table is read up to the empty line after it,
and a row is cut at its tabs; what then stands in the cells is the numeral of one integer only.
-/

namespace Fabric

open Text (IsUnbroken IsWord)

/-! ## Texts put together -/

namespace Text

/-- Parts that do not hold the separator between them are known from the text put together. -/
theorem intercalate_inj {sep : String} {c : Char} (hsep : sep.toList = [c]) {xs ys : List String}
    (hxs : ∀ x ∈ xs, c ∉ x.toList) (hys : ∀ y ∈ ys, c ∉ y.toList) (hne : xs ≠ []) (hne' : ys ≠ [])
    (h : sep.intercalate xs = sep.intercalate ys) : xs = ys := by
  have hsplit : ∀ {parts : List String}, (∀ part ∈ parts, c ∉ part.toList) → parts ≠ [] →
      (sep.intercalate parts).toList.splitOn c = parts.map String.toList := by
    intro parts hparts hne
    rw [String.toList_intercalate, hsep]
    refine List.splitOn_intercalate c ?_ (by simpa using hne)
    intro part hpart
    obtain ⟨text, htext, rfl⟩ := List.mem_map.1 hpart
    exact hparts text htext
  have heq := congrArg (fun text : String => text.toList.splitOn c) h
  simp only [hsplit hxs hne, hsplit hys hne'] at heq
  exact List.map_injective_iff.2 (fun _ _ => String.toList_inj.1) heq

/-- Parts that are put together within the last part are parts of the whole. -/
theorem intercalate_nested (sep : String) (xs : List String) {ys : List String} (hne : ys ≠ []) :
    sep.intercalate (xs ++ [sep.intercalate ys]) = sep.intercalate (xs ++ ys) := by
  obtain ⟨y, ys, rfl⟩ := List.exists_cons_of_ne_nil hne
  induction xs with
  | nil => simp
  | cons x xs ih => cases xs <;> simp_all

theorem IsUnbroken.notMem_newline {text : String} (h : IsUnbroken text) : '\n' ∉ text.toList :=
  fun hmem => by cases h _ hmem

theorem IsWord.notMem_tab {text : String} (h : IsWord text) : '\t' ∉ text.toList :=
  fun hmem => by cases h.plain _ hmem

end Text

/-- What stands before a mark is known if the mark is in neither part. -/
theorem append_mark_inj {α : Type} {mark : α} {xs ys xs' ys' : List α} (hxs : mark ∉ xs)
    (hys : mark ∉ ys) (h : xs ++ mark :: xs' = ys ++ mark :: ys') : xs = ys ∧ xs' = ys' := by
  rcases List.append_eq_append_iff.1 h with ⟨between, rfl, htail⟩ | ⟨between, rfl, htail⟩ <;>
    cases between with
    | nil => simp_all
    | cons first rest => simp_all

/-! ## Integers -/

namespace WriteFault

theorem integer_eq_ok {n : Int} {text : String} :
    integer n = .ok text ↔ Numeral.isWritable n = true ∧ text = Numeral.text n := by
  unfold integer Value.intText Numeral.text?
  by_cases h : Numeral.isWritable n = true
  · rw [if_pos h]
    exact ⟨fun heq => ⟨h, (Except.ok.inj heq).symm⟩, fun heq => congrArg Except.ok heq.2.symm⟩
  · rw [if_neg h]
    exact iff_of_false (fun heq => by cases heq) fun heq => h heq.1

/-- A numeral is written for one integer only. -/
theorem integer_inj {m n : Int} {text : String} (hm : integer m = .ok text)
    (hn : integer n = .ok text) : m = n := by
  obtain ⟨hwritable, htext⟩ := integer_eq_ok.1 hm
  obtain ⟨hwritable', htext'⟩ := integer_eq_ok.1 hn
  have hread := Numeral.read?_text hwritable
  rw [← htext, htext', Numeral.read?_text hwritable'] at hread
  exact (Option.some.inj hread).symm

theorem isWord_integer {n : Int} {text : String} (h : integer n = .ok text) : IsWord text :=
  (integer_eq_ok.1 h).2 ▸ Numeral.isWord_text n

end WriteFault

/-! ## Rows -/

theorem Sides.ext_contains {s t : Sides} (h : ∀ side, s.contains side = t.contains side) :
    s = t := by
  cases s
  cases t
  exact Sides.mk.injEq .. ▸ ⟨h .top, h .bottom, h .left, h .right⟩

namespace Description

/-- Words are known from their row, as a tab is a blank. -/
theorem row_inj {xs ys : List String} (hxs : ∀ x ∈ xs, IsWord x) (hys : ∀ y ∈ ys, IsWord y)
    (hne : xs ≠ []) (hne' : ys ≠ []) (h : row xs = row ys) : xs = ys :=
  Text.intercalate_inj rfl (fun x hx => (hxs x hx).notMem_tab) (fun y hy => (hys y hy).notMem_tab)
    hne hne' h

/-- The cells of a pin's row. -/
def pinCells (pin : Pin) (index classId : String) : List String :=
  index :: classId ::
    (Vocabulary.all (α := Side)).map fun side => if pin.sides.contains side then "1" else "0"

theorem echoPin_eq_ok {pin : Pin} {line : String} : echoPin pin = .ok line ↔
    ∃ index classId, WriteFault.integer pin.index = .ok index ∧
      WriteFault.integer pin.classId = .ok classId ∧ line = row (pinCells pin index classId) := by
  unfold echoPin
  simp only [except_bind_ok, except_pure_ok]
  constructor
  · rintro ⟨index, hindex, classId, hclass, rfl⟩
    exact ⟨index, classId, hindex, hclass, rfl⟩
  · rintro ⟨index, classId, hindex, hclass, rfl⟩
    exact ⟨index, hindex, classId, hclass, rfl⟩

theorem isWord_pinCells {pin : Pin} {index classId : String}
    (hindex : WriteFault.integer pin.index = .ok index)
    (hclass : WriteFault.integer pin.classId = .ok classId) :
    ∀ cell ∈ pinCells pin index classId, IsWord cell := by
  have hflag : ∀ side, IsWord (if pin.sides.contains side then "1" else "0") := by
    intro side
    split <;> decide
  unfold pinCells
  simp only [List.forall_mem_cons, List.forall_mem_map]
  exact ⟨WriteFault.isWord_integer hindex, WriteFault.isWord_integer hclass,
    fun side _ => hflag side⟩

/-- A row shows one pin only. -/
theorem echoPin_inj {pin pin' : Pin} {line : String} (h : echoPin pin = .ok line)
    (h' : echoPin pin' = .ok line) : pin = pin' := by
  obtain ⟨index, classId, hindex, hclass, rfl⟩ := echoPin_eq_ok.1 h
  obtain ⟨index', classId', hindex', hclass', hrow⟩ := echoPin_eq_ok.1 h'
  have hcells := row_inj (isWord_pinCells hindex hclass) (isWord_pinCells hindex' hclass')
    (List.cons_ne_nil _ _) (List.cons_ne_nil _ _) hrow
  simp only [pinCells, List.cons.injEq, List.map_inj_left] at hcells
  obtain ⟨rfl, rfl, hflags⟩ := hcells
  have hsides : pin.sides = pin'.sides := Sides.ext_contains fun side => by
    have hflag := hflags side (Vocabulary.Lawful.mem_all side)
    revert hflag
    cases pin.sides.contains side <;> cases pin'.sides.contains side <;> decide
  have hpin := WriteFault.integer_inj hindex hindex'
  have hclass := WriteFault.integer_inj hclass hclass'
  cases pin
  cases pin'
  simp_all

/-- Cells hold the numerals of integers. -/
abbrev Numerals (numbers : List Int) (cells : List String) : Prop :=
  List.Forall₂ (fun number cell => WriteFault.integer number = .ok cell) numbers cells

theorem echoClass_eq_ok {c : PinClass} {line : String} : echoClass c = .ok line ↔
    ∃ id size members direction, WriteFault.integer c.id = .ok id ∧
      WriteFault.integer c.members.length = .ok size ∧ Numerals c.members members ∧
      c.direction = some direction ∧ line = row [id, direction.label, size, row members] := by
  unfold echoClass
  simp only [except_bind_ok, mapM_ok]
  constructor
  · rintro ⟨members, hmembers, id, hid, h⟩
    split at h
    · cases h
    · rename_i direction hdirection
      obtain ⟨size, hsize, h⟩ := except_bind_ok.1 h
      exact ⟨id, size, members, direction, hid, hsize, hmembers, hdirection,
        (Except.ok.inj h).symm⟩
  · rintro ⟨id, size, members, direction, hid, hsize, hmembers, hdirection, rfl⟩
    refine ⟨members, hmembers, id, hid, ?_⟩
    rw [hdirection]
    exact except_bind_ok.2 ⟨size, hsize, rfl⟩

/-- The row of a class with pins has one cell for each of them after its first three cells. -/
theorem echoClass_cells {c : PinClass} {line : String} (hne : c.members ≠ [])
    (h : echoClass c = .ok line) : ∃ id size members direction,
      WriteFault.integer c.id = .ok id ∧ Numerals c.members members ∧
        c.direction = some direction ∧ line = row (id :: direction.label :: size :: members) ∧
          ∀ cell ∈ id :: direction.label :: size :: members, IsWord cell := by
  obtain ⟨id, size, members, direction, hid, hsize, hmembers, hdirection, rfl⟩ :=
    echoClass_eq_ok.1 h
  have hne' : members ≠ [] := by
    rintro rfl
    exact hne (List.forall₂_nil_right_iff.1 hmembers)
  have hlabel : IsWord direction.label := by
    cases direction <;> decide
  refine ⟨id, size, members, direction, hid, hmembers, hdirection,
    Text.intercalate_nested "\t" [id, direction.label, size] hne', ?_⟩
  simp only [List.forall_mem_cons]
  refine ⟨WriteFault.isWord_integer hid, hlabel, WriteFault.isWord_integer hsize,
    fun cell hcell => ?_⟩
  obtain ⟨member, -, hmember⟩ := exists_of_mem_right hmembers hcell
  exact WriteFault.isWord_integer hmember

/-- A row shows one class with pins only. -/
theorem echoClass_inj {c c' : PinClass} {line : String} (hne : c.members ≠ [])
    (hne' : c'.members ≠ []) (h : echoClass c = .ok line) (h' : echoClass c' = .ok line) :
    c = c' := by
  obtain ⟨id, size, members, direction, hid, hmembers, hdirection, rfl, hcells⟩ :=
    echoClass_cells hne h
  obtain ⟨id', size', members', direction', hid', hmembers', hdirection', hrow, hcells'⟩ :=
    echoClass_cells hne' h'
  have heq := row_inj hcells hcells' (List.cons_ne_nil _ _) (List.cons_ne_nil _ _) hrow
  simp only [List.cons.injEq] at heq
  obtain ⟨rfl, hlabel, -, rfl⟩ := heq
  have hsame : direction = direction' := by
    cases direction <;> cases direction' <;> first | rfl | exact absurd hlabel (by decide)
  have hid_eq := WriteFault.integer_inj hid hid'
  have hunique : Relator.LeftUnique fun (n : Int) (cell : String) =>
      WriteFault.integer n = .ok cell := fun _ _ _ => WriteFault.integer_inj
  have hmembers_eq := List.left_unique_forall₂' hunique hmembers hmembers'
  cases c
  cases c'
  simp_all

theorem isUnbroken_row {cells : List String} (h : ∀ cell ∈ cells, IsWord cell) :
    IsUnbroken (row cells) :=
  .intercalate (by decide) fun cell hcell => (h cell hcell).isUnbroken

theorem row_ne_empty {cell : String} (h : cell ≠ "") (cells : List String) :
    row (cell :: cells) ≠ "" := by
  cases cells <;> simp_all [row]

end Description

/-! ## Channels -/

namespace Channel

/-- The line of a channel in the echo report. -/
def typeLine (c : Channel Binary64) : String :=
  "type: " ++ c.profile.label ++ "  peak: " ++ c.peak.briefText ++ "  width: " ++
    c.width.briefText ++ "  xpeak: " ++ c.xpeak.briefText ++ "  dc: " ++ c.dc.briefText

theorem echoLines_eq (name : String) (c : Channel Binary64) :
    c.echoLines name = .ok [name ++ ":", c.typeLine, ""] := rfl

theorem isUnbroken_typeLine (c : Channel Binary64) : IsUnbroken c.typeLine := by
  have hbrief := Binary64.isUnbroken_briefText
  have hlabel : IsUnbroken c.profile.label := by cases c.profile <;> exact .ofList (by decide)
  exact .append (.append (.append (.append (.append (.append (.append (.append (.append
    (.ofList (by decide)) hlabel) (.ofList (by decide))) (hbrief _)) (.ofList (by decide)))
    (hbrief _)) (.ofList (by decide))) (hbrief _)) (.ofList (by decide))) (hbrief _)

/-- No two profiles have labels that begin alike. -/
theorem profile_eq_of_typeLine {c c' : Channel Binary64} (h : c.typeLine = c'.typeLine) :
    c.profile = c'.profile := by
  unfold typeLine at h
  simp only [String.append_assoc] at h
  have hlabel := congrArg (fun text : String => text.toList.head?) ((String.append_right_inj _).1 h)
  cases hc : c.profile <;> cases hc' : c'.profile <;>
    first | rfl | (simp only [hc, hc', Profile.label, String.toList_append] at hlabel; cases hlabel)

end Channel

namespace Description

/-! ## Lines -/

/-- What an echo report shows between its fixed texts: numerals, whole lines and rows. -/
structure EchoFill where
  ioRat : String
  width : String
  chanX : String
  chanY : String
  pins : List String
  classes : List String
  subblocks : String
  lutSize : String
  detailed : List String

namespace EchoFill

/-- The lines of an echo report after the first. -/
def lines (e : EchoFill) : List String :=
  "" :: ("io_rat: " ++ e.ioRat ++ ".") :: e.width :: "" ::
    (Field.chanWidthX.keyword ++ ":") :: e.chanX :: "" ::
    (Field.chanWidthY.keyword ++ ":") :: e.chanY :: "" ::
    row ("Pin #" :: "class" :: Vocabulary.words Side) :: (e.pins ++ "" ::
      row ["Class", "Type", "Numpins", "Pins"] :: (e.classes ++ "" ::
        ("subblocks_per_cluster (maximum): " ++ e.subblocks) ::
        ("subblock_lut_size: " ++ e.lutSize) :: e.detailed))

/-- A report that is filled so is one of a description. -/
structure Shows (e : EchoFill) (a : Description Binary64) : Prop where
  ioRat : WriteFault.integer a.ioRat = .ok e.ioRat
  width : IsUnbroken e.width
  chanX : e.chanX = a.chanX.typeLine
  chanY : e.chanY = a.chanY.typeLine
  pins : List.Forall₂ (fun pin line => echoPin pin = .ok line) a.pins e.pins
  classes : List.Forall₂ (fun c line => echoClass c = .ok line) a.classes e.classes
  subblocks : WriteFault.integer a.subblocksPerCluster = .ok e.subblocks
  lutSize : WriteFault.integer a.subblockLutSize = .ok e.lutSize
  detailed : ∀ line ∈ e.detailed, IsUnbroken line

end EchoFill

variable {a : Description Binary64} {file : String} {routing : Routing}

theorem isUnbroken_echoDetailed {r : DetailedRouting Binary64} {lines : List String}
    (h : echoDetailed r = .ok lines) : ∀ line ∈ lines, IsUnbroken line := by
  have hbrief := Binary64.isUnbroken_briefText
  have hlabel : IsUnbroken r.switchBlock.label := by
    cases r.switchBlock <;> exact .ofList (by decide)
  rw [← Except.ok.inj h]
  simp only [List.forall_mem_cons]
  refine ⟨by decide, ?_, ?_, ?_, List.forall_mem_nil _⟩
  · cases r.fcMeasure <;> exact .ofList (by decide)
  · exact .append (.append (.append (.append (.append (.append (.ofList (by decide)) (hbrief _))
      (.ofList (by decide))) (hbrief _)) (.ofList (by decide))) (hbrief _)) (.ofList (by decide))
  · exact .append (.append (.ofList (by decide)) hlabel) (.ofList (by decide))

/-- Every echo report is one of its lines, filled in. -/
theorem exists_fill {lines : List String} (h : a.echoLines file routing = .ok lines) :
    ∃ e : EchoFill, e.Shows a ∧ lines = ("Input architecture file: " ++ file) :: e.lines := by
  unfold echoLines at h
  simp only [except_bind_ok, brief_ok, Channel.echoLines_eq, mapM_ok, Except.ok.injEq,
    exists_eq_left'] at h
  obtain ⟨ioRat, hioRat, pins, hpins, classes, hclasses, subblocks, hsubblocks, lutSize, hlutSize,
    h⟩ := h
  let fill : List String → EchoFill := fun detailed =>
    { ioRat, pins, classes, subblocks, lutSize, detailed
      width := "chan_width_io: " ++ a.chanWidthIo.briefText ++
        "  pins_per_clb (pins per clb): " ++ Numeral.text a.pinsPerBlock
      chanX := a.chanX.typeLine
      chanY := a.chanY.typeLine }
  obtain ⟨detailed, hdetailed, hlines⟩ : ∃ detailed, (∀ line ∈ detailed, IsUnbroken line) ∧
      lines = ("Input architecture file: " ++ file) :: (fill detailed).lines := by
    split at h
    · obtain ⟨detailed, hdetailed, h⟩ := except_bind_ok.1 h
      refine ⟨detailed, isUnbroken_echoDetailed hdetailed, ?_⟩
      rw [← Except.ok.inj h]
      simp [EchoFill.lines, fill]
    · obtain ⟨detailed, hdetailed, h⟩ := except_bind_ok.1 h
      cases hdetailed
      refine ⟨[], List.forall_mem_nil _, ?_⟩
      rw [← Except.ok.inj h]
      simp [EchoFill.lines, fill]
  refine ⟨fill detailed, ?_, hlines⟩
  have hwidth : IsUnbroken (fill detailed).width := .append (.append (.append (.ofList (by decide))
    (Binary64.isUnbroken_briefText _)) (.ofList (by decide))) (Numeral.isWord_text _).isUnbroken
  exact ⟨hioRat, hwidth, rfl, rfl, hpins, hclasses, hsubblocks, hlutSize, hdetailed⟩

namespace EchoFill

/-- The rows of the tables are unbroken, and none of them is empty. -/
theorem Shows.rows {e : EchoFill} (h : e.Shows a) (hmembers : ∀ c ∈ a.classes, c.members ≠ []) :
    (∀ line ∈ e.pins, IsUnbroken line ∧ line ≠ "") ∧
      ∀ line ∈ e.classes, IsUnbroken line ∧ line ≠ "" := by
  constructor
  · intro line hline
    obtain ⟨pin, -, hpin⟩ := exists_of_mem_right h.pins hline
    obtain ⟨index, classId, hindex, hclass, rfl⟩ := echoPin_eq_ok.1 hpin
    have hcells := isWord_pinCells hindex hclass
    exact ⟨isUnbroken_row hcells, row_ne_empty (hcells _ List.mem_cons_self).ne_empty _⟩
  · intro line hline
    obtain ⟨c, hc, hline⟩ := exists_of_mem_right h.classes hline
    obtain ⟨id, size, members, direction, -, -, -, rfl, hcells⟩ :=
      echoClass_cells (hmembers c hc) hline
    exact ⟨isUnbroken_row hcells, row_ne_empty (hcells _ List.mem_cons_self).ne_empty _⟩

theorem Shows.isUnbroken {e : EchoFill} (h : e.Shows a)
    (hmembers : ∀ c ∈ a.classes, c.members ≠ []) : ∀ line ∈ e.lines, IsUnbroken line := by
  obtain ⟨hpins, hclasses⟩ := h.rows hmembers
  have hnumeral : ∀ {n : Int} {text : String}, WriteFault.integer n = .ok text → IsUnbroken text :=
    fun hn => (WriteFault.isWord_integer hn).isUnbroken
  have hioRat : IsUnbroken ("io_rat: " ++ e.ioRat ++ ".") :=
    .append (.append (.ofList (by decide)) (hnumeral h.ioRat)) (.ofList (by decide))
  have hsubblocks : IsUnbroken ("subblocks_per_cluster (maximum): " ++ e.subblocks) :=
    .append (.ofList (by decide)) (hnumeral h.subblocks)
  have hlutSize : IsUnbroken ("subblock_lut_size: " ++ e.lutSize) :=
    .append (.ofList (by decide)) (hnumeral h.lutSize)
  have hchanX : IsUnbroken e.chanX := h.chanX ▸ a.chanX.isUnbroken_typeLine
  have hchanY : IsUnbroken e.chanY := h.chanY ▸ a.chanY.isUnbroken_typeLine
  unfold lines
  simp only [List.forall_mem_cons, List.forall_mem_append]
  exact ⟨by decide, hioRat, h.width, by decide, by decide, hchanX, by decide, by decide, hchanY,
    by decide, by decide, fun line hline => (hpins line hline).1, by decide, by decide,
    fun line hline => (hclasses line hline).1, by decide, hsubblocks, hlutSize, h.detailed⟩

/-- What fills lines is known from them: each table ends at the first empty line after it. -/
theorem lines_inj {e e' : EchoFill} (hpins : "" ∉ e.pins) (hpins' : "" ∉ e'.pins)
    (hclasses : "" ∉ e.classes) (hclasses' : "" ∉ e'.classes) (h : e.lines = e'.lines) :
    e = e' := by
  unfold lines at h
  simp only [List.cons.injEq, true_and] at h
  obtain ⟨hioRat, hwidth, hchanX, hchanY, htables⟩ := h
  obtain ⟨hpins_eq, htables⟩ := append_mark_inj hpins hpins' htables
  obtain ⟨hclasses_eq, hlast⟩ := append_mark_inj hclasses hclasses' (List.cons.inj htables).2
  simp only [List.cons.injEq] at hlast
  obtain ⟨hsubblocks, hlutSize, hdetailed⟩ := hlast
  have hioRat := (String.append_right_inj _).1 ((String.append_left_inj _).1 hioRat)
  have hsubblocks := (String.append_right_inj _).1 hsubblocks
  have hlutSize := (String.append_right_inj _).1 hlutSize
  cases e
  cases e'
  simp_all

end EchoFill

/-- Two descriptions agree in all but their real values. -/
structure SameStructure (a b : Description Binary64) : Prop where
  ioRat : a.ioRat = b.ioRat
  pins : a.pins = b.pins
  classes : a.classes = b.classes
  chanX : a.chanX.profile = b.chanX.profile
  chanY : a.chanY.profile = b.chanY.profile
  subblocksPerCluster : a.subblocksPerCluster = b.subblocksPerCluster
  subblockLutSize : a.subblockLutSize = b.subblockLutSize

/-- A filled report shows one structure only. -/
theorem EchoFill.Shows.sameStructure {e : EchoFill} {b : Description Binary64} (ha : e.Shows a)
    (hb : e.Shows b) (hmembers : ∀ c ∈ a.classes, c.members ≠ [])
    (hmembers' : ∀ c ∈ b.classes, c.members ≠ []) : a.SameStructure b where
  ioRat := WriteFault.integer_inj ha.ioRat hb.ioRat
  pins := by
    have hunique : Relator.LeftUnique fun (pin : Pin) (line : String) => echoPin pin = .ok line :=
      fun _ _ _ => echoPin_inj
    exact List.left_unique_forall₂' hunique ha.pins hb.pins
  classes := by
    have hunique : Relator.LeftUnique fun (c : PinClass) (line : String) =>
        c.members ≠ [] ∧ echoClass c = .ok line :=
      fun _ _ _ h h' => echoClass_inj h.1 h'.1 h.2 h'.2
    exact List.left_unique_forall₂' hunique ((List.forall₂_and_left _ _).2 ⟨hmembers, ha.classes⟩)
      ((List.forall₂_and_left _ _).2 ⟨hmembers', hb.classes⟩)
  chanX := Channel.profile_eq_of_typeLine (ha.chanX.symm.trans hb.chanX)
  chanY := Channel.profile_eq_of_typeLine (ha.chanY.symm.trans hb.chanY)
  subblocksPerCluster := WriteFault.integer_inj ha.subblocks hb.subblocks
  subblockLutSize := WriteFault.integer_inj ha.lutSize hb.lutSize

/-- Descriptions whose classes have pins have one report only if they have one structure. -/
theorem sameStructure_of_echo {b : Description Binary64} {report : String}
    (hmembers : ∀ c ∈ a.classes, c.members ≠ []) (hmembers' : ∀ c ∈ b.classes, c.members ≠ [])
    (ha : a.echo file routing = .ok report) (hb : b.echo file routing = .ok report) :
    a.SameStructure b := by
  obtain ⟨linesA, hlinesA, htextA⟩ := except_bind_ok.1 ha
  obtain ⟨linesB, hlinesB, htextB⟩ := except_bind_ok.1 hb
  obtain ⟨e, hshows, rfl⟩ := exists_fill hlinesA
  obtain ⟨e', hshows', rfl⟩ := exists_fill hlinesB
  have hcut : ∀ (e : EchoFill) (first : String), "\n".intercalate (first :: e.lines) =
      first ++ "\n" ++ "\n".intercalate e.lines := fun e first => String.intercalate_cons_cons
  have htext := (String.append_left_inj _).1 (Except.ok.inj (htextA.trans htextB.symm))
  rw [hcut, hcut] at htext
  -- The first line names the file, which may have line ends of its own; it is the same in both.
  have hlines : e.lines = e'.lines := Text.intercalate_inj rfl
    (fun line hline => (hshows.isUnbroken hmembers line hline).notMem_newline)
    (fun line hline => (hshows'.isUnbroken hmembers' line hline).notMem_newline)
    (List.cons_ne_nil _ _) (List.cons_ne_nil _ _) ((String.append_right_inj _).1 htext)
  have hrows := hshows.rows hmembers
  have hrows' := hshows'.rows hmembers'
  have hfill : e = e' := EchoFill.lines_inj (fun h => (hrows.1 _ h).2 rfl)
    (fun h => (hrows'.1 _ h).2 rfl) (fun h => (hrows.2 _ h).2 rfl)
    (fun h => (hrows'.2 _ h).2 rfl) hlines
  exact (hfill ▸ hshows : e'.Shows a).sameStructure hshows' hmembers hmembers'

theorem WellFormed.members_ne {a : Description Binary64} (h : a.WellFormed) :
    ∀ c ∈ a.classes, c.members ≠ [] := by
  intro c hc
  obtain ⟨i, hi⟩ := List.getElem?_of_mem hc
  exact (h.pinClass i c hi).2.2.1

end Description

open Description in
/-- The echo report of a description that was read is written, and it determines the structure of
the description. -/
theorem parseText_echo_determines {text text' source source' : String} {routing routing' : Routing}
    {a b : Description Binary64} (ha : parseText text source routing = .ok a)
    (hb : parseText text' source' routing' = .ok b) (file : String) (mode : Routing) :
    (∃ report, a.echo file mode = .ok report) ∧
      (a.echo file mode = b.echo file mode → a.SameStructure b) := by
  have hwell := wellFormed_of_parse ha
  have hwell' := wellFormed_of_parse hb
  obtain ⟨report, hreport⟩ := hwell.echo_ok (pins_le_of_parse ha) file mode
  refine ⟨⟨report, hreport⟩, fun hsame => ?_⟩
  exact sameStructure_of_echo hwell.members_ne hwell'.members_ne hreport (hsame ▸ hreport)

/-- Two widths that agree in six digits are echoed alike, and all else is the same. -/
theorem echo_two_widths : ∃ a b,
    parseText ("io_rat 2\nchan_width_io 1\nchan_width_x uniform 1\nchan_width_y uniform 1\n" ++
      "outpin class: 0 top\nsubblocks_per_cluster 1\nsubblock_lut_size 4") "one" .global = .ok a ∧
    parseText ("io_rat 2\nchan_width_io 1.0000001\nchan_width_x uniform 1\n" ++
      "chan_width_y uniform 1\noutpin class: 0 top\nsubblocks_per_cluster 1\n" ++
      "subblock_lut_size 4") "two" .global = .ok b ∧
    a.chanWidthIo ≠ b.chanWidthIo ∧ (∃ report, a.echo "widths" .global = .ok report) ∧
      a.echo "widths" .global = b.echo "widths" .global ∧ a.SameStructure b := by
  generalize ha : parseText _ "one" .global = one
  generalize hb : parseText _ "two" .global = two
  have hboth : (one.toOption.bind fun a => two.toOption.map fun b => decide
      (a.chanWidthIo ≠ b.chanWidthIo ∧ a.echo "widths" .global = b.echo "widths" .global)) =
        some true := by
    rw [← ha, ← hb]
    decide +kernel
  cases one with
  | error e => cases hboth
  | ok a =>
    cases two with
    | error e => cases hboth
    | ok b =>
      obtain ⟨hdiffer, hecho⟩ := of_decide_eq_true (Option.some.inj hboth)
      obtain ⟨hreport, hstructure⟩ := parseText_echo_determines ha hb "widths" .global
      exact ⟨a, b, rfl, rfl, hdiffer, hreport, hecho, hstructure hecho⟩

end Fabric
