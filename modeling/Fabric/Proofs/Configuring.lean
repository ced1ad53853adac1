import Fabric.Proofs.FieldDefaults
import Fabric.Proofs.Numerals
import Fabric.Proofs.RoundingOrder
import Fabric.Proofs.RunFindings
import Fabric.Proofs.Vocabulary

/-!
# Which run configurations are accepted

A mapping is accepted exactly if each of its fields, and each field of its grid, holds what it may.
The configuration is then what the fields say, with the defaults for the routing mode and the aspect
ratio, and its sizing passes its own check. In all other cases the error lists the fields that
offend, and no other (`runConfig_of_mapping`).
-/

namespace Fabric

/-! ## What a field may hold -/

namespace Value

/-- A value counts something, at least so much. A truth value counts as one or zero. -/
def IsCount (least : Int) (v : Value) : Prop := ∃ n, v.toInt? = some n ∧ least ≤ n

/-- A value is a ratio: a number above zero that is finite as a real value. -/
def IsRatio : Value → Prop
  | .int n => 0 < n ∧ (Binary64.nearestInt n).isFinite = true
  | .real x => x.isFinite = true ∧ Binary64.zero.lt x = true
  | _ => False

/-- The value that is read as a count. -/
def ofCount : Count → Value
  | .number n => .int n
  | .flag b => .bool b

/-- The real value of a ratio; one if none is given. -/
def ratio : Option Value → Binary64
  | some (.real x) => x
  | some (.int n) => .nearestInt n
  | _ => .nearestInt 1

end Value

namespace RunConfig

/-- What a field of the grid may hold: there are two sizes, and no other field. -/
def GridTakes (name : String) (held : Option Value) : Prop :=
  match name with
  | "width" | "height" => ∃ v ∈ held, v.IsCount 1
  | _ => held = none

/-- What a field may hold; of the grid, only that it is a mapping. -/
def Takes (name : String) (held : Option Value) : Prop :=
  match name with
  | "route_type" => ∀ v ∈ held, v = .null ∨ ∃ mode : Routing, v = .string (Vocabulary.word mode)
  | "aspect_ratio" => ∀ v ∈ held, v = .null ∨ v.IsRatio
  | "grid" => ∀ v ∈ held, ∃ fields, v = .mapping fields
  | "num_blocks" | "num_pads" => ∃ v ∈ held, v.IsCount 0
  | "echo_file" => ∀ v ∈ held, ∃ text, text ≠ "" ∧ v = .string text
  | _ => held = none

/-- Every field of a mapping, and every field of its grid, holds what it may. -/
structure Fits (entries : List (Value × Value)) : Prop where
  fields : ∀ name, Takes name (Value.field? entries name)
  grid : ∀ fields, Value.field? entries "grid" = some (.mapping fields) →
    ∀ name, GridTakes name (Value.field? fields name)

/-- A path names a field that holds what it may not, or such a field of the grid. -/
inductive Offends (entries : List (Value × Value)) : String → Prop where
  | field {name : String} (h : ¬ Takes name (Value.field? entries name)) : Offends entries name
  | grid {fields : List (Value × Value)} {name : String}
      (hgrid : Value.field? entries "grid" = some (.mapping fields))
      (h : ¬ GridTakes name (Value.field? fields name)) : Offends entries ("grid." ++ name)

/-- A configuration is what the fields of a mapping say. -/
structure Reads (entries : List (Value × Value)) (c : RunConfig) : Prop where
  routing : Value.field? entries "route_type" = some (.string (Vocabulary.word c.routing)) ∨
    FlatSchema.takesDefault entries "route_type" = true ∧ c.routing = .global
  numBlocks : Value.field? entries "num_blocks" = some (.ofCount c.sizing.numBlocks)
  numPads : Value.field? entries "num_pads" = some (.ofCount c.sizing.numPads)
  aspectRatio : c.sizing.aspectRatio = .real (Value.ratio (Value.field? entries "aspect_ratio"))
  fixedSize : ∀ width height, c.sizing.fixedSize = some (width, height) ↔
    ∃ fields, Value.field? entries "grid" = some (.mapping fields) ∧
      Value.field? fields "width" = some (.ofCount width) ∧
      Value.field? fields "height" = some (.ofCount height)

end RunConfig

/-! ## The rules say the same -/

namespace FieldRule

variable {v : Value}

theorem accepts_count {least : Int} :
    Accepts { kind := some .integer, least := some least, required := true } v ↔
      v.IsCount least := by
  rw [accepts_iff rfl]
  unfold Value.IsCount
  cases v <;> simp [ValueKind.admits, Value.toInt?]

theorem accepts_ratio {default : Option Value} :
    Accepts { kind := some .number, positive := true, default } v ↔ v.IsRatio := by
  rw [accepts_iff rfl]
  unfold Value.IsRatio
  cases v <;> simp [ValueKind.admits, Value.positivity?, Value.toInt?, and_comm]

theorem accepts_word {α : Type} [Vocabulary α] [Vocabulary.Lawful α] {default : Option Value} :
    Accepts { kind := some .string, oneOf := some (Vocabulary.words α), default } v ↔
      ∃ a : α, v = .string (Vocabulary.word a) := by
  rw [accepts_iff rfl]
  cases v with
  | string s => simpa [ValueKind.admits] using Vocabulary.mem_words
  | _ => simp [ValueKind.admits]

theorem accepts_mapping : Accepts { kind := some .mapping } v ↔ ∃ fields, v = .mapping fields := by
  rw [accepts_iff rfl]
  cases v <;> simp [ValueKind.admits]

theorem accepts_text : Accepts { kind := some .string, nonempty := true } v ↔
    ∃ s, s ≠ "" ∧ v = .string s := by
  rw [accepts_iff rfl]
  cases v <;> simp [ValueKind.admits, Value.isEmpty]

end FieldRule

namespace RunConfig

variable {name : String} {held : Option Value} {v : Value}

theorem gridTakes_iff : GridTakes name held ↔ gridSchema.Takes name held := by
  have hlookup : ∀ rule, gridSchema.lookup name = some rule ↔
      (name = "width" ∨ name = "height") ∧
        rule = { kind := some .integer, least := some 1, required := true } := by
    intro rule
    rw [isPlain_gridSchema.lookup_iff]
    simp [gridSchema, or_and_right]
  unfold FlatSchema.Takes GridTakes
  simp only [hlookup]
  split
  · cases held <;> simp [FieldRule.accepts_count]
  · cases held <;> simp [FieldRule.accepts_count]
  · rename_i hwidth hheight
    have hother : ¬ (name = "width" ∨ name = "height") := not_or.2 ⟨hwidth, hheight⟩
    cases held <;> simp [hother]

theorem isRatio_one : (Value.real (.nearestInt 1)).IsRatio := by
  constructor <;> decide +kernel

theorem filled_eq {rule : FieldRule} {i : Nat} (h : schema[i]? = some (name, rule)) :
    schema.filled name held = rule.filled held := by
  unfold FlatSchema.filled
  rw [isPlain_schema.lookup_iff.2 (List.mem_of_getElem? h)]

/-- What a field may hold is what the rule at its place takes, once the default is filled in. -/
theorem takes_filled {rule : FieldRule} {i : Nat} (h : schema[i]? = some (name, rule)) :
    schema.Takes name (schema.filled name held) ↔ rule.Takes (rule.filled held) := by
  rw [FlatSchema.takes_of_lookup (isPlain_schema.lookup_iff.2 (List.mem_of_getElem? h)),
    filled_eq h]

theorem takes_iff : Takes name held ↔ schema.Takes name (schema.filled name held) := by
  unfold Takes
  split
  · rw [takes_filled (i := 0) rfl,
      FieldRule.takes_filled_default rfl (FieldRule.accepts_word.2 ⟨_, rfl⟩)]
    simp only [FieldRule.accepts_word]
  · rw [takes_filled (i := 1) rfl,
      FieldRule.takes_filled_default rfl (FieldRule.accepts_ratio.2 isRatio_one)]
    simp only [FieldRule.accepts_ratio]
  · rw [takes_filled (i := 2) rfl, FieldRule.takes_filled_optional rfl rfl]
    simp only [FieldRule.accepts_mapping]
  · rw [takes_filled (i := 3) rfl, FieldRule.takes_filled_required rfl rfl]
    simp only [FieldRule.accepts_count]
  · rw [takes_filled (i := 4) rfl, FieldRule.takes_filled_required rfl rfl]
    simp only [FieldRule.accepts_count]
  · rw [takes_filled (i := 5) rfl, FieldRule.takes_filled_optional rfl rfl]
    simp only [FieldRule.accepts_text]
  · rename_i hroute haspect hgrid hblocks hpads hecho
    have hnone : schema.lookup name = none := by
      refine Option.eq_none_iff_forall_ne_some.2 fun rule hrule => ?_
      have hmem := isPlain_schema.lookup_iff.1 hrule
      simp only [schema, List.mem_cons, Prod.mk.injEq, List.not_mem_nil, or_false] at hmem
      tauto
    unfold FlatSchema.Takes FlatSchema.filled
    rw [hnone]
    cases held <;> simp

theorem filled_grid : schema.filled "grid" held = held :=
  (filled_eq (i := 2) rfl).trans (FieldRule.filled_of_none rfl)

/-! ## Defaults of a document -/

variable {entries : List (Value × Value)}

theorem withDefaults_ok (h : IsDocument entries) : IsDocument (schema.withDefaults entries) ∧
    ∀ name, Value.field? (schema.withDefaults entries) name =
      schema.filled name (Value.field? entries name) := by
  have hdefaults : ∀ entry ∈ schema, ∀ value ∈ entry.2.default, value.IsWritable := by
    rintro entry hentry value hvalue n rfl
    have hnone : ∀ entry ∈ schema, entry.2.default ≠ some (.int n) := by simp [schema]
    exact absurd hvalue (hnone entry hentry)
  obtain ⟨hrecord, hfield⟩ :=
    FlatSchema.withDefaults_ok h.toIsRecord isPlain_schema.nodup hdefaults
  refine ⟨⟨hrecord, fun fields hfields => h.grid fields ?_⟩, hfield⟩
  rw [hrecord.mem_iff, hfield, filled_grid] at hfields
  exact h.mem_iff.2 hfields

/-- With the defaults filled in, the schema refuses the fields that offend. -/
theorem refused_iff (h : IsDocument entries) {path : String} :
    Refused (schema.withDefaults entries) path ↔ Offends entries path := by
  obtain ⟨-, hfield⟩ := withDefaults_ok h
  unfold Refused FieldRefused GridRefused
  simp only [hfield, ← takes_iff, ← gridTakes_iff]
  constructor
  · rintro ⟨name, ⟨htakes, rfl⟩ | ⟨sub, ⟨rfl, fields, hgrid, htakes⟩, rfl⟩⟩
    · exact .field htakes
    · rw [filled_grid] at hgrid
      exact .grid hgrid htakes
  · rintro (htakes | ⟨hgrid, htakes⟩)
    · exact ⟨path, .inl ⟨htakes, rfl⟩⟩
    · exact ⟨"grid", .inr ⟨_, ⟨rfl, _, filled_grid.trans hgrid, htakes⟩, rfl⟩⟩

theorem fits_iff : Fits entries ↔ ∀ path, ¬ Offends entries path := by
  constructor
  · rintro h _ (htakes | ⟨hgrid, htakes⟩)
    · exact htakes (h.fields _)
    · exact htakes (h.grid _ hgrid _)
  · intro h
    refine ⟨fun name => ?_, fun fields hgrid name => ?_⟩
    · exact not_not.1 fun htakes => h _ (.field htakes)
    · exact not_not.1 fun htakes => h _ (.grid hgrid htakes)

/-! ## Reading a document that fits -/

variable {fs : FileSystem} {path : Path}

theorem count?_iff {c : Count} :
    count? entries name = some c ↔ Value.field? entries name = some (.ofCount c) := by
  unfold count?
  split
  · rename_i n hfield
    cases c <;> simp [hfield, Value.ofCount]
  · rename_i b hfield
    cases c <;> simp [hfield, Value.ofCount]
  · rename_i hint hbool
    cases c with
    | number n => simpa [Value.ofCount] using hint n
    | flag b => simpa [Value.ofCount] using hbool b

/-- A field that counts something is read as a count, which is no less. -/
theorem exists_count {least : Int} (h : v.IsCount least) :
    ∃ c : Count, v = .ofCount c ∧ least ≤ c.value := by
  obtain ⟨n, hn, hleast⟩ := h
  cases v with
  | int m => exact ⟨.number m, rfl, by cases hn; exact hleast⟩
  | bool b => exact ⟨.flag b, rfl, by cases hn; exact hleast⟩
  | _ => cases hn

/-- The count that a field of a record holds may be written. -/
theorem isWritable_of_field {fields : List (Value × Value)} {c : Count} (h : IsRecord fields)
    (hfield : Value.field? fields name = some (.ofCount c)) :
    Numeral.isWritable c.value = true := by
  have hwritable := h.writable _ (h.mem_iff.2 hfield)
  cases c with
  | number n => exact hwritable n rfl
  | flag b =>
    have hone : Numeral.isWritable ((1 : Nat) : Int) = true :=
      Numeral.isWritable_natCast.2 (Nat.one_lt_pow (by decide) (by decide))
    have hzero : Numeral.isWritable ((0 : Nat) : Int) = true :=
      Numeral.isWritable_natCast.2 (Nat.pow_pos (by decide))
    cases b with
    | true => exact hone
    | false => exact hzero

/-- The empty path leads to the working directory. -/
theorem find?_here : fs.find? { root := "", names := [] } = .ok (some .directory) := by
  have hnode : fs.node? fs.workingDirectory = some .directory := by
    unfold FileSystem.node?
    simp
  have hlocate : fs.locate { root := "", names := [] } = .ok fs.workingDirectory := by
    unfold FileSystem.locate
    rw [if_neg (by decide +kernel)]
    rfl
  have hlookup : fs.lookup { root := "", names := [] } = .ok .directory := by
    refine except_bind_ok.2 ⟨_, hlocate, ?_⟩
    rw [hnode]
    rfl
  unfold FileSystem.find?
  rw [if_neg (by decide +kernel), hlookup]

/-- The directory of a document held in memory is the working directory, which is there. -/
theorem exists?_memoryPath : fs.exists? memoryPath.parent = .ok true := by
  have hparent : memoryPath.parent = { root := "", names := [] } := by decide +kernel
  rw [hparent]
  exact except_bind_ok.2 ⟨_, find?_here, rfl⟩

theorem echoPath_ok (h : ∃ present, fs.exists? path.parent = .ok present) :
    ∃ file, echoPath fs path entries = .ok file := by
  obtain ⟨present, hpresent⟩ := h
  unfold echoPath
  split
  · dsimp only
    split
    · exact ⟨_, rfl⟩
    · rw [hpresent]
      exact ⟨_, rfl⟩
  · exact ⟨none, rfl⟩

theorem exists_routing (h : Fits entries) : ∃ mode : Routing,
    schema.filled "route_type" (Value.field? entries "route_type") =
      some (.string (Vocabulary.word mode)) ∧
    (Value.field? entries "route_type" = some (.string (Vocabulary.word mode)) ∨
      FlatSchema.takesDefault entries "route_type" = true ∧ mode = .global) := by
  rw [filled_eq (i := 0) rfl, FlatSchema.takesDefault_iff]
  have htakes := h.fields "route_type"
  cases hheld : Value.field? entries "route_type" with
  | none => exact ⟨.global, rfl, .inr ⟨.inl rfl, rfl⟩⟩
  | some v =>
    obtain rfl | ⟨mode, rfl⟩ := htakes v hheld
    · exact ⟨.global, rfl, .inr ⟨.inr rfl, rfl⟩⟩
    · exact ⟨mode, rfl, .inl rfl⟩

theorem zero_lt_nearestInt {n : Int} (h : 0 < n) :
    Binary64.zero.lt (Binary64.nearestInt n) = true := by
  have hpos : 0 < (Binary64.Magnitude.nearest n.natAbs 1).units :=
    Nat.lt_of_lt_of_le Binary64.Magnitude.unitsPerOne_pos
      (Binary64.Magnitude.one_le_nearest (Int.natAbs_pos.2 h.ne'))
  have hzero := beq_eq_false_iff_ne.1 (Binary64.Magnitude.isZero_of_units_pos hpos)
  unfold Binary64.nearestInt
  rw [decide_eq_false (not_lt.2 h.le)]
  have hplace : (0 : Int) < (Binary64.Magnitude.nearest n.natAbs 1).ordinal := by omega
  exact decide_eq_true hplace

/-- The ratio that a field gives, or one, is finite and above zero. -/
theorem isRatio_ratio (h : ∀ v ∈ held, v = .null ∨ v.IsRatio) :
    (Value.real (Value.ratio held)).IsRatio := by
  cases held with
  | none => exact isRatio_one
  | some v =>
    obtain rfl | hv := h v rfl
    · exact isRatio_one
    · cases v with
      | int n => exact ⟨hv.2, zero_lt_nearestInt hv.1⟩
      | real x => exact hv
      | _ => cases hv

/-- The aspect ratio of a mapping with its defaults is the ratio that the field gives, or one. -/
theorem aspectRatio_ok {filled : List (Value × Value)}
    (h : ∀ v ∈ held, v = .null ∨ v.IsRatio)
    (hfilled : Value.field? filled "aspect_ratio" = schema.filled "aspect_ratio" held) :
    aspectRatio filled = .ok (Value.ratio held) := by
  rw [filled_eq (i := 1) rfl] at hfilled
  unfold aspectRatio
  rw [hfilled]
  cases held with
  | none => rfl
  | some v =>
    obtain rfl | hv := h v rfl
    · rfl
    · cases v with
      | int n =>
        refine mapError_ok.2 ?_
        unfold Binary64.ofInt
        rw [if_pos hv.2]
        rfl
      | real x => rfl
      | _ => cases hv

theorem fixedSize?_iff {width height : Count} : fixedSize? entries = some (width, height) ↔
    ∃ fields, Value.field? entries "grid" = some (.mapping fields) ∧
      Value.field? fields "width" = some (.ofCount width) ∧
      Value.field? fields "height" = some (.ofCount height) := by
  unfold fixedSize?
  simp only [← count?_iff]
  split
  · rename_i fields hgrid
    simp only [hgrid, Option.some.injEq, Value.mapping.injEq, exists_eq_left']
    cases count? fields "width" <;> cases count? fields "height" <;> simp
  · rename_i hother
    refine iff_of_false nofun ?_
    rintro ⟨fields, hgrid, -⟩
    exact hother fields hgrid

/-- Counts that are not negative and a ratio pass the check of a sizing. -/
theorem check_of_ratio {s : Sizing} {x : Binary64} (hblocks : 0 ≤ s.numBlocks.value)
    (hpads : 0 ≤ s.numPads.value) (haspect : s.aspectRatio = .real x)
    (hx : (Value.real x).IsRatio) : s.check = .ok () := by
  have hpositive : s.aspectRatio.isPositive = .ok true := by
    rw [haspect]
    exact congrArg Except.ok (Bool.and_eq_true_iff.2 hx)
  unfold Sizing.check
  rw [if_neg (not_or.2 ⟨not_lt.2 hblocks, not_lt.2 hpads⟩)]
  exact except_bind_ok.2 ⟨true, mapError_ok.2 hpositive, rfl⟩

/-- What is read from a document may be written again. -/
theorem isWritable_of_reads {c : RunConfig} (hentries : IsDocument entries) (h : Reads entries c) :
    c.isWritable = true := by
  refine List.all_eq_true.2 fun count hcount => ?_
  unfold counts at hcount
  obtain rfl | rfl | hcount := by simpa only [List.mem_cons] using hcount
  · exact isWritable_of_field hentries.toIsRecord h.numBlocks
  · exact isWritable_of_field hentries.toIsRecord h.numPads
  · split at hcount
    · rename_i width height hfixed
      obtain ⟨fields, hgrid, hwidth, hheight⟩ := (h.fixedSize width height).1 hfixed
      have hfields := hentries.grid fields (hentries.mem_iff.2 hgrid)
      obtain rfl | rfl := by simpa using hcount
      · exact isWritable_of_field hfields hwidth
      · exact isWritable_of_field hfields hheight
    · cases hcount

/-- A mapping that fits is read, and what is read passes the check of its sizing. -/
theorem ofFitting_ok (hentries : IsDocument entries) (h : Fits entries)
    (hpath : ∃ present, fs.exists? path.parent = .ok present) :
    ∃ c, ofFitting fs path (schema.withDefaults entries) = .ok c ∧ Reads entries c ∧
      c.sizing.check = .ok () := by
  obtain ⟨-, hfield⟩ := withDefaults_ok hentries
  obtain ⟨mode, hmode, hroute⟩ := exists_routing h
  obtain ⟨_, hblocks, hcount⟩ := h.fields "num_blocks"
  obtain ⟨blocks, rfl, hblocks_le⟩ := exists_count hcount
  obtain ⟨_, hpads, hcount⟩ := h.fields "num_pads"
  obtain ⟨pads, rfl, hpads_le⟩ := exists_count hcount
  obtain ⟨file, hfile⟩ : ∃ file, echoPath fs path (schema.withDefaults entries) = .ok file :=
    echoPath_ok hpath
  have hratio := aspectRatio_ok (h.fields "aspect_ratio") (hfield _)
  let c : RunConfig := {
    routing := mode
    sizing := {
      numBlocks := blocks
      numPads := pads
      aspectRatio := .real (Value.ratio (Value.field? entries "aspect_ratio"))
      fixedSize := fixedSize? entries }
    echoFile := file }
  have hreads : Reads entries c := ⟨hroute, hblocks, hpads, rfl, fun _ _ => fixedSize?_iff⟩
  have hcheck : c.sizing.check = .ok () :=
    check_of_ratio hblocks_le hpads_le rfl (isRatio_ratio (h.fields "aspect_ratio"))
  have hkept : ∀ (name : String) (i : Nat) (rule : FieldRule), schema[i]? = some (name, rule) →
      rule.default = none →
        Value.field? (schema.withDefaults entries) name = Value.field? entries name := by
    intro name i rule hrule hdefault
    rw [hfield, filled_eq hrule, FieldRule.filled_of_none hdefault]
  have hblocks' := count?_iff.2 ((hkept "num_blocks" 3 _ rfl rfl).trans hblocks)
  have hpads' := count?_iff.2 ((hkept "num_pads" 4 _ rfl rfl).trans hpads)
  have hfixed : fixedSize? (schema.withDefaults entries) = fixedSize? entries := by
    unfold fixedSize?
    rw [hkept "grid" 2 _ rfl rfl]
  refine ⟨c, ?_, hreads, hcheck⟩
  unfold ofFitting
  simp only [hfield "route_type", hmode, Vocabulary.find?_eq_some.2 rfl, hfile, hratio, hfixed,
    hblocks', hpads']
  -- All parts are there; what is left is the check and the last refusal.
  iterate 5 refine except_bind_ok.2 ⟨_, rfl, ?_⟩
  refine except_bind_ok.2 ⟨(), mapError_ok.2 hcheck, ?_⟩
  have hrefuses : ¬ (!c.isWritable) = true := by
    rw [isWritable_of_reads hentries hreads]
    decide
  exact if_neg hrefuses

end RunConfig

open RunConfig (IsDocument Fits Reads Offends)

/-- A mapping is accepted exactly if each of its fields, and each field of its grid, holds what it
may. The configuration is then what the fields say, and its sizing passes its own check. In all
other cases the mapping does not fit the schema, and the error lists something under the name of
each field that offends, and under no other. The directory of the file matters for the place of the
echo report only; that of a document held in memory can always be looked up. -/
theorem runConfig_of_mapping {fs : FileSystem} {path : Path} {entries : List (Value × Value)}
    (hentries : IsDocument entries)
    (hpath : path = RunConfig.memoryPath ∨ ∃ present, fs.exists? path.parent = .ok present) :
    (Fits entries ∧ ∃ c, RunConfig.ofValue fs path (.mapping entries) = .ok c ∧
      Reads entries c ∧ c.sizing.check = .ok ()) ∨
    (¬ Fits entries ∧ ∃ e, RunConfig.ofValue fs path (.mapping entries) = .error (.schema e) ∧
      e.path = path ∧
      ∀ name, (∃ text, (name, text) ∈ e.errors.flatten) ↔ Offends entries name) := by
  have hparent : ∃ present, fs.exists? path.parent = .ok present := by
    obtain rfl | hparent := hpath
    · exact ⟨true, RunConfig.exists?_memoryPath⟩
    · exact hparent
  obtain ⟨hfilled, -⟩ := RunConfig.withDefaults_ok hentries
  obtain ⟨tree, htree, hnil, hnames⟩ := RunConfig.errors_ok hfilled
  simp only [RunConfig.refused_iff hentries] at hnil hnames
  rw [← RunConfig.fits_iff] at hnil
  unfold RunConfig.ofValue
  simp only [htree]
  cases tree with
  | nil =>
    have hfits := hnil.1 rfl
    obtain ⟨c, hc, hreads, hcheck⟩ := RunConfig.ofFitting_ok hentries hfits hparent
    exact .inl ⟨hfits, c, hc, hreads, hcheck⟩
  | cons field tree =>
    have hfits : ¬ Fits entries := fun hfits => List.cons_ne_nil _ _ (hnil.2 hfits)
    exact .inr ⟨hfits, ⟨_, path⟩, rfl, rfl, hnames⟩

/-- A mapping whose grid has a width but, with zero, no height. -/
def flatGrid : List (Value × Value) :=
  [(.string "num_blocks", .int 9), (.string "num_pads", .bool true),
    (.string "grid", .mapping [(.string "width", .int 4), (.string "height", .int 0)])]

theorem runConfig_of_flatGrid : ∃ e,
    RunConfig.ofValue { workingDirectory := [] } RunConfig.memoryPath (.mapping flatGrid) =
      .error (.schema e) ∧ ∃ text, ("grid.height", text) ∈ e.errors.flatten := by
  have hdigit : ∀ n : Nat, n < 10 → (Value.int n).IsWritable := by
    rintro n hn _ ⟨⟩
    exact Numeral.isWritable_natCast.2 (lt_of_lt_of_le hn (Nat.le_self_pow (by decide) 10))
  have hgrid : IsRecord [(.string "width", .int 4), (.string "height", .int 0)] := by
    refine ⟨by simp [Value.IsText], by simp, ?_⟩
    simp only [List.forall_mem_cons]
    exact ⟨hdigit 4 (by decide), hdigit 0 (by decide), List.forall_mem_nil _⟩
  have hentries : IsDocument flatGrid := by
    refine ⟨⟨by simp [flatGrid, Value.IsText], by simp [flatGrid], ?_⟩, by simp [flatGrid, hgrid]⟩
    simp only [flatGrid, List.forall_mem_cons]
    exact ⟨hdigit 9 (by decide), nofun, nofun, List.forall_mem_nil _⟩
  have hheight : ¬ RunConfig.GridTakes "height" (some (.int 0)) := by
    rintro ⟨v, ⟨⟩, n, ⟨⟩, hn⟩
    omega
  obtain ⟨hfits, -⟩ | ⟨-, e, he, -, hnames⟩ := runConfig_of_mapping hentries (.inl rfl)
  · exact absurd (hfits.grid _ rfl "height") hheight
  · have hname : "grid.height" = "grid." ++ "height" := by decide
    rw [hname]
    exact ⟨e, he, (hnames _).2 (.grid rfl hheight)⟩

end Fabric
