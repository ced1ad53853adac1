import Fabric.Config.RunConfig
import Fabric.Proofs.SchemaRules

/-!
# What is found wrong with a run configuration

Checking a mapping against the schema of run configurations always gives an error tree, and the
names listed in it are those of the fields that the schema does not take and, behind the name of the
grid, of the fields of the grid that its own schema does not take (`RunConfig.errors_ok`).
-/

namespace Fabric

/-! ## Names that are listed -/

/-- A line of a flattened tree is one of an entry of a field, under the name of the field. -/
theorem ErrorEntry.mem_flattenFields {before : String} {fields : List (String × List ErrorEntry)}
    {line : String × String} : line ∈ (sortByName (flattenFields before fields)).flatMap (·.2) ↔
      ∃ f ∈ fields, ∃ entry ∈ f.2, line ∈ entry.flatten (before ++ f.1) := by
  rw [sortByName_flattenFields]
  simp only [List.mem_flatMap, mem_sortByName]

/-- A flattened tree has a line under a name. -/
def ErrorTree.Names (tree : ErrorTree) (path : String) : Prop :=
  ∃ text, (path, text) ∈ tree.flatten

namespace FlatSchema

/-- The name of a field; only texts name fields here. -/
def nameOf : Value → String
  | .string s => s
  | _ => ""

@[simp] theorem nameOf_string (s : String) : nameOf (.string s) = s := rfl

/-- The errors of fields that are named by texts, as a tree. -/
def tree (errors : List FieldErrors) : ErrorTree :=
  errors.map fun e => (nameOf e.1, e.2.map fun error => .message error.text)

theorem toTree_eq {errors : List FieldErrors} (h : AreNamed errors) :
    toTree errors = .ok (tree errors) := by
  refine mapM_eq_map fun e he => ?_
  obtain ⟨name, found⟩ := e
  obtain ⟨⟨s, rfl⟩, -⟩ := h _ he
  rfl

/-- The errors of the fields of a mapping are listed behind its name. -/
theorem mem_flatten_tree {errors : List FieldErrors} (h : AreNamed errors) {name path : String} :
    (∃ text, (path, text) ∈ (ErrorEntry.nested (tree errors)).flatten name) ↔
      ∃ sub, Blames errors sub ∧ path = name ++ "." ++ sub := by
  unfold ErrorEntry.flatten
  simp only [ErrorEntry.mem_flattenFields]
  constructor
  · rintro ⟨text, f, hf, entry, hentry, hline⟩
    obtain ⟨⟨key, found⟩, he, rfl⟩ := List.mem_map.1 hf
    obtain ⟨⟨s, rfl⟩, -⟩ := h _ he
    obtain ⟨error, -, rfl⟩ := List.mem_map.1 hentry
    rw [ErrorEntry.flatten, List.mem_singleton] at hline
    exact ⟨s, ⟨found, he⟩, (Prod.mk.inj hline).1⟩
  · rintro ⟨sub, ⟨found, he⟩, rfl⟩
    obtain ⟨error, herror⟩ := List.exists_mem_of_ne_nil found (h _ he).2
    refine ⟨error.text, _, List.mem_map_of_mem he, _, List.mem_map_of_mem herror, ?_⟩
    rw [ErrorEntry.flatten, List.mem_singleton]
    rfl

end FlatSchema

namespace RunConfig

/-! ## The schemas -/

theorem isPlain_schema : schema.IsPlain where
  nodup := by decide
  quotes := fun entry hentry => by
    have hrules : ∀ entry ∈ schema, (entry.2.oneOf ≠ none → entry.2.kind = some .string) ∧
      (entry.2.positive = true → entry.2.kind = some .number) := by decide
    exact ⟨(hrules entry hentry).1, (hrules entry hentry).2⟩

theorem isPlain_gridSchema : gridSchema.IsPlain where
  nodup := by decide
  quotes := fun entry hentry => by
    have hrules : ∀ entry ∈ gridSchema, entry.2.oneOf = none ∧ entry.2.positive = false := by decide
    obtain ⟨hallowed, hpositive⟩ := hrules entry hentry
    exact ⟨fun h => absurd hallowed h, fun h => absurd (h.symm.trans hpositive) nofun⟩

/-! ## Findings -/

namespace Finding

/-- A finding for a field that is named by a text, as are the fields of its mapping. -/
structure IsNamed (f : Finding) : Prop where
  name : f.name.IsText
  inner : AreNamed f.inner

/-- A finding has an error under a name. -/
def Names (f : Finding) (path : String) : Prop :=
  (f.own ≠ [] ∧ f.name = .string path) ∨
    ∃ name sub, f.name = .string name ∧ Blames f.inner sub ∧ path = name ++ "." ++ sub

/-- The entries of a finding in the error tree. -/
def entries (f : Finding) : List ErrorEntry :=
  f.own.map (fun error => .message error.text) ++
    if f.inner.isEmpty then [] else [.nested (FlatSchema.tree f.inner)]

variable {f : Finding} {path : String}

theorem toTree_eq (h : f.IsNamed) : f.toTree = .ok (FlatSchema.nameOf f.name, f.entries) := by
  obtain ⟨name, own, inner⟩ := f
  obtain ⟨s, rfl⟩ := h.name
  unfold toTree entries
  rw [FlatSchema.toTree_eq h.inner]
  cases inner <;> rfl

/-- The lines of a finding are under the names that it has errors for. -/
theorem names_iff (h : f.IsNamed) : f.Names path ↔
    ∃ text, ∃ entry ∈ f.entries, (path, text) ∈ entry.flatten (FlatSchema.nameOf f.name) := by
  obtain ⟨name, own, inner⟩ := f
  obtain ⟨s, rfl⟩ := h.name
  unfold Names entries
  have hown : (∃ text, ∃ entry ∈ own.map (fun error => ErrorEntry.message error.text),
      (path, text) ∈ entry.flatten s) ↔ own ≠ [] ∧ s = path := by
    simp only [List.mem_map, exists_exists_and_eq_and, ErrorEntry.flatten, List.mem_singleton,
      Prod.mk.injEq]
    constructor
    · rintro ⟨_, error, herror, rfl, -⟩
      exact ⟨List.ne_nil_of_mem herror, rfl⟩
    · rintro ⟨hne, rfl⟩
      obtain ⟨error, herror⟩ := List.exists_mem_of_ne_nil own hne
      exact ⟨_, error, herror, rfl, rfl⟩
  have hinner : (∃ text, ∃ entry ∈ if inner.isEmpty then [] else
      [ErrorEntry.nested (FlatSchema.tree inner)], (path, text) ∈ entry.flatten s) ↔
        ∃ sub, Blames inner sub ∧ path = s ++ "." ++ sub := by
    split
    · rename_i hnil
      simp [Blames, List.isEmpty_iff.1 hnil]
    · simp only [List.mem_singleton, exists_eq_left]
      exact FlatSchema.mem_flatten_tree h.inner
  simp only [List.mem_append, or_and_right, exists_or, FlatSchema.nameOf_string, hown, hinner]
  simp

/-- A finding that is not empty has an error under a name. -/
theorem exists_names (h : f.IsNamed) (hne : f.isEmpty = false) : ∃ path, f.Names path := by
  obtain ⟨name, own, inner⟩ := f
  obtain ⟨s, rfl⟩ := h.name
  unfold isEmpty at hne
  rw [Bool.and_eq_false_iff] at hne
  obtain hown | hinner := hne
  · exact ⟨s, .inl ⟨by simpa using hown, rfl⟩⟩
  · obtain ⟨⟨key, found⟩, he⟩ := List.exists_mem_of_ne_nil inner (by simpa using hinner)
    obtain ⟨⟨sub, rfl⟩, -⟩ := h.inner _ he
    exact ⟨_, .inr ⟨s, sub, rfl, ⟨found, he⟩, rfl⟩⟩

theorem not_isEmpty_of_names (h : f.Names path) : f.isEmpty = false := by
  obtain ⟨hown, -⟩ | ⟨name, sub, -, ⟨found, he⟩, -⟩ := h
  · simp [isEmpty, hown]
  · simp [isEmpty, List.ne_nil_of_mem he]

end Finding

/-! ## Findings of a mapping -/

/-- What the grid field holds, with a field of it that the schema of the grid does not take. -/
def GridRefused (held : Option Value) (sub : String) : Prop :=
  ∃ fields, held = some (.mapping fields) ∧ ¬ gridSchema.Takes sub (Value.field? fields sub)

/-- What a field holds is not taken, or a field of the grid is not, as the path says. -/
def FieldRefused (name : String) (held : Option Value) (path : String) : Prop :=
  (¬ schema.Takes name held ∧ name = path) ∨
    ∃ sub, (name = "grid" ∧ GridRefused held sub) ∧ path = name ++ "." ++ sub

/-- A record whose grid, if it is a mapping, is a record too. -/
structure IsDocument (entries : List (Value × Value)) : Prop extends IsRecord entries where
  grid : ∀ fields, (.string "grid", .mapping fields) ∈ entries → IsRecord fields

theorem IsDocument.tail {e : Value × Value} {entries : List (Value × Value)}
    (h : IsDocument (e :: entries)) : IsDocument entries where
  toIsRecord := h.toIsRecord.tail
  grid fields hfields := h.grid fields (List.mem_cons_of_mem _ hfields)

variable {entries : List (Value × Value)} {order : FieldOrder}

theorem gridErrors_ok {s : String} {v : Value}
    (h : ∀ fields, s = "grid" → v = .mapping fields → IsRecord fields) :
    ∃ inner order, gridErrors (.string s) v = .ok (inner, order) ∧ order.OfTexts ∧ AreNamed inner ∧
      ∀ sub, Blames inner sub ↔ s = "grid" ∧ GridRefused (some v) sub := by
  unfold gridErrors
  split
  · rename_i fields hs
    obtain rfl := Value.string.inj hs
    obtain ⟨inner, order, herrors, horder, hnamed, hblames⟩ :=
      FlatSchema.errors_ok isPlain_gridSchema (h fields rfl rfl)
    refine ⟨inner, order, herrors, horder, hnamed, fun sub => ?_⟩
    rw [hblames]
    simp [GridRefused]
  · rename_i hother
    refine ⟨[], {}, rfl, FieldOrder.ofTexts_empty, List.forall_mem_nil _, fun sub => ?_⟩
    refine iff_of_false (by simp [Blames]) ?_
    rintro ⟨rfl, fields, hv, -⟩
    exact hother fields rfl (Option.some.inj hv)

/-- What is found wrong with an entry has errors where the schemas refuse the entry. -/
theorem names_iff_refused {s : String} {v : Value} {own : List FieldError}
    {inner : List FieldErrors} (hown : own = [] ↔ schema.Takes s (some v))
    (hinner : ∀ sub, Blames inner sub ↔ s = "grid" ∧ GridRefused (some v) sub) {path : String} :
    Finding.Names { name := .string s, own, inner } path ↔ FieldRefused s (some v) path := by
  unfold Finding.Names FieldRefused
  simp only [Ne, hown, Value.string.injEq, hinner]
  refine or_congr_right ?_
  constructor
  · rintro ⟨name, sub, rfl, hsub, rfl⟩
    exact ⟨sub, hsub, rfl⟩
  · rintro ⟨sub, hsub, rfl⟩
    exact ⟨s, sub, rfl, hsub, rfl⟩

/-- The entries of a mapping have findings, with errors where the schemas refuse the entries. -/
theorem presentFindings_ok (hentries : IsDocument entries) (horder : order.OfTexts) :
    ∃ found order', presentFindings order entries = .ok (found, order') ∧ order'.OfTexts ∧
      (∀ f ∈ found, f.IsNamed) ∧ ∀ path, (∃ f ∈ found, f.Names path) ↔
        ∃ name v, (.string name, v) ∈ entries ∧ FieldRefused name (some v) path := by
  induction entries generalizing order with
  | nil => exact ⟨[], order, rfl, horder, List.forall_mem_nil _, by simp⟩
  | cons e entries ih =>
    obtain ⟨key, v⟩ := e
    obtain ⟨s, rfl⟩ : key.IsText := hentries.keys _ List.mem_cons_self
    obtain ⟨own, hown, hown_iff⟩ := FlatSchema.entryErrors_ok isPlain_schema s
      (hentries.writable _ List.mem_cons_self)
    obtain ⟨order₁, hadd, horder₁⟩ := FieldOrder.addAll_ok horder (Value.isText_string s) own
    obtain ⟨inner, innerOrder, hinner, hinnerOrder, hnamed, hinner_iff⟩ := gridErrors_ok (s := s)
      (v := v) fun fields hs hv => hentries.grid fields (by rw [hs, hv]; exact List.mem_cons_self)
    obtain ⟨order₂, hgroup, horder₂⟩ : ∃ order₂, (if inner.isEmpty then .ok order₁
        else (order₁.addGroup (.string s) innerOrder).mapError SchemaFault.order) = .ok order₂ ∧
          order₂.OfTexts := by
      split
      · exact ⟨order₁, rfl, horder₁⟩
      · obtain ⟨order₂, hgroup, horder₂⟩ :=
          FieldOrder.addGroup_ok horder₁ (Value.isText_string s) hinnerOrder
        exact ⟨order₂, mapError_ok.2 hgroup, horder₂⟩
    obtain ⟨others, order', hrest, horder', hothers, hnames⟩ := ih hentries.tail horder₂
    refine ⟨{ name := .string s, own, inner } :: others, order', ?_, horder',
      List.forall_mem_cons.2 ⟨⟨Value.isText_string s, hnamed⟩, hothers⟩, fun path => ?_⟩
    · unfold presentFindings
      refine except_bind_ok.2 ⟨own, mapError_ok.2 hown, ?_⟩
      refine except_bind_ok.2 ⟨order₁, hadd, ?_⟩
      refine except_bind_ok.2 ⟨(inner, innerOrder), hinner, ?_⟩
      dsimp only
      split at hgroup
      · rename_i hempty
        rw [if_pos hempty]
        exact except_bind_ok.2 ⟨order₂, hgroup, except_bind_ok.2 ⟨(others, order'), hrest, rfl⟩⟩
      · rename_i hempty
        rw [if_neg hempty]
        exact except_bind_ok.2 ⟨order₂, hgroup, except_bind_ok.2 ⟨(others, order'), hrest, rfl⟩⟩
    · simp only [List.mem_cons, or_and_right, exists_or, exists_eq_left, Prod.mk.injEq,
        Value.string.injEq, hnames, names_iff_refused hown_iff hinner_iff]
      simp

/-- A path names a field of a mapping that is not taken, or a field of its grid. -/
def Refused (entries : List (Value × Value)) (path : String) : Prop :=
  ∃ name, FieldRefused name (Value.field? entries name) path

/-- A mapping has findings, none of them empty, with errors where it is refused. -/
theorem findings_ok (hentries : IsDocument entries) : ∃ found, findings entries = .ok found ∧
    (∀ f ∈ found, f.IsNamed ∧ f.isEmpty = false) ∧
      ∀ path, (∃ f ∈ found, f.Names path) ↔ Refused entries path := by
  obtain ⟨present, order₁, hpresent, horder₁, hnamed, hnames⟩ :=
    presentFindings_ok hentries FieldOrder.ofTexts_empty
  obtain ⟨order, habsent, -⟩ := schema.withAbsent_ok entries [] horder₁
  let missing : List Finding := (schema.absentErrors entries).map fun e =>
    { name := e.1, own := e.2, inner := [] }
  have hmissing : ∀ f ∈ missing, f.IsNamed := by
    intro f hf
    obtain ⟨e, he, rfl⟩ := List.mem_map.1 hf
    exact ⟨(FlatSchema.areNamed_absentErrors e he).1, List.forall_mem_nil _⟩
  have hmissing_names : ∀ path, (∃ f ∈ missing, f.Names path) ↔
      Value.field? entries path = none ∧ ¬ schema.Takes path none := by
    intro path
    rw [← FlatSchema.blames_absentErrors isPlain_schema]
    simp only [missing, List.mem_map, exists_exists_and_eq_and]
    constructor
    · rintro ⟨⟨name, own⟩, he, ⟨-, rfl⟩ | ⟨_, _, -, ⟨_, hfound⟩, -⟩⟩
      · exact ⟨own, he⟩
      · cases hfound
    · rintro ⟨own, he⟩
      exact ⟨_, he, .inl ⟨(FlatSchema.areNamed_absentErrors _ he).2, rfl⟩⟩
  refine ⟨(present ++ missing).filter (!·.isEmpty), ?_, fun f hf => ?_, fun path => ?_⟩
  · refine except_bind_ok.2 ⟨(present, order₁), hpresent, ?_⟩
    exact except_bind_ok.2 ⟨(schema.absentErrors entries, order), habsent, rfl⟩
  · obtain ⟨hmem, hne⟩ := List.mem_filter.1 hf
    exact ⟨List.forall_mem_append.2 ⟨hnamed, hmissing⟩ f hmem, by simpa using hne⟩
  · have hfilter : (∃ f ∈ (present ++ missing).filter (!·.isEmpty), f.Names path) ↔
        (∃ f ∈ present, f.Names path) ∨ ∃ f ∈ missing, f.Names path := by
      simp only [List.mem_filter, List.mem_append, ← exists_or, ← or_and_right]
      refine exists_congr fun f => ⟨fun h => ⟨h.1.1, h.2⟩, fun h => ⟨⟨h.1, ?_⟩, h.2⟩⟩
      rw [Finding.not_isEmpty_of_names h.2]
      rfl
    rw [hfilter, hnames, hmissing_names]
    simp only [hentries.mem_iff]
    unfold Refused
    constructor
    · rintro (⟨name, v, hv, hrefused⟩ | ⟨hnone, htakes⟩)
      · exact ⟨name, hv ▸ hrefused⟩
      · exact ⟨path, .inl ⟨hnone ▸ htakes, rfl⟩⟩
    · rintro ⟨name, hrefused⟩
      cases hfield : Value.field? entries name with
      | some v => exact .inl ⟨name, v, hfield, hfield ▸ hrefused⟩
      | none =>
        rw [hfield] at hrefused
        obtain ⟨htakes, rfl⟩ | ⟨_, ⟨-, _, hheld, -⟩, -⟩ := hrefused
        · exact .inr ⟨hfield, htakes⟩
        · cases hheld

/-- The error tree of a mapping names the fields that are refused, and no other. -/
theorem errors_ok (hentries : IsDocument entries) : ∃ tree, errors entries = .ok tree ∧
    (tree = [] ↔ ∀ path, ¬ Refused entries path) ∧
      ∀ path, tree.Names path ↔ Refused entries path := by
  obtain ⟨found, hfound, hnamed, hnames⟩ := findings_ok hentries
  let tree : ErrorTree := found.map fun f => (FlatSchema.nameOf f.name, f.entries)
  have htree : ∀ path, tree.Names path ↔ Refused entries path := by
    intro path
    rw [← hnames]
    unfold ErrorTree.Names ErrorTree.flatten
    simp only [ErrorEntry.mem_flattenFields, tree, List.mem_map, exists_exists_and_eq_and,
      String.empty_append]
    constructor
    · rintro ⟨text, f, hf, entry, hentry, hline⟩
      exact ⟨f, hf, (Finding.names_iff (hnamed f hf).1).2 ⟨text, entry, hentry, hline⟩⟩
    · rintro ⟨f, hf, hpath⟩
      obtain ⟨text, entry, hentry, hline⟩ := (Finding.names_iff (hnamed f hf).1).1 hpath
      exact ⟨text, f, hf, entry, hentry, hline⟩
  refine ⟨tree, ?_, ?_, htree⟩
  · refine except_bind_ok.2 ⟨found, hfound, mapError_ok.2 (mapM_eq_map fun f hf => ?_)⟩
    exact Finding.toTree_eq (hnamed f hf).1
  · simp only [← hnames]
    rw [List.map_eq_nil_iff, List.eq_nil_iff_forall_not_mem]
    constructor
    · rintro hnone path ⟨f, hf, -⟩
      exact hnone f hf
    · intro hnone f hf
      obtain ⟨path, hpath⟩ := Finding.exists_names (hnamed f hf).1 (hnamed f hf).2
      exact hnone path ⟨f, hf, hpath⟩

end RunConfig

end Fabric
