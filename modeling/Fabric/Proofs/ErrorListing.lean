import Fabric.Config.Error
import Mathlib.Data.List.Lex
import Mathlib.Data.String.Basic

/-!
# The listing of an error tree

A message of an error tree is reached by steps, each into a field of a mapping and on to an entry of
its list (`ErrorEntry.Reaches`). The listing of a tree has one line for each message: the places of
the messages ascend strictly, by the names of the fields first and by the order of a list within one
field (`Step.Before`), so no message is left out, repeated or moved (`IsListing`). The message and
the report of a schema error have the lines of that listing (`schemaError_listed`).
-/

namespace Fabric

namespace ErrorEntry

/-- A step down an error tree. -/
structure Step where
  name : String
  /-- The place of the field in its mapping, which tells fields of one name apart. -/
  field : Nat
  /-- The place of the entry in the list of the field. -/
  entry : Nat

/-- One step leads to what is listed before what the other leads to: its name is less, or it has the
same name and an earlier place. -/
def Step.Before (a b : Step) : Prop :=
  a.name < b.name ∨ a.name = b.name ∧ (a.field < b.field ∨ a.field = b.field ∧ a.entry < b.entry)

/-- The steps down to a message, and its text. -/
abbrev Leaf := List Step × String

namespace Leaf

/-- The names of the fields on the way to a message, joined by dots, and its text. -/
def line (leaf : Leaf) : String × String := (".".intercalate (leaf.1.map (·.name)), leaf.2)

/-- The line of a message in the field of a name. -/
def lineUnder (name : String) (leaf : Leaf) : String × String :=
  (".".intercalate (name :: leaf.1.map (·.name)), leaf.2)

/-- The message with a step before the others. -/
def below (step : Step) (leaf : Leaf) : Leaf := (step :: leaf.1, leaf.2)

theorem line_below (step : Step) (leaf : Leaf) :
    (leaf.below step).line = leaf.lineUnder step.name := rfl

theorem lineUnder_append (before name : String) (leaf : Leaf) : leaf.lineUnder (before ++ name) =
    (before ++ (leaf.lineUnder name).1, (leaf.lineUnder name).2) := by
  unfold lineUnder
  cases leaf.1 <;> simp [String.append_assoc]

theorem lineUnder_below (name : String) (step : Step) (leaf : Leaf) :
    (leaf.below step).lineUnder name = leaf.lineUnder (name ++ "." ++ step.name) := by
  unfold lineUnder below
  cases leaf.1 <;> simp [String.append_assoc]

end Leaf

/-- The messages that an entry leads to. -/
inductive Reaches : ErrorEntry → Leaf → Prop where
  | message (text : String) : Reaches (.message text) ([], text)
  | nested {fields : List (String × List ErrorEntry)} {name : String} {entries : List ErrorEntry}
      {entry : ErrorEntry} {i j : Nat} {leaf : Leaf} (hfield : fields[i]? = some (name, entries))
      (hentry : entries[j]? = some entry) (h : entry.Reaches leaf) :
    Reaches (.nested fields) (leaf.below ⟨name, i, j⟩)

/-- The messages that an entry leads to, each once, in the order of their places. -/
structure IsListing (entry : ErrorEntry) (leaves : List Leaf) : Prop where
  ascending : leaves.Pairwise fun a b => List.Lex Step.Before a.1 b.1
  mem_iff : ∀ leaf, leaf ∈ leaves ↔ entry.Reaches leaf

/-- An entry is a message, or it is nested and what holds of the entries of its fields carries over
to it. -/
@[elab_as_elim]
theorem treeInduction {motive : ErrorEntry → Prop} (message : ∀ text, motive (.message text))
    (nested : ∀ fields, (∀ f ∈ fields, ∀ entry ∈ f.2, motive entry) → motive (.nested fields))
    (entry : ErrorEntry) : motive entry :=
  @ErrorEntry.rec motive (fun fields => ∀ f ∈ fields, ∀ entry ∈ f.2, motive entry)
    (fun f => ∀ entry ∈ f.2, motive entry) (fun entries => ∀ entry ∈ entries, motive entry)
    message nested (List.forall_mem_nil _) (fun _ _ hf hrest => List.forall_mem_cons.2 ⟨hf, hrest⟩)
    (fun _ _ h => h) (List.forall_mem_nil _)
    (fun _ _ he hrest => List.forall_mem_cons.2 ⟨he, hrest⟩) entry

/-! ## Fields in order -/

section Fields

variable {α : Type} {parts : List (String × α)}

/-- The parts of a list with their places, ordered by name and then by place. -/
def placed (parts : List (String × α)) : List ((String × α) × Nat) :=
  parts.zipIdx.mergeSort (List.zipIdxLE fun a b => a.1 ≤ b.1)

theorem map_placed (parts : List (String × α)) : (placed parts).map (·.1) = sortByName parts :=
  List.mergeSort_zipIdx

theorem mem_placed {part : String × α} {i : Nat} :
    (part, i) ∈ placed parts ↔ parts[i]? = some part := by
  unfold placed
  rw [(List.mergeSort_perm _ _).mem_iff, List.mk_mem_zipIdx_iff_getElem?]

theorem mem_sortByName {part : String × α} : part ∈ sortByName parts ↔ part ∈ parts :=
  (List.mergeSort_perm _ _).mem_iff

/-- Among parts of one name, which the sort leaves in their order, the places ascend. -/
theorem placed_ascending (parts : List (String × α)) : (placed parts).Pairwise fun a b =>
    a.1.1 < b.1.1 ∨ a.1.1 = b.1.1 ∧ a.2 < b.2 := by
  have hsorted : (placed parts).Pairwise fun a b => List.zipIdxLE (fun a b => a.1 ≤ b.1) a b := by
    refine List.pairwise_mergeSort (List.zipIdxLE_trans fun a b c hab hbc => ?_)
      (List.zipIdxLE_total fun a b => ?_) _
    · exact decide_eq_true (le_trans (of_decide_eq_true hab) (of_decide_eq_true hbc))
    · simpa using le_total a.1 b.1
  have hplaces : (placed parts).Pairwise fun a b => a.2 ≠ b.2 := by
    have hnodup : (parts.zipIdx.map (·.2)).Nodup := by
      rw [List.zipIdx_map_snd]
      exact List.nodup_range'
    exact List.pairwise_map.1 (((List.mergeSort_perm _ _).map _).nodup_iff.2 hnodup)
  refine (hsorted.and hplaces).imp fun {a b} h => ?_
  obtain ⟨hle, hne⟩ := h
  unfold List.zipIdxLE at hle
  simp only [decide_eq_true_eq] at hle
  split at hle
  · rename_i hab
    split at hle
    · rename_i hba
      exact .inr ⟨le_antisymm hab hba, lt_of_le_of_ne (of_decide_eq_true hle) hne⟩
    · rename_i hba
      exact .inl (not_le.1 hba)
  · cases hle

end Fields

/-! ## Flattening -/

theorem flattenEntries_eq (name : String) (entries : List ErrorEntry) :
    flattenEntries name entries = entries.flatMap (·.flatten name) := by
  induction entries with
  | nil => rfl
  | cons entry entries ih => rw [flattenEntries, ih, List.flatMap_cons]

theorem flattenFields_eq (before : String) (fields : List (String × List ErrorEntry)) :
    flattenFields before fields =
      fields.map fun f => (f.1, f.2.flatMap (·.flatten (before ++ f.1))) := by
  induction fields with
  | nil => rfl
  | cons f fields ih => rw [flattenFields, ih, flattenEntries_eq, List.map_cons]

/-- The fields can be put in order before they are flattened. -/
theorem sortByName_flattenFields (before : String) (fields : List (String × List ErrorEntry)) :
    (sortByName (flattenFields before fields)).flatMap (·.2) =
      (sortByName fields).flatMap fun f => f.2.flatMap (·.flatten (before ++ f.1)) := by
  have hmap : sortByName (flattenFields before fields) =
      (sortByName fields).map fun f => (f.1, f.2.flatMap (·.flatten (before ++ f.1))) := by
    rw [flattenFields_eq]
    exact (List.map_mergeSort (f := fun f : String × List ErrorEntry =>
      (f.1, f.2.flatMap (·.flatten (before ++ f.1)))) fun a _ b _ => rfl).symm
  rw [hmap, List.flatMap_map]

/-! ## Listings -/

/-- The messages of all fields, where those of each entry are given. -/
def gather (leaves : ErrorEntry → List Leaf) (fields : List (String × List ErrorEntry)) :
    List Leaf :=
  (placed fields).flatMap fun (f, i) =>
    f.2.zipIdx.flatMap fun (entry, j) => (leaves entry).map (Leaf.below ⟨f.1, i, j⟩)

section Gather

variable {leaves : ErrorEntry → List Leaf} {fields : List (String × List ErrorEntry)}

theorem mem_gather {leaf : Leaf} : leaf ∈ gather leaves fields ↔
    ∃ name entries i entry j, fields[i]? = some (name, entries) ∧ entries[j]? = some entry ∧
      ∃ last ∈ leaves entry, leaf = last.below ⟨name, i, j⟩ := by
  unfold gather
  simp only [List.mem_flatMap, List.mem_map, Prod.exists, mem_placed,
    List.mk_mem_zipIdx_iff_getElem?]
  constructor
  · rintro ⟨name, entries, i, hi, entry, j, hj, path, text, hlast, rfl⟩
    exact ⟨name, entries, i, entry, j, hi, hj, path, text, hlast, rfl⟩
  · rintro ⟨name, entries, i, entry, j, hi, hj, path, text, hlast, rfl⟩
    exact ⟨name, entries, i, hi, entry, j, hj, path, text, hlast, rfl⟩

/-- What is listed of different fields or entries differs in the first step, what is listed of one
entry in a later one. -/
theorem gather_ascending (h : ∀ f ∈ fields, ∀ entry ∈ f.2,
      (leaves entry).Pairwise fun a b => List.Lex Step.Before a.1 b.1) :
    (gather leaves fields).Pairwise fun a b => List.Lex Step.Before a.1 b.1 := by
  refine List.pairwise_flatMap.2 ⟨?_, ?_⟩
  · rintro ⟨f, i⟩ hf
    have hmem : f ∈ fields := List.mem_of_getElem? (mem_placed.1 hf)
    refine List.pairwise_flatMap.2 ⟨?_, ?_⟩
    · rintro ⟨entry, j⟩ hentry
      have hin := List.mem_of_getElem? (List.mk_mem_zipIdx_iff_getElem?.1 hentry)
      exact List.pairwise_map.2 ((h f hmem entry hin).imp fun hlex => .cons hlex)
    · refine (List.pairwise_map.1 ?_ : f.2.zipIdx.Pairwise fun a b => a.2 < b.2).imp ?_
      · rw [List.zipIdx_map_snd]
        exact List.pairwise_lt_range'
      · rintro ⟨entry, j⟩ ⟨entry', j'⟩ hlt x hx y hy
        obtain ⟨last, -, rfl⟩ := List.mem_map.1 hx
        obtain ⟨last', -, rfl⟩ := List.mem_map.1 hy
        exact .rel (.inr ⟨rfl, .inr ⟨rfl, hlt⟩⟩)
  · refine (placed_ascending fields).imp ?_
    rintro ⟨f, i⟩ ⟨f', i'⟩ hbefore x hx y hy
    obtain ⟨⟨entry, j⟩, -, hx⟩ := List.mem_flatMap.1 hx
    obtain ⟨⟨entry', j'⟩, -, hy⟩ := List.mem_flatMap.1 hy
    obtain ⟨last, -, rfl⟩ := List.mem_map.1 hx
    obtain ⟨last', -, rfl⟩ := List.mem_map.1 hy
    obtain hname | ⟨hname, hplace⟩ := hbefore
    · exact .rel (.inl hname)
    · exact .rel (.inr ⟨hname, .inl hplace⟩)

theorem isListing_gather (h : ∀ f ∈ fields, ∀ entry ∈ f.2, entry.IsListing (leaves entry)) :
    IsListing (.nested fields) (gather leaves fields) where
  ascending := gather_ascending fun f hf entry hentry => (h f hf entry hentry).ascending
  mem_iff leaf := by
    rw [mem_gather]
    constructor
    · rintro ⟨name, entries, i, entry, j, hi, hj, last, hlast, rfl⟩
      have hlisting := h _ (List.mem_of_getElem? hi) entry (List.mem_of_getElem? hj)
      exact .nested hi hj ((hlisting.mem_iff last).1 hlast)
    · intro hreaches
      cases hreaches with
      | nested hi hj hlast =>
        have hlisting := h _ (List.mem_of_getElem? hi) _ (List.mem_of_getElem? hj)
        exact ⟨_, _, _, _, _, hi, hj, _, (hlisting.mem_iff _).2 hlast, rfl⟩

/-- Lines that only the names of the fields decide follow the fields in order. -/
theorem map_gather {β : Type} {line : Leaf → β} {g : String → Leaf → β}
    (hline : ∀ step leaf, line (leaf.below step) = g step.name leaf) :
    (gather leaves fields).map line =
      (sortByName fields).flatMap fun f => f.2.flatMap fun entry => (leaves entry).map (g f.1) := by
  have hentries : ∀ (f : String × List ErrorEntry) (i : Nat),
      (f.2.zipIdx.flatMap fun (entry, j) => (leaves entry).map (Leaf.below ⟨f.1, i, j⟩)).map line =
        f.2.flatMap fun entry => (leaves entry).map (g f.1) := by
    intro f i
    rw [List.map_flatMap]
    simp only [List.map_map, Function.comp_def, hline]
    conv_rhs => rw [← List.zipIdx_map_fst 0 f.2, List.flatMap_map]
  rw [← map_placed, List.flatMap_map]
  unfold gather
  rw [List.map_flatMap]
  simp only [hentries]

end Gather

/-- A listing of an entry, of which flattening gives the lines. -/
def Lists (entry : ErrorEntry) (leaves : List Leaf) : Prop :=
  entry.IsListing leaves ∧ ∀ name, entry.flatten name = leaves.map (Leaf.lineUnder name)

/-- The fields of a mapping have a listing, of which flattening gives the lines behind what stands
before the names of the fields. -/
theorem exists_fieldListing {fields : List (String × List ErrorEntry)}
    (h : ∀ f ∈ fields, ∀ entry ∈ f.2, ∃ leaves, entry.Lists leaves) :
    ∃ leaves, IsListing (.nested fields) leaves ∧ ∀ before,
      (sortByName (flattenFields before fields)).flatMap (·.2) =
        leaves.map fun leaf => (before ++ leaf.line.1, leaf.line.2) := by
  have hentries : ∀ entry : ErrorEntry, ∃ leaves,
      (∃ f ∈ fields, entry ∈ f.2) → entry.Lists leaves := by
    intro entry
    by_cases hentry : ∃ f ∈ fields, entry ∈ f.2
    · obtain ⟨f, hf, hin⟩ := hentry
      obtain ⟨leaves, hleaves⟩ := h f hf entry hin
      exact ⟨leaves, fun _ => hleaves⟩
    · exact ⟨[], fun hin => absurd hin hentry⟩
  choose leaves hleaves using hentries
  refine ⟨gather leaves fields, isListing_gather fun f hf entry hentry =>
    (hleaves entry ⟨f, hf, hentry⟩).1, fun before => ?_⟩
  have hline : ∀ (step : Step) (leaf : Leaf), (before ++ (leaf.below step).line.1,
      (leaf.below step).line.2) = leaf.lineUnder (before ++ step.name) := fun step leaf => by
    rw [Leaf.line_below, Leaf.lineUnder_append]
  rw [sortByName_flattenFields, map_gather (g := fun key => Leaf.lineUnder (before ++ key)) hline]
  refine List.flatMap_congr fun f hf => List.flatMap_congr fun entry hentry => ?_
  exact (hleaves entry ⟨f, mem_sortByName.1 hf, hentry⟩).2 _

theorem exists_lists (entry : ErrorEntry) : ∃ leaves, entry.Lists leaves := by
  induction entry using treeInduction with
  | message text =>
    refine ⟨[([], text)], ⟨List.pairwise_singleton .., fun leaf => ?_⟩, fun name => ?_⟩
    · rw [List.mem_singleton]
      constructor
      · rintro rfl
        exact .message text
      · intro h
        cases h
        rfl
    · simp [flatten, Leaf.lineUnder]
  | nested fields ih =>
    obtain ⟨leaves, hleaves, hlines⟩ := exists_fieldListing ih
    refine ⟨leaves, hleaves, fun name => ?_⟩
    rw [flatten, hlines]
    refine List.map_congr_left fun leaf hleaf => ?_
    cases (hleaves.mem_iff leaf).1 hleaf with
    | nested hfield hentry h => rw [Leaf.line_below, Leaf.lineUnder_below, Leaf.lineUnder_append]

end ErrorEntry

open ErrorEntry (Leaf IsListing)

/-! ## Trees -/

/-- The lines of a flattened tree are those of its messages, in the order of their places. -/
theorem ErrorTree.exists_listing (tree : ErrorTree) : ∃ leaves,
    IsListing (.nested tree) leaves ∧ tree.flatten = leaves.map Leaf.line := by
  obtain ⟨leaves, hleaves, hlines⟩ :=
    ErrorEntry.exists_fieldListing fun _ _ entry _ => entry.exists_lists
  refine ⟨leaves, hleaves, ?_⟩
  rw [flatten, hlines]
  simp

/-- A tree of errors is shown without loss: the flat form has one line for each message that the
tree leads to, in the order of their places. The message of the error has one item for each of
these, and the details of its report count and list them; the report shows its details line by
line. -/
theorem schemaError_listed (e : SchemaError) : ∃ leaves : List Leaf,
    IsListing (.nested e.errors) leaves ∧
    e.errors.flatten = leaves.map Leaf.line ∧
    e.message = "Run configuration validation failed for file '" ++ e.path.text ++ "':\n" ++
      "\n".intercalate (leaves.map fun leaf =>
        "  - In field '" ++ leaf.line.1 ++ "': " ++ leaf.line.2) ∧
    e.report.details = "The run configuration does not conform to the required schema.\n" ++
      "See details for " ++ Numeral.text leaves.length ++ " issue(s) below:\n\n" ++
      "\n".intercalate (leaves.map fun leaf =>
        "  - Field '" ++ leaf.line.1 ++ "': " ++ leaf.line.2) ∧
    ∃ before after : List String, e.report.render =
      "\n".intercalate (before ++ Report.indented e.report.details ++ after) := by
  obtain ⟨leaves, hleaves, hflat⟩ := e.errors.exists_listing
  refine ⟨leaves, hleaves, hflat, ?_, ?_, ?_⟩
  · unfold SchemaError.message
    rw [hflat, List.map_map]
    rfl
  · unfold SchemaError.report
    simp only [hflat, List.map_map, List.length_map]
    rfl
  · unfold Report.render
    dsimp only
    rw [List.append_assoc _ _ [Report.rule]]
    exact ⟨_, _, rfl⟩

end Fabric
