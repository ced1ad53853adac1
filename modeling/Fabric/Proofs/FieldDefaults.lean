import Fabric.Proofs.SchemaRules

/-!
# Defaults

Before a mapping is checked, each field that has a default and holds nothing, or null, takes it.
Every other field keeps what it holds (`FlatSchema.withDefaults_ok`).
-/

namespace Fabric

namespace Value

/-- Whether an entry is of another field. -/
def isOther (name : String) (entry : Value × Value) : Bool :=
  match entry.1 with
  | .string s => s != name
  | _ => true

/-- A mapping in which a field holds a value, whatever it held before. -/
def setField (entries : List (Value × Value)) (name : String) (value : Value) :
    List (Value × Value) :=
  entries.filter (isOther name) ++ [(.string name, value)]

end Value

namespace IsRecord

variable {entries : List (Value × Value)} {first name : String} {value : Value}

theorem setField (h : IsRecord entries) (hvalue : value.IsWritable) :
    IsRecord (Value.setField entries first value) where
  keys := List.forall_mem_append.2 ⟨fun e he => h.keys e (List.mem_of_mem_filter he),
    List.forall_mem_singleton.2 (Value.isText_string first)⟩
  nodup := by
    have hfilter := h.nodup.sublist (List.filter_sublist.map _ : List.Sublist
      ((entries.filter (Value.isOther first)).map (·.1)) _)
    unfold Value.setField
    rw [List.map_append, List.nodup_append]
    refine ⟨hfilter, List.pairwise_singleton _ _, fun key hkey other hother => ?_⟩
    obtain ⟨⟨key, held⟩, he, rfl⟩ := List.mem_map.1 hkey
    obtain rfl := List.mem_singleton.1 hother
    rintro rfl
    simp [Value.isOther] at he
  writable := List.forall_mem_append.2 ⟨fun e he => h.writable e (List.mem_of_mem_filter he),
    List.forall_mem_singleton.2 hvalue⟩

theorem field?_setField (h : IsRecord entries) (hvalue : value.IsWritable) :
    Value.field? (Value.setField entries first value) name =
      if name = first then some value else Value.field? entries name := by
  refine Option.ext fun v => ?_
  rw [← (h.setField hvalue).mem_iff]
  unfold Value.setField
  rw [List.mem_append, List.mem_filter, List.mem_singleton]
  by_cases hname : name = first
  · simp [hname, Value.isOther, eq_comm]
  · simp [hname, Value.isOther, h.mem_iff]

end IsRecord

/-- What a field holds once its default is filled in, by what it held before. -/
def FieldRule.filled (rule : FieldRule) : Option Value → Option Value
  | none => rule.default
  | some .null => rule.default.or (some .null)
  | some v => some v

namespace FieldRule

variable {rule : FieldRule} {held : Option Value}

theorem filled_of_none (h : rule.default = none) : rule.filled held = held := by
  unfold filled
  rw [h]
  split <;> rfl

/-- A rule takes what a field holds, or that it holds nothing. -/
def Takes (rule : FieldRule) (held : Option Value) : Prop :=
  (∀ v ∈ held, rule.Accepts v) ∧ (held = none → rule.required = false)

theorem takes_filled_default {default : Value} (h : rule.default = some default)
    (hdefault : rule.Accepts default) :
    rule.Takes (rule.filled held) ↔ ∀ v ∈ held, v = .null ∨ rule.Accepts v := by
  unfold Takes filled
  split
  · simp [h, hdefault]
  · simp [h, hdefault]
  · rename_i v hnull
    have hne : v ≠ .null := hnull
    simp [hne]

theorem takes_filled_optional (h : rule.default = none) (hrequired : rule.required = false) :
    rule.Takes (rule.filled held) ↔ ∀ v ∈ held, rule.Accepts v := by
  rw [filled_of_none h, Takes, hrequired]
  simp

theorem takes_filled_required (h : rule.default = none) (hrequired : rule.required = true) :
    rule.Takes (rule.filled held) ↔ ∃ v ∈ held, rule.Accepts v := by
  rw [filled_of_none h, Takes, hrequired]
  cases held <;> simp

end FieldRule

namespace FlatSchema

variable {schema : FlatSchema} {entries : List (Value × Value)} {first name : String}
  {rule : FieldRule}

theorem takes_of_lookup (h : schema.lookup name = some rule) {held : Option Value} :
    schema.Takes name held ↔ rule.Takes held := by
  unfold Takes FieldRule.Takes
  cases held <;> simp [h]

/-- What a field holds once the defaults are filled in, by what it held before. -/
def filled (schema : FlatSchema) (name : String) (held : Option Value) : Option Value :=
  match schema.lookup name with
  | some rule => rule.filled held
  | none => held

theorem withDefault_eq : withDefaults [(first, rule)] entries = (match rule.default with
    | some value =>
      if takesDefault entries first then Value.setField entries first value else entries
    | none => entries) := rfl

theorem takesDefault_iff : takesDefault entries name = true ↔
    Value.field? entries name = none ∨ Value.field? entries name = some .null := by
  unfold takesDefault
  split <;> simp_all

/-- A default is filled in where its field holds nothing, or null. -/
theorem withDefault_ok (first : String) (h : IsRecord entries)
    (hrule : ∀ value ∈ rule.default, value.IsWritable) :
    IsRecord (withDefaults [(first, rule)] entries) ∧ ∀ name,
      Value.field? (withDefaults [(first, rule)] entries) name =
        if name = first then rule.filled (Value.field? entries first)
        else Value.field? entries name := by
  rw [withDefault_eq]
  have hkeeps : rule.filled (Value.field? entries first) = Value.field? entries first →
      IsRecord entries ∧ ∀ name, Value.field? entries name =
        if name = first then rule.filled (Value.field? entries first)
        else Value.field? entries name := by
    intro hfilled
    refine ⟨h, fun name => ?_⟩
    split
    · rename_i hname
      rw [hname, hfilled]
    · rfl
  cases hdefault : rule.default with
  | none =>
    refine hkeeps ?_
    unfold FieldRule.filled
    rw [hdefault]
    split <;> simp_all
  | some value =>
    dsimp only
    split
    · rename_i htakes
      have hvalue := hrule value hdefault
      refine ⟨h.setField hvalue, fun name => ?_⟩
      have hfilled : rule.filled (Value.field? entries first) = some value := by
        obtain hnone | hnull := takesDefault_iff.1 htakes
        · rw [hnone, FieldRule.filled, hdefault]
        · rw [hnull, FieldRule.filled, hdefault, Option.some_or]
      rw [h.field?_setField hvalue, hfilled]
    · rename_i htakes
      refine hkeeps ?_
      rw [takesDefault_iff, not_or] at htakes
      unfold FieldRule.filled
      split <;> simp_all

/-- Each field of a mapping takes its default where it holds nothing, or null. -/
theorem withDefaults_ok (h : IsRecord entries) (hnodup : (schema.map (·.1)).Nodup)
    (hdefaults : ∀ entry ∈ schema, ∀ value ∈ entry.2.default, value.IsWritable) :
    IsRecord (schema.withDefaults entries) ∧ ∀ name,
      Value.field? (schema.withDefaults entries) name =
        schema.filled name (Value.field? entries name) := by
  induction schema generalizing entries with
  | nil => exact ⟨h, fun name => rfl⟩
  | cons entry schema ih =>
    obtain ⟨first, rule⟩ := entry
    obtain ⟨hfirst, hrest⟩ := List.nodup_cons.1 hnodup
    obtain ⟨hrule, hothers⟩ := List.forall_mem_cons.1 hdefaults
    obtain ⟨hrecord, hfield⟩ := withDefault_ok first h hrule
    obtain ⟨hrecord', hfield'⟩ := ih hrecord hrest hothers
    refine ⟨hrecord', fun name => (hfield' name).trans ?_⟩
    rw [hfield]
    unfold filled
    rw [List.lookup_cons]
    by_cases hname : name = first
    · subst hname
      have hnone : schema.lookup name = none := by
        refine List.lookup_eq_none_iff.2 fun other hother => bne_iff_ne.2 fun heq => hfirst ?_
        exact List.mem_map.2 ⟨other, hother, heq.symm⟩
      simp [hnone]
    · have hne : (name == first) = false := beq_eq_false_iff_ne.2 hname
      simp only [hne, if_neg hname]

end FlatSchema

end Fabric
