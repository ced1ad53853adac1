import Fabric.Proofs.FieldOrdering
import Fabric.Proofs.ErrorListing

/-!
# What a schema accepts

A value without errors under a rule is one that keeps the rule (`FieldRule.errors_ok`), and the
errors of a mapping blame the fields that the schema does not take, each with at least one error
(`FlatSchema.errors_ok`). For this the names of the fields are texts and no two are the same, and an
integer that may have to be quoted can be written.
-/

namespace Fabric

/-! ## Rules -/

/-- If a value is an integer, it may be written. -/
def Value.IsWritable (v : Value) : Prop := ∀ n, v = .int n → Numeral.isWritable n = true

namespace FieldRule

/-- A value keeps a rule. -/
structure Accepts (rule : FieldRule) (v : Value) : Prop where
  notNull : v ≠ .null
  kind : ∀ kind ∈ rule.kind, kind.admits v = true
  nonempty : rule.nonempty = true → v.isEmpty = false
  allowed : ∀ words ∈ rule.oneOf, ∃ s ∈ words, v = .string s
  least : ∀ least ∈ rule.least, ∀ n ∈ v.toInt?, least ≤ n
  positive : rule.positive = true → ∀ sign ∈ v.positivity?, sign = (true, true)

/-- A rule that quotes a value only if the value is a text or a number. -/
structure QuotesScalars (rule : FieldRule) : Prop where
  allowed : rule.oneOf ≠ none → rule.kind = some .string
  positive : rule.positive = true → rule.kind = some .number

variable {rule : FieldRule} {v : Value}

/-- A value of the kind that a rule asks for is not null, and the rest of the rule is left. -/
theorem accepts_iff {kind : ValueKind} (h : rule.kind = some kind) :
    rule.Accepts v ↔ kind.admits v = true ∧ (rule.nonempty = true → v.isEmpty = false) ∧
      (∀ words ∈ rule.oneOf, ∃ s ∈ words, v = .string s) ∧
      (∀ least ∈ rule.least, ∀ n ∈ v.toInt?, least ≤ n) ∧
      (rule.positive = true → ∀ sign ∈ v.positivity?, sign = (true, true)) := by
  constructor
  · intro hv
    exact ⟨hv.kind kind h, hv.nonempty, hv.allowed, hv.least, hv.positive⟩
  · rintro ⟨hkind, hnonempty, hallowed, hleast, hpositive⟩
    refine ⟨?_, fun kind' hkind' => ?_, hnonempty, hallowed, hleast, hpositive⟩
    · rintro rfl
      cases kind <;> cases hkind
    · cases h.symm.trans hkind'
      exact hkind

theorem allowedErrors_ok (hkind : rule.oneOf ≠ none → ValueKind.string.admits v = true) :
    ∃ errors, rule.allowedErrors v = .ok errors ∧
      (errors = [] ↔ ∀ words ∈ rule.oneOf, ∃ s ∈ words, v = .string s) := by
  unfold allowedErrors
  cases hwords : rule.oneOf with
  | none => exact ⟨[], rfl, by simp⟩
  | some words =>
    have hstring := hkind (by simp [hwords])
    cases v with
    | string s =>
      refine ⟨_, rfl, ?_⟩
      by_cases hs : s ∈ words <;> simp [hs]
    | _ => cases hstring

theorem leastErrors_eq_nil :
    rule.leastErrors v = [] ↔ ∀ least ∈ rule.least, ∀ n ∈ v.toInt?, least ≤ n := by
  unfold leastErrors
  cases rule.least with
  | none => simp
  | some least =>
    cases v.toInt? with
    | none => simp
    | some n => by_cases hn : n < least <;> simp [hn]; omega

theorem positiveErrors_ok (hkind : ValueKind.number.admits v = true) (hv : v.IsWritable) :
    ∃ errors, positiveErrors v = .ok errors ∧
      (errors = [] ↔ ∀ sign ∈ v.positivity?, sign = (true, true)) := by
  obtain ⟨text, htext⟩ : ∃ text, v.text = .ok text := by
    cases v with
    | real x => exact ⟨_, rfl⟩
    | int n =>
      refine ⟨Numeral.text n, ?_⟩
      change Value.intText n = _
      unfold Value.intText Numeral.text?
      rw [if_pos (hv n rfl)]
    | _ => cases hkind
  unfold positiveErrors
  cases hsign : v.positivity? with
  | none => exact ⟨[], rfl, by simp⟩
  | some sign =>
    obtain ⟨finite, above⟩ := sign
    cases finite <;> cases above <;>
      simp [htext, bind, Except.bind, pure, Except.pure]

/-- The errors of a value of the right kind, from those of its parts. -/
theorem errors_eq (hnull : v ≠ .null) (hkind : ∀ kind ∈ rule.kind, kind.admits v = true)
    {allowed positive : List FieldError}
    (hallowed : (if rule.nonempty && v.isEmpty then .ok [] else rule.allowedErrors v) = .ok allowed)
    (hpositive : (if rule.positive then positiveErrors v else .ok []) = .ok positive) :
    rule.errors v =
      .ok ((if rule.nonempty && v.isEmpty then [{ text := "empty values not allowed" }] else []) ++
        allowed ++ rule.leastErrors v ++ positive) := by
  have hfilter : rule.kind.filter (fun kind => !kind.admits v) = none := by
    cases hrule : rule.kind with
    | none => rfl
    | some kind => simp [Option.filter, hkind kind hrule]
  have hparts : rule.errors v = (do
      let allowed ← if rule.nonempty && v.isEmpty then .ok [] else rule.allowedErrors v
      let positive ← if rule.positive then positiveErrors v else .ok []
      return (if rule.nonempty && v.isEmpty then [{ text := "empty values not allowed" }]
        else []) ++ allowed ++ rule.leastErrors v ++ positive) := by
    unfold errors
    cases v with
    | null => exact absurd rfl hnull
    | _ => simp only [hfilter]
  rw [hparts]
  clear hparts hfilter
  generalize (rule.nonempty && v.isEmpty) = isRefused at hallowed ⊢
  generalize rule.positive = checksSign at hpositive ⊢
  cases isRefused <;> cases checksSign <;> simp_all [bind, Except.bind, pure, Except.pure]

/-- A value has no error under a rule exactly if it keeps the rule. -/
theorem errors_ok (hrule : rule.QuotesScalars) (hv : v.IsWritable) :
    ∃ errors, rule.errors v = .ok errors ∧ (errors = [] ↔ rule.Accepts v) := by
  by_cases hnull : v = .null
  · subst hnull
    exact ⟨_, rfl, by simpa using fun h : rule.Accepts .null => h.notNull rfl⟩
  by_cases hkind : ∀ kind ∈ rule.kind, kind.admits v = true
  · have hallowedKind : rule.oneOf ≠ none → ValueKind.string.admits v = true :=
      fun h => hkind _ (hrule.allowed h)
    obtain ⟨allowed, hallowed, hallowed_iff⟩ := allowedErrors_ok hallowedKind
    obtain ⟨positive, hpositive, hpositive_iff⟩ : ∃ errors,
        (if rule.positive then positiveErrors v else .ok []) = .ok errors ∧
          (errors = [] ↔ (rule.positive = true → ∀ sign ∈ v.positivity?, sign = (true, true))) := by
      cases hrequired : rule.positive with
      | true => simpa using positiveErrors_ok (hkind _ (hrule.positive hrequired)) hv
      | false => exact ⟨[], rfl, by simp⟩
    cases hrefused : rule.nonempty && v.isEmpty with
    | true =>
      refine ⟨_, errors_eq hnull hkind (if_pos hrefused) hpositive, ?_⟩
      rw [if_pos hrefused]
      obtain ⟨hnonempty, hempty⟩ := Bool.and_eq_true_iff.1 hrefused
      refine iff_of_false (by simp) fun h => ?_
      rw [h.nonempty hnonempty] at hempty
      cases hempty
    | false =>
      have hpass : ¬ (rule.nonempty && v.isEmpty) = true := by simp [hrefused]
      refine ⟨_, errors_eq hnull hkind ((if_neg hpass).trans hallowed) hpositive, ?_⟩
      have hnonempty : rule.nonempty = true → v.isEmpty = false := by
        intro h
        rwa [h, Bool.true_and] at hrefused
      rw [if_neg hpass]
      simp only [List.append_eq_nil_iff, true_and, hallowed_iff, leastErrors_eq_nil, hpositive_iff]
      exact ⟨fun h => ⟨hnull, hkind, hnonempty, h.1.1, h.1.2, h.2⟩,
        fun h => ⟨⟨h.allowed, h.least⟩, h.positive⟩⟩
  · obtain ⟨kind, hmem, hwrong⟩ : ∃ kind ∈ rule.kind, kind.admits v = false := by simpa using hkind
    have hfilter : rule.kind.filter (fun kind => !kind.admits v) = some kind := by
      rw [Option.mem_def.1 hmem]
      simp [Option.filter, hwrong]
    have hne : ¬ rule.Accepts v := fun h => hkind h.kind
    refine ⟨[{ text := "must be of " ++ kind.name ++ " type" }], ?_, by simpa using hne⟩
    unfold errors
    cases v with
    | null => exact absurd rfl hnull
    | _ =>
      simp only [hfilter]
      rfl

end FieldRule

/-! ## Records -/

/-- A mapping whose fields are named by different texts, and whose integers may be written. -/
structure IsRecord (entries : List (Value × Value)) : Prop where
  keys : ∀ e ∈ entries, e.1.IsText
  nodup : (entries.map (·.1)).Nodup
  writable : ∀ e ∈ entries, e.2.IsWritable

namespace IsRecord

variable {entries : List (Value × Value)} {name : String} {v : Value}

theorem tail {e : Value × Value} (h : IsRecord (e :: entries)) : IsRecord entries where
  keys := (List.forall_mem_cons.1 h.keys).2
  nodup := (List.nodup_cons.1 h.nodup).2
  writable := (List.forall_mem_cons.1 h.writable).2

/-- The entries of a record are what its fields hold. -/
theorem mem_iff (h : IsRecord entries) :
    (.string name, v) ∈ entries ↔ Value.field? entries name = some v := by
  induction entries with
  | nil => simp [Value.field?]
  | cons e entries ih =>
    obtain ⟨key, value⟩ := e
    obtain ⟨s, rfl⟩ : key.IsText := h.keys _ List.mem_cons_self
    have hfirst : (Value.string s) ∉ entries.map (·.1) := (List.nodup_cons.1 h.nodup).1
    by_cases hs : s = name
    · subst hs
      have hfield : Value.field? ((.string s, value) :: entries) s = some value := by
        simp [Value.field?]
      rw [hfield, Option.some.injEq, List.mem_cons]
      constructor
      · rintro (heq | hmem)
        · exact (Prod.mk.inj heq).2.symm
        · exact absurd (List.mem_map_of_mem hmem) hfirst
      · rintro rfl
        exact .inl rfl
    · have hfield : Value.field? ((.string s, value) :: entries) name =
          Value.field? entries name := by simp [Value.field?, hs]
      rw [hfield, ← ih h.tail, List.mem_cons]
      refine or_iff_right fun heq => hs ?_
      exact (Value.string.inj (Prod.mk.inj heq).1).symm

end IsRecord

/-! ## Flat schemas -/

/-- Errors are found for a field. -/
def Blames (errors : List FieldErrors) (name : String) : Prop :=
  ∃ found, (.string name, found) ∈ errors

/-- The errors of each field are listed under a text, and there is one. -/
def AreNamed (errors : List FieldErrors) : Prop := ∀ e ∈ errors, e.1.IsText ∧ e.2 ≠ []

theorem blames_cons {s name : String} {found : List FieldError} {others : List FieldErrors} :
    Blames ((.string s, found) :: others) name ↔ s = name ∨ Blames others name := by
  unfold Blames
  simp only [List.mem_cons, Prod.mk.injEq, Value.string.injEq, exists_or]
  refine or_congr_left ⟨fun ⟨_, h, _⟩ => h.symm, fun h => ⟨found, h.symm, rfl⟩⟩

theorem blames_append {errors others : List FieldErrors} {name : String} :
    Blames (errors ++ others) name ↔ Blames errors name ∨ Blames others name := by
  simp only [Blames, List.mem_append, exists_or]

namespace FlatSchema

/-- A schema takes what stands in a field, or that nothing does. -/
def Takes (schema : FlatSchema) (name : String) : Option Value → Prop
  | some v => ∃ rule, schema.lookup name = some rule ∧ rule.Accepts v
  | none => ∀ rule, schema.lookup name = some rule → rule.required = false

/-- A schema names each field once, and its rules quote scalars only. -/
structure IsPlain (schema : FlatSchema) : Prop where
  nodup : (schema.map (·.1)).Nodup
  quotes : ∀ entry ∈ schema, entry.2.QuotesScalars

variable {schema : FlatSchema} {entries : List (Value × Value)} {name : String} {v : Value}
  {order : FieldOrder}

theorem IsPlain.lookup_iff (h : schema.IsPlain) {rule : FieldRule} :
    schema.lookup name = some rule ↔ (name, rule) ∈ schema := by
  have hnodup := h.nodup
  clear h
  induction schema with
  | nil => simp
  | cons entry schema ih =>
    obtain ⟨first, other⟩ := entry
    obtain ⟨hfirst, hrest⟩ := List.nodup_cons.1 hnodup
    rw [List.lookup_cons, List.mem_cons]
    by_cases hname : name = first
    · subst hname
      simp only [beq_self_eq_true, Option.some.injEq, Prod.mk.injEq, true_and]
      constructor
      · rintro rfl
        exact .inl rfl
      · rintro (rfl | hmem)
        · rfl
        · exact absurd (List.mem_map_of_mem hmem) hfirst
    · have hne : (name == first) = false := by simpa using hname
      simp only [hne, Prod.mk.injEq, hname, false_and, false_or]
      exact ih hrest

theorem entryErrors_ok (h : schema.IsPlain) (name : String) (hv : v.IsWritable) :
    ∃ errors, schema.entryErrors (.string name) v = .ok errors ∧
      (errors = [] ↔ schema.Takes name (some v)) := by
  unfold entryErrors Takes
  cases hrule : schema.lookup name with
  | none =>
    simp only [hrule]
    exact ⟨_, rfl, by simp⟩
  | some rule =>
    simp only [hrule]
    obtain ⟨errors, herrors, hiff⟩ := FieldRule.errors_ok (h.quotes _ (h.lookup_iff.1 hrule)) hv
    exact ⟨errors, herrors, by simpa using hiff⟩

/-- Of the fields that a mapping has, those are blamed that the schema does not take. -/
theorem presentErrors_ok (h : schema.IsPlain) (hentries : IsRecord entries)
    (horder : order.OfTexts) : ∃ errors order',
      schema.presentErrors order entries = .ok (errors, order') ∧ order'.OfTexts ∧
        AreNamed errors ∧ ∀ name, Blames errors name ↔
          ∃ v, (.string name, v) ∈ entries ∧ ¬ schema.Takes name (some v) := by
  induction entries generalizing order with
  | nil => exact ⟨[], order, rfl, horder, List.forall_mem_nil _, by simp [Blames]⟩
  | cons e entries ih =>
    obtain ⟨key, value⟩ := e
    obtain ⟨s, rfl⟩ : key.IsText := hentries.keys _ List.mem_cons_self
    obtain ⟨own, hown, hown_iff⟩ :=
      schema.entryErrors_ok h s (hentries.writable _ List.mem_cons_self)
    obtain ⟨order₁, hadd, horder₁⟩ := FieldOrder.addAll_ok horder (Value.isText_string s) own
    obtain ⟨others, order', hrest, horder', hnamed, hblames⟩ := ih hentries.tail horder₁
    refine ⟨if own.isEmpty then others else (.string s, own) :: others, order', ?_, horder', ?_, ?_⟩
    · unfold presentErrors
      simp only [hown, Except.mapError, hadd, hrest, bind, Except.bind]
      rfl
    · split
      · exact hnamed
      · rename_i hne
        refine List.forall_mem_cons.2 ⟨⟨Value.isText_string s, fun hnil => hne ?_⟩, hnamed⟩
        exact List.isEmpty_iff.2 hnil
    · intro name
      have hsplit : (∃ v, (.string name, v) ∈ (Value.string s, value) :: entries ∧
          ¬ schema.Takes name (some v)) ↔
            (s = name ∧ ¬ schema.Takes s (some value)) ∨ Blames others name := by
        rw [hblames]
        simp only [List.mem_cons, Prod.mk.injEq, Value.string.injEq, or_and_right, exists_or]
        refine or_congr_left ⟨?_, ?_⟩
        · rintro ⟨_, ⟨rfl, rfl⟩, htakes⟩
          exact ⟨rfl, htakes⟩
        · rintro ⟨rfl, htakes⟩
          exact ⟨value, ⟨rfl, rfl⟩, htakes⟩
      rw [hsplit, ← hown_iff]
      split
      · rename_i hnil
        simp [List.isEmpty_iff.1 hnil]
      · rename_i hne
        have hne : own ≠ [] := fun hnil => hne (List.isEmpty_iff.2 hnil)
        simp [blames_cons, hne]

/-- Of the fields that a mapping does not have, those are blamed that the schema requires. -/
theorem blames_absentErrors (h : schema.IsPlain) :
    Blames (schema.absentErrors entries) name ↔
      Value.field? entries name = none ∧ ¬ schema.Takes name none := by
  unfold Blames absentErrors Takes
  simp only [List.mem_map, List.mem_filter, Prod.exists, Prod.mk.injEq, Value.string.injEq,
    Bool.and_eq_true, Option.isNone_iff_eq_none, h.lookup_iff, not_forall, Bool.not_eq_false]
  constructor
  · rintro ⟨_, name, rule, ⟨hmem, hrequired, hfield⟩, rfl, -⟩
    exact ⟨hfield, rule, hmem, hrequired⟩
  · rintro ⟨hfield, rule, hmem, hrequired⟩
    exact ⟨_, name, rule, ⟨hmem, hrequired, hfield⟩, rfl, rfl⟩

theorem areNamed_absentErrors : AreNamed (schema.absentErrors entries) := by
  intro e he
  obtain ⟨entry, -, rfl⟩ := List.mem_map.1 he
  exact ⟨Value.isText_string _, List.cons_ne_nil _ _⟩

theorem withAbsent_ok (entries : List (Value × Value)) (present : List FieldErrors)
    (horder : order.OfTexts) : ∃ order', schema.withAbsent entries present order =
      .ok (present ++ schema.absentErrors entries, order') ∧ order'.OfTexts := by
  obtain ⟨order', hadd, horder'⟩ := foldlM_ok (Q := FieldOrder.OfTexts)
    (fun order (e : FieldErrors) ho (he : e ∈ schema.absentErrors entries) =>
      FieldOrder.addAll_ok ho (areNamed_absentErrors e he).1 e.2) horder
  refine ⟨order', ?_, horder'⟩
  unfold withAbsent
  exact except_bind_ok.2 ⟨order', hadd, rfl⟩

/-- The errors of a mapping blame the fields that the schema does not take. -/
theorem errors_ok (h : schema.IsPlain) (hentries : IsRecord entries) : ∃ errors order,
    schema.errors entries = .ok (errors, order) ∧ order.OfTexts ∧ AreNamed errors ∧
      ∀ name, Blames errors name ↔ ¬ schema.Takes name (Value.field? entries name) := by
  obtain ⟨present, order₁, hpresent, horder₁, hnamed, hblames⟩ :=
    presentErrors_ok h hentries FieldOrder.ofTexts_empty
  obtain ⟨order, habsent, horder⟩ := schema.withAbsent_ok entries present horder₁
  refine ⟨present ++ schema.absentErrors entries, order, ?_, horder,
    List.forall_mem_append.2 ⟨hnamed, areNamed_absentErrors⟩, fun name => ?_⟩
  · unfold errors
    simp only [hpresent, bind, Except.bind]
    exact habsent
  · rw [blames_append, hblames, blames_absentErrors h]
    simp only [hentries.mem_iff]
    cases Value.field? entries name with
    | none => simp
    | some v => simp

end FlatSchema

end Fabric
