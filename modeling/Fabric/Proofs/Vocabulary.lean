import Fabric.Vocabulary.Enums
import Fabric.Vocabulary.Field
import Mathlib.Data.List.Forall2

/-!
# Vocabularies are faithful

In every vocabulary of the library each member is listed and no two members share a spelling, so a
token spells at most one member and every member is found from its spelling (`find?_eq_some`).
-/

namespace Fabric

/-- A vocabulary that lists all its members and spells them apart. -/
class Vocabulary.Lawful (α : Type) [Vocabulary α] : Prop where
  mem_all : ∀ a : α, a ∈ Vocabulary.all
  word_inj : ∀ {a b : α}, Vocabulary.word a = Vocabulary.word b → a = b

namespace Vocabulary

instance : Lawful Direction := ⟨fun a => by cases a <;> decide, fun {a b} => by
  cases a <;> cases b <;> decide⟩

instance : Lawful Side := ⟨fun a => by cases a <;> decide, fun {a b} => by
  cases a <;> cases b <;> decide⟩

instance : Lawful Profile := ⟨fun a => by cases a <;> decide, fun {a b} => by
  cases a <;> cases b <;> decide⟩

instance : Lawful FcMeasure := ⟨fun a => by cases a <;> decide, fun {a b} => by
  cases a <;> cases b <;> decide⟩

instance : Lawful SwitchBlock := ⟨fun a => by cases a <;> decide, fun {a b} => by
  cases a <;> cases b <;> decide⟩

instance : Lawful Routing := ⟨fun a => by cases a <;> decide, fun {a b} => by
  cases a <;> cases b <;> decide⟩

instance : Lawful Field := ⟨fun a => by cases a <;> decide, fun {a b} => by
  cases a <;> cases b <;> decide⟩

variable {α : Type} [Vocabulary α] [Lawful α]

/-- A token is matched to the member that it spells. -/
theorem find?_eq_some {token : String} {a : α} : find? token = some a ↔ token = word a := by
  constructor
  · intro h
    have hw := List.find?_some h
    exact (eq_of_beq hw).symm
  · rintro rfl
    cases hf : find? (α := α) (word a) with
    | none =>
      have hne := List.find?_eq_none.1 hf a (Lawful.mem_all a)
      simp at hne
    | some b =>
      have hw := List.find?_some hf
      rw [Lawful.word_inj (eq_of_beq hw)]

theorem find?_eq_none {token : String} :
    find? (α := α) token = none ↔ ∀ a : α, token ≠ word a := by
  constructor
  · intro h a ha
    rw [find?_eq_some.2 ha] at h
    cases h
  · intro h
    cases hf : find? (α := α) token with
    | none => rfl
    | some a => exact absurd (find?_eq_some.1 hf) (h a)

theorem mem_words {token : String} : token ∈ words α ↔ ∃ a : α, token = word a := by
  constructor
  · intro h
    obtain ⟨a, -, rfl⟩ := List.mem_map.1 h
    exact ⟨a, rfl⟩
  · rintro ⟨a, rfl⟩
    exact List.mem_map_of_mem (Lawful.mem_all a)

end Vocabulary

namespace Field

theorem keyword_inj {f g : Field} (h : f.keyword = g.keyword) : f = g :=
  Vocabulary.Lawful.word_inj h

end Field

end Fabric
