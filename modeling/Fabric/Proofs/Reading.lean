import Fabric.Proofs.Vocabulary
import Fabric.Statement.Scalar

/-!
# What the readers accept

A reader succeeds on a cursor exactly when the operands that are left begin with what it reads; it
then gives that value and leaves the rest (`real_ok`, `word_ok`, `classId_ok`). The readers of whole
statements also need that nothing is left (`positiveInteger_ok`, `wordStatement_ok`).
-/

namespace Fabric

/-! ## Actions that succeed -/

section Actions

variable {ε σ α β : Type} {m : EStateM ε σ α} {f : α → EStateM ε σ β} {s s' : σ} {b : β} {e : ε}

theorem bind_ok : (m >>= f) s = .ok b s' ↔ ∃ a t, m s = .ok a t ∧ f a t = .ok b s' := by
  change EStateM.bind m f s = .ok b s' ↔ _
  unfold EStateM.bind
  cases hm : m s with
  | ok a t => simp
  | error e t => simp

/-- After a part that succeeds, the rest goes on from its state. -/
theorem bind_of_ok {a : α} (h : m s = .ok a s') : (m >>= f) s = f a s' := by
  change EStateM.bind m f s = _
  unfold EStateM.bind
  rw [h]

/-- An action in sequence fails where its first part or its second part fails. -/
theorem bind_error : (m >>= f) s = .error e s' ↔
    m s = .error e s' ∨ ∃ a t, m s = .ok a t ∧ f a t = .error e s' := by
  change EStateM.bind m f s = .error e s' ↔ _
  unfold EStateM.bind
  cases hm : m s with
  | ok a t => simp
  | error e t => simp

theorem pure_ok {a c : α} : (pure a : EStateM ε σ α) s = .ok c s' ↔ a = c ∧ s = s' := by
  change EStateM.Result.ok a s = .ok c s' ↔ _
  simp

end Actions

/-! ## Computations that succeed -/

section Computations

variable {ε ε' α β : Type} {x : Except ε α} {f : α → Except ε β} {b : β}

theorem except_bind_ok : (x >>= f) = .ok b ↔ ∃ a, x = .ok a ∧ f a = .ok b := by
  cases x with
  | ok a => simp [bind, Except.bind]
  | error e => simp [bind, Except.bind]

/-- Computations in sequence fail where the first or the second fails. -/
theorem except_bind_error {e : ε} : (x >>= f) = .error e ↔
    x = .error e ∨ ∃ a, x = .ok a ∧ f a = .error e := by
  cases x with
  | ok a => simp [bind, Except.bind]
  | error e' => simp [bind, Except.bind]

theorem except_pure_ok {a b : α} : (pure a : Except ε α) = .ok b ↔ a = b := by
  change Except.ok a = .ok b ↔ _
  simp

theorem mapError_ok {g : ε → ε'} {a : α} : x.mapError g = .ok a ↔ x = .ok a := by
  cases x <;> simp [Except.mapError]

theorem mapError_error {g : ε → ε'} {e : ε'} :
    x.mapError g = .error e ↔ ∃ e', x = .error e' ∧ g e' = e := by
  cases x <;> simp [Except.mapError]

theorem toOption_ok {a : α} : x.toOption = some a ↔ x = .ok a := by
  cases x <;> simp [Except.toOption]

/-- A list is mapped exactly when each entry is. -/
theorem mapM_ok {xs : List α} {ys : List β} :
    xs.mapM f = .ok ys ↔ List.Forall₂ (fun x y => f x = .ok y) xs ys := by
  induction xs generalizing ys with
  | nil =>
    rw [List.mapM_nil, except_pure_ok, List.forall₂_nil_left_iff]
    exact eq_comm
  | cons x xs ih =>
    simp only [List.mapM_cons, except_bind_ok, except_pure_ok, ih, List.forall₂_cons_left_iff]
    constructor
    · rintro ⟨y, hy, ys', hys, rfl⟩
      exact ⟨y, ys', hy, hys, rfl⟩
    · rintro ⟨y, ys', hy, hys, rfl⟩
      exact ⟨y, hy, ys', hys, rfl⟩

/-- A list whose entries are all mapped as a function says. -/
theorem mapM_eq_map {g : α → β} {xs : List α} (h : ∀ x ∈ xs, f x = .ok (g x)) :
    xs.mapM f = .ok (xs.map g) := by
  rw [mapM_ok, List.forall₂_map_right_iff]
  exact List.forall₂_same.2 h

end Computations

namespace Cursor

variable {α : Type} {c c' : Cursor}

theorem fail_ok {p : Problem} {a : α} : fail p c = .ok a c' ↔ False := by
  simp [fail]

theorem take_ok {what token : String} : take what c = .ok token c' ↔
    ∃ rest, c.remaining = token :: rest ∧ c' = { c with remaining := rest } := by
  unfold take
  cases hr : c.remaining with
  | nil => simp [fail]
  | cons t rest =>
    simp only [EStateM.Result.ok.injEq, List.cons.injEq]
    constructor
    · rintro ⟨rfl, rfl⟩
      exact ⟨rest, ⟨rfl, rfl⟩, rfl⟩
    · rintro ⟨_, ⟨rfl, rfl⟩, rfl⟩
      exact ⟨rfl, rfl⟩

theorem expectEnd_ok {u : Unit} : expectEnd c = .ok u c' ↔ c.remaining = [] ∧ c = c' := by
  unfold expectEnd
  cases hr : c.remaining with
  | nil => simp
  | cons t rest => simp [fail]

theorem getKeyword_ok {k : String} : getKeyword c = .ok k c' ↔ c.keyword = k ∧ c = c' := by
  simp [getKeyword]

end Cursor

namespace Scalar

open Cursor

variable {c c' : Cursor} {what : String}

/-- The value that a token spells, if it is a numeral of a real operand. -/
def readReal? (token : String) : Option Binary64 :=
  if isPlain token then Binary64.read? token else none

theorem toInteger_ok {token : String} {v : Int} :
    toInteger what token c = .ok v c' ↔ Numeral.read? token = some v ∧ c = c' := by
  unfold toInteger
  cases Numeral.read? token with
  | none => simp [fail_ok]
  | some w => simp [pure_ok]

theorem toReal_ok {token : String} {x : Binary64} :
    toReal what token c = .ok x c' ↔ readReal? token = some x ∧ c = c' := by
  unfold toReal
  rw [← readReal?]
  cases readReal? token with
  | none => simp [fail_ok]
  | some w => simp [pure_ok]

/-- A guard that fails with a problem is passed exactly when its condition is false. -/
theorem guard_ok {α β : Type} {p : Prop} [Decidable p] {problem : Problem} {k : α → Reading β}
    {r : Reading β} {b : β} :
    (if p then fail problem >>= k else r) c = .ok b c' ↔ ¬ p ∧ r c = .ok b c' := by
  split
  · simp [bind_ok, fail_ok, *]
  · simp [*]

theorem positiveInteger_ok {v : Int} : positiveInteger c = .ok v c' ↔
    ∃ token, c.remaining = [token] ∧ Numeral.read? token = some v ∧ 0 < v ∧
      c' = { c with remaining := [] } := by
  simp only [positiveInteger, bind_ok, getKeyword_ok, take_ok, toInteger_ok, guard_ok,
    expectEnd_ok, pure_ok]
  constructor
  · rintro ⟨_, _, ⟨rfl, rfl⟩, token, _, ⟨rest, hr, rfl⟩, w, _, ⟨hw, rfl⟩, hpos, _, _,
      ⟨hend, rfl⟩, rfl, rfl⟩
    simp only at hend
    subst hend
    exact ⟨token, hr, hw, by omega, rfl⟩
  · rintro ⟨token, hr, hv, hpos, rfl⟩
    exact ⟨_, _, ⟨rfl, rfl⟩, token, _, ⟨[], hr, rfl⟩, v, _, ⟨hv, rfl⟩, by omega, (), _,
      ⟨rfl, rfl⟩, rfl, rfl⟩

theorem real_ok {bounds : Bounds} {name : Option String} {x : Binary64} :
    real bounds name c = .ok x c' ↔ ∃ token rest, c.remaining = token :: rest ∧
      readReal? token = some x ∧ bounds.admits x = true ∧ c' = { c with remaining := rest } := by
  simp only [real, bind_ok, getKeyword_ok, take_ok, toReal_ok, guard_ok, pure_ok]
  constructor
  · rintro ⟨_, _, ⟨rfl, rfl⟩, token, _, ⟨rest, hr, rfl⟩, w, _, ⟨hw, rfl⟩, hin, rfl, rfl⟩
    exact ⟨token, rest, hr, hw, by simpa using hin, rfl⟩
  · rintro ⟨token, rest, hr, hx, hin, rfl⟩
    exact ⟨_, _, ⟨rfl, rfl⟩, token, _, ⟨rest, hr, rfl⟩, x, _, ⟨hx, rfl⟩, by simpa using hin, rfl,
      rfl⟩

theorem word_ok {α : Type} [Vocabulary α] [Vocabulary.Lawful α] {name : Option String}
    {problem : String → String → List String → Problem} {a : α} :
    word α name problem c = .ok a c' ↔
      ∃ rest, c.remaining = Vocabulary.word a :: rest ∧ c' = { c with remaining := rest } := by
  simp only [word, bind_ok, getKeyword_ok, take_ok]
  constructor
  · rintro ⟨_, _, ⟨rfl, rfl⟩, token, _, ⟨rest, hr, rfl⟩, h⟩
    cases hf : Vocabulary.find? (α := α) token with
    | none => simp [hf, fail_ok] at h
    | some b =>
      simp only [hf, pure_ok] at h
      obtain ⟨rfl, rfl⟩ := h
      rw [Vocabulary.find?_eq_some.1 hf] at hr
      exact ⟨rest, hr, rfl⟩
  · rintro ⟨rest, hr, rfl⟩
    refine ⟨_, _, ⟨rfl, rfl⟩, _, _, ⟨rest, hr, rfl⟩, ?_⟩
    rw [Vocabulary.find?_eq_some.2 rfl]
    rfl

theorem wordStatement_ok {α : Type} [Vocabulary α] [Vocabulary.Lawful α] {a : α} :
    wordStatement α c = .ok a c' ↔
      c.remaining = [Vocabulary.word a] ∧ c' = { c with remaining := [] } := by
  simp only [wordStatement, bind_ok, word_ok, expectEnd_ok, pure_ok]
  constructor
  · rintro ⟨b, _, ⟨rest, hr, rfl⟩, _, _, ⟨hend, rfl⟩, rfl, rfl⟩
    simp only at hend
    subst hend
    exact ⟨hr, rfl⟩
  · rintro ⟨hr, rfl⟩
    exact ⟨a, _, ⟨[], hr, rfl⟩, (), _, ⟨rfl, rfl⟩, rfl, rfl⟩

theorem classId_ok {n : Nat} : classId c = .ok n c' ↔
    ∃ token rest, c.remaining = classMarker :: token :: rest ∧
      Numeral.read? token = some (n : Int) ∧ c' = { c with remaining := rest } := by
  simp only [classId, bind_ok, take_ok, toInteger_ok, guard_ok, pure_ok]
  constructor
  · rintro ⟨marker, _, ⟨rest, hr, rfl⟩, hm, token, _, ⟨rest', hr', rfl⟩, v, _, ⟨hv, rfl⟩,
      hneg, hn, rfl⟩
    simp only at hr'
    refine ⟨token, rest', ?_, ?_, rfl⟩
    · rw [hr, hr', not_not.1 hm]
    · rw [hv, ← hn, Int.toNat_of_nonneg (by omega)]
  · rintro ⟨token, rest, hr, hv, rfl⟩
    exact ⟨classMarker, _, ⟨_, hr, rfl⟩, not_not.2 rfl, token, _, ⟨rest, rfl, rfl⟩, n, _,
      ⟨hv, rfl⟩, by omega, Int.toNat_natCast n, rfl⟩

theorem side_ok {token : String} {s : Side} :
    side token c = .ok s c' ↔ token = Vocabulary.word s ∧ c = c' := by
  unfold side
  cases hf : Vocabulary.find? (α := Side) token with
  | none =>
    have hne := Vocabulary.find?_eq_none.1 hf s
    simp [fail_ok, hne]
  | some t =>
    rw [Vocabulary.find?_eq_some] at hf
    subst hf
    simp only [pure_ok]
    constructor
    · rintro ⟨rfl, rfl⟩
      exact ⟨rfl, rfl⟩
    · rintro ⟨hw, rfl⟩
      exact ⟨Vocabulary.Lawful.word_inj hw, rfl⟩

end Scalar

end Fabric
