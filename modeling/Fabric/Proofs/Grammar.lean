import Fabric.Draft.Load
import Fabric.Proofs.Reading

/-!
# The grammar of statements

What the operands of a statement may be, said on their tokens alone: `Field.Spells` for the fields
that hold a value, `PinRow.Spells` for the pin statements. A list of tokens spells at most one
payload (`Field.Spells.unique`), and a pin line spells at most one pin (`PinRow.Spells.unique`).
-/

namespace Fabric

/-! ## Lists in step -/

section InStep

variable {α β : Type} {R : α → β → Prop} {xs : List α} {ys : List β}

/-- A list whose entries all have a partner has a list of partners. -/
theorem exists_forall₂ (h : ∀ x ∈ xs, ∃ y, R x y) :
    ∃ ys, List.Forall₂ R xs ys := by
  induction xs with
  | nil => exact ⟨[], .nil⟩
  | cons x xs ih =>
    obtain ⟨ys, hys⟩ := ih fun z hz => h z (List.mem_cons_of_mem _ hz)
    obtain ⟨y, hy⟩ := h x List.mem_cons_self
    exact ⟨y :: ys, .cons hy hys⟩

theorem exists_of_mem_left (h : List.Forall₂ R xs ys) {x : α} (hx : x ∈ xs) : ∃ y ∈ ys, R x y := by
  obtain ⟨i, hi, rfl⟩ := List.getElem_of_mem hx
  have hi' : i < ys.length := h.length_eq ▸ hi
  exact ⟨_, List.getElem_mem hi', h.get hi hi'⟩

theorem exists_of_mem_right (h : List.Forall₂ R xs ys) {y : β} (hy : y ∈ ys) : ∃ x ∈ xs, R x y := by
  obtain ⟨i, hi, rfl⟩ := List.getElem_of_mem hy
  have hi' : i < xs.length := h.length_eq ▸ hi
  exact ⟨_, List.getElem_mem hi', h.get hi' hi⟩

end InStep

/-! ## Values -/

/-- A token spells a real value within bounds. -/
def Bounds.Spells (b : Bounds) (token : String) (x : Binary64) : Prop :=
  Scalar.readReal? token = some x ∧ b.admits x = true

theorem Bounds.Spells.unique {b b' : Bounds} {token : String} {x y : Binary64}
    (hx : b.Spells token x) (hy : b'.Spells token y) : x = y :=
  Option.some.inj (hx.1.symm.trans hy.1)

/-- The operands of a channel: a profile, then the reals that the profile has, in order. What it
does not have is zero. -/
inductive Channel.Spells : List String → Channel Binary64 → Prop where
  | uniform {p : String} {peak : Binary64} (hpeak : Bounds.uniformPeak.Spells p peak) :
    Channel.Spells [Vocabulary.word Profile.uniform, p] ⟨.uniform, peak, .zero, .zero, .zero⟩
  | delta {p x d : String} {peak xpeak dc : Binary64} (hpeak : Bounds.deltaPeak.Spells p peak)
      (hxpeak : Bounds.fraction.Spells x xpeak) (hdc : Bounds.fraction.Spells d dc) :
    Channel.Spells [Vocabulary.word Profile.delta, p, x, d] ⟨.delta, peak, .zero, xpeak, dc⟩
  | shaped {profile : Profile} {p w x d : String} {peak width xpeak dc : Binary64}
      (hprofile : profile = .gaussian ∨ profile = .pulse)
      (hpeak : Bounds.shapedPeak.Spells p peak) (hwidth : Bounds.channelWidth.Spells w width)
      (hxpeak : Bounds.fraction.Spells x xpeak) (hdc : Bounds.fraction.Spells d dc) :
    Channel.Spells [Vocabulary.word profile, p, w, x, d] ⟨profile, peak, width, xpeak, dc⟩

theorem Channel.Spells.unique {tokens : List String} {c c' : Channel Binary64}
    (h : Channel.Spells tokens c) (h' : Channel.Spells tokens c') : c = c' := by
  cases h with
  | @uniform p _ hpeak =>
    generalize htokens : [Vocabulary.word Profile.uniform, p] = tokens at h'
    cases h' with
    | uniform hpeak' =>
      cases htokens
      rw [hpeak.unique hpeak']
    | _ => simp at htokens
  | @delta p x d _ _ _ hpeak hxpeak hdc =>
    generalize htokens : [Vocabulary.word Profile.delta, p, x, d] = tokens at h'
    cases h' with
    | delta hpeak' hxpeak' hdc' =>
      cases htokens
      rw [hpeak.unique hpeak', hxpeak.unique hxpeak', hdc.unique hdc']
    | _ => simp at htokens
  | @shaped profile p w x d _ _ _ _ _ hpeak hwidth hxpeak hdc =>
    generalize htokens : [Vocabulary.word profile, p, w, x, d] = tokens at h'
    cases h' with
    | shaped _ hpeak' hwidth' hxpeak' hdc' =>
      simp only [List.cons.injEq, and_true] at htokens
      obtain ⟨hword, rfl, rfl, rfl, rfl⟩ := htokens
      rw [Vocabulary.Lawful.word_inj hword, hpeak.unique hpeak', hwidth.unique hwidth',
        hxpeak.unique hxpeak', hdc.unique hdc']
    | _ => simp at htokens

/-- The value that a statement holds. -/
inductive Payload where
  | integer (value : Int)
  | real (value : Binary64)
  | channel (value : Channel Binary64)
  | fcMeasure (value : FcMeasure)
  | switchBlock (value : SwitchBlock)

/-- The forms of the payload of a statement. -/
inductive PayloadForm where
  | integer
  | real (bounds : Bounds)
  | channel
  | fcMeasure
  | switchBlock

/-- Operands of a form, with the value that they hold. -/
inductive PayloadForm.Spells : PayloadForm → List String → Payload → Prop where
  | integer {token : String} {v : Int} (hv : Numeral.read? token = some v) (hpos : 0 < v) :
    Spells .integer [token] (.integer v)
  | real {b : Bounds} {token : String} {x : Binary64} (hx : b.Spells token x) :
    Spells (.real b) [token] (.real x)
  | channel {tokens : List String} {c : Channel Binary64} (hc : Channel.Spells tokens c) :
    Spells .channel tokens (.channel c)
  | fcMeasure (m : FcMeasure) : Spells .fcMeasure [Vocabulary.word m] (.fcMeasure m)
  | switchBlock (s : SwitchBlock) : Spells .switchBlock [Vocabulary.word s] (.switchBlock s)

theorem PayloadForm.Spells.unique {form : PayloadForm} {tokens : List String} {p q : Payload}
    (hp : form.Spells tokens p) (hq : form.Spells tokens q) : p = q := by
  cases hp with
  | integer hv hpos =>
    cases hq with
    | integer hv' hpos' => rw [Option.some.inj (hv.symm.trans hv')]
  | real hx =>
    cases hq with
    | real hx' => rw [hx.unique hx']
  | channel hc =>
    cases hq with
    | channel hc' => rw [hc.unique hc']
  | fcMeasure m =>
    generalize htokens : [Vocabulary.word m] = tokens at hq
    cases hq with
    | fcMeasure m' => rw [Vocabulary.Lawful.word_inj (List.singleton_inj.1 htokens)]
  | switchBlock s =>
    generalize htokens : [Vocabulary.word s] = tokens at hq
    cases hq with
    | switchBlock s' => rw [Vocabulary.Lawful.word_inj (List.singleton_inj.1 htokens)]

namespace PayloadForm

variable {tokens : List String} {P : Payload → Prop}

theorem exists_integer : (∃ p, integer.Spells tokens p ∧ P p) ↔
    ∃ v, integer.Spells tokens (.integer v) ∧ P (.integer v) := by
  constructor
  · rintro ⟨p, hs, hP⟩
    cases hs with
    | integer hv hpos => exact ⟨_, .integer hv hpos, hP⟩
  · rintro ⟨v, hs, hP⟩
    exact ⟨_, hs, hP⟩

theorem exists_real {b : Bounds} : (∃ p, (real b).Spells tokens p ∧ P p) ↔
    ∃ x, (real b).Spells tokens (.real x) ∧ P (.real x) := by
  constructor
  · rintro ⟨p, hs, hP⟩
    cases hs with
    | real hx => exact ⟨_, .real hx, hP⟩
  · rintro ⟨x, hs, hP⟩
    exact ⟨_, hs, hP⟩

theorem exists_channel : (∃ p, channel.Spells tokens p ∧ P p) ↔
    ∃ c, Channel.Spells tokens c ∧ P (.channel c) := by
  constructor
  · rintro ⟨p, hs, hP⟩
    cases hs with
    | channel hc => exact ⟨_, hc, hP⟩
  · rintro ⟨c, hc, hP⟩
    exact ⟨_, .channel hc, hP⟩

theorem exists_fcMeasure : (∃ p, fcMeasure.Spells tokens p ∧ P p) ↔
    ∃ m : FcMeasure, tokens = [Vocabulary.word m] ∧ P (.fcMeasure m) := by
  constructor
  · rintro ⟨p, hs, hP⟩
    cases hs with
    | fcMeasure m => exact ⟨m, rfl, hP⟩
  · rintro ⟨m, rfl, hP⟩
    exact ⟨_, .fcMeasure m, hP⟩

theorem exists_switchBlock : (∃ p, switchBlock.Spells tokens p ∧ P p) ↔
    ∃ s : SwitchBlock, tokens = [Vocabulary.word s] ∧ P (.switchBlock s) := by
  constructor
  · rintro ⟨p, hs, hP⟩
    cases hs with
    | switchBlock s => exact ⟨s, rfl, hP⟩
  · rintro ⟨s, rfl, hP⟩
    exact ⟨_, .switchBlock s, hP⟩

end PayloadForm

namespace Field

/-- The form of the payload of a field; a pin statement has none. -/
def form? : Field → Option PayloadForm
  | .ioRat | .subblocksPerCluster | .subblockLutSize => some .integer
  | .chanWidthX | .chanWidthY => some .channel
  | .chanWidthIo => some (.real .chanWidthIo)
  | .fcOutput | .fcInput | .fcPad => some (.real .fc)
  | .fcType => some .fcMeasure
  | .switchBlockType => some .switchBlock
  | .outpin | .inpin => none

/-- The operands of the statement of a field, with the value that they hold. -/
def Spells (f : Field) (tokens : List String) (p : Payload) : Prop :=
  ∃ form, f.form? = some form ∧ form.Spells tokens p

/-- Operands hold at most one value. -/
theorem Spells.unique {f : Field} {tokens : List String} {p q : Payload}
    (hp : f.Spells tokens p) (hq : f.Spells tokens q) : p = q := by
  obtain ⟨form, hform, hp⟩ := hp
  obtain ⟨form', hform', hq⟩ := hq
  cases hform.symm.trans hform'
  exact hp.unique hq

end Field

/-! ## Pins -/

/-- The field whose statements declare the pins of a direction. -/
def Direction.field : Direction → Field
  | .driver => .outpin
  | .receiver => .inpin

/-- What a pin statement declares. -/
structure PinRow where
  direction : Direction
  classId : Nat
  sides : List Side
  deriving DecidableEq

/-- A line cites a class: its operands begin with the class marker and the number of the class. -/
def LogicalLine.Cites (line : LogicalLine) (classId : Nat) : Prop :=
  ∃ token rest, line.operands = classMarker :: token :: rest ∧
    Numeral.read? token = some (classId : Int)

theorem LogicalLine.Cites.unique {line : LogicalLine} {c c' : Nat} (h : line.Cites c)
    (h' : line.Cites c') : c = c' := by
  obtain ⟨token, rest, hops, hread⟩ := h
  obtain ⟨token', rest', hops', hread'⟩ := h'
  rw [hops] at hops'
  simp only [List.cons.injEq, true_and] at hops'
  obtain ⟨rfl, rfl⟩ := hops'
  exact Int.ofNat.inj (Option.some.inj (hread.symm.trans hread'))

/-- A line declares a pin: the keyword of its direction, the class part, and one side or more. -/
structure PinRow.Spells (line : LogicalLine) (row : PinRow) : Prop where
  keyword : line.keyword = row.direction.field.keyword
  operands : ∃ token, line.operands = classMarker :: token :: row.sides.map Vocabulary.word ∧
    Numeral.read? token = some (row.classId : Int)
  sides_ne : row.sides ≠ []

namespace PinRow.Spells

theorem cites {line : LogicalLine} {row : PinRow} (h : PinRow.Spells line row) :
    line.Cites row.classId := by
  obtain ⟨token, hops, hread⟩ := h.operands
  exact ⟨token, _, hops, hread⟩

theorem unique {line : LogicalLine} {row row' : PinRow} (h : PinRow.Spells line row)
    (h' : PinRow.Spells line row') : row = row' := by
  have hclass : row.classId = row'.classId := h.cites.unique h'.cites
  have hdir : row.direction.field = row'.direction.field :=
    Field.keyword_inj (h.keyword.symm.trans h'.keyword)
  obtain ⟨token, hops, -⟩ := h.operands
  obtain ⟨token', hops', -⟩ := h'.operands
  rw [hops] at hops'
  simp only [List.cons.injEq, true_and] at hops'
  have hsides : row.sides = row'.sides :=
    List.map_injective_iff.2 (fun _ _ => Vocabulary.Lawful.word_inj) hops'.2
  obtain ⟨d, c, s⟩ := row
  obtain ⟨d', c', s'⟩ := row'
  simp only at hclass hsides hdir
  subst hclass hsides
  cases d <;> cases d' <;> first | rfl | cases hdir

end PinRow.Spells

/-- The lines that declare pins. -/
def LogicalLine.pins (lines : List LogicalLine) : List LogicalLine :=
  lines.filter (Census.isPinKeyword ·.keyword)

end Fabric
