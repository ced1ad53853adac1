import Fabric.Proofs.Run

/-!
# What is wrong with a statement

The counterpart of the grammar: which problem the operands of a statement have, said on their tokens
alone. The rules follow the order of the operands, so where several things are wrong the first is
the problem. A statement that holds a value either spells one or has a problem
(`Field.spells_or_faulty`). What is wrong with a pin statement also depends on the lines before it,
of which the first that cites a class fixes its direction (`LogicalLine.Faulty`).
-/

namespace Fabric

/-- A property of entries and what is before them holds nowhere in a list, or somewhere first. -/
theorem forall_not_or_first {α : Type} (P : List α → α → Prop) (xs : List α) :
    (∀ before x after, xs = before ++ x :: after → ¬ P before x) ∨
      ∃ before x after, xs = before ++ x :: after ∧ P before x ∧
        ∀ before' x' after', before = before' ++ x' :: after' → ¬ P before' x' := by
  -- From the right: what holds first in the front of a list holds first in the list.
  induction xs using List.reverseRecOn with
  | nil =>
    left
    intro before x after h
    simp at h
  | append_singleton xs last ih =>
    obtain hnone | ⟨before, x, after, rfl, hx, hfirst⟩ := ih
    · by_cases hlast : P xs last
      · exact .inr ⟨xs, last, [], rfl, hlast, hnone⟩
      · left
        intro before x after h
        rcases List.eq_nil_or_concat after with rfl | ⟨after', y, rfl⟩
        · obtain ⟨rfl, heq⟩ := List.append_inj' h rfl
          obtain rfl := List.singleton_inj.1 heq
          exact hlast
        · rw [List.concat_eq_append, ← List.cons_append, ← List.append_assoc] at h
          exact hnone before x after' (List.append_inj' h rfl).1
    · exact .inr ⟨before, x, after ++ [last], by simp, hx, hfirst⟩

/-! ## Operands -/

/-- Operands that do not begin with the class marker and a class number. -/
inductive BadClassPart : List String → Problem → Prop where
  | noMarker : BadClassPart [] (.missingValue classMarker)
  | otherMarker {token : String} {rest : List String} (h : token ≠ classMarker) :
    BadClassPart (token :: rest) (.noClassMarker token)
  | noNumber : BadClassPart [classMarker] (.missingValue "class number")
  | notAnInteger {token : String} {rest : List String} (h : Numeral.read? token = none) :
    BadClassPart (classMarker :: token :: rest) (.notAnInteger "class number" token)
  | negative {token : String} {rest : List String} {v : Int} (hv : Numeral.read? token = some v)
      (h : v < 0) : BadClassPart (classMarker :: token :: rest) (.negativeClass v token)

/-- A statement that holds one integer above zero has other operands. -/
inductive BadInteger (keyword : String) : List String → Problem → Prop where
  | missing : BadInteger keyword [] (.missingValue keyword)
  | notAnInteger {token : String} {rest : List String} (h : Numeral.read? token = none) :
    BadInteger keyword (token :: rest) (.notAnInteger keyword token)
  | notPositive {token : String} {rest : List String} {v : Int}
      (hv : Numeral.read? token = some v) (h : v ≤ 0) :
    BadInteger keyword (token :: rest) (.notPositive v token)
  | trailing {token : String} {extra : List String} {v : Int} (hv : Numeral.read? token = some v)
      (hpos : 0 < v) (h : extra ≠ []) :
    BadInteger keyword (token :: extra) (.trailingTokens extra)

/-- A statement that holds one word of a vocabulary has other operands. -/
inductive BadWord (α : Type) [Vocabulary α] (keyword : String) : List String → Problem → Prop where
  | missing : BadWord α keyword [] (.missingValue keyword)
  | unknown {token : String} {rest : List String} (h : ∀ a : α, token ≠ Vocabulary.word a) :
    BadWord α keyword (token :: rest) (.unknownWord keyword token (Vocabulary.words α))
  | trailing (a : α) {extra : List String} (h : extra ≠ []) :
    BadWord α keyword (Vocabulary.word a :: extra) (.trailingTokens extra)

/-- Operands do not begin with a real of a name within bounds. -/
inductive BadReal (name : String) (b : Bounds) : List String → Problem → Prop where
  | missing : BadReal name b [] (.missingValue name)
  | notANumber {token : String} {rest : List String} (h : Scalar.readReal? token = none) :
    BadReal name b (token :: rest) (.notANumber name token)
  | outside {token : String} {rest : List String} {x : Binary64}
      (hx : Scalar.readReal? token = some x) (h : b.admits x = false) :
    BadReal name b (token :: rest) (.outsideBounds name x b token)

/-- Operands are not reals of some names, each within its bounds. -/
inductive BadReals : List (String × Bounds) → List String → Problem → Prop where
  | first {name : String} {b : Bounds} {expected : List (String × Bounds)} {tokens : List String}
      {p : Problem} (h : BadReal name b tokens p) : BadReals ((name, b) :: expected) tokens p
  | later {name : String} {b : Bounds} {expected : List (String × Bounds)} {token : String}
      {rest : List String} {x : Binary64} {p : Problem} (hx : b.Spells token x)
      (h : BadReals expected rest p) : BadReals ((name, b) :: expected) (token :: rest) p
  | trailing {extra : List String} (h : extra ≠ []) : BadReals [] extra (.trailingTokens extra)

/-- The reals of a channel of a profile, in order. -/
def Profile.reals : Profile → List (String × Bounds)
  | .uniform => [("peak", .uniformPeak)]
  | .delta => [("peak", .deltaPeak), ("xpeak", .fraction), ("dc", .fraction)]
  | .gaussian | .pulse =>
    [("peak", .shapedPeak), ("width", .channelWidth), ("xpeak", .fraction), ("dc", .fraction)]

/-- A channel statement has other operands than a profile and its reals. -/
inductive BadChannel (keyword : String) : List String → Problem → Prop where
  | missing : BadChannel keyword [] (.missingValue (keyword ++ " distribution"))
  | unknown {token : String} {rest : List String} (h : ∀ a : Profile, token ≠ Vocabulary.word a) :
    BadChannel keyword (token :: rest)
      (.unknownDistribution (keyword ++ " distribution") token (Vocabulary.words Profile))
  | reals (profile : Profile) {rest : List String} {p : Problem}
      (h : BadReals profile.reals rest p) : BadChannel keyword (Vocabulary.word profile :: rest) p

namespace PayloadForm

/-- Operands that are not of a form, with the problem that they have. -/
def Faulty (keyword : String) : PayloadForm → List String → Problem → Prop
  | .integer => BadInteger keyword
  | .real b => BadReals [(keyword, b)]
  | .channel => BadChannel keyword
  | .fcMeasure => BadWord FcMeasure keyword
  | .switchBlock => BadWord SwitchBlock keyword

end PayloadForm

/-- Operands that the statement of a field cannot have. -/
def Field.Faulty (f : Field) (tokens : List String) (p : Problem) : Prop :=
  ∃ form, f.form? = some form ∧ form.Faulty f.keyword tokens p

/-! ## Spelled or faulty -/

section Totality

theorem cites_or_bad (line : LogicalLine) :
    (∃ c, line.Cites c) ∨ ∃ p, BadClassPart line.operands p := by
  generalize hops : line.operands = tokens
  match tokens with
  | [] => exact .inr ⟨_, .noMarker⟩
  | marker :: rest =>
    by_cases hmarker : marker = classMarker
    · subst hmarker
      match rest with
      | [] => exact .inr ⟨_, .noNumber⟩
      | token :: rest =>
        cases hread : Numeral.read? token with
        | none => exact .inr ⟨_, .notAnInteger hread⟩
        | some v =>
          by_cases hneg : v < 0
          · exact .inr ⟨_, .negative hread hneg⟩
          · refine .inl ⟨v.toNat, token, rest, hops, ?_⟩
            rw [hread, Int.toNat_of_nonneg (by omega)]
    · exact .inr ⟨_, .otherMarker hmarker⟩

theorem spells_or_badInteger (keyword : String) (tokens : List String) :
    (∃ v, PayloadForm.integer.Spells tokens (.integer v)) ∨ ∃ p, BadInteger keyword tokens p := by
  match tokens with
  | [] => exact .inr ⟨_, .missing⟩
  | token :: rest =>
    cases hread : Numeral.read? token with
    | none => exact .inr ⟨_, .notAnInteger hread⟩
    | some v =>
      by_cases hpos : 0 < v
      · by_cases hrest : rest = []
        · subst hrest
          exact .inl ⟨v, .integer hread hpos⟩
        · exact .inr ⟨_, .trailing hread hpos hrest⟩
      · exact .inr ⟨_, .notPositive hread (by omega)⟩

theorem spells_or_badWord (α : Type) [Vocabulary α] (keyword : String) (tokens : List String) :
    (∃ a : α, tokens = [Vocabulary.word a]) ∨ ∃ p, BadWord α keyword tokens p := by
  match tokens with
  | [] => exact .inr ⟨_, .missing⟩
  | token :: rest =>
    by_cases hword : ∃ a : α, token = Vocabulary.word a
    · obtain ⟨a, rfl⟩ := hword
      by_cases hrest : rest = []
      · exact .inl ⟨a, by rw [hrest]⟩
      · exact .inr ⟨_, .trailing a hrest⟩
    · exact .inr ⟨_, .unknown fun a ha => hword ⟨a, ha⟩⟩

/-- Operands spell reals one by one, or one of them is bad, or there are too many or too few. -/
theorem spells_or_badReals (expected : List (String × Bounds)) (tokens : List String) :
    List.Forall₂ (fun entry token => ∃ x, entry.2.Spells token x) expected tokens ∨
      ∃ p, BadReals expected tokens p := by
  induction expected generalizing tokens with
  | nil =>
    by_cases htokens : tokens = []
    · rw [htokens]
      exact .inl .nil
    · exact .inr ⟨_, .trailing htokens⟩
  | cons entry expected ih =>
    obtain ⟨name, b⟩ := entry
    match tokens with
    | [] => exact .inr ⟨_, .first .missing⟩
    | token :: rest =>
      cases hread : Scalar.readReal? token with
      | none => exact .inr ⟨_, .first (.notANumber hread)⟩
      | some x =>
        cases hin : b.admits x with
        | false => exact .inr ⟨_, .first (.outside hread hin)⟩
        | true =>
          obtain hrest | ⟨p, hp⟩ := ih rest
          · exact .inl (.cons ⟨x, hread, hin⟩ hrest)
          · exact .inr ⟨p, .later ⟨hread, hin⟩ hp⟩

theorem spells_or_badChannel (keyword : String) (tokens : List String) :
    (∃ c, Channel.Spells tokens c) ∨ ∃ p, BadChannel keyword tokens p := by
  match tokens with
  | [] => exact .inr ⟨_, .missing⟩
  | token :: rest =>
    by_cases hword : ∃ a : Profile, token = Vocabulary.word a
    · obtain ⟨profile, rfl⟩ := hword
      obtain hreals | ⟨p, hp⟩ := spells_or_badReals profile.reals rest
      · left
        cases profile with
        | uniform =>
          obtain _ | ⟨⟨_, hpeak⟩, _ | _⟩ := hreals
          exact ⟨_, .uniform hpeak⟩
        | delta =>
          obtain _ | ⟨⟨_, hpeak⟩, _ | ⟨⟨_, hxpeak⟩, _ | ⟨⟨_, hdc⟩, _ | _⟩⟩⟩ := hreals
          exact ⟨_, .delta hpeak hxpeak hdc⟩
        | gaussian | pulse =>
          obtain _ | ⟨⟨_, hpeak⟩, _ | ⟨⟨_, hwidth⟩, _ | ⟨⟨_, hxpeak⟩, _ | ⟨⟨_, hdc⟩, _ | _⟩⟩⟩⟩ :=
            hreals
          exact ⟨_, .shaped (by simp) hpeak hwidth hxpeak hdc⟩
      · exact .inr ⟨p, .reals profile hp⟩
    · exact .inr ⟨_, .unknown fun a ha => hword ⟨a, ha⟩⟩

theorem PayloadForm.spells_or_faulty (keyword : String) (form : PayloadForm)
    (tokens : List String) :
    (∃ p, form.Spells tokens p) ∨ ∃ p, form.Faulty keyword tokens p := by
  cases form with
  | integer =>
    exact (spells_or_badInteger keyword tokens).imp_left fun ⟨v, hv⟩ => ⟨_, hv⟩
  | real b =>
    obtain hreals | hbad := spells_or_badReals [(keyword, b)] tokens
    · obtain _ | ⟨⟨x, hx⟩, _ | _⟩ := hreals
      exact .inl ⟨_, .real hx⟩
    · exact .inr hbad
  | channel => exact (spells_or_badChannel keyword tokens).imp_left fun ⟨c, hc⟩ => ⟨_, .channel hc⟩
  | fcMeasure =>
    refine (spells_or_badWord FcMeasure keyword tokens).imp_left ?_
    rintro ⟨m, rfl⟩
    exact ⟨_, .fcMeasure m⟩
  | switchBlock =>
    refine (spells_or_badWord SwitchBlock keyword tokens).imp_left ?_
    rintro ⟨s, rfl⟩
    exact ⟨_, .switchBlock s⟩

/-- The operands of a statement that declares no pin spell a value or have a problem. -/
theorem Field.spells_or_faulty {f : Field} (hf : f.isPin = false) (tokens : List String) :
    (∃ p, f.Spells tokens p) ∨ ∃ p, f.Faulty tokens p := by
  cases hform : f.form? with
  | none =>
    obtain ⟨dir, rfl⟩ := Field.form?_eq_none hform
    cases dir <;> cases hf
  | some form =>
    exact (form.spells_or_faulty f.keyword tokens).imp (fun ⟨p, hp⟩ => ⟨p, form, hform, hp⟩)
      fun ⟨p, hp⟩ => ⟨p, form, hform, hp⟩

end Totality

/-! ## Lines -/

namespace LogicalLine

/-- The first of the pin lines before a line that cites a class has the other direction. -/
def Conflicts (before : List LogicalLine) (line : LogicalLine) (c : Nat) : Prop :=
  ∃ earlier first rest, pins before = earlier ++ first :: rest ∧
    (∀ l ∈ earlier, ¬ l.Cites c) ∧ first.Cites c ∧ first.keyword ≠ line.keyword

/-- What is wrong with a line after other lines, if its class part is good: a value that is not
spelled, or, of a pin, its direction, then the lack of a side, then the first side that is none. -/
inductive Faulty (before : List LogicalLine) (line : LogicalLine) : Problem → Prop where
  | value {f : Field} {p : Problem} (hf : line.keyword = f.keyword)
      (hp : f.Faulty line.operands p) : Faulty before line p
  | mixedDirections {c : Nat} (hpin : Census.isPinKeyword line.keyword = true) (hc : line.Cites c)
      (h : Conflicts before line c) : Faulty before line (.mixedDirections c)
  | noLocation {c : Nat} (hpin : Census.isPinKeyword line.keyword = true) (hc : line.Cites c)
      (hagrees : ¬ Conflicts before line c) (h : line.operands.drop 2 = []) :
    Faulty before line (.noLocation (pins before).length)
  | badSide {c : Nat} (hpin : Census.isPinKeyword line.keyword = true) (hc : line.Cites c)
      (hagrees : ¬ Conflicts before line c) {sides : List Side} {token : String}
      {rest : List String} (h : line.operands.drop 2 = sides.map Vocabulary.word ++ token :: rest)
      (hside : ∀ side : Side, token ≠ Vocabulary.word side) : Faulty before line (.badSide token)

/-- No line has a problem after the lines before it. -/
def FaultFree (lines : List LogicalLine) : Prop :=
  ∀ before line after, lines = before ++ line :: after → ∀ p, ¬ Faulty before line p

end LogicalLine

/-- Tokens are words of sides, or one of them is the first that is not. -/
theorem sides_or_bad (tokens : List String) :
    (∃ sides : List Side, tokens = sides.map Vocabulary.word) ∨
      ∃ (sides : List Side) (token : String) (rest : List String),
        tokens = sides.map Vocabulary.word ++ token :: rest ∧
          ∀ side : Side, token ≠ Vocabulary.word side := by
  induction tokens with
  | nil => exact .inl ⟨[], rfl⟩
  | cons token tokens ih =>
    by_cases hside : ∃ side : Side, token = Vocabulary.word side
    · obtain ⟨side, rfl⟩ := hside
      obtain ⟨sides, rfl⟩ | ⟨sides, bad, rest, rfl, hbad⟩ := ih
      · exact .inl ⟨side :: sides, rfl⟩
      · exact .inr ⟨side :: sides, bad, rest, rfl, hbad⟩
    · exact .inr ⟨[], token, tokens, rfl, fun side h => hside ⟨side, h⟩⟩

namespace LogicalLine

variable {before : List LogicalLine} {line : LogicalLine}

/-- A pin line with a good class part and no problem declares a pin, in the direction that its
class has. -/
theorem exists_row_of_not_faulty (hpin : Census.isPinKeyword line.keyword = true) {c : Nat}
    (hc : line.Cites c) (h : ∀ p, ¬ Faulty before line p) :
    ¬ Conflicts before line c ∧ ∃ row, PinRow.Spells line row := by
  have hagrees : ¬ Conflicts before line c := fun hconflict =>
    h _ (.mixedDirections hpin hc hconflict)
  refine ⟨hagrees, ?_⟩
  obtain ⟨dir, hdir⟩ := isPinKeyword_iff.1 hpin
  obtain ⟨token, rest, hops, hread⟩ := hc
  have hdrop : line.operands.drop 2 = rest := by
    rw [hops, List.drop_succ_cons, List.drop_one, List.tail_cons]
  have hc : line.Cites c := ⟨token, rest, hops, hread⟩
  obtain ⟨sides, rfl⟩ | ⟨sides, bad, rest', hrest, hbad⟩ := sides_or_bad rest
  · have hne : sides ≠ [] := by
      rintro rfl
      exact h _ (.noLocation hpin hc hagrees hdrop)
    exact ⟨⟨dir, c, sides⟩, hdir, ⟨token, hops, hread⟩, hne⟩
  · exact absurd (.badSide hpin hc hagrees (hdrop.trans hrest) hbad) (h _)

/-- A line without a problem fits the grammar, if it is no pin line with a bad class part. -/
theorem fits_of_not_faulty (hcites : Census.isPinKeyword line.keyword = true → ∃ c, line.Cites c)
    (h : ∀ p, ¬ Faulty before line p) : line.Fits where
  pin hpin := by
    obtain ⟨c, hc⟩ := hcites hpin
    exact (exists_row_of_not_faulty hpin hc h).2
  value f hf hkey := by
    obtain hspells | ⟨p, hp⟩ := Field.spells_or_faulty hf line.operands
    · exact hspells
    · exact absurd (.value hkey hp) (h p)

theorem FaultFree.of_append {xs ys : List LogicalLine} (h : FaultFree (xs ++ ys)) :
    FaultFree xs := by
  rintro before line after rfl
  exact h before line (after ++ ys) (by simp)

theorem FaultFree.last (h : FaultFree (before ++ [line])) : ∀ p, ¬ Faulty before line p :=
  h before line [] rfl

/-- Lines are free of faults, or one of them is the first that has a problem. -/
theorem faultFree_or_first (lines : List LogicalLine) : FaultFree lines ∨
    ∃ before line after p, lines = before ++ line :: after ∧ FaultFree before ∧
      Faulty before line p := by
  obtain hfree | ⟨before, line, after, heq, ⟨p, hp⟩, hfirst⟩ :=
    forall_not_or_first (fun before line => ∃ p, Faulty before line p) lines
  · exact .inl fun before line after heq p hp => hfree before line after heq ⟨p, hp⟩
  · refine .inr ⟨before, line, after, p, heq, ?_, hp⟩
    exact fun before' line' after' heq' q hq => hfirst before' line' after' heq' ⟨q, hq⟩

end LogicalLine

end Fabric
