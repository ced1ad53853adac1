import Fabric.Proofs.Numbering
import Fabric.Proofs.Splitting
import Fabric.Statement.Stream

/-!
# What a stream gives

Taking logical lines until there are no more gives all of them and leaves the stream at its end
(`Stream.exists_readsOut`). No token is lost, doubled or moved on the way (`tokens_kept`): the
token at any place is that of the physical lines, and its logical line is numbered by the end of the
group of physical lines in which it stands (`numbered_listFrom`), so that two tokens share a logical
line exactly where all physical lines from the one to the other go on (`groupEndAt_eq_iff`).
-/

namespace Fabric

/-! ## Reading a stream to its end -/

namespace LogicalLine

/-- Taking the first logical line takes it off the others, or there is none and all physical lines
are taken. -/
theorem listFrom_next? (pending : List String) (number : Nat) (raws : List (List Char)) :
    match next? pending number raws with
    | (some line, number', rest) => listFrom pending number raws = line :: listFrom [] number' rest ∧
        number' + rest.length = number + raws.length
    | (none, number', rest) => listFrom pending number raws = [] ∧ rest = [] ∧
        number' = number + raws.length := by
  induction raws generalizing pending number with
  | nil => cases pending <;> simp [next?, listFrom, ofTokens?]
  | cons raw rest ih =>
    have hlength : number + (raw :: rest).length = number + 1 + rest.length := by
      rw [List.length_cons]
      omega
    rw [hlength]
    cases hgoes : continues raw with
    | true =>
      have hnext : next? pending number (raw :: rest) =
          next? (pending ++ tokens raw) (number + 1) rest := if_pos hgoes
      rw [hnext, listFrom_of_continues hgoes]
      exact ih _ _
    | false =>
      rw [listFrom_of_ends hgoes]
      unfold next?
      simp only [hgoes, Bool.false_eq_true, if_false]
      cases ofTokens? (number + 1) (pending ++ tokens raw) with
      | some line => exact ⟨rfl, rfl⟩
      | none => exact ih _ _

end LogicalLine

namespace Stream

/-- A stream gives logical lines, one after the other, and then no more; it is left in another
state. -/
inductive ReadsOut : Stream → List LogicalLine → Stream → Prop where
  | ended {s t : Stream} (h : s.next = (none, t)) : ReadsOut s [] t
  | line {s t u : Stream} {line : LogicalLine} {lines : List LogicalLine}
    (h : s.next = (some line, t)) (hrest : ReadsOut t lines u) : ReadsOut s (line :: lines) u

variable {s t : Stream}

theorem next_eq_some {line : LogicalLine} (h : s.next = (some line, t)) :
    s.logicalLines = line :: t.logicalLines ∧
      t.lineNumber + t.unread.length = s.lineNumber + s.unread.length := by
  have hnext := LogicalLine.listFrom_next? [] s.lineNumber s.unread
  unfold next at h
  generalize LogicalLine.next? [] s.lineNumber s.unread = result at h hnext
  obtain ⟨line?, number, rest⟩ := result
  obtain ⟨rfl, rfl⟩ := Prod.mk.inj h
  exact hnext

theorem next_eq_none (h : s.next = (none, t)) : s.logicalLines = [] ∧
    t = { s with unread := [], lineNumber := s.lineNumber + s.unread.length } := by
  have hnext := LogicalLine.listFrom_next? [] s.lineNumber s.unread
  unfold next at h
  generalize LogicalLine.next? [] s.lineNumber s.unread = result at h hnext
  obtain ⟨line?, number, rest⟩ := result
  obtain ⟨rfl, rfl⟩ := Prod.mk.inj h
  obtain ⟨hlines, rfl, rfl⟩ := hnext
  exact ⟨hlines, rfl⟩

/-- Reading ends, whatever is left to read, with all physical lines counted. -/
theorem exists_readsOut (s : Stream) : ∃ t, s.ReadsOut s.logicalLines t ∧
    t.lineNumber = s.lineNumber + s.unread.length := by
  generalize hlines : s.logicalLines = lines
  induction lines generalizing s with
  | nil =>
    cases hnext : s.next with
    | mk line? t =>
      cases line? with
      | none => exact ⟨t, .ended hnext, congrArg lineNumber (next_eq_none hnext).2⟩
      | some line => cases hlines.symm.trans (next_eq_some hnext).1
  | cons first lines ih =>
    cases hnext : s.next with
    | mk line? t =>
      cases line? with
      | none => cases hlines.symm.trans (next_eq_none hnext).1
      | some line =>
        obtain ⟨hlogical, hcount⟩ := next_eq_some hnext
        obtain ⟨rfl, hrest⟩ := List.cons.inj (hlines.symm.trans hlogical)
        obtain ⟨u, hu, hnumber⟩ := ih t hrest.symm
        exact ⟨u, .line hnext hu, hnumber.trans hcount⟩

/-- What a stream gives are its logical lines. -/
theorem ReadsOut.eq {lines : List LogicalLine} (h : s.ReadsOut lines t) :
    lines = s.logicalLines := by
  induction h with
  | ended h => exact (next_eq_none h).1.symm
  | line h _ ih => rw [(next_eq_some h).1, ih]

end Stream

/-! ## Tokens and the groups they stand in -/

namespace LogicalLine

/-- The tokens of physical lines in order, each with the place of its physical line among those that
begin at `place`. -/
def placed (place : Nat) : List (List Char) → List (Nat × String)
  | [] => []
  | raw :: rest => (tokens raw).map (place, ·) ++ placed (place + 1) rest

theorem placed_cons (place : Nat) (raw : List Char) (rest : List (List Char)) :
    placed place (raw :: rest) = (tokens raw).map (place, ·) ++ placed (place + 1) rest := rfl

/-- The tokens of logical lines in order, each with the number of its logical line. -/
def numbered (lines : List LogicalLine) : List (Nat × String) :=
  lines.flatMap fun line => line.allTokens.map (line.number, ·)

/-- The number of the last physical line of a group that goes on with the physical lines after
`number` others: they end with the first that does not go on. -/
def groupEnd (number : Nat) : List (List Char) → Nat
  | [] => number
  | raw :: rest => if continues raw then groupEnd (number + 1) rest else number + 1

theorem le_groupEnd (number : Nat) (raws : List (List Char)) : number ≤ groupEnd number raws := by
  induction raws generalizing number with
  | nil => exact le_rfl
  | cons raw rest ih =>
    unfold groupEnd
    split
    · exact Nat.le_of_succ_le (ih (number + 1))
    · exact Nat.le_succ number

/-- The number of the last physical line in the group of a physical line of a text. -/
def groupEndAt (raws : List (List Char)) (place : Nat) : Nat := groupEnd place (raws.drop place)

theorem groupEndAt_of_continues {raws : List (List Char)} {place : Nat} {raw : List Char}
    (hraw : raws[place]? = some raw) :
    groupEndAt raws place = if continues raw then groupEndAt raws (place + 1) else place + 1 := by
  obtain ⟨hplace, rfl⟩ := List.getElem?_eq_some_iff.1 hraw
  unfold groupEndAt
  rw [List.drop_eq_getElem_cons hplace]
  rfl

/-- Two physical lines are in one group exactly if each from the first on goes on, up to the
second. -/
theorem groupEndAt_eq_iff {raws : List (List Char)} {i j : Nat} (hij : i ≤ j)
    (hj : j < raws.length) : groupEndAt raws i = groupEndAt raws j ↔
      ∀ p, i ≤ p → p < j → ∃ raw, raws[p]? = some raw ∧ continues raw = true := by
  obtain ⟨d, rfl⟩ := Nat.exists_eq_add_of_le hij
  induction d generalizing i with
  | zero =>
    refine ⟨fun _ p hle hlt => ?_, fun _ => rfl⟩
    omega
  | succ d ih =>
    have hi : i < raws.length := by omega
    have hraw : raws[i]? = some raws[i] := List.getElem?_eq_getElem hi
    have hshift : i + (d + 1) = i + 1 + d := by omega
    have hend := groupEndAt_of_continues hraw
    rw [hshift] at hj ⊢
    by_cases hcontinues : continues raws[i] = true
    · rw [hend, if_pos hcontinues, ih (by omega) hj]
      constructor
      · intro h p hle hlt
        rcases Nat.eq_or_lt_of_le hle with rfl | hle
        · exact ⟨_, hraw, hcontinues⟩
        · exact h p hle hlt
      · intro h p hle hlt
        exact h p (Nat.le_of_succ_le hle) hlt
    · rw [hend, if_neg hcontinues]
      have hlast : raws[i + 1 + d]? = some raws[i + 1 + d] := List.getElem?_eq_getElem hj
      have hbeyond : i + 1 + d < groupEndAt raws (i + 1 + d) := by
        rw [groupEndAt_of_continues hlast]
        split
        · exact le_groupEnd _ _
        · exact Nat.lt_succ_self _
      constructor
      · intro heq
        omega
      · intro h
        obtain ⟨raw, hsome, hgoes⟩ := h i le_rfl (by omega)
        rw [hraw] at hsome
        cases hsome
        exact absurd hgoes hcontinues

theorem numbered_ofTokens? (number : Nat) (ts : List String) :
    numbered (ofTokens? number ts).toList = ts.map (number, ·) := by
  cases ts with
  | nil => rfl
  | cons t ts => exact List.append_nil _

theorem numbered_append (lines lines' : List LogicalLine) :
    numbered (lines ++ lines') = numbered lines ++ numbered lines' := List.flatMap_append

/-- The tokens still to come are those of the physical lines, numbered by the ends of their groups;
what is pending goes with the next group. -/
theorem numbered_listFrom {raws rest : List (List Char)} {number : Nat}
    (hrest : raws.drop number = rest) (pending : List String) :
    numbered (listFrom pending number rest) = pending.map (groupEndAt raws number, ·) ++
      (placed number rest).map (Prod.map (groupEndAt raws) id) := by
  induction rest generalizing number pending with
  | nil =>
    have hend : groupEndAt raws number = number := by
      unfold groupEndAt
      rw [hrest]
      rfl
    rw [hend]
    exact (numbered_ofTokens? number pending).trans (List.append_nil _).symm
  | cons raw rest ih =>
    have hend : groupEndAt raws number =
        if continues raw then groupEndAt raws (number + 1) else number + 1 := by
      apply groupEndAt_of_continues
      rw [← List.head?_drop, hrest, List.head?_cons]
    have hdrop : raws.drop (number + 1) = rest := by
      rw [← List.tail_drop, hrest, List.tail_cons]
    have hplaced : (placed number (raw :: rest)).map (Prod.map (groupEndAt raws) id) =
        (tokens raw).map (groupEndAt raws number, ·) ++
          (placed (number + 1) rest).map (Prod.map (groupEndAt raws) id) := by
      rw [placed_cons, List.map_append, List.map_map]
      rfl
    rw [hplaced]
    cases hgoes : continues raw with
    | true =>
      rw [if_pos hgoes] at hend
      rw [listFrom_of_continues hgoes, ih hdrop, hend, List.map_append, List.append_assoc]
    | false =>
      rw [if_neg (by simp [hgoes])] at hend
      rw [listFrom_of_ends hgoes, numbered_append, numbered_ofTokens?, ih hdrop, hend,
        List.map_append, List.map_nil, List.nil_append, List.append_assoc]

theorem map_snd_placed (place : Nat) (raws : List (List Char)) :
    (placed place raws).map Prod.snd = raws.flatMap tokens := by
  induction raws generalizing place with
  | nil => rfl
  | cons raw rest ih =>
    rw [placed_cons, List.map_append, ih, List.map_map, List.flatMap_cons]
    exact congrArg (· ++ _) (List.map_id _)

theorem map_snd_numbered (lines : List LogicalLine) :
    (numbered lines).map Prod.snd = lines.flatMap allTokens := by
  unfold numbered
  rw [List.map_flatMap]
  refine List.flatMap_congr fun line _ => ?_
  rw [List.map_map]
  exact List.map_id _

theorem mem_placed {place : Nat} {raws : List (List Char)} {x : Nat × String}
    (h : x ∈ placed place raws) : place ≤ x.1 ∧ x.1 < place + raws.length := by
  induction raws generalizing place with
  | nil => cases h
  | cons raw rest ih =>
    rw [List.length_cons]
    rw [placed_cons] at h
    rcases List.mem_append.1 h with h | h
    · obtain ⟨_, -, rfl⟩ := List.mem_map.1 h
      exact ⟨le_rfl, Nat.lt_add_of_pos_right (Nat.succ_pos _)⟩
    · have hbounds := ih h
      omega

/-- Places are ascending. -/
theorem placed_ascending (place : Nat) (raws : List (List Char)) :
    (placed place raws).Pairwise (·.1 ≤ ·.1) := by
  induction raws generalizing place with
  | nil => exact .nil
  | cons raw rest ih =>
    rw [placed_cons, List.pairwise_append]
    refine ⟨?_, ih _, fun x hx y hy => ?_⟩
    · rw [List.pairwise_map]
      exact List.pairwise_of_forall fun _ _ => le_rfl
    · obtain ⟨_, -, rfl⟩ := List.mem_map.1 hx
      exact Nat.le_of_succ_le (mem_placed hy).1

/-! ## Characters of tokens -/

theorem mem_content {raw : List Char} {c : Char} (h : c ∈ content raw) : c ≠ '#' := by
  obtain ⟨blanks, -, htext⟩ := Text.exists_trimEnd (raw.takeWhile (· ≠ '#'))
  have hmem : c ∈ raw.takeWhile (· ≠ '#') := htext ▸ List.mem_append_left blanks h
  have hplain := List.mem_takeWhile_imp hmem
  exact of_decide_eq_true hplain

/-- A token is not empty and holds neither a blank nor a comment sign. -/
theorem mem_tokens {raw : List Char} {token : String} (h : token ∈ tokens raw) :
    token ≠ "" ∧ ∀ c ∈ token.toList, Text.isBlank c = false ∧ c ≠ '#' := by
  obtain ⟨w, hw, rfl⟩ := List.mem_map.1 h
  refine ⟨fun hempty => Text.ne_nil_of_mem_words hw ?_, fun c hc => ?_⟩
  · exact String.ofList_eq_empty_iff.1 hempty
  rw [String.toList_ofList] at hc
  obtain ⟨hkept, hblank⟩ := Text.mem_words hw c hc
  refine ⟨hblank, @mem_content raw c ?_⟩
  split at hkept
  · exact List.mem_of_mem_dropLast hkept
  · exact hkept

/-- What logical lines keep of a text. -/
structure Keeps (text : String) (lines : List LogicalLine) : Prop where
  /-- The tokens are those of the physical lines, in order. -/
  tokens : lines.flatMap allTokens = (Text.physicalLines text.toList).flatMap tokens
  /-- Two tokens are in one logical line exactly if all physical lines from the first one's up to
  the second one's go on. -/
  grouped : ∀ {k l i j m n : Nat} {t t' u u' : String}, k ≤ l →
    (placed 0 (Text.physicalLines text.toList))[k]? = some (i, t) →
    (placed 0 (Text.physicalLines text.toList))[l]? = some (j, u) →
    (numbered lines)[k]? = some (m, t') → (numbered lines)[l]? = some (n, u') →
    (m = n ↔ ∀ p, i ≤ p → p < j →
      ∃ raw, (Text.physicalLines text.toList)[p]? = some raw ∧ continues raw = true)
  increasing : lines.Pairwise (·.number < ·.number)
  /-- A logical line is numbered by the last physical line of its group. -/
  standsIn : ∀ line ∈ lines, line.StandsIn text
  clean : ∀ line ∈ lines, ∀ token ∈ line.allTokens,
    token ≠ "" ∧ ∀ c ∈ token.toList, Text.isBlank c = false ∧ c ≠ '#'

/-- Logical lines number each token by the end of its group. -/
theorem numbered_ofText (text : String) : numbered (ofText text) =
    (placed 0 (Text.physicalLines text.toList)).map
      (Prod.map (groupEndAt (Text.physicalLines text.toList)) id) :=
  numbered_listFrom List.drop_zero []

theorem tokens_ofText (text : String) :
    (ofText text).flatMap allTokens = (Text.physicalLines text.toList).flatMap tokens := by
  rw [← map_snd_numbered, numbered_ofText, List.map_map, ← map_snd_placed 0]
  rfl

theorem keeps_ofText (text : String) : Keeps text (ofText text) where
  tokens := tokens_ofText text
  grouped := by
    intro k l i j m n t t' u u' hkl hi hj hm hn
    rw [numbered_ofText, List.getElem?_map, hi] at hm
    rw [numbered_ofText, List.getElem?_map, hj] at hn
    cases hm
    cases hn
    have hij : i ≤ j := by
      obtain ⟨hk, hi⟩ := List.getElem?_eq_some_iff.1 hi
      obtain ⟨hl, hj⟩ := List.getElem?_eq_some_iff.1 hj
      rcases Nat.eq_or_lt_of_le hkl with rfl | hlt
      · exact (congrArg Prod.fst (hi.symm.trans hj)).le
      · have hle := List.pairwise_iff_getElem.1 (placed_ascending 0 _) k l hk hl hlt
        rwa [hi, hj] at hle
    have hlength := (mem_placed (List.mem_of_getElem? hj)).2
    exact groupEndAt_eq_iff hij (by omega)
  increasing := numbers_increasing text
  standsIn _ := standsIn_of_mem
  clean := by
    intro line hline token htoken
    have hmem : token ∈ (ofText text).flatMap allTokens := List.mem_flatMap.2 ⟨line, hline, htoken⟩
    rw [tokens_ofText] at hmem
    obtain ⟨raw, -, hraw⟩ := List.mem_flatMap.1 hmem
    exact mem_tokens hraw

end LogicalLine

/-- Reading a text to its end gives logical lines that keep all of its tokens, and counts all of its
physical lines. -/
theorem tokens_kept (text source : String) : ∃ lines final,
    (Stream.ofText text source).ReadsOut lines final ∧ LogicalLine.Keeps text lines ∧
      final.lineNumber = (Text.physicalLines text.toList).length := by
  obtain ⟨final, hreads, hnumber⟩ := (Stream.ofText text source).exists_readsOut
  exact ⟨_, final, hreads, LogicalLine.keeps_ofText text, hnumber.trans (Nat.zero_add _)⟩

end Fabric
