import Fabric.Proofs.Failing
import Fabric.Proofs.Printing
import Mathlib.Data.Nat.Digits.Lemmas

/-!
# Integer tokens

`Numeral.Parts` is an integer numeral by its shape: a sign or none, then decimal digits, no more
than a limit. It has a text and, in base ten, a value; a token denotes the value if it is the text
(`Numeral.Denotes`). A token is read as an integer exactly if it denotes it
(`Numeral.read?_eq_some_iff`). So the readers of statements return what tokens denote and refuse
all others, and what a description is written with denotes its integers (`integerTokens_exact`).
-/

namespace Fabric

/-! ## Numerals by their parts -/

namespace Numeral

/-- What stands before the digits of a numeral. -/
inductive Sign where
  | none
  | plus
  | minus
  deriving DecidableEq, Repr

namespace Sign

def text : Sign → List Char
  | .none => []
  | .plus => ['+']
  | .minus => ['-']

/-- The integer that digits of a value denote after a sign. -/
def apply : Sign → Nat → Int
  | .none, n | .plus, n => n
  | .minus, n => -n

end Sign

/-- An integer numeral in its parts. Zeros at the front of the digits count towards their limit. -/
structure Parts where
  sign : Sign
  digits : List (Fin 10)
  digits_ne : digits ≠ []
  length_le : digits.length ≤ 4300

/-- Digits as they are written, `0` to `9`. -/
def digitChars (digits : List (Fin 10)) : List Char := (digits.map Fin.val).map Nat.digitChar

/-- The value of digits in base ten; the last one counts the ones. -/
def digitsValue (digits : List (Fin 10)) : Nat := Nat.ofDigits 10 (digits.map Fin.val).reverse

namespace Parts

def text (p : Parts) : String := .ofList (p.sign.text ++ digitChars p.digits)

def value (p : Parts) : Int := p.sign.apply (digitsValue p.digits)

end Parts

/-- A token is a numeral of an integer. -/
def Denotes (token : String) (n : Int) : Prop := ∃ p : Parts, p.text = token ∧ p.value = n

/-! ## Digits -/

theorem isDigit_of_mem_digitChars {digits : List (Fin 10)} {c : Char}
    (h : c ∈ digitChars digits) : c.isDigit = true := by
  obtain ⟨d, hd, rfl⟩ := List.mem_map.1 h
  obtain ⟨d, -, rfl⟩ := List.mem_map.1 hd
  rw [Nat.isDigit_digitChar]
  exact decide_eq_true d.isLt

theorem length_digitChars (digits : List (Fin 10)) :
    (digitChars digits).length = digits.length := by
  rw [digitChars, List.length_map, List.length_map]

theorem digitChars_ne_nil {digits : List (Fin 10)} : digitChars digits ≠ [] ↔ digits ≠ [] := by
  rw [← List.length_pos_iff, length_digitChars, List.length_pos_iff]

/-- Every character that is a digit is written for one. -/
theorem exists_digitChar {c : Char} (h : c.isDigit = true) : ∃ d : Fin 10, Nat.digitChar d = c := by
  obtain ⟨hlow, hhigh⟩ : 48 ≤ c.toNat ∧ c.toNat ≤ 57 := Char.isDigit_iff_toNat.1 h
  have hlt : c.toNat - 48 < 10 := by omega
  refine ⟨⟨c.toNat - 48, hlt⟩, Char.toNat_inj.1 ?_⟩
  rw [Nat.toNat_digitChar_of_lt_ten hlt]
  omega

theorem exists_digitChars {cs : List Char} (h : ∀ c ∈ cs, c.isDigit = true) :
    ∃ digits, digitChars digits = cs := by
  induction cs with
  | nil => exact ⟨[], rfl⟩
  | cons c cs ih =>
    obtain ⟨hc, hcs⟩ := List.forall_mem_cons.1 h
    obtain ⟨d, rfl⟩ := exists_digitChar hc
    obtain ⟨digits, rfl⟩ := ih hcs
    exact ⟨d :: digits, rfl⟩

/-- Digits are converted to their value in base ten. -/
theorem ofDigits_digitChars (digits : List (Fin 10)) :
    ofDigits (digitChars digits) = digitsValue digits := by
  -- From the front: a digit counts the power of ten of the number of digits after it.
  induction digits with
  | nil => rfl
  | cons d digits ih =>
    have hfirst : ofDigits [Nat.digitChar d] = d := by
      change 10 * 0 + ((Nat.digitChar d).toNat - 48) = d
      rw [Nat.toNat_digitChar_of_lt_ten d.isLt]
      omega
    calc ofDigits (digitChars (d :: digits))
        = ofDigits [Nat.digitChar d] * 10 ^ (digitChars digits).length +
            ofDigits (digitChars digits) := ofDigits_append [Nat.digitChar d] (digitChars digits)
      _ = d * 10 ^ digits.length + digitsValue digits := by rw [hfirst, ih, length_digitChars]
      _ = digitsValue digits + 10 ^ (digits.map Fin.val).length * d := by
          rw [List.length_map, Nat.add_comm, Nat.mul_comm]
      _ = digitsValue (d :: digits) := (Nat.ofDigits_reverse_cons _ _).symm

/-- Digits may be converted if there is one, and no more than the limit. -/
theorem isConvertible_digitChars {digits : List (Fin 10)} :
    isConvertible (digitChars digits) = true ↔ digits ≠ [] ∧ digits.length ≤ 4300 := by
  have hall : (digitChars digits).all Char.isDigit = true :=
    List.all_eq_true.2 fun c hc => isDigit_of_mem_digitChars hc
  unfold isConvertible
  rw [hall, length_digitChars]
  simp only [Bool.and_true, Bool.and_eq_true, Bool.not_eq_true', List.isEmpty_eq_false_iff,
    digitChars_ne_nil, decide_eq_true_eq]
  rfl

/-! ## Signs -/

theorem signed_eq_apply (sign : Sign) (n : Nat) : signed (sign == .minus) n = sign.apply n := by
  cases sign <;> rfl

/-- The sign of a numeral is taken off. -/
theorem splitSign_append (sign : Sign) {digits : List (Fin 10)} (h : digits ≠ []) :
    splitSign (sign.text ++ digitChars digits) = (sign == .minus, digitChars digits) := by
  cases sign with
  | plus | minus => rfl
  | none =>
    obtain ⟨c, cs, heq⟩ := List.exists_cons_of_ne_nil (digitChars_ne_nil.2 h)
    have hc : c.isDigit = true := isDigit_of_mem_digitChars (heq ▸ List.mem_cons_self)
    rw [heq]
    exact splitSign_digit hc cs

/-- What is taken off a text is a sign. -/
theorem exists_sign (cs : List Char) :
    ∃ sign : Sign, sign.text ++ (splitSign cs).2 = cs ∧ (sign == .minus) = (splitSign cs).1 := by
  unfold splitSign
  split
  · exact ⟨.minus, rfl, rfl⟩
  · exact ⟨.plus, rfl, rfl⟩
  · exact ⟨.none, rfl, rfl⟩

/-! ## Reading -/

theorem read?_text_parts (p : Parts) : read? p.text = some p.value := by
  unfold read? Parts.text Parts.value
  simp only [String.toList_ofList, splitSign_append p.sign p.digits_ne]
  rw [if_pos (isConvertible_digitChars.2 ⟨p.digits_ne, p.length_le⟩), ofDigits_digitChars,
    signed_eq_apply]

/-- A token is read as an integer exactly if it denotes it. -/
theorem read?_eq_some_iff {token : String} {n : Int} :
    read? token = some n ↔ Denotes token n := by
  constructor
  · intro h
    obtain ⟨sign, htoken, hsign⟩ := exists_sign token.toList
    unfold read? at h
    generalize splitSign token.toList = split at h htoken hsign
    obtain ⟨negative, cs⟩ := split
    simp only at h htoken hsign
    obtain ⟨hconvertible, hvalue⟩ := Option.ite_none_right_eq_some.1 h
    have hdigits : ∀ c ∈ cs, c.isDigit = true := by
      simp only [isConvertible, Bool.and_eq_true, List.all_eq_true] at hconvertible
      exact hconvertible.1.2
    obtain ⟨digits, rfl⟩ := exists_digitChars hdigits
    obtain ⟨hne, hlength⟩ := isConvertible_digitChars.1 hconvertible
    refine ⟨⟨sign, digits, hne, hlength⟩, ?_, ?_⟩
    · rw [Parts.text, htoken, String.ofList_toList]
    · rw [Parts.value, ← ofDigits_digitChars, ← signed_eq_apply, hsign]
      exact Option.some.inj hvalue
  · rintro ⟨p, rfl, rfl⟩
    exact read?_text_parts p

theorem read?_eq_none {token : String} (h : ∀ n, ¬ Denotes token n) : read? token = none := by
  cases hread : read? token with
  | none => rfl
  | some n => exact absurd (read?_eq_some_iff.1 hread) (h n)

/-! ## Writing -/

/-- The integers that may be written are those whose digits stay within the limit. -/
theorem isWritable_iff_length {n : Int} :
    isWritable n = true ↔ (Nat.digits 10 n.natAbs).length ≤ maxDigits := by
  rw [Nat.digits_length_le_iff (by decide), isWritable, decide_eq_true_iff, Nat.pow_eq]

/-- What is written for an integer is a numeral of it. -/
theorem denotes_text {n : Int} (h : isWritable n = true) : Denotes (text n) n :=
  read?_eq_some_iff.1 (read?_text h)

end Numeral

open Numeral (Denotes)

/-! ## Statements of integers -/

/-- A reading stops with a problem of a kind, on the line of its cursor. -/
def Raises {α : Type} (reading : Reading α) (c : Cursor) (kind : FaultKind) (p : Problem) : Prop :=
  Fails reading c (.fault (c.fault p)) ∧ p.kind = kind

namespace Scalar

variable {c : Cursor} {token : String}

theorem toInteger_iff {what : String} {n : Int} {c' : Cursor} :
    toInteger what token c = .ok n c' ↔ Denotes token n ∧ c' = c := by
  rw [toInteger_ok, Numeral.read?_eq_some_iff, eq_comm (a := c)]

/-- A problem with an integer is raised as it is, since it can be worded. -/
theorem positiveInteger_raises {operands : List String} (hr : c.remaining = operands) {p : Problem}
    (h : BadInteger c.keyword operands p) : Raises positiveInteger c p.kind p := by
  subst hr
  have hfails := positiveInteger_fails h
  have hwordable : (c.fault p).problem.Wordable := h.wordable
  rw [Cursor.failure, hwordable.ofFault_eq] at hfails
  exact ⟨hfails, rfl⟩

section OnlyOperand

variable (hr : c.remaining = [token])
include hr

theorem positiveInteger_iff {v : Int} :
    (∃ c', positiveInteger c = .ok v c') ↔ Denotes token v ∧ 1 ≤ v := by
  constructor
  · rintro ⟨c', h⟩
    obtain ⟨token', hr', hread, hpos, -⟩ := positiveInteger_ok.1 h
    obtain rfl := List.singleton_inj.1 (hr.symm.trans hr')
    exact ⟨Numeral.read?_eq_some_iff.1 hread, hpos⟩
  · rintro ⟨hv, hpos⟩
    exact ⟨_, positiveInteger_ok.2 ⟨token, hr, Numeral.read?_eq_some_iff.2 hv, hpos, rfl⟩⟩

theorem positiveInteger_malformed (h : ∀ v, ¬ Denotes token v) :
    Raises positiveInteger c .malformedNumber (.notAnInteger c.keyword token) :=
  positiveInteger_raises hr (.notAnInteger (Numeral.read?_eq_none h))

theorem positiveInteger_outOfRange {v : Int} (hv : Denotes token v) (hle : v ≤ 0) :
    Raises positiveInteger c .outOfRange (.notPositive v token) :=
  positiveInteger_raises hr (.notPositive (Numeral.read?_eq_some_iff.2 hv) hle)

end OnlyOperand

theorem classId_iff {rest : List String} (hr : c.remaining = classMarker :: token :: rest)
    {n : Nat} : (∃ c', classId c = .ok n c') ↔ Denotes token n := by
  rw [← Numeral.read?_eq_some_iff]
  constructor
  · rintro ⟨c', h⟩
    obtain ⟨token', rest', hr', hread, -⟩ := classId_ok.1 h
    obtain ⟨rfl, -⟩ := List.cons.inj (List.cons.inj (hr.symm.trans hr')).2
    exact hread
  · intro hread
    exact ⟨_, classId_ok.2 ⟨token, rest, hr, hread, rfl⟩⟩

end Scalar

/-! ## Integers in the text of a description -/

/-- The line of a field with one operand is one logical line, with that operand. -/
theorem LogicalLine.ofText_statementLine (f : Field) {operand : String} (h : IsToken operand) :
    ∃ line, ofText (statementLine f [operand] ++ "\n") = [line] ∧ line.keyword = f.keyword ∧
      line.operands = [operand] := by
  have htokens : ∀ token ∈ [f.keyword, operand], IsToken token :=
    List.forall_mem_cons.2 ⟨isToken_keyword f, List.forall_mem_singleton.2 h⟩
  have hlines := allTokens_layRows (List.cons_ne_nil _ []) (List.forall_mem_singleton.2 htokens)
  obtain ⟨line, hline, hall⟩ := List.map_eq_singleton_iff.1 hlines
  obtain ⟨hkeyword, hoperands⟩ := List.cons.inj hall
  exact ⟨line, hline, hkeyword, hoperands⟩

/-- The integer of a field is read back from the line that is written for it. -/
theorem Scalar.positiveInteger_statementLine {n : Int} (h : Numeral.isWritable n = true)
    (hpos : 1 ≤ n) (f : Field) (source : String) :
    ∃ line c', LogicalLine.ofText (statementLine f [Numeral.text n] ++ "\n") = [line] ∧
      line.keyword = f.keyword ∧ positiveInteger (line.cursor source) = .ok n c' := by
  obtain ⟨line, hline, hkeyword, hoperands⟩ :=
    LogicalLine.ofText_statementLine f (isToken_integer h)
  have hr : (line.cursor source).remaining = [Numeral.text n] := hoperands
  obtain ⟨c', hread⟩ := (positiveInteger_iff hr).2 ⟨Numeral.denotes_text h, hpos⟩
  exact ⟨line, c', hline, hkeyword, hread⟩

namespace Description

variable {ρ : Type} {d : Description ρ} {lines : List String} {n : Int} {numeral : String}

/-- A numeral stands in the lines of a description for an integer: as the operand of a field that
holds the integer, and as the class number of a pin of that class. -/
structure Prints (d : Description ρ) (lines : List String) (n : Int) (numeral : String) :
    Prop where
  ioRat : d.ioRat = n → statementLine .ioRat [numeral] ∈ lines
  subblocksPerCluster :
    d.subblocksPerCluster = n → statementLine .subblocksPerCluster [numeral] ∈ lines
  subblockLutSize : d.subblockLutSize = n → statementLine .subblockLutSize [numeral] ∈ lines
  classId : ∀ pin ∈ d.pins, pin.classId = n →
    ∃ field sides, statementLine field [classMarker, numeral, sides] ∈ lines

theorem pinLine_prints {pin : Pin} {line : String} (h : d.pinLine pin = .ok line)
    (hn : WriteFault.integer pin.classId = .ok numeral) :
    ∃ field sides, line = statementLine field [classMarker, numeral, sides] := by
  unfold pinLine at h
  split at h
  · cases h
  · rw [hn] at h
    cases h
    exact ⟨_, _, rfl⟩

variable [Operand ρ]

/-- Wherever an integer stands in a description, its numeral stands in the lines. -/
theorem formatLines_prints (h : d.formatLines = .ok lines)
    (hn : WriteFault.integer n = .ok numeral) : d.Prints lines n numeral := by
  unfold formatLines at h
  simp only [except_bind_ok] at h
  obtain ⟨ioRat, hioRat, chanWidthIo, -, chanX, -, chanY, -, pinLines, hpins, subblocks, hsubblocks,
    lutSize, hlutSize, h⟩ := h
  -- The statements of detailed routing, if there are any, come last and hold no integer.
  obtain ⟨detailed, rfl⟩ : ∃ detailed, lines = [statementLine .ioRat [ioRat],
      statementLine .chanWidthIo [chanWidthIo], chanX, chanY, ""] ++ pinLines ++
      ["", statementLine .subblocksPerCluster [subblocks],
        statementLine .subblockLutSize [lutSize]] ++ detailed := by
    split at h
    all_goals
      simp only [except_bind_ok, except_pure_ok] at h
      obtain ⟨detailed, -, rfl⟩ := h
      exact ⟨detailed, rfl⟩
  have hsame : ∀ {m : Int} {t : String}, WriteFault.integer m = .ok t → m = n → t = numeral := by
    rintro m t ht rfl
    exact Except.ok.inj (ht.symm.trans hn)
  refine ⟨fun heq => ?_, fun heq => ?_, fun heq => ?_, fun pin hpin heq => ?_⟩
  · simp [hsame hioRat heq]
  · simp [hsame hsubblocks heq]
  · simp [hsame hlutSize heq]
  · obtain ⟨line, hline, hpinLine⟩ := exists_of_mem_left (mapM_ok.1 hpins) hpin
    obtain ⟨field, sides, rfl⟩ := pinLine_prints hpinLine (heq ▸ hn)
    exact ⟨field, sides, by simp [hline]⟩

theorem format_prints {text : String} (h : d.format = .ok text)
    (hn : WriteFault.integer n = .ok numeral) :
    ∃ lines, text = "\n".intercalate lines ++ "\n" ∧ d.Prints lines n numeral := by
  unfold format at h
  obtain ⟨lines, hlines, htext⟩ := except_bind_ok.1 h
  exact ⟨lines, (except_pure_ok.1 htext).symm, formatLines_prints hlines hn⟩

end Description

/-! ## Reading and writing -/

/-- Integer tokens are read and written exactly. A token is read as an integer if and only if it is
a numeral of it. The statement of an integer returns what its only operand denotes if that is above
zero; an operand that is no numeral is a malformed number, and any other is out of range. A class
part returns what its token denotes. For an integer above zero of at most 4300 digits a numeral is
written wherever it stands in a description, and the integer is read back from it. -/
theorem integerTokens_exact {ρ : Type} [Operand ρ] (c : Cursor) (what token : String) :
    (∀ n c', Scalar.toInteger what token c = .ok n c' ↔ Denotes token n ∧ c' = c) ∧
    (c.remaining = [token] →
      (∀ v, (∃ c', Scalar.positiveInteger c = .ok v c') ↔ Denotes token v ∧ 1 ≤ v) ∧
      ((∀ v, ¬ Denotes token v) →
        Raises Scalar.positiveInteger c .malformedNumber (.notAnInteger c.keyword token)) ∧
      ∀ v ≤ 0, Denotes token v →
        Raises Scalar.positiveInteger c .outOfRange (.notPositive v token)) ∧
    (∀ rest, c.remaining = classMarker :: token :: rest →
      ∀ n : Nat, (∃ c', Scalar.classId c = .ok n c') ↔ Denotes token n) ∧
    ∀ n : Int, 1 ≤ n → (Nat.digits 10 n.natAbs).length ≤ 4300 →
      ∃ numeral, WriteFault.integer n = .ok numeral ∧
        Scalar.toInteger what numeral c = .ok n c ∧
        (∀ (f : Field) (source : String), ∃ line c',
          LogicalLine.ofText (statementLine f [numeral] ++ "\n") = [line] ∧
            line.keyword = f.keyword ∧ Scalar.positiveInteger (line.cursor source) = .ok n c') ∧
        ∀ (d : Description ρ) (text : String), d.format = .ok text →
          ∃ lines, text = "\n".intercalate lines ++ "\n" ∧ d.Prints lines n numeral := by
  refine ⟨fun n c' => Scalar.toInteger_iff, fun hr => ⟨fun v => Scalar.positiveInteger_iff hr,
    Scalar.positiveInteger_malformed hr, fun v hle hv =>
      Scalar.positiveInteger_outOfRange hr hv hle⟩, fun rest hr n => Scalar.classId_iff hr,
    fun n hpos hlength => ?_⟩
  have hwritable : Numeral.isWritable n = true := Numeral.isWritable_iff_length.2 hlength
  have hwritten := Description.integer_ok hwritable
  exact ⟨Numeral.text n, hwritten, Scalar.toInteger_iff.2 ⟨Numeral.denotes_text hwritable, rfl⟩,
    Scalar.positiveInteger_statementLine hwritable hpos,
    fun d text h => Description.format_prints h hwritten⟩

/-- A sign and zeros at the front are read, minus zero is out of range, and a digit of another
script is none. An integer of 4300 digits is written, and read from what is written. -/
theorem integerTokens_exact_longest :
    let line (token : String) : Cursor := (LogicalLine.mk 3 "io_rat" [token]).cursor "text"
    let channel : Channel Binary64 := ⟨.uniform, .zero, .zero, .zero, .zero⟩
    let d : Description Binary64 := {
      ioRat := 10 ^ 4299, chanWidthIo := .zero, chanX := channel, chanY := channel, classes := []
      pins := [], subblocksPerCluster := 1, subblockLutSize := 1, detailed := none }
    (∃ c', Scalar.positiveInteger (line "+007") = .ok 7 c') ∧
    Raises Scalar.positiveInteger (line "-0") .outOfRange (.notPositive 0 "-0") ∧
    Raises Scalar.positiveInteger (line "\u0663") .malformedNumber
      (.notAnInteger "io_rat" "\u0663") ∧
    (∃ c', Scalar.classId ((LogicalLine.mk 4 "inpin" [classMarker, "-00"]).cursor "text") =
      .ok 0 c') ∧
    ∃ numeral text lines, d.format = .ok text ∧ text = "\n".intercalate lines ++ "\n" ∧
      statementLine .ioRat [numeral] ∈ lines ∧ ∃ written c',
        LogicalLine.ofText (statementLine .ioRat [numeral] ++ "\n") = [written] ∧
          Scalar.positiveInteger (written.cursor "text") = .ok (10 ^ 4299) c' := by
  intro line channel d
  have hseven : Denotes "+007" 7 := ⟨⟨.plus, [0, 0, 7], by decide, by decide⟩, rfl, rfl⟩
  have hminus : Denotes "-0" 0 := ⟨⟨.minus, [0], by decide, by decide⟩, rfl, rfl⟩
  have hclass : Denotes "-00" 0 := ⟨⟨.minus, [0, 0], by decide, by decide⟩, rfl, rfl⟩
  have hscript : ∀ v, ¬ Denotes "\u0663" v := by
    rintro v h
    have hread : Numeral.read? "\u0663" = none := by decide
    cases hread.symm.trans (Numeral.read?_eq_some_iff.2 h)
  obtain ⟨text, htext⟩ := Option.isSome_iff_exists.1
    (show d.format.toOption.isSome = true by decide +kernel)
  have hformat : d.format = .ok text := toOption_ok.1 htext
  have hlength : (Nat.digits 10 ((10 : Int) ^ 4299).natAbs).length ≤ 4300 :=
    (Nat.digits_length_le_iff (by decide) _).2 (by decide +kernel)
  obtain ⟨-, hread, -, -⟩ := integerTokens_exact (ρ := Binary64) (line "+007") "io_rat" "+007"
  obtain ⟨-, hzero, -, -⟩ := integerTokens_exact (ρ := Binary64) (line "-0") "io_rat" "-0"
  obtain ⟨-, hother, -, -⟩ :=
    integerTokens_exact (ρ := Binary64) (line "\u0663") "io_rat" "\u0663"
  obtain ⟨-, -, hcited, hwritten⟩ := integerTokens_exact (ρ := Binary64)
    ((LogicalLine.mk 4 "inpin" [classMarker, "-00"]).cursor "text") "class number" "-00"
  obtain ⟨numeral, -, -, hreads, hprints⟩ := hwritten (10 ^ 4299) (by decide +kernel) hlength
  obtain ⟨written, c', hone, -, hlongest⟩ := hreads .ioRat "text"
  obtain ⟨lines, hlines, hd⟩ := hprints d text hformat
  exact ⟨((hread rfl).1 7).2 ⟨hseven, by decide⟩, (hzero rfl).2.2 0 le_rfl hminus,
    (hother rfl).2.1 hscript, (hcited [] rfl 0).2 hclass, numeral, text, lines, hformat, hlines,
    hd.ioRat rfl, written, c', hone, hlongest⟩

end Fabric
