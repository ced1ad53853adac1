import Fabric.Proofs.Reading
import Fabric.Proofs.Rounding
import Mathlib.Data.List.TakeWhile

/-!
# Numerals read back

Reading and writing of numerals meet at `DecimalParts.Written`, the shape of a decimal numeral:
digits with or without a point, then an exponent or nothing. Each layout has that shape, with the
value of its digits (`DecimalStyle.layOut_writes`), and a text of that shape is read as its parts.
So an integer that may be written reads back (`Numeral.read?_text`), and so does every finite value
(`Scalar.readReal?_text`).
-/

namespace Fabric

/-! ## Digits -/

namespace Numeral

@[simp] theorem ofDigits_toDigits (n : Nat) : ofDigits (Nat.toDigits 10 n) = n :=
  Nat.ofDigitChars_ten_toDigits

theorem ofDigits_append (xs ys : List Char) :
    ofDigits (xs ++ ys) = ofDigits xs * 10 ^ ys.length + ofDigits ys := by
  unfold ofDigits
  rw [Nat.ofDigitChars_append, Nat.ofDigitChars_eq_ofDigitChars_zero, Nat.mul_comm]

theorem ofDigits_zeros (k : Nat) : ofDigits (List.replicate k '0') = 0 := by
  unfold ofDigits
  rw [Nat.ofDigitChars_replicate_zero, Nat.mul_zero]

/-- Zeros before digits do not count. -/
theorem ofDigits_zeros_append (k : Nat) (xs : List Char) :
    ofDigits (List.replicate k '0' ++ xs) = ofDigits xs := by
  rw [ofDigits_append, ofDigits_zeros, Nat.zero_mul, Nat.zero_add]

/-- Zeros after digits are powers of ten. -/
theorem ofDigits_append_zeros (xs : List Char) (k : Nat) :
    ofDigits (xs ++ List.replicate k '0') = ofDigits xs * 10 ^ k := by
  rw [ofDigits_append, ofDigits_zeros, Nat.add_zero, List.length_replicate]

/-- Digits are worth less than the power of ten of their number. -/
theorem ofDigits_lt {digits : List Char} (h : ∀ c ∈ digits, c.isDigit = true) :
    ofDigits digits < 10 ^ digits.length := by
  induction digits with
  | nil => decide
  | cons c digits ih =>
    have hfirst : ofDigits [c] ≤ 9 := by
      have hc : c.toNat ≤ 57 := (Char.isDigit_iff_toNat.1 (h c List.mem_cons_self)).2
      change 10 * 0 + (c.toNat - 48) ≤ 9
      omega
    have hrest := ih fun x hx => h x (List.mem_cons_of_mem _ hx)
    rw [← List.singleton_append, ofDigits_append, List.length_append, List.length_singleton,
      Nat.add_comm 1, pow_succ']
    calc ofDigits [c] * 10 ^ digits.length + ofDigits digits
        < 9 * 10 ^ digits.length + 10 ^ digits.length :=
          Nat.add_lt_add_of_le_of_lt (Nat.mul_le_mul_right _ hfirst) hrest
      _ = 10 * 10 ^ digits.length := by omega

theorem isDigit_of_mem_toDigits {n : Nat} {c : Char} (h : c ∈ Nat.toDigits 10 n) :
    c.isDigit = true :=
  Nat.isDigit_of_mem_toDigits (by decide) (by decide) h

theorem isDigit_of_mem_zeros {k : Nat} {c : Char} (h : c ∈ List.replicate k '0') :
    c.isDigit = true := by
  rw [List.eq_of_mem_replicate h]
  rfl

/-! ## Integers -/

/-- What begins with a digit has no sign. -/
theorem splitSign_digit {c : Char} (h : c.isDigit = true) (rest : List Char) :
    splitSign (c :: rest) = (false, c :: rest) := by
  unfold splitSign
  split
  · rename_i heq
    cases heq
    cases h
  · rename_i heq
    cases heq
    cases h
  · rfl

theorem splitSign_toDigits (n : Nat) :
    splitSign (Nat.toDigits 10 n) = (false, Nat.toDigits 10 n) := by
  obtain ⟨c, rest, heq⟩ := List.exists_cons_of_ne_nil (@Nat.toDigits_ne_nil n 10)
  rw [heq]
  exact splitSign_digit (isDigit_of_mem_toDigits (heq ▸ List.mem_cons_self)) rest

theorem isConvertible_toDigits {n : Nat} (h : n < 10 ^ maxDigits) :
    isConvertible (Nat.toDigits 10 n) = true := by
  have hne : (Nat.toDigits 10 n).isEmpty = false := by
    rw [List.isEmpty_eq_false_iff]
    exact Nat.toDigits_ne_nil
  have hdigits : (Nat.toDigits 10 n).all Char.isDigit = true :=
    List.all_eq_true.2 fun c hc => isDigit_of_mem_toDigits hc
  have hlength : (Nat.toDigits 10 n).length ≤ maxDigits :=
    (Nat.length_toDigits_le_iff (by decide) (by decide)).2 h
  unfold isConvertible
  rw [hne, hdigits]
  exact decide_eq_true hlength

/-- The numeral of an integer that may be written reads back. -/
theorem read?_text {n : Int} (h : isWritable n = true) : read? (text n) = some n := by
  have hlimit : n.natAbs < 10 ^ maxDigits := of_decide_eq_true h
  have hconvertible := isConvertible_toDigits hlimit
  cases n with
  | ofNat m =>
    rw [Int.natAbs_ofNat'] at hconvertible
    unfold read? text
    simp only [String.toList_ofList, splitSign_toDigits]
    rw [if_pos hconvertible, ofDigits_toDigits]
    rfl
  | negSucc m =>
    rw [Int.natAbs_negSucc] at hconvertible
    unfold read? text
    simp only [String.toList_ofList, splitSign]
    rw [if_pos hconvertible, ofDigits_toDigits]
    rfl

theorem isWritable_natCast {n : Nat} : isWritable (n : Int) = true ↔ n < 10 ^ maxDigits :=
  decide_eq_true_iff

/-- An integer that was read may be written. -/
theorem isWritable_of_read? {token : String} {n : Int} (h : read? token = some n) :
    isWritable n = true := by
  unfold read? at h
  generalize splitSign token.toList = parts at h
  obtain ⟨negative, digits⟩ := parts
  simp only [Option.ite_none_right_eq_some, Option.some.injEq] at h
  obtain ⟨hdigits, rfl⟩ := h
  simp only [isConvertible, Bool.and_eq_true, List.all_eq_true, decide_eq_true_eq] at hdigits
  obtain ⟨⟨-, hdigits⟩, hlength⟩ := hdigits
  have habs : (signed negative (ofDigits digits)).natAbs = ofDigits digits := by
    cases negative <;> simp [signed]
  unfold isWritable
  rw [habs, decide_eq_true_eq]
  exact lt_of_lt_of_le (ofDigits_lt hdigits) (Nat.pow_le_pow_right (by decide) hlength)

/-- The characters of a numeral. -/
def isNumeralChar (c : Char) : Bool :=
  c.isDigit || c == '.' || c == 'e' || c == '+' || c == '-'

theorem isNumeralChar_of_isDigit {c : Char} (h : c.isDigit = true) : isNumeralChar c = true := by
  unfold isNumeralChar
  rw [h]
  rfl

/-- The codes of the characters of a numeral. -/
theorem toNat_of_isNumeralChar {c : Char} (h : isNumeralChar c = true) :
    (43 ≤ c.toNat ∧ c.toNat ≤ 57) ∨ c.toNat = 101 := by
  simp only [isNumeralChar, Bool.or_eq_true, beq_iff_eq, Char.isDigit_iff_toNat] at h
  rcases h with (((h | rfl) | rfl) | rfl) | rfl
  · exact .inl ⟨Nat.le_trans (by decide) h.1, h.2⟩
  all_goals decide

/-- No numeral has a blank in it. -/
theorem isBlank_of_isNumeralChar {c : Char} (h : isNumeralChar c = true) :
    Text.isBlank c = false := by
  have hcode := toNat_of_isNumeralChar h
  simp only [Text.isBlank, Bool.or_eq_false_iff, Bool.and_eq_false_iff, beq_eq_false_iff_ne,
    decide_eq_false_iff_not]
  omega

theorem isNumeralChar_text (n : Int) : ∀ c ∈ (text n).toList, isNumeralChar c = true := by
  intro c hc
  cases n with
  | ofNat m =>
    rw [text, String.toList_ofList] at hc
    exact isNumeralChar_of_isDigit (isDigit_of_mem_toDigits hc)
  | negSucc m =>
    rw [text, String.toList_ofList, List.mem_cons] at hc
    rcases hc with rfl | hc
    · rfl
    · exact isNumeralChar_of_isDigit (isDigit_of_mem_toDigits hc)

end Numeral

namespace Binary64

open Numeral

/-! ## The shape of a decimal numeral -/

/-- What stands after the digits of a numeral: nothing, or an exponent. -/
inductive ExponentWritten : List Char → Int → Prop where
  | absent : ExponentWritten [] 0
  | present (e : Int) : ExponentWritten (exponentText e) e

namespace ExponentWritten

variable {tail : List Char} {e : Int}

theorem readExponent?_digits {ds : List Char} (hne : ds ≠ []) (hds : ∀ c ∈ ds, c.isDigit = true)
    (negative : Bool) : readExponent? ('e' :: (if negative then '-' else '+') :: ds) =
      some (Numeral.signed negative (ofDigits ds)) := by
  have hsign : splitSign ((if negative then '-' else '+') :: ds) = (negative, ds) := by
    cases negative <;> rfl
  have hok : (!ds.isEmpty && ds.all Char.isDigit) = true := by
    rw [List.isEmpty_eq_false_iff.2 hne, List.all_eq_true.2 hds]
    rfl
  unfold readExponent?
  simp only [hsign]
  rw [Bool.and_assoc, hok]
  rfl

theorem reads (h : ExponentWritten tail e) : readExponent? tail = some e := by
  cases h with
  | absent => rfl
  | present =>
    have hdigits : ∀ c ∈ Nat.toDigits 10 e.natAbs, c.isDigit = true :=
      fun c hc => isDigit_of_mem_toDigits hc
    have hsigned : Numeral.signed (decide (e < 0)) e.natAbs = e := by
      unfold Numeral.signed
      simp only [decide_eq_true_eq]
      split <;> omega
    have hmark : (if e < 0 then '-' else '+') = if decide (e < 0) then '-' else '+' := by
      simp only [decide_eq_true_eq]
    unfold exponentText
    simp only [List.cons_append, List.nil_append]
    rw [hmark]
    by_cases hshort : (Nat.toDigits 10 e.natAbs).length < 2
    · -- A single digit is preceded by a zero.
      rw [if_pos hshort]
      have hpadded : ∀ c ∈ '0' :: Nat.toDigits 10 e.natAbs, c.isDigit = true := by
        rintro c (_ | ⟨_, hc⟩)
        · rfl
        · exact hdigits c hc
      have hvalue := ofDigits_zeros_append 1 (Nat.toDigits 10 e.natAbs)
      rw [ofDigits_toDigits] at hvalue
      rw [readExponent?_digits (List.cons_ne_nil _ _) hpadded]
      have hread := congrArg (fun n : Nat => some (Numeral.signed (decide (e < 0)) n)) hvalue
      simp only [hsigned] at hread
      exact hread
    · rw [if_neg hshort, readExponent?_digits Nat.toDigits_ne_nil hdigits, ofDigits_toDigits,
        hsigned]

/-- The digits of a numeral end where its exponent begins. -/
theorem stops (h : ExponentWritten tail e) :
    tail = [] ∨ ∃ c rest, tail = c :: rest ∧ c.isDigit = false ∧ c ≠ '.' := by
  cases h with
  | absent => exact .inl rfl
  | present => exact .inr ⟨_, _, rfl, by decide, by decide⟩

theorem takeWhile (h : ExponentWritten tail e) : tail.takeWhile Char.isDigit = [] := by
  obtain rfl | ⟨c, rest, rfl, hc, -⟩ := h.stops
  · rfl
  · rw [List.takeWhile_cons_of_neg (by simp [hc])]

theorem dropWhile (h : ExponentWritten tail e) : tail.dropWhile Char.isDigit = tail := by
  obtain rfl | ⟨c, rest, rfl, hc, -⟩ := h.stops
  · rfl
  · rw [List.dropWhile_cons_of_neg (by simp [hc])]

theorem isNumeralChar (h : ExponentWritten tail e) : ∀ c ∈ tail, isNumeralChar c = true := by
  have hdigits : ∀ c ∈ Nat.toDigits 10 e.natAbs, Numeral.isNumeralChar c = true :=
    fun c hc => isNumeralChar_of_isDigit (isDigit_of_mem_toDigits hc)
  cases h with
  | absent => exact fun c hc => absurd hc List.not_mem_nil
  | present =>
    intro c hc
    unfold exponentText at hc
    simp only [List.cons_append, List.nil_append, List.mem_cons] at hc
    rcases hc with rfl | rfl | hc
    · rfl
    · split <;> rfl
    · split at hc
      · rcases List.mem_cons.1 hc with rfl | hc
        · rfl
        · exact hdigits c hc
      · exact hdigits c hc

end ExponentWritten

/-- A text is a decimal numeral with these parts. -/
inductive DecimalParts.Written : List Char → DecimalParts → Prop where
  | whole {whole tail : List Char} {e : Int} (hne : whole ≠ [])
      (hwhole : ∀ c ∈ whole, c.isDigit = true) (htail : ExponentWritten tail e) :
    Written (whole ++ tail) ⟨whole, [], e⟩
  | point {whole fraction tail : List Char} {e : Int} (hne : whole ≠ [])
      (hwhole : ∀ c ∈ whole, c.isDigit = true) (hfraction : ∀ c ∈ fraction, c.isDigit = true)
      (htail : ExponentWritten tail e) :
    Written (whole ++ '.' :: (fraction ++ tail)) ⟨whole, fraction, e⟩

namespace DecimalParts.Written

variable {text : List Char} {p : DecimalParts}

theorem readParts (h : Written text p) : readParts? text = some p := by
  cases h with
  | @whole whole tail e hne hwhole htail =>
    have htake : (whole ++ tail).takeWhile Char.isDigit = whole := by
      rw [List.takeWhile_append_of_pos hwhole, htail.takeWhile, List.append_nil]
    have hdrop : (whole ++ tail).dropWhile Char.isDigit = tail := by
      rw [List.dropWhile_append_of_pos hwhole, htail.dropWhile]
    have hne' : whole.isEmpty = false := List.isEmpty_eq_false_iff.2 hne
    unfold readParts?
    simp only [htake, hdrop, hne']
    obtain rfl | ⟨c, rest, rfl, -, hc⟩ := htail.stops
    · simp [htail.reads]
    · split
      · rename_i heq
        cases heq
        exact absurd rfl hc
      · simp [htail.reads]
  | @point whole fraction tail e hne hwhole hfraction htail =>
    have htake : (whole ++ '.' :: (fraction ++ tail)).takeWhile Char.isDigit = whole := by
      rw [List.takeWhile_append_of_pos hwhole, List.takeWhile_cons_of_neg (by decide),
        List.append_nil]
    have hdrop : (whole ++ '.' :: (fraction ++ tail)).dropWhile Char.isDigit =
        '.' :: (fraction ++ tail) := by
      rw [List.dropWhile_append_of_pos hwhole, List.dropWhile_cons_of_neg (by decide)]
    have htake' : (fraction ++ tail).takeWhile Char.isDigit = fraction := by
      rw [List.takeWhile_append_of_pos hfraction, htail.takeWhile, List.append_nil]
    have hdrop' : (fraction ++ tail).dropWhile Char.isDigit = tail := by
      rw [List.dropWhile_append_of_pos hfraction, htail.dropWhile]
    have hne' : whole.isEmpty = false := List.isEmpty_eq_false_iff.2 hne
    unfold readParts?
    simp only [htake, hdrop, htake', hdrop', hne', htail.reads]
    rfl

theorem head (h : Written text p) : ∃ c rest, text = c :: rest ∧ c.isDigit = true := by
  cases h with
  | @whole whole tail e hne hwhole htail =>
    obtain ⟨c, rest, rfl⟩ := List.exists_cons_of_ne_nil hne
    exact ⟨c, _, rfl, hwhole c List.mem_cons_self⟩
  | @point whole fraction tail e hne hwhole hfraction htail =>
    obtain ⟨c, rest, rfl⟩ := List.exists_cons_of_ne_nil hne
    exact ⟨c, _, rfl, hwhole c List.mem_cons_self⟩

theorem isNumeralChar (h : Written text p) : ∀ c ∈ text, isNumeralChar c = true := by
  intro c hc
  cases h with
  | whole hne hwhole htail =>
    rcases List.mem_append.1 hc with hc | hc
    · exact isNumeralChar_of_isDigit (hwhole c hc)
    · exact htail.isNumeralChar c hc
  | point hne hwhole hfraction htail =>
    simp only [List.mem_append, List.mem_cons] at hc
    rcases hc with hc | rfl | hc | hc
    · exact isNumeralChar_of_isDigit (hwhole c hc)
    · rfl
    · exact isNumeralChar_of_isDigit (hfraction c hc)
    · exact htail.isNumeralChar c hc

/-- No digit begins a word for infinity or for not a number. -/
theorem readUnsigned (h : Written text p) : readUnsigned? text = some (some p.magnitude) := by
  obtain ⟨c, rest, rfl, hc⟩ := h.head
  have hlower : c.toLower = c := by
    rw [Char.isDigit_iff_toNat] at hc
    unfold Char.toLower
    refine dif_neg fun hupper => ?_
    have hle := UInt32.le_iff_toNat_le.1 hupper.1
    exact absurd (Nat.le_trans hle hc.2) (by decide)
  have hword : ∀ d word, d.isDigit = false → (c :: rest).map Char.toLower ≠ d :: word := by
    intro d word hd heq
    rw [List.map_cons, hlower] at heq
    obtain rfl := (List.cons.inj heq).1
    rw [hc] at hd
    cases hd
  unfold readUnsigned?
  simp only
  rw [if_neg, if_neg, h.readParts]
  · rfl
  · exact hword _ _ rfl
  · rintro (heq | heq)
    · exact hword _ _ rfl heq
    · exact hword _ _ rfl heq

end DecimalParts.Written

/-! ## Layouts -/

/-- A text is a numeral of a magnitude. -/
def Writes (text : List Char) (m : Magnitude) : Prop :=
  ∃ p, DecimalParts.Written text p ∧ p.magnitude = m

section Layouts

variable {digits : List Char} (hne : digits ≠ []) (hdigits : ∀ c ∈ digits, c.isDigit = true)

include hdigits in
theorem writes_below_one {point : Int} (hpoint : point ≤ 0) :
    Writes (['0', '.'] ++ List.replicate (-point).toNat '0' ++ digits)
      (.ofScientific (ofDigits digits) (point - digits.length)) := by
  have hfraction : ∀ c ∈ List.replicate (-point).toNat '0' ++ digits, c.isDigit = true := by
    intro c hc
    rcases List.mem_append.1 hc with hc | hc
    · exact isDigit_of_mem_zeros hc
    · exact hdigits c hc
  have hwritten := DecimalParts.Written.point (List.cons_ne_nil '0' [])
    (fun c hc => List.mem_singleton.1 hc ▸ rfl) hfraction .absent
  rw [List.append_nil] at hwritten
  refine ⟨_, hwritten, ?_⟩
  have hvalue : ofDigits ('0' :: (List.replicate (-point).toNat '0' ++ digits)) =
      ofDigits digits := ofDigits_zeros_append ((-point).toNat + 1) digits
  have hexponent : (0 : Int) - (List.replicate (-point).toNat '0' ++ digits).length =
      point - digits.length := by
    rw [List.length_append, List.length_replicate]
    omega
  unfold DecimalParts.magnitude
  simp only
  rw [hexponent]
  exact congrArg (Magnitude.ofScientific · _) hvalue

include hne hdigits in
/-- A whole number, with zeros up to its point, and a zero after it if the point is kept. -/
theorem writes_whole (zeros : Nat) (keepsPoint : Bool) :
    Writes (digits ++ List.replicate zeros '0' ++ if keepsPoint then ['.', '0'] else [])
      (.ofScientific (ofDigits digits) zeros) := by
  have hwhole : ∀ c ∈ digits ++ List.replicate zeros '0', c.isDigit = true := by
    intro c hc
    rcases List.mem_append.1 hc with hc | hc
    · exact hdigits c hc
    · exact isDigit_of_mem_zeros hc
  have hne' := List.append_ne_nil_of_left_ne_nil hne (List.replicate zeros '0')
  have hzero := Magnitude.ofScientific_shift (ofDigits digits) zeros zeros
  rw [Int.sub_self] at hzero
  cases keepsPoint with
  | false =>
    refine ⟨_, .whole hne' hwhole .absent, ?_⟩
    unfold DecimalParts.magnitude
    simp only [List.append_nil, List.length_nil, Int.natCast_zero, Int.sub_zero]
    rw [ofDigits_append_zeros, hzero]
  | true =>
    have hwritten := DecimalParts.Written.point hne' hwhole
      (fun c hc => List.mem_singleton.1 hc ▸ rfl : ∀ c ∈ ['0'], c.isDigit = true) .absent
    refine ⟨_, hwritten, ?_⟩
    have hlast := ofDigits_append_zeros (digits ++ List.replicate zeros '0') 1
    rw [List.replicate_one] at hlast
    unfold DecimalParts.magnitude
    simp only [List.length_singleton]
    rw [hlast, Magnitude.ofScientific_shift, ofDigits_append_zeros, hzero]

include hdigits in
theorem writes_split {places : Nat} (hpos : 0 < places) (hlt : places < digits.length) :
    Writes (digits.take places ++ ['.'] ++ digits.drop places)
      (.ofScientific (ofDigits digits) (places - digits.length)) := by
  have htake : digits.take places ≠ [] := by
    rw [← List.length_pos_iff, List.length_take]
    omega
  have hdrop : ∀ c ∈ digits.drop places, c.isDigit = true :=
    fun c hc => hdigits c (List.mem_of_mem_drop hc)
  have hwritten := DecimalParts.Written.point htake
    (fun c hc => hdigits c (List.mem_of_mem_take hc)) hdrop .absent
  rw [List.append_nil, List.append_cons] at hwritten
  refine ⟨_, hwritten, ?_⟩
  unfold DecimalParts.magnitude
  simp only
  rw [List.take_append_drop, List.length_drop]
  congr 1
  omega

theorem writes_exponent {first : Char} {rest : List Char}
    (h : ∀ c ∈ first :: rest, c.isDigit = true) (exponent : Int) :
    Writes (first :: '.' :: (rest ++ exponentText exponent))
      (.ofScientific (ofDigits (first :: rest)) (exponent - rest.length)) := by
  have hwritten := DecimalParts.Written.point (List.cons_ne_nil first [])
    (fun c hc => List.mem_singleton.1 hc ▸ h first List.mem_cons_self)
    (fun c hc => h c (List.mem_cons_of_mem _ hc)) (.present exponent)
  exact ⟨_, hwritten, rfl⟩

/-- A single digit has no point before its exponent. -/
theorem writes_digit_exponent {digit : Char} (h : digit.isDigit = true) (exponent : Int) :
    Writes (digit :: exponentText exponent) (.ofScientific (ofDigits [digit]) exponent) := by
  have hwritten := DecimalParts.Written.whole (List.cons_ne_nil digit [])
    (fun c hc => List.mem_singleton.1 hc ▸ h) (.present exponent)
  refine ⟨_, hwritten, ?_⟩
  unfold DecimalParts.magnitude
  simp only [List.append_nil, List.length_nil, Int.natCast_zero, Int.sub_zero]

include hne hdigits in
/-- Every layout of digits is a numeral of their value. -/
theorem DecimalStyle.layOut_writes (style : DecimalStyle) (point : Int) :
    Writes (style.layOut digits point)
      (.ofScientific (ofDigits digits) (point - digits.length)) := by
  unfold layOut
  simp only
  by_cases hpositional : style.leastExponent ≤ point - 1 ∧ point - 1 < style.exponentLimit
  · rw [if_pos hpositional]
    by_cases hpoint : point ≤ 0
    · rw [if_pos hpoint]
      exact writes_below_one hdigits hpoint
    · rw [if_neg hpoint]
      by_cases hwhole : digits.length ≤ point.toNat
      · rw [if_pos hwhole]
        have hexponent : point - digits.length = (point.toNat - digits.length : Nat) := by omega
        rw [hexponent]
        exact writes_whole hne hdigits _ _
      · rw [if_neg hwhole]
        have hexponent : point - digits.length = point.toNat - digits.length := by omega
        rw [hexponent]
        exact writes_split hdigits (by omega) (by omega)
  · rw [if_neg hpositional]
    match digits, hne, hdigits with
    | [digit], _, hdigits => exact writes_digit_exponent (hdigits digit List.mem_cons_self) _
    | first :: second :: rest, _, hdigits =>
      have hwritten := writes_exponent hdigits (point - 1)
      have hexponent : point - 1 - (second :: rest).length =
          point - (first :: second :: rest).length := by
        simp only [List.length_cons]
        omega
      rw [hexponent] at hwritten
      exact hwritten

end Layouts

/-- The significant digits of a decimal are those of its coefficient but for zeros at its end. -/
theorem Decimal.significant_eq {d : Decimal} (h : d.coefficient ≠ 0) : ∃ zeros : Nat,
    d.significant.1 ≠ [] ∧ (∀ c ∈ d.significant.1, c.isDigit = true) ∧
      d.coefficient = ofDigits d.significant.1 * 10 ^ zeros ∧
      d.significant.2 = d.significant.1.length + zeros + d.exponent := by
  have hall : ∀ c ∈ Nat.toDigits 10 d.coefficient, c.isDigit = true :=
    fun c hc => isDigit_of_mem_toDigits hc
  have hvalue := ofDigits_toDigits d.coefficient
  unfold significant
  simp only
  generalize Nat.toDigits 10 d.coefficient = all at hall hvalue ⊢
  obtain ⟨zeros, hzeros⟩ : ∃ zeros, all.reverse.takeWhile (· == '0') = List.replicate zeros '0' :=
    ⟨_, List.eq_replicate_of_mem fun c hc => by simpa using List.mem_takeWhile_imp hc⟩
  have hsplit : (all.reverse.dropWhile (· == '0')).reverse ++ List.replicate zeros '0' = all := by
    rw [← List.reverse_replicate, ← hzeros, ← List.reverse_append, List.takeWhile_append_dropWhile,
      List.reverse_reverse]
  generalize (all.reverse.dropWhile (· == '0')).reverse = kept at hsplit ⊢
  subst hsplit
  rw [ofDigits_append_zeros] at hvalue
  have hkept : kept.isEmpty = false := by
    rw [List.isEmpty_eq_false_iff]
    rintro rfl
    exact h (hvalue.symm.trans (Nat.zero_mul _))
  rw [hkept]
  refine ⟨zeros, List.isEmpty_eq_false_iff.1 hkept,
    fun c hc => hall c (List.mem_append_left _ hc), hvalue.symm, ?_⟩
  rw [List.length_append, List.length_replicate]
  rfl

/-- A decimal is written as a numeral of its value. -/
theorem DecimalStyle.layOut_significant (style : DecimalStyle) {d : Decimal}
    (h : d.coefficient ≠ 0) : Writes (style.layOut d.significant.1 d.significant.2)
      (.ofScientific d.coefficient d.exponent) := by
  obtain ⟨zeros, hne, hdigits, hcoefficient, hpoint⟩ := Decimal.significant_eq h
  have hwritten := style.layOut_writes hne hdigits d.significant.2
  have hexponent : d.significant.2 - d.significant.1.length = d.exponent + zeros := by omega
  have hshift := Magnitude.ofScientific_shift (ofDigits d.significant.1) (d.exponent + zeros) zeros
  rw [Int.add_sub_cancel, ← hcoefficient] at hshift
  rw [hexponent, ← hshift] at hwritten
  exact hwritten

theorem Decimal.significant_digits (d : Decimal) :
    d.significant.1 ≠ [] ∧ ∀ c ∈ d.significant.1, c.isDigit = true := by
  unfold significant
  simp only
  split
  · exact ⟨List.cons_ne_nil _ _, fun c hc => List.mem_singleton.1 hc ▸ rfl⟩
  · rename_i hkept
    refine ⟨fun hnil => hkept (List.isEmpty_iff.2 hnil), fun c hc => ?_⟩
    rw [List.mem_reverse] at hc
    have hall := List.mem_reverse.1 ((List.dropWhile_sublist _).mem hc)
    exact isDigit_of_mem_toDigits hall

/-- What is written of a value, finite or not, has no blank in it. -/
theorem DecimalStyle.isBlank_write (style : DecimalStyle) (decimal : Magnitude → Decimal)
    (x : Binary64) : ∀ c ∈ (style.write decimal x).toList, Text.isBlank c = false := by
  cases x with
  | nan =>
    have hnan : ("nan".toList.all fun c => !Text.isBlank c) = true := by decide
    change ∀ c ∈ "nan".toList, Text.isBlank c = false
    simpa using hnan
  | signed negative m =>
    have hlayout : ∀ digits point, digits ≠ [] → (∀ c ∈ digits, c.isDigit = true) →
        ∀ c ∈ style.layOut digits point, Text.isBlank c = false := by
      intro digits point hne hdigits c hc
      obtain ⟨p, hp, -⟩ := style.layOut_writes hne hdigits point
      exact isBlank_of_isNumeralChar (hp.isNumeralChar c hc)
    have hdigits := (decimal m).significant_digits
    have hbody : ∀ c ∈ (if m.isInfinite then ['i', 'n', 'f']
        else if m.isZero then style.layOut ['0'] 1
        else style.layOut (decimal m).significant.1 (decimal m).significant.2),
        Text.isBlank c = false := by
      split
      · have hinf : (['i', 'n', 'f'].all fun c => !Text.isBlank c) = true := by decide
        simpa using hinf
      · split
        · exact hlayout _ _ (List.cons_ne_nil _ _) fun c hc => List.mem_singleton.1 hc ▸ rfl
        · exact hlayout _ _ hdigits.1 hdigits.2
    unfold write
    simp only [String.toList_ofList]
    intro c hc
    split at hc
    · rcases List.mem_cons.1 hc with rfl | hc
      · rfl
      · exact hbody c hc
    · exact hbody c hc

/-! ## Values -/

namespace Writes

variable {body : List Char} {m : Magnitude}

theorem read (h : Writes body m) (negative : Bool) :
    read? (String.ofList (if negative then '-' :: body else body)) = some (.signed negative m) := by
  obtain ⟨p, hp, rfl⟩ := h
  obtain ⟨c, rest, rfl, hc⟩ := hp.head
  unfold read?
  cases negative with
  | true =>
    simp only [if_true, String.toList_ofList, splitSign, hp.readUnsigned]
    rfl
  | false =>
    simp only [Bool.false_eq_true, if_false, String.toList_ofList, splitSign_digit hc,
      hp.readUnsigned]
    rfl

theorem isNumeralChar (h : Writes body m) (negative : Bool) :
    ∀ c ∈ (if negative then '-' :: body else body), isNumeralChar c = true := by
  obtain ⟨p, hp, -⟩ := h
  intro c hc
  cases negative with
  | true =>
    rcases List.mem_cons.1 hc with rfl | hc
    · rfl
    · exact hp.isNumeralChar c hc
  | false => exact hp.isNumeralChar c hc

end Writes

/-- What a finite value is written as: a numeral of its magnitude, after its sign. -/
theorem exists_writes {negative : Bool} {m : Magnitude} (h : m.isInfinite = false) :
    ∃ body, text (.signed negative m) = String.ofList (if negative then '-' :: body else body) ∧
      Writes body m := by
  unfold text DecimalStyle.write
  simp only [h, Bool.false_eq_true, if_false]
  refine ⟨_, rfl, ?_⟩
  by_cases hm : m = .zero
  · have hzero : m.isZero = true := by
      rw [hm]
      rfl
    have hwritten := exactStyle.layOut_writes (List.cons_ne_nil '0' [])
      (fun c hc => List.mem_singleton.1 hc ▸ rfl) 1
    rw [show ofDigits ['0'] = 0 from rfl, Magnitude.ofScientific_zero, ← hm] at hwritten
    rw [hzero, if_pos rfl]
    exact hwritten
  · have hzero : m.isZero = false := by
      rw [Magnitude.isZero, beq_eq_false_iff_ne]
      intro hordinal
      exact hm (by
        cases m
        cases hordinal
        rfl)
    have hreads := Magnitude.ofScientific_shortest hm
    have hcoefficient : m.shortest.coefficient ≠ 0 := by
      intro hc
      rw [hc, Magnitude.ofScientific_zero] at hreads
      exact hm hreads.symm
    have hwritten := exactStyle.layOut_significant hcoefficient
    rw [hreads] at hwritten
    rw [hzero]
    generalize m.shortest.significant = written at hwritten ⊢
    obtain ⟨digits, point⟩ := written
    exact hwritten

/-- The numeral of a finite value reads back. -/
theorem read?_text {x : Binary64} (h : x.isFinite = true) : read? x.text = some x := by
  cases x with
  | nan => cases h
  | signed negative m =>
    obtain ⟨body, htext, hbody⟩ := @exists_writes negative m (Bool.not_eq_true' _ ▸ h)
    rw [htext]
    exact hbody.read negative

theorem isNumeralChar_text {x : Binary64} (h : x.isFinite = true) :
    ∀ c ∈ x.text.toList, isNumeralChar c = true := by
  cases x with
  | nan => cases h
  | signed negative m =>
    obtain ⟨body, htext, hbody⟩ := @exists_writes negative m (Bool.not_eq_true' _ ▸ h)
    rw [htext, String.toList_ofList]
    exact hbody.isNumeralChar negative

end Binary64

/-- The numeral of a finite value is one of a real operand, and reads back. -/
theorem Scalar.readReal?_text {x : Binary64} (h : x.isFinite = true) :
    readReal? x.text = some x := by
  have hplain : isPlain x.text = true := by
    refine List.all_eq_true.2 fun c hc => ?_
    have hcode := Numeral.toNat_of_isNumeralChar (Binary64.isNumeralChar_text h c hc)
    have hne : c ≠ '_' := by
      rintro rfl
      exact absurd hcode (by decide)
    simp only [Bool.and_eq_true, decide_eq_true_eq]
    exact ⟨by omega, hne⟩
  unfold readReal?
  rw [if_pos hplain]
  exact Binary64.read?_text h

end Fabric
