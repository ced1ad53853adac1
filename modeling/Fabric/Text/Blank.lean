/-!
# Blanks and line boundaries

Two classes of characters. A *blank* separates the words of a statement; a *line boundary* ends a
line of a report. Every line boundary is a blank (`isBlank_of_isLineBoundary`), so a word never
contains one: this is why no word of a description can break a line of a report.
-/

namespace Fabric.Text

/-- Blanks are the ASCII controls from tab to carriage return and from the file to the unit
separator, the space, the next-line control and the Unicode spaces and separators. The zero-width
space, the byte order mark and the Mongolian vowel separator are no blanks. -/
def isBlank (c : Char) : Bool :=
  let n := c.toNat
  (9 ≤ n && n ≤ 13) || (28 ≤ n && n ≤ 32) || n == 0x85 || n == 0xa0 || n == 0x1680 ||
    (0x2000 ≤ n && n ≤ 0x200a) || n == 0x2028 || n == 0x2029 || n == 0x202f || n == 0x205f ||
    n == 0x3000

/-- A line of a report ends at a line feed, a vertical tab, a form feed, a carriage return, one of
the file, group and record separators, the next-line control or a Unicode line or paragraph
separator. -/
def isLineBoundary (c : Char) : Bool :=
  let n := c.toNat
  (10 ≤ n && n ≤ 13) || (28 ≤ n && n ≤ 30) || n == 0x85 || n == 0x2028 || n == 0x2029

theorem isBlank_of_isLineBoundary {c : Char} (h : isLineBoundary c = true) : isBlank c = true := by
  simp only [isLineBoundary, isBlank, Bool.or_eq_true, Bool.and_eq_true, decide_eq_true_eq,
    beq_iff_eq] at h ⊢
  omega

end Fabric.Text
