import Fabric.Text.Blank

/-!
# Words

A word is a maximal run of characters that are not blank. `words` lists them in order; nothing
else of the text is kept.
-/

namespace Fabric.Text

/-- The maximal blank-free runs of a text, in order. -/
def words (text : List Char) : List (List Char) :=
  (text.splitOnP isBlank).filter (· ≠ [])

/-- The text without the blanks at its end. -/
def trimEnd (text : List Char) : List Char :=
  (text.reverse.dropWhile isBlank).reverse

theorem ne_nil_of_mem_words {text w : List Char} (h : w ∈ words text) : w ≠ [] := by
  simpa using (List.mem_filter.1 h).2

@[simp] theorem words_nil : words [] = [] := rfl

end Fabric.Text
