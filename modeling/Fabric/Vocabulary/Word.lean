/-!
# Closed vocabularies

A closed vocabulary is a finite list of meanings, each with one spelling. A token is matched
against the spellings exactly, in list order.
-/

namespace Fabric

/-- A finite type whose members are spelled by words of a description. -/
class Vocabulary (α : Type) where
  /-- The members, in the order in which messages list them. -/
  all : List α
  /-- The spelling of a member. -/
  word : α → String

namespace Vocabulary

variable {α : Type} [Vocabulary α]

/-- The member that a token spells. -/
def find? (token : String) : Option α := (all (α := α)).find? (word · == token)

/-- The spellings, as messages list them. -/
def words (α : Type) [Vocabulary α] : List String := (all (α := α)).map word

end Vocabulary

end Fabric
