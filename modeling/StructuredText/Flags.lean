import StructuredText.Json

/-!
# Sets of flags

The qualifiers of a block or of a method form a set: it does not matter in which order or how often
they are written. A set is a row of bits, one for each flag in the order in which the flags are
declared, and it is written in that order too.
-/

namespace StructuredText

/-- A finite type of flags, each with the keyword it is written with. -/
class Flag (α : Type) where
  inOrder : List α
  keyword : α → String

/-- A set of flags. -/
structure Flags (α : Type) [Flag α] where
  bits : Nat := 0

namespace Flags

variable {α : Type} [Flag α]

instance : DecidableEq (Flags α) := fun a b =>
  decidable_of_iff (a.bits = b.bits) (by cases a; cases b; simp)

/-- The flags with the numbers of their bits. -/
def numbered : List (α × Nat) := (Flag.inOrder (α := α)).zipIdx

/-- The set of the flag written with a keyword, in any case; none if there is no such flag. -/
def ofKeyword? (word : Text) : Option (Flags α) :=
  numbered.findSome? fun (flag, i) =>
    if word.upperCase == (Flag.keyword (α := α) flag : Text) then some ⟨1 <<< i⟩ else none

/-- The flags in either set. -/
def union (a b : Flags α) : Flags α := ⟨a.bits ||| b.bits⟩

/-- The keywords of the flags in the set, in order. -/
def keywords (s : Flags α) : List String :=
  (numbered (α := α)).filterMap fun (flag, i) =>
    if s.bits.testBit i then some (Flag.keyword flag) else none

def isEmpty (s : Flags α) : Bool := s.bits == 0

/-- The keywords with blanks between them. -/
def render (s : Flags α) : Text := (" ".intercalate s.keywords : String)

instance : JsonForm (Flags α) := ⟨fun s => .string (" | ".intercalate s.keywords)⟩

end Flags

end StructuredText
