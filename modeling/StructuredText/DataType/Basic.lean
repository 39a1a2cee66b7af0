import StructuredText.Declaration.Basic

/-!
# Type declarations

What stands between `TYPE` and `END_TYPE`: names for new types. A type is a structure with members,
or it is given by a type specification.
-/

namespace StructuredText

/-- A member of a structure. -/
structure Member where
  name : Token
  location : Option IncompleteLocation
  init : SpecInit
  deriving BEq

/-- What a type is declared to be. -/
inductive TypeDefinition where
  | spec (init : SpecInit)
  | struct (indirection : Option Indirection) (members : List (Anchored Member))
  deriving BEq

/-- `Name EXTENDS Base : ...` -/
structure TypeDeclaration where
  anchor : Anchor
  name : Token
  extends? : Option Token
  definition : TypeDefinition
  deriving BEq

/-- The declarations between `TYPE` and `END_TYPE`. -/
structure TypeBlock where
  anchor : Anchor
  items : List TypeDeclaration
  deriving BEq

end StructuredText
