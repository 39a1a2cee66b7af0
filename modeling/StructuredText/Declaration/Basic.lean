import StructuredText.Flags
import StructuredText.TypeSpec.Basic

/-!
# Variable declarations

The blocks in which variables are declared, and the declarations in them. Every block and every
declaration has an anchor.

* `Anchored` — something with an anchor.
* `DeclarationBlock` — a block of one of ten kinds.
* `DeclarationBlock.declarations` — the names that a block declares.
-/

namespace StructuredText

/-- Something that may own comments. -/
structure Anchored (α : Type) where
  anchor : Anchor
  body : α
  deriving BEq

/-! ## Parts of declarations -/

/-- Qualifiers behind the keyword of a block, named as they are spelled. -/
inductive VariableAttribute where
  | CONSTANT | RETAIN | NON_RETAIN | PERSISTENT

instance : Flag VariableAttribute where
  inOrder := [.CONSTANT, .RETAIN, .NON_RETAIN, .PERSISTENT]
  keyword
    | .CONSTANT => "CONSTANT"
    | .RETAIN => "RETAIN"
    | .NON_RETAIN => "NON_RETAIN"
    | .PERSISTENT => "PERSISTENT"

/-- `AT %IX0.0` -/
structure Location where
  address : DirectVariable
  deriving BEq

/-- `AT %I*`, an address to be given later. -/
structure IncompleteLocation where
  address : Token
  deriving BEq

/-- A declared name, with an address to be given later if it has one. -/
structure DeclaredVariable where
  name : Token
  location : Option IncompleteLocation
  deriving BEq

/-- The edge of a signal that an input reacts to. -/
inductive Edge where
  | rising | falling
  deriving DecidableEq, Repr

/-- What an access path may be used for. -/
inductive AccessDirection where
  | readWrite | readOnly
  deriving DecidableEq, Repr

/-! ## Declarations -/

/-- A declaration in a plain block. -/
inductive VariableDeclaration where
  /-- `a, b : INT := 1` -/
  | init (declared : List DeclaredVariable) (init : SpecInit)
  /-- `start : BOOL R_EDGE` -/
  | edge (declared : List DeclaredVariable) (edge : Edge)
  /-- `fb : FB_Motor := (Speed := 10)` -/
  | fbInstance (names : List Token) (typeName : Token) (init : StructureInitialization)
  /-- `timer : TON(PT := T#1S)` -/
  | invocation (names : List Token) (call : Call)
  deriving BEq

/-- The left-hand side of a global declaration. -/
inductive GlobalNames where
  | located (name : Token) (location : Location)
  | incomplete (name : Token) (location : IncompleteLocation)
  | names (names : List Token)
  deriving BEq

/-- The right-hand side of a global declaration. -/
inductive GlobalInit where
  | spec (init : SpecInit)
  | invocation (call : Call)
  deriving BEq

/-- `g : INT := 1` in a global block. -/
structure GlobalDeclaration where
  names : GlobalNames
  init : GlobalInit
  deriving BEq

/-- `x AT %QX0.1 : BOOL`; the name may be left out. -/
structure LocatedDeclaration where
  name : Option Token
  location : Location
  init : SpecInit
  deriving BEq

/-- `g : INT` in a block of external variables. -/
structure ExternalDeclaration where
  name : Token
  type : TypeSpecification
  deriving BEq

/-- `Alias : Prog.Var : INT READ_ONLY` -/
structure AccessDeclaration where
  name : Token
  place : Variable
  type : DataType
  direction : Option AccessDirection
  deriving BEq

/-! ## The names that a declaration declares -/

/-- Declarations that declare names. -/
class Declares (α : Type) where
  names : α → List Token

instance : Declares VariableDeclaration where
  names
    | .init vs _ => vs.map DeclaredVariable.name
    | .edge vs _ => vs.map DeclaredVariable.name
    | .fbInstance ns _ _ => ns
    | .invocation ns _ => ns

instance : Declares GlobalDeclaration where
  names d :=
    match d.names with
    | .located name _ => [name]
    | .incomplete name _ => [name]
    | .names ns => ns

instance : Declares LocatedDeclaration := ⟨fun d => d.name.toList⟩
instance : Declares ExternalDeclaration := ⟨fun d => [d.name]⟩
instance : Declares AccessDeclaration := ⟨fun d => [d.name]⟩

/-! ## Blocks -/

/-- A block of declarations of one kind. -/
structure Block (α : Type) where
  anchor : Anchor
  attributes : Flags VariableAttribute
  items : List (Anchored α)
  deriving BEq

/-- The declared names, each with the anchor of its declaration. -/
def Block.declarations {α : Type} [Declares α] (b : Block α) : List (Token × Anchor) :=
  b.items.flatMap fun item => (Declares.names item.body).map fun name => (name, item.anchor)

/-- The kinds of blocks that hold plain declarations. -/
inductive PlainKind where
  | var | temp | input | output | inOut | inst
  deriving DecidableEq, Repr

/-- A block of declarations. -/
inductive DeclarationBlock where
  | plain (kind : PlainKind) (block : Block VariableDeclaration)
  | located (block : Block LocatedDeclaration)
  | global (block : Block GlobalDeclaration)
  | external (block : Block ExternalDeclaration)
  | access (block : Block AccessDeclaration)
  deriving BEq

/-- The kinds of blocks. -/
inductive BlockKind where
  | plain (kind : PlainKind)
  | located | global | external | access
  deriving DecidableEq, Repr

/-- The keyword that opens a block. -/
def BlockKind.keyword : BlockKind → String
  | .plain .var | .located => "VAR"
  | .plain .temp => "VAR_TEMP"
  | .plain .input => "VAR_INPUT"
  | .plain .output => "VAR_OUTPUT"
  | .plain .inOut => "VAR_IN_OUT"
  | .plain .inst => "VAR_INST"
  | .global => "VAR_GLOBAL"
  | .external => "VAR_EXTERNAL"
  | .access => "VAR_ACCESS"

namespace DeclarationBlock

def kind : DeclarationBlock → BlockKind
  | .plain k _ => .plain k
  | .located _ => .located
  | .global _ => .global
  | .external _ => .external
  | .access _ => .access

def anchor : DeclarationBlock → Anchor
  | .plain _ b => b.anchor
  | .located b => b.anchor
  | .global b => b.anchor
  | .external b => b.anchor
  | .access b => b.anchor

def attributes : DeclarationBlock → Flags VariableAttribute
  | .plain _ b => b.attributes
  | .located b => b.attributes
  | .global b => b.attributes
  | .external b => b.attributes
  | .access b => b.attributes

/-- The declared names, each with the anchor of its declaration. -/
def declarations : DeclarationBlock → List (Token × Anchor)
  | .plain _ b => b.declarations
  | .located b => b.declarations
  | .global b => b.declarations
  | .external b => b.declarations
  | .access b => b.declarations

end DeclarationBlock

end StructuredText
