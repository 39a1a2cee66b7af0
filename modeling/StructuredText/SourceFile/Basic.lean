import StructuredText.DataType.Basic
import StructuredText.Statement.Basic
import StructuredText.Grammar.Rule

/-!
# Source files

A source file is a list of items: type declarations, program units, actions, global variables, and
constructs that are kept as they were written.

* `Item.name?`, `SourceFile.find?` — items by name.
* `declarationsByName` — where each name of a list of blocks is declared first.
* `SourceFile.mapAnchors` — a walk over all anchors of a file in document order.
-/

namespace StructuredText

/-! ## Units -/

/-- Qualifiers of a method, named as they are spelled. -/
inductive AccessSpecifier where
  | PUBLIC | PRIVATE | ABSTRACT | PROTECTED | INTERNAL | FINAL

instance : Flag AccessSpecifier where
  inOrder := [.PUBLIC, .PRIVATE, .ABSTRACT, .PROTECTED, .INTERNAL, .FINAL]
  keyword
    | .PUBLIC => "PUBLIC"
    | .PRIVATE => "PRIVATE"
    | .ABSTRACT => "ABSTRACT"
    | .PROTECTED => "PROTECTED"
    | .INTERNAL => "INTERNAL"
    | .FINAL => "FINAL"

/-- The statements of a unit, with an anchor of their own. -/
structure Body where
  anchor : Anchor
  statements : List Statement
  deriving BEq

/-- The kinds of units, with what only units of the kind have. -/
inductive UnitKind where
  | function (returnType : Option TypeSpecification)
  | functionBlock (isAbstract : Bool) (extends? : Option Token) (implements : List Token)
  | program
  | method (access : Flags AccessSpecifier) (returnType : Option TypeSpecification)
  deriving BEq

/-- A function, function block, program or method. -/
structure ProgramUnit where
  anchor : Anchor
  kind : UnitKind
  name : Token
  declarations : List DeclarationBlock
  body : Option Body
  deriving BEq

/-- The kinds of actions: with a name, on entry and on exit. -/
inductive ActionKind where
  | named (name : Token)
  | entry
  | exit
  deriving BEq

/-- An action. -/
structure Action where
  anchor : Anchor
  kind : ActionKind
  body : Option Body
  deriving BEq

/-- A construct that is kept exactly as it was written, and the rule it was matched by. -/
structure VerbatimItem where
  anchor : Anchor
  rule : Grammar.Rule
  text : Text
  deriving BEq

/-- A top-level construct. -/
inductive Item where
  | types (block : TypeBlock)
  | unit (unit : ProgramUnit)
  | action (action : Action)
  | globals (block : Block GlobalDeclaration)
  | verbatim (item : VerbatimItem)
  deriving BEq

/-- A whole source file. -/
structure SourceFile where
  items : List Item := []
  deriving BEq

/-! ## Items -/

/-- The return type of a function or method. -/
def UnitKind.returnType? : UnitKind → Option TypeSpecification
  | .function t => t
  | .method _ t => t
  | .functionBlock .. => none
  | .program => none

namespace Item

/-- The name of an item; types, global variables and constructs kept as written have none. -/
def name? : Item → Option Token
  | .unit u => some u.name
  | .action ⟨_, .named name, _⟩ => some name
  | _ => none

def anchor : Item → Anchor
  | .types b => b.anchor
  | .unit u => u.anchor
  | .action a => a.anchor
  | .globals b => b.anchor
  | .verbatim v => v.anchor

/-- The blocks of variable declarations of an item, in source order. -/
def blocks : Item → List DeclarationBlock
  | .unit u => u.declarations
  | .globals b => [.global b]
  | _ => []

end Item

/-- The place of the first item with a given name, up to the case of ASCII letters. -/
def SourceFile.findIndex? (f : SourceFile) (name : Text) : Option Nat :=
  f.items.findIdx? fun item => item.name?.any (·.is name)

/-- The first item with a given name, up to the case of ASCII letters. -/
def SourceFile.find? (f : SourceFile) (name : Text) : Option Item :=
  f.items.find? fun item => item.name?.any (·.is name)

/-! ## Declarations by name -/

/-- Where a name is declared: the token and the anchor of its declaration, and the block that holds
them with its kind. -/
structure DeclarationSite where
  kind : BlockKind
  name : Token
  anchor : Anchor
  block : DeclarationBlock

/-- An entry for a name, in a list that is sorted by name and has each name once. A name that is
there already keeps its entry. -/
def insertSite (name : Text) (site : DeclarationSite) :
    List (Text × DeclarationSite) → List (Text × DeclarationSite)
  | [] => [(name, site)]
  | (other, first) :: sites =>
    if name < other then (name, site) :: (other, first) :: sites
    else if name = other then (other, first) :: sites
    else (other, first) :: insertSite name site sites

/-- Where each name of the blocks is declared first, sorted by name. -/
def declarationsByName (blocks : List DeclarationBlock) : List (Text × DeclarationSite) :=
  (blocks.flatMap fun block => block.declarations.map fun (name, anchor) => (name, anchor, block))
    |>.foldl (fun sites (name, anchor, block) =>
      insertSite name.text ⟨block.kind, name, anchor, block⟩ sites) []

/-! ## The anchors of a file -/

/-- What an anchor belongs to: a node of the tree, or a construct that is kept as written and still
holds its own comments. -/
inductive Owner where
  | node | verbatim
  deriving DecidableEq, Repr

section Anchors

variable {m : Type → Type} [Monad m] (visit : Anchor → m Anchor)

def Anchored.mapAnchor {α : Type} (x : Anchored α) : m (Anchored α) := do
  pure { x with anchor := ← visit x.anchor }

def Block.mapAnchors {α : Type} (b : Block α) : m (Block α) := do
  let anchor ← visit b.anchor
  let items ← b.items.mapM (Anchored.mapAnchor visit)
  pure { b with anchor, items }

def DeclarationBlock.mapAnchors : DeclarationBlock → m DeclarationBlock
  | .plain k b => do pure (.plain k (← b.mapAnchors visit))
  | .located b => do pure (.located (← b.mapAnchors visit))
  | .global b => do pure (.global (← b.mapAnchors visit))
  | .external b => do pure (.external (← b.mapAnchors visit))
  | .access b => do pure (.access (← b.mapAnchors visit))

def TypeDefinition.mapAnchors : TypeDefinition → m TypeDefinition
  | .spec init => pure (.spec init)
  | .struct i ms => do pure (.struct i (← ms.mapM (Anchored.mapAnchor visit)))

def TypeDeclaration.mapAnchors (t : TypeDeclaration) : m TypeDeclaration := do
  let anchor ← visit t.anchor
  let definition ← t.definition.mapAnchors visit
  pure { t with anchor, definition }

def TypeBlock.mapAnchors (b : TypeBlock) : m TypeBlock := do
  let anchor ← visit b.anchor
  let items ← b.items.mapM (TypeDeclaration.mapAnchors visit)
  pure { anchor, items }

def Body.mapAnchors (b : Body) : m Body := do
  let anchor ← visit b.anchor
  let statements ← Statement.mapAnchorsAll visit b.statements
  pure { anchor, statements }

/-- The body of a unit or action, which may be missing. -/
def Body.mapAnchorsOption : Option Body → m (Option Body)
  | none => pure none
  | some b => do pure (some (← b.mapAnchors visit))

def ProgramUnit.mapAnchors (u : ProgramUnit) : m ProgramUnit := do
  let anchor ← visit u.anchor
  let declarations ← u.declarations.mapM (DeclarationBlock.mapAnchors visit)
  let body ← Body.mapAnchorsOption visit u.body
  pure { u with anchor, declarations, body }

def Action.mapAnchors (a : Action) : m Action := do
  let anchor ← visit a.anchor
  let body ← Body.mapAnchorsOption visit a.body
  pure { a with anchor, body }

end Anchors

section Walk

variable {m : Type → Type} [Monad m] (visit : Owner → Anchor → m Anchor)

def Item.mapAnchors : Item → m Item
  | .types b => do pure (.types (← b.mapAnchors (visit .node)))
  | .unit u => do pure (.unit (← u.mapAnchors (visit .node)))
  | .action a => do pure (.action (← a.mapAnchors (visit .node)))
  | .globals b => do pure (.globals (← b.mapAnchors (visit .node)))
  | .verbatim v => do pure (.verbatim { v with anchor := ← visit .verbatim v.anchor })

/-- Replaces all anchors of a file in document order: the anchor of an item, block, declaration,
body, statement or clause comes before the anchors of its parts. -/
def SourceFile.mapAnchors (f : SourceFile) : m SourceFile := do
  pure { items := ← f.items.mapM (Item.mapAnchors visit) }

end Walk

end StructuredText
