import StructuredText.SourceFile.Basic

/-!
# Elements

A tree is built from a derivation bottom up: what a node of the derivation becomes is an element,
and its parent is built from the elements of its children. An element is a token, the tokens of a
list, a node of the tree of one of many kinds, or a raw node, where no way to build it is known.

* `Element.kind` — the name of its kind, as it appears in reports.
* `OfElement` — what an element must be in order to serve as a value of some type. Some types take
  more than one kind: a variable is an expression too.
-/

namespace StructuredText

/-- A construct nothing is built from: what it was matched by and on, and its elements. -/
structure RawNode (ε : Type) where
  rule : Grammar.Rule
  line : Nat
  span : Span
  text : Text
  children : List ε

/-- What a node of a derivation becomes. -/
inductive Element where
  | token (rule : Grammar.Rule) (token : Token)
  | tokens (rule : Grammar.Rule) (tokens : List Token)
  | raw (node : RawNode Element)
  | literal (value : Literal)
  | expression (value : Expression)
  | place (value : Variable)
  | selector (value : Selector)
  | location (value : Location)
  | incompleteLocation (value : IncompleteLocation)
  | enumeratedValue (value : EnumeratedValue)
  | parameter (value : Parameter)
  | invocation (value : Call)
  | indirection (value : Indirection)
  | dataType (value : DataType)
  | stringType (value : StringType)
  | subrange (value : Subrange)
  | subrangeType (value : SubrangeType)
  | enumeratedType (value : EnumeratedType)
  | arrayType (value : ArrayType)
  | arrayInitialElement (value : ArrayInitialElement)
  | arrayInitialization (value : ArrayInitialization)
  | structureElementInitialization (value : StructureElementInitialization)
  | structureInitialization (value : StructureInitialization)
  | initializedStructure (value : InitializedStructure)
  | specInit (value : SpecInit)
  | declaredVariable (value : DeclaredVariable)
  | declaredVariables (value : List DeclaredVariable)
  | attributes (value : Flags VariableAttribute)
  | access (value : Flags AccessSpecifier)
  | edge (value : Edge)
  | accessDirection (value : AccessDirection)
  | declaration (value : Anchored VariableDeclaration)
  | globalNames (value : GlobalNames)
  | globalDeclaration (value : Anchored GlobalDeclaration)
  | locatedDeclaration (value : Anchored LocatedDeclaration)
  | externalDeclaration (value : Anchored ExternalDeclaration)
  | accessDeclaration (value : Anchored AccessDeclaration)
  | member (value : Anchored Member)
  | typeDeclaration (value : TypeDeclaration)
  | block (value : DeclarationBlock)
  | statement (value : Statement)
  | statements (value : List Statement)
  | elseIf (value : ElseIf)
  | otherwise (value : Else)
  | case (value : Case)
  | body (value : Body)
  | item (value : Item)
  | file (value : SourceFile)

/-- The name of the kind of an element. -/
def Element.kind : Element → String
  | .token .. => "Token"
  | .tokens .. => "TokenList"
  | .raw _ => "Generic"
  | .literal _ => "Literal"
  | .expression _ => "Expression"
  | .place _ => "Variable"
  | .selector _ => "VariableElement"
  | .location _ => "Location"
  | .incompleteLocation _ => "IncompleteLocation"
  | .enumeratedValue _ => "EnumeratedValue"
  | .parameter _ => "ParameterAssignment"
  | .invocation _ => "Invocation"
  | .indirection _ => "IndirectionType"
  | .dataType _ => "DataType"
  | .stringType _ => "StringTypeSpecification"
  | .subrange _ => "Subrange"
  | .subrangeType _ => "SubrangeSpecification"
  | .enumeratedType _ => "EnumeratedSpecification"
  | .arrayType _ => "ArraySpecification"
  | .arrayInitialElement _ => "ArrayInitialElement"
  | .arrayInitialization _ => "ArrayInitialization"
  | .structureElementInitialization _ => "StructureElementInitialization"
  | .structureInitialization _ => "StructureInitialization"
  | .initializedStructure _ => "InitializedStructure"
  | .specInit _ => "SpecInit"
  | .declaredVariable _ => "DeclaredVariable"
  | .declaredVariables _ => "DeclaredVariables"
  | .attributes _ => "VariableAttributes"
  | .access _ => "MethodAccess"
  | .edge _ => "Edge"
  | .accessDirection _ => "AccessDirection"
  | .declaration _ => "VariableDeclaration"
  | .globalNames _ => "GlobalVariableSpec"
  | .globalDeclaration _ => "GlobalVariableDeclaration"
  | .locatedDeclaration _ => "LocatedVariableDeclaration"
  | .externalDeclaration _ => "ExternalVariableDeclaration"
  | .accessDeclaration _ => "AccessDeclaration"
  | .member _ => "StructureElementDeclaration"
  | .typeDeclaration _ => "TypeDeclaration"
  | .block _ => "VariableDeclarationBlock"
  | .statement _ => "Statement"
  | .statements _ => "StatementList"
  | .elseIf _ => "ElseIfClause"
  | .otherwise _ => "ElseClause"
  | .case _ => "CaseElement"
  | .body _ => "FunctionBlockBody"
  | .item _ => "SourceCodeItem"
  | .file _ => "SourceCode"

/-- The token of a raw node that holds a single token and nothing else. -/
def RawNode.token? (n : RawNode Element) : Option Token :=
  match n.children with
  | [.token _ t] => some t
  | _ => none

/-! ## What an element serves as -/

/-- Types as whose values elements serve. -/
class OfElement (α : Type) where
  /-- The name of the type, as it appears in reports. -/
  wanted : String
  /-- The value that an element serves as; an element that serves as none is handed back. -/
  ofElement : Element → Except Element α
  /-- What is handed back is the element itself. -/
  handsBack : ∀ {e e' : Element}, ofElement e = .error e' → e' = e := by
    intro e e' h
    split at h <;> cases h
    rfl

export OfElement (wanted ofElement)

/-- The value that an element serves as, if it does. -/
def ofElement? {α : Type} [OfElement α] (e : Element) : Option α := (ofElement e).toOption

instance : OfElement Literal := .mk "Literal" fun | .literal v => .ok v | e => .error e
instance : OfElement Selector := .mk "VariableElement" fun | .selector v => .ok v | e => .error e
instance : OfElement Location := .mk "Location" fun | .location v => .ok v | e => .error e
instance : OfElement IncompleteLocation :=
  .mk "IncompleteLocation" fun | .incompleteLocation v => .ok v | e => .error e
instance : OfElement EnumeratedValue :=
  .mk "EnumeratedValue" fun | .enumeratedValue v => .ok v | e => .error e
instance : OfElement Parameter :=
  .mk "ParameterAssignment" fun | .parameter v => .ok v | e => .error e
instance : OfElement Call := .mk "Invocation" fun | .invocation v => .ok v | e => .error e
instance : OfElement Indirection :=
  .mk "IndirectionType" fun | .indirection v => .ok v | e => .error e
instance : OfElement DataType := .mk "DataType" fun | .dataType v => .ok v | e => .error e
instance : OfElement StringType :=
  .mk "StringTypeSpecification" fun | .stringType v => .ok v | e => .error e
instance : OfElement Subrange := .mk "Subrange" fun | .subrange v => .ok v | e => .error e
instance : OfElement SubrangeType :=
  .mk "SubrangeSpecification" fun | .subrangeType v => .ok v | e => .error e
instance : OfElement EnumeratedType :=
  .mk "EnumeratedSpecification" fun | .enumeratedType v => .ok v | e => .error e
instance : OfElement ArrayType :=
  .mk "ArraySpecification" fun | .arrayType v => .ok v | e => .error e
instance : OfElement ArrayInitialElement :=
  .mk "ArrayInitialElement" fun | .arrayInitialElement v => .ok v | e => .error e
instance : OfElement ArrayInitialization :=
  .mk "ArrayInitialization" fun | .arrayInitialization v => .ok v | e => .error e
instance : OfElement StructureElementInitialization :=
  .mk "StructureElementInitialization"
    fun | .structureElementInitialization v => .ok v | e => .error e
instance : OfElement StructureInitialization :=
  .mk "StructureInitialization" fun | .structureInitialization v => .ok v | e => .error e
instance : OfElement InitializedStructure :=
  .mk "InitializedStructure" fun | .initializedStructure v => .ok v | e => .error e
instance : OfElement DeclaredVariable :=
  .mk "DeclaredVariable" fun | .declaredVariable v => .ok v | e => .error e
instance : OfElement (List DeclaredVariable) :=
  .mk "DeclaredVariables" fun | .declaredVariables v => .ok v | e => .error e
instance : OfElement (Flags VariableAttribute) :=
  .mk "VariableAttributes" fun | .attributes v => .ok v | e => .error e
instance : OfElement (Flags AccessSpecifier) :=
  .mk "MethodAccess" fun | .access v => .ok v | e => .error e
instance : OfElement Edge := .mk "Edge" fun | .edge v => .ok v | e => .error e
instance : OfElement AccessDirection :=
  .mk "AccessDirection" fun | .accessDirection v => .ok v | e => .error e
instance : OfElement (Anchored VariableDeclaration) :=
  .mk "VariableDeclaration" fun | .declaration v => .ok v | e => .error e
instance : OfElement GlobalNames :=
  .mk "GlobalVariableSpec" fun | .globalNames v => .ok v | e => .error e
instance : OfElement (Anchored GlobalDeclaration) :=
  .mk "GlobalVariableDeclaration" fun | .globalDeclaration v => .ok v | e => .error e
instance : OfElement (Anchored LocatedDeclaration) :=
  .mk "LocatedVariableDeclaration" fun | .locatedDeclaration v => .ok v | e => .error e
instance : OfElement (Anchored ExternalDeclaration) :=
  .mk "ExternalVariableDeclaration" fun | .externalDeclaration v => .ok v | e => .error e
instance : OfElement (Anchored AccessDeclaration) :=
  .mk "AccessDeclaration" fun | .accessDeclaration v => .ok v | e => .error e
instance : OfElement (Anchored Member) :=
  .mk "StructureElementDeclaration" fun | .member v => .ok v | e => .error e
instance : OfElement TypeDeclaration :=
  .mk "TypeDeclaration" fun | .typeDeclaration v => .ok v | e => .error e
instance : OfElement DeclarationBlock :=
  .mk "VariableDeclarationBlock" fun | .block v => .ok v | e => .error e
instance : OfElement Statement := .mk "Statement" fun | .statement v => .ok v | e => .error e
instance : OfElement (List Statement) :=
  .mk "StatementList" fun | .statements v => .ok v | e => .error e
instance : OfElement ElseIf := .mk "ElseIfClause" fun | .elseIf v => .ok v | e => .error e
instance : OfElement Else := .mk "ElseClause" fun | .otherwise v => .ok v | e => .error e
instance : OfElement Case := .mk "CaseElement" fun | .case v => .ok v | e => .error e
instance : OfElement Body := .mk "FunctionBlockBody" fun | .body v => .ok v | e => .error e
instance : OfElement SourceFile := .mk "SourceCode" fun | .file v => .ok v | e => .error e
instance : OfElement (RawNode Element) := .mk "Generic" fun | .raw v => .ok v | e => .error e

/-- Any token, whatever it was matched by. -/
instance : OfElement Token := .mk "Token" fun | .token _ t => .ok t | e => .error e

/-- Literals, variables and enumerated values are expressions too. -/
instance : OfElement Expression where
  wanted := "Expression"
  ofElement
    | .expression v => .ok v
    | .literal v => .ok (.literal v)
    | .place v => .ok (.reference v)
    | .enumeratedValue v => .ok (.enumerated v)
    | e => .error e

instance : OfElement Variable where
  wanted := "Variable"
  ofElement
    | .place v => .ok v
    | .expression (.reference v) => .ok v
    | e => .error e

instance : OfElement SymbolicVariable :=
  .mk "SymbolicVariable" fun | .place (.symbolic v) => .ok v | e => .error e

instance : OfElement DirectVariable :=
  .mk "DirectVariable" fun | .place (.direct v) => .ok v | e => .error e

instance : OfElement Integer := .mk "Integer" fun | .literal (.integer v) => .ok v | e => .error e

instance : OfElement StringLiteral :=
  .mk "StringLiteral" fun | .literal (.string v) => .ok v | e => .error e

/-- Where a value is made of what an element serves as, the same element is handed back. -/
theorem OfElement.handsBack_map {α β : Type} [OfElement α] {f : α → β} {e e' : Element}
    (h : (ofElement e).map f = .error e') : e' = e := by
  cases he : (ofElement e : Except Element α) with
  | error e'' =>
      rw [he] at h
      cases h
      exact handsBack he
  | ok a =>
      rw [he] at h
      cases h

instance : OfElement Initializer where
  wanted := "Initializer"
  ofElement
    | .arrayInitialization v => .ok (.array v)
    | .structureInitialization v => .ok (.struct v)
    | e => (ofElement e).map .expression
  handsBack h := by
    split at h
    case h_1 | h_2 => cases h
    case h_3 => exact OfElement.handsBack_map h

instance : OfElement CaseLabel where
  wanted := "CaseMatch"
  ofElement
    | .subrange v => .ok (.range v)
    | e => (ofElement e).map .value
  handsBack h := by
    split at h
    case h_1 => cases h
    case h_2 => exact OfElement.handsBack_map h

instance : OfElement TypeSpecification where
  wanted := "TypeSpecification"
  ofElement
    | .dataType v => .ok (.data v)
    | .stringType v => .ok (.string v)
    | .arrayType v => .ok (.array v)
    | .subrangeType v => .ok (.subrange v)
    | .enumeratedType v => .ok (.enumerated v)
    | e => .error e

instance : OfElement SpecInit where
  wanted := "SpecInit"
  ofElement
    | .specInit v => .ok v
    | .initializedStructure v => .ok (.struct v)
    | e => .error e

/-- Global variables are items, and a construct nothing is built from is kept as it was written. -/
instance : OfElement Item where
  wanted := "SourceCodeItem"
  ofElement
    | .item v => .ok v
    | .block (.global b) => .ok (.globals b)
    | .raw n =>
      .ok (.verbatim
        { anchor := { line := n.line, span := n.span }, rule := n.rule, text := n.text })
    | e => .error e

end StructuredText
