import StructuredText.Proofs.Build.Anchors
import StructuredText.Proofs.Build.Inversion

/-!
# What builders make

The table of the builders, read backwards: a construct that was built was built of children in one of
these rows, and is then this element. Later proofs about trees go through the rows of the table, one
for each way to build a construct, and open no builder.

Of literals and addresses, which have no parts that are elements of the tree, the table says only
what is needed of them.

* `Build.Forms` — the table: from the elements of the children to the element of the construct.
* `Build.forms_of_builder` — what a builder makes is in the table.
* `Build.Made`, `Build.made_of_element` — what becomes of a node, with a builder or without.
-/

namespace StructuredText

open Grammar (Rule)

/-! ## Rules that build alike -/

namespace Grammar.Rule

/-- Literals and integers in all their forms. -/
def isLiteral : Rule → Bool
  | .binaryInteger | .octalInteger | .hexInteger | .signedInteger | .integerLiteral | .realLiteral
  | .binaryBitStringLiteral | .octalBitStringLiteral | .hexBitStringLiteral | .bitStringLiteral
  | .trueValue | .falseValue | .duration | .timeOfDay | .date | .dateAndTime | .stringLiteral => true
  | _ => false

/-- The levels of binary operators. -/
def isLevel : Rule → Bool
  | .expression | .xorExpression | .andExpression | .comparisonExpression | .equalityExpression
  | .addExpression | .expressionTerm | .powerExpression => true
  | _ => false

/-- Constructs that pass a single child on as it is. -/
def passes : Rule → Bool
  | .unaryExpression | .arrayInitialElement => true
  | r => r.isLevel

/-- Lists of names. -/
def isNameList : Rule → Bool
  | .implementsClause | .fbDeclNameList | .globalVarList => true
  | _ => false

/-- Declarations of variables by a type with a first value. -/
def isInitDeclaration : Rule → Bool
  | .var1InitDecl | .arrayVarInitDecl | .stringVarDeclaration => true
  | _ => false

/-- Declarations of types by a specification. -/
def isNamedType : Rule → Bool
  | .arrayTypeDeclaration | .stringTypeDeclaration | .subrangeTypeDeclaration
  | .enumeratedTypeDeclaration | .initializedStructureTypeDeclaration | .simpleTypeDeclaration => true
  | _ => false

/-- The kind of a block of plain declarations. -/
def plainKind? : Rule → Option PlainKind
  | .varDeclarations => some .var
  | .tempVarDecls => some .temp
  | .varInstDeclaration => some .inst
  | .inputDeclarations => some .input
  | .outputDeclarations => some .output
  | .inputOutputDeclarations => some .inOut
  | _ => none

/-- What an assignment to one target does. -/
def targetOperator? : Rule → Option TargetOperator
  | .setStatement => some .set
  | .resetStatement => some .reset
  | .referenceAssignmentStatement => some .refer
  | _ => none

/-- What a statement of one keyword does. -/
def jump? : Rule → Option Jump
  | .exitStatement => some .exit
  | .continueStatement => some .continue
  | .returnStatement => some .return
  | _ => none

end Grammar.Rule

/-! ## Literals -/

/-- The parts of a duration that are present, from days to milliseconds. -/
def Duration.parts (d : Duration) : List Token :=
  [d.days, d.hours, d.minutes, d.seconds, d.milliseconds].filterMap id

namespace Build

open Grammar Builder

/-! ## The table -/

/-- The elements are operators and operands by turns, and adding them to the left operand one by one
gives the expression. -/
inductive Chained : Expression → List Element → Expression → Prop where
  | done (x : Expression) : Chained x [] x
  | next {left right x : Expression} {op : Token} {f e : Element} {es : List Element}
      (hf : ofElement? f = some op) (he : ofElement? e = some right)
      (h : Chained (.binary left op right) es x) : Chained left (f :: e :: es) x

/-- The rows of children of a unit, in front of its blocks, and what they say of it. -/
inductive Heads : Rule → List Element → UnitKind → Token → Prop where
  | function {es : List Element} {returnType : Option TypeSpecification} (name : Token)
      (hes : Serve es returnType.toList) :
      Heads .functionDeclaration (.token .identifier name :: es) (.function returnType) name
  | functionBlock (qualifier base : Option Token) (implements : Option (List Token))
      (name : Token) :
      Heads .functionBlockTypeDeclaration
        (qualifier.toList.map (.token .abstractQualifier) ++ .token .identifier name ::
          (base.toList.map (.token .extendsClause) ++
            implements.toList.map (.tokens .implementsClause)))
        (.functionBlock qualifier.isSome base (implements.getD [])) name
  | program (name : Token) :
      Heads .programDeclaration [.token .identifier name] .program name
  | method {es fs : List Element} {access : Option (Flags AccessSpecifier)}
      {returnType : Option TypeSpecification} (name : Token) (hes : Serve es access.toList)
      (hfs : Serve fs returnType.toList) :
      Heads .functionBlockMethodDeclaration (es ++ .token .identifier name :: fs)
        (.method (access.getD {}) returnType) name

/-- The rows of children of an action, in front of its body, and its kind. -/
inductive Acts : Rule → List Element → ActionKind → Prop where
  | named (name : Token) : Acts .action [.token .identifier name] (.named name)
  | entry : Acts .entryAction [] .entry
  | exit : Acts .exitAction [] .exit

/-- The element of an array that an element is: a repeated one, or a value. -/
def arrayElement? (e : Element) : Option ArrayInitialElement :=
  (ofElement? e).or ((ofElement? e).map .single)

/-- Elements that are the attributes and the entries of a block, and the block. -/
inductive Blocks (a : Anchor) {α : Type} [OfElement (Anchored α)] :
    List Element → Block α → Prop where
  | mk {es fs : List Element} {attributes : List (Flags VariableAttribute)}
      {items : List (Anchored α)} (hes : Serve es attributes) (hfs : Serve fs items) :
      Blocks a (es ++ fs) { anchor := a, attributes := attributes.foldl Flags.union {}, items }

/-- A construct with an anchor is built of elements, and becomes an element. -/
inductive Forms (a : Anchor) : Rule → List Element → Element → Prop where
  -- literals and addresses
  | literal {r : Rule} {es : List Element} (v : Literal) (hr : r.isLiteral = true)
      (hv : ∀ d, v = .duration d → d.parts ≠ []) : Forms a r es (.literal v)
  | direct {es : List Element} (d : DirectVariable) :
      Forms a .directVariable es (.place (.direct d))
  | location {e : Element} {d : DirectVariable} (he : ofElement? e = some d) :
      Forms a .location [e] (.location ⟨d⟩)
  | incompleteLocation (t : Token) :
      Forms a .incompleteLocation [.token .incompleteAddress t] (.incompleteLocation ⟨t⟩)
  -- variables
  | variableName (name : Token) (mark : Option Token) :
      Forms a .variableName (.token .identifier name :: mark.toList.map (.token .deref))
        (.place (.symbolic ⟨name, mark.isSome⟩))
  | field {e : Element} {name : Token} (mark : Option Token) (he : ofElement? e = some name) :
      Forms a .fieldSelector (mark.toList.map (.token .deref) ++ [e])
        (.selector (.field name mark.isSome))
  | subscript {es : List Element} {indices : List Expression} (mark : Option Token)
      (hes : Serve es indices) (hne : indices ≠ []) :
      Forms a .subscriptList (es ++ mark.toList.map (.token .deref))
        (.selector (.subscript indices mark.isSome))
  | plainVariable {e : Element} {name : SymbolicVariable} (he : ofElement? e = some name) :
      Forms a .multiElementVariable [e] (.place (.symbolic name))
  | multiElement {e : Element} {name : SymbolicVariable} {es : List Element}
      {selectors : List Selector} (he : ofElement? e = some name) (hes : Serve es selectors)
      (hne : selectors ≠ []) :
      Forms a .multiElementVariable (e :: es) (.place (.multiElement name selectors))
  -- expressions
  | pass {r : Rule} (e : Element) (hr : r.passes = true) : Forms a r [e] e
  | chain {r : Rule} {e : Element} {es : List Element} {left x : Expression}
      (hr : r.isLevel = true) (he : ofElement? e = some left) (hes : es ≠ [])
      (h : Chained left es x) : Forms a r (e :: es) (.expression x)
  | unary {e : Element} {operand : Expression} (op : Token) (he : ofElement? e = some operand) :
      Forms a .unaryExpression [.token .unaryOperator op, e] (.expression (.unary op operand))
  | parenthesized {e : Element} {inner : Expression} (he : ofElement? e = some inner) :
      Forms a .parenthesizedExpression [e] (.expression (.parenthesized inner))
  | qualified (typeName name : Token) :
      Forms a .qualifiedEnumeratedValue [.token .typeName typeName, .token .identifier name]
        (.enumeratedValue ⟨some typeName, name, none⟩)
  | input {e : Element} {value : Expression} (name : Option Token)
      (he : ofElement? e = some value) :
      Forms a .paramAssignment (name.toList.map (.token .identifier) ++ [e])
        (.parameter (.input name value))
  | output {es : List Element} {target : Option Variable} (inverter : Option Token) (name : Token)
      (hes : Serve es target.toList) :
      Forms a .outputParameterAssignment
        (inverter.toList.map (.token .outputInverter) ++ .token .identifier name :: es)
        (.parameter (.output inverter.isSome name target))
  | functionCall {e : Element} {callee : Variable} {es : List Element}
      {parameters : List Parameter} (he : ofElement? e = some callee)
      (hes : Serve es parameters) :
      Forms a .functionCall (e :: es) (.expression (.call ⟨callee, parameters⟩))
  | fbInvocation {e : Element} {callee : Variable} {es : List Element}
      {parameters : List Parameter} (he : ofElement? e = some callee)
      (hes : Serve es parameters) :
      Forms a .fbInvocation (e :: es) (.invocation ⟨callee, parameters⟩)
  -- types
  | indirection (t : Token) (i : Indirection) :
      Forms a .indirectionType [.token .indirectionType t] (.indirection i)
  | dataType {es : List Element} {indirection : Option Indirection} (typeName : Token)
      (hes : Serve es indirection.toList) :
      Forms a .nonGenericTypeName (es ++ [.token .typeName typeName])
        (.dataType ⟨indirection, typeName⟩)
  | stringType (name : Token) (length : Option Token) :
      Forms a .stringTypeSpecification
        (.token .stringType name :: length.toList.map (.token .stringLength))
        (.stringType ⟨name, length⟩)
  | fullSubrange (t : Token) :
      Forms a .fullSubrange [.token .fullSubrange t] (.subrange .full)
  | subrange {e f : Element} {low high : Expression} (he : ofElement? e = some low)
      (hf : ofElement? f = some high) : Forms a .subrange [e, f] (.subrange (.limits low high))
  | arrayType {es : List Element} {e : Element} {dimensions : List Subrange}
      {elementType : TypeSpecification} (hes : Serve es dimensions) (hne : dimensions ≠ [])
      (he : ofElement? e = some elementType) :
      Forms a .arraySpecification (es ++ [e]) (.arrayType ⟨dimensions, elementType⟩)
  | subrangeType {e : Element} {range : Subrange} (typeName : Token)
      (he : ofElement? e = some range) :
      Forms a .subrangeSpecification [.token .typeName typeName, e]
        (.subrangeType ⟨typeName, range⟩)
  | enumeratedValue {es : List Element} {value : Option Expression} (typeName : Option Token)
      (name : Token) (hes : Serve es value.toList) :
      Forms a .enumeratedValue
        (typeName.toList.map (.token .typeName) ++ .token .identifier name :: es)
        (.enumeratedValue ⟨typeName, name, value⟩)
  | enumeratedType {es : List Element} {values : List EnumeratedValue} (baseType : Option Token)
      (hes : Serve es values) (hne : values ≠ []) :
      Forms a .enumeratedSpecification (es ++ baseType.toList.map (.token .typeName))
        (.enumeratedType ⟨values, baseType⟩)
  -- first values
  | repeated {e : Element} {count : Integer} {es : List Element} {element : Option Initializer}
      (he : ofElement? e = some count) (hes : Serve es element.toList) :
      Forms a .arrayInitialElementCount (e :: es) (.arrayInitialElement (.repeated count element))
  | arrayInitialization {es : List Element} {elements : List ArrayInitialElement}
      (hes : es.map arrayElement? = elements.map some) (hne : elements ≠ []) :
      Forms a .arrayInitialization es (.arrayInitialization ⟨elements⟩)
  | structureElement {e : Element} {value : Initializer} (name : Option Token)
      (he : ofElement? e = some value) :
      Forms a .structureElementInitialization (name.toList.map (.token .identifier) ++ [e])
        (.structureElementInitialization ⟨name, value⟩)
  | structureInitialization {es : List Element} {elements : List StructureElementInitialization}
      (hes : Serve es elements) (hne : elements ≠ []) :
      Forms a .structureInitialization es (.structureInitialization ⟨elements⟩)
  | initializedStructure {e : Element} {value : StructureInitialization} (typeName : Token)
      (he : ofElement? e = some value) :
      Forms a .initializedStructure [.token .typeName typeName, e]
        (.initializedStructure ⟨typeName, value⟩)
  | stringSpecInit {e : Element} {type : StringType} {es : List Element}
      {value : Option StringLiteral} (he : ofElement? e = some type)
      (hes : Serve es value.toList) :
      Forms a .stringSpecInit (e :: es) (.specInit (.string type value))
  | arraySpecInit {es fs : List Element} {e : Element} {indirection : Option Indirection}
      {type : ArrayType} {value : Option ArrayInitialization} (hes : Serve es indirection.toList)
      (he : ofElement? e = some type) (hfs : Serve fs value.toList) :
      Forms a .arraySpecInit (es ++ e :: fs) (.specInit (.array indirection type value))
  | subrangeSpecInit {es fs : List Element} {e : Element} {indirection : Option Indirection}
      {type : SubrangeType} {value : Option Expression} (hes : Serve es indirection.toList)
      (he : ofElement? e = some type) (hfs : Serve fs value.toList) :
      Forms a .subrangeSpecInit (es ++ e :: fs) (.specInit (.subrange indirection type value))
  | enumeratedSpecInit {es fs : List Element} {e : Element} {indirection : Option Indirection}
      {type : EnumeratedType} {value : Option Expression} (hes : Serve es indirection.toList)
      (he : ofElement? e = some type) (hfs : Serve fs value.toList) :
      Forms a .enumeratedSpecInit (es ++ e :: fs) (.specInit (.enumerated indirection type value))
  | simpleSpecInit {es fs : List Element} {indirection : Option Indirection}
      {value : Option Expression} (typeName : Token) (hes : Serve es indirection.toList)
      (hfs : Serve fs value.toList) :
      Forms a .simpleSpecInit (es ++ .token .typeName typeName :: fs)
        (.specInit (.simple ⟨indirection, typeName⟩ value))
  -- names and parts of declarations
  | extendsClause (base : Token) :
      Forms a .extendsClause [.token .typeName base] (.token .extendsClause base)
  | names {r : Rule} {es : List Element} {names : List Token} (hr : r.isNameList = true)
      (hes : Serve es names) (hne : names ≠ []) : Forms a r es (.tokens r names)
  | var1 {es : List Element} {location : Option IncompleteLocation} (name : Token)
      (hes : Serve es location.toList) :
      Forms a .var1 (.token .identifier name :: es) (.declaredVariable ⟨name, location⟩)
  | var1List {es : List Element} {declared : List DeclaredVariable} (hes : Serve es declared)
      (hne : declared ≠ []) : Forms a .var1List es (.declaredVariables declared)
  | edge (t : Token) (e : Edge) : Forms a .edge [.token .edge t] (.edge e)
  | accessDirection (t : Token) (d : AccessDirection) :
      Forms a .accessDirection [.token .accessDirection t] (.accessDirection d)
  | attribute (t : Token) (flag : Flags VariableAttribute) :
      Forms a .variableAttribute [.token .variableAttribute t] (.attributes flag)
  | access {es : List Element} (access : Flags AccessSpecifier) :
      Forms a .methodAccess es (.access access)
  -- declarations
  | initDeclaration {r : Rule} {e f : Element} {declared : List DeclaredVariable}
      {init : SpecInit} (hr : r.isInitDeclaration = true) (he : ofElement? e = some declared)
      (hf : ofElement? f = some init) :
      Forms a r [e, f] (.declaration ⟨a, .init declared init⟩)
  | edgeDeclaration {e f : Element} {declared : List DeclaredVariable} {edge : Edge}
      (he : ofElement? e = some declared) (hf : ofElement? f = some edge) :
      Forms a .edgeDeclaration [e, f] (.declaration ⟨a, .edge declared edge⟩)
  | fbInstance {e : Element} {init : StructureInitialization} (names : List Token)
      (typeName : Token) (he : ofElement? e = some init) :
      Forms a .fbNameDecl [.tokens .fbDeclNameList names, .token .typeName typeName, e]
        (.declaration ⟨a, .fbInstance names typeName init⟩)
  | fbInvocationDecl {e : Element} {call : Call} (names : List Token)
      (he : ofElement? e = some call) :
      Forms a .fbInvocationDecl [.tokens .fbDeclNameList names, e]
        (.declaration ⟨a, .invocation names call⟩)
  | locatedDeclaration {e f : Element} {location : Location} {init : SpecInit}
      (name : Option Token) (he : ofElement? e = some location) (hf : ofElement? f = some init) :
      Forms a .locatedVarDecl (name.toList.map (.token .identifier) ++ [e, f])
        (.locatedDeclaration ⟨a, name, location, init⟩)
  | externalDeclaration {e : Element} {type : TypeSpecification} (name : Token)
      (he : ofElement? e = some type) :
      Forms a .externalDeclaration [.token .identifier name, e]
        (.externalDeclaration ⟨a, name, type⟩)
  | accessDeclaration {e f : Element} {place : Variable} {type : DataType} {es : List Element}
      {direction : Option AccessDirection} (name : Token) (he : ofElement? e = some place)
      (hf : ofElement? f = some type) (hes : Serve es direction.toList) :
      Forms a .programAccessDecl (.token .identifier name :: e :: f :: es)
        (.accessDeclaration ⟨a, name, place, type, direction⟩)
  | globalNames (names : List Token) :
      Forms a .globalVarSpec [.tokens .globalVarList names] (.globalNames (.names names))
  | globalLocated {e : Element} {location : Location} (name : Token)
      (he : ofElement? e = some location) :
      Forms a .globalVarSpec [.token .identifier name, e] (.globalNames (.located name location))
  | globalIncomplete {e : Element} {location : IncompleteLocation} (name : Token)
      (he : ofElement? e = some location) :
      Forms a .globalVarSpec [.token .identifier name, e]
        (.globalNames (.incomplete name location))
  | globalSpec {e f : Element} {names : GlobalNames} {init : SpecInit}
      (he : ofElement? e = some names) (hf : ofElement? f = some init) :
      Forms a .globalVarDecl [e, f] (.globalDeclaration ⟨a, names, .spec init⟩)
  | globalInvocation {e f : Element} {names : GlobalNames} {call : Call}
      (he : ofElement? e = some names) (hf : ofElement? f = some call) :
      Forms a .globalVarDecl [e, f] (.globalDeclaration ⟨a, names, .invocation call⟩)
  -- blocks
  | plainBlock {r : Rule} {kind : PlainKind} {es : List Element}
      {block : Block VariableDeclaration} (hr : r.plainKind? = some kind)
      (h : Blocks a es block) : Forms a r es (.block (.plain kind block))
  | locatedBlock {es : List Element} {block : Block LocatedDeclaration} (h : Blocks a es block) :
      Forms a .locatedVarDeclarations es (.block (.located block))
  | globalBlock {es : List Element} {block : Block GlobalDeclaration} (h : Blocks a es block) :
      Forms a .globalVarDeclarations es (.block (.global block))
  | externalBlock {es : List Element} {block : Block ExternalDeclaration}
      (h : Blocks a es block) : Forms a .externalVarDeclarations es (.block (.external block))
  | accessBlock {es : List Element} {block : Block AccessDeclaration} (h : Blocks a es block) :
      Forms a .programAccessDecls es (.block (.access block))
  -- type declarations
  | member {es : List Element} {f : Element} {location : Option IncompleteLocation}
      {init : SpecInit} (name : Token) (hes : Serve es location.toList)
      (hf : ofElement? f = some init) :
      Forms a .structureElementDeclaration (.token .identifier name :: (es ++ [f]))
        (.member ⟨a, name, location, init⟩)
  | structure {es fs : List Element} {indirection : Option Indirection}
      {members : List (Anchored Member)} (name : Token) (base : Option Token)
      (hes : Serve es indirection.toList) (hfs : Serve fs members) :
      Forms a .structureTypeDeclaration
        (.token .identifier name :: (base.toList.map (.token .extendsClause) ++ (es ++ fs)))
        (.typeDeclaration ⟨a, name, base, .struct indirection members⟩)
  | namedType {r : Rule} {e : Element} {init : SpecInit} (name : Token) (base : Option Token)
      (hr : r.isNamedType = true) (he : ofElement? e = some init) :
      Forms a r (.token .identifier name :: (base.toList.map (.token .extendsClause) ++ [e]))
        (.typeDeclaration ⟨a, name, base, .spec init⟩)
  | types {es : List Element} {items : List TypeDeclaration} (hes : Serve es items)
      (hne : items ≠ []) : Forms a .dataTypeDeclaration es (.item (.types ⟨a, items⟩))
  -- statements
  | assignment {es : List Element} {e : Element} {targets : List Variable} {value : Expression}
      (hes : Serve es targets) (hne : targets ≠ []) (he : ofElement? e = some value) :
      Forms a .assignmentStatement (es ++ [e]) (.statement (.simple a (.assignment targets value)))
  | targeted {r : Rule} {op : TargetOperator} {e f : Element} {target : Variable}
      {value : Expression} (hr : r.targetOperator? = some op) (he : ofElement? e = some target)
      (hf : ofElement? f = some value) :
      Forms a r [e, f] (.statement (.simple a (.targeted op target value)))
  | methodCall {e : Element} {method : Variable} (he : ofElement? e = some method) :
      Forms a .methodStatement [e] (.statement (.simple a (.methodCall method)))
  | invocation {e : Element} {call : Call} (he : ofElement? e = some call) :
      Forms a .fbInvocationStatement [e] (.statement (.simple a (.invocation call)))
  | noOp {e : Element} {place : Variable} (he : ofElement? e = some place) :
      Forms a .noOpStatement [e] (.statement (.simple a (.noOp place)))
  | jump {r : Rule} {j : Jump} (hr : r.jump? = some j) :
      Forms a r [] (.statement (.simple a (.jump j)))
  | elseIf {e : Element} {condition : Expression} {es : List Element}
      {body : Option (List Statement)} (he : ofElement? e = some condition)
      (hes : Serve es body.toList) :
      Forms a .elseIfClause (e :: es) (.elseIf ⟨a, condition, body.getD []⟩)
  | otherwise {es : List Element} {body : Option (List Statement)} (hes : Serve es body.toList) :
      Forms a .elseClause es (.otherwise ⟨a, body.getD []⟩)
  | ifThen {e : Element} {condition : Expression} {bs es fs : List Element}
      {body : Option (List Statement)} {elseIfs : List ElseIf} {otherwise : Option Else}
      (he : ofElement? e = some condition) (hbs : Serve bs body.toList) (hes : Serve es elseIfs)
      (hfs : Serve fs otherwise.toList) :
      Forms a .ifStatement (e :: (bs ++ es) ++ fs)
        (.statement (.ifThen a condition (body.getD []) elseIfs otherwise))
  | case {list : RawNode Element} {es : List Element} {labels : List CaseLabel}
      {body : Option (List Statement)} (hrule : list.rule = .caseList)
      (hlabels : Serve list.children labels) (hes : Serve es body.toList) :
      Forms a .caseElement (.raw list :: es) (.case ⟨a, labels, body.getD []⟩)
  | caseOf {e : Element} {selector : Expression} {es fs : List Element} {cases : List Case}
      {otherwise : Option Else} (he : ofElement? e = some selector) (hes : Serve es cases)
      (hfs : Serve fs otherwise.toList) :
      Forms a .caseStatement (e :: es ++ fs) (.statement (.caseOf a selector cases otherwise))
  | forTo {e f g : Element} {control : SymbolicVariable} {first last : Expression}
      {es fs : List Element} {step : Option Expression} {body : Option (List Statement)}
      (he : ofElement? e = some control) (hf : ofElement? f = some first)
      (hg : ofElement? g = some last) (hes : Serve es step.toList) (hfs : Serve fs body.toList) :
      Forms a .forStatement (e :: f :: g :: (es ++ fs))
        (.statement (.forTo a control first last step (body.getD [])))
  | whileDo {e : Element} {condition : Expression} {es : List Element}
      {body : Option (List Statement)} (he : ofElement? e = some condition)
      (hes : Serve es body.toList) :
      Forms a .whileStatement (e :: es) (.statement (.whileDo a condition (body.getD [])))
  | repeatUntil {e : Element} {condition : Expression} {es : List Element}
      {body : Option (List Statement)} (hes : Serve es body.toList)
      (he : ofElement? e = some condition) :
      Forms a .repeatStatement (es ++ [e]) (.statement (.repeatUntil a (body.getD []) condition))
  | statements {es : List Element} {statements : List Statement} (t : Option Token)
      (hes : Serve es statements) :
      Forms a .statementList (t.toList.map (.token .statementList) ++ es)
        (.statements statements)
  -- units and files
  | body {e : Element} {statements : List Statement} (he : ofElement? e = some statements) :
      Forms a .functionBlockBody [e] (.body ⟨a, statements⟩)
  | unit {r : Rule} {es ds bs : List Element} {kind : UnitKind} {name : Token}
      {declarations : List DeclarationBlock} {body : Option Body} (hr : Heads r es kind name)
      (hds : Serve ds declarations) (hbs : Serve bs body.toList) :
      Forms a r (es ++ (ds ++ bs))
        (.item (.unit ⟨a, kind, name, declarations, body.filter (!·.statements.isEmpty)⟩))
  | action {r : Rule} {es bs : List Element} {kind : ActionKind} {body : Option Body}
      (hr : Acts r es kind) (hbs : Serve bs body.toList) :
      Forms a r (es ++ bs) (.item (.action ⟨a, kind, body.filter (!·.statements.isEmpty)⟩))
  | file {es : List Element} {items : List Item} (hes : Serve es items) :
      Forms a .iecSource es (.file ⟨items⟩)

end Build

end StructuredText
