import StructuredText.Build.Declarations
import StructuredText.Proofs.Build.Children

/-!
# What declarations are built from

The declaration, block or type declaration that each builder makes of the elements it accepts.
-/

namespace StructuredText.Build

open Builder

variable {c : Children} {e : Element} {es : List Element}

/-! ## Names -/

theorem extendsClause_gives (base : Token) :
    extendsClause.Gives (c.holding [.token .typeName base]) (.token .extendsClause base)
      (c.holding []) :=
  token_gives.bind (finish_gives.bind pure_gives)

/-- A list of names goes by the rule that lists them. -/
theorem nameList_gives {names : List Token} (hes : Serve es names) (hne : names ≠ []) :
    nameList.Gives (c.holding es) (.tokens c.rule names) (c.holding []) :=
  (takeWhile_gives_all hes).bind ((nonEmpty_gives hne).bind
    (finish_gives.bind (get_gives.bind pure_gives)))

theorem var1_gives (name : Token) {location : Option IncompleteLocation}
    (hes : Serve es location.toList) :
    var1.Gives (c.holding (.token .identifier name :: es)) (.declaredVariable { name, location })
      (c.holding []) :=
  token_gives.bind ((takeIf_gives_last hes).bind (finish_gives.bind pure_gives))

theorem var1List_gives {declared : List DeclaredVariable} (hes : Serve es declared)
    (hne : declared ≠ []) :
    var1List.Gives (c.holding es) (.declaredVariables declared) (c.holding []) :=
  (takeWhile_gives_all hes).bind ((nonEmpty_gives hne).bind (finish_gives.bind pure_gives))

/-! ## Declarations in plain blocks -/

theorem initDeclaration_gives (declared : List DeclaredVariable) {init : SpecInit}
    (he : ofElement? e = some init) :
    initDeclaration.Gives (c.holding [.declaredVariables declared, e])
      (.declaration ⟨c.anchor, .init declared init⟩) (c.holding []) :=
  anchor_gives.bind ((take_gives rfl).bind
    ((take_gives he).bind (finish_gives.bind pure_gives)))

/-- The word of an edge. -/
def edgeWord : Edge → Text
  | .rising => "R_EDGE"
  | .falling => "F_EDGE"

theorem edge_gives (side : Edge) {t : Token} (ht : t.text.upperCase = edgeWord side) :
    edge.Gives (c.holding [.token .edge t]) (.edge side) (c.holding []) := by
  refine token_gives.bind ?_
  cases side with
  | rising =>
      have hword : t.is "R_EDGE" = true := by simp only [Token.is, Text.sameWord, ht]; rfl
      simp only [hword, if_true]
      exact pure_gives.bind (finish_gives.bind pure_gives)
  | falling =>
      have hother : t.is "R_EDGE" = false := by simp only [Token.is, Text.sameWord, ht]; rfl
      have hword : t.is "F_EDGE" = true := by simp only [Token.is, Text.sameWord, ht]; rfl
      simp only [hother, hword, if_true]
      exact pure_gives.bind (finish_gives.bind pure_gives)

theorem edgeDeclaration_gives (declared : List DeclaredVariable) (side : Edge) :
    edgeDeclaration.Gives (c.holding [.declaredVariables declared, .edge side])
      (.declaration ⟨c.anchor, .edge declared side⟩) (c.holding []) :=
  anchor_gives.bind ((take_gives rfl).bind
    ((take_gives rfl).bind (finish_gives.bind pure_gives)))

theorem fbNameDecl_gives (names : List Token) (typeName : Token) (init : StructureInitialization) :
    fbNameDecl.Gives
      (c.holding [.tokens .fbDeclNameList names, .token .typeName typeName,
        .structureInitialization init])
      (.declaration ⟨c.anchor, .fbInstance names typeName init⟩) (c.holding []) :=
  anchor_gives.bind (tokenList_gives.bind (token_gives.bind
    ((take_gives rfl).bind (finish_gives.bind pure_gives))))

theorem fbInvocationDecl_gives (names : List Token) (call : Call) :
    fbInvocationDecl.Gives (c.holding [.tokens .fbDeclNameList names, .invocation call])
      (.declaration ⟨c.anchor, .invocation names call⟩) (c.holding []) :=
  anchor_gives.bind (tokenList_gives.bind
    ((take_gives rfl).bind (finish_gives.bind pure_gives)))

/-! ## Declarations in other blocks -/

theorem locatedVarDecl_gives (name : Option Token) (location : Location) {init : SpecInit}
    (he : ofElement? e = some init) :
    locatedVarDecl.Gives
      (c.holding (name.toList.map (.token .identifier) ++ [.location location, e]))
      (.locatedDeclaration ⟨c.anchor, { name, location, init }⟩) (c.holding []) := by
  refine anchor_gives.bind ((tokenIf_gives ?_).bind ((take_gives rfl).bind
    ((take_gives he).bind (finish_gives.bind pure_gives))))
  simp [StopsToken]

theorem externalDeclaration_gives (name : Token) {type : TypeSpecification}
    (he : ofElement? e = some type) :
    externalDeclaration.Gives (c.holding [.token .identifier name, e])
      (.externalDeclaration ⟨c.anchor, { name, type }⟩) (c.holding []) :=
  anchor_gives.bind (token_gives.bind ((take_gives he).bind (finish_gives.bind pure_gives)))

/-- The word of an access direction. -/
def directionWord : AccessDirection → Text
  | .readWrite => "READ_WRITE"
  | .readOnly => "READ_ONLY"

theorem accessDirection_gives (d : AccessDirection) {t : Token}
    (ht : t.text.upperCase = directionWord d) :
    accessDirection.Gives (c.holding [.token .accessDirection t]) (.accessDirection d)
      (c.holding []) := by
  refine token_gives.bind ?_
  cases d with
  | readWrite =>
      have hword : t.is "READ_WRITE" = true := by simp only [Token.is, Text.sameWord, ht]; rfl
      simp only [hword, if_true]
      exact pure_gives.bind (finish_gives.bind pure_gives)
  | readOnly =>
      have hother : t.is "READ_WRITE" = false := by simp only [Token.is, Text.sameWord, ht]; rfl
      have hword : t.is "READ_ONLY" = true := by simp only [Token.is, Text.sameWord, ht]; rfl
      simp only [hother, hword, if_true]
      exact pure_gives.bind (finish_gives.bind pure_gives)

theorem programAccessDecl_gives (name : Token) {place : Variable} (he : ofElement? e = some place)
    (type : DataType) {direction : Option AccessDirection} (hes : Serve es direction.toList) :
    programAccessDecl.Gives
      (c.holding (.token .identifier name :: e :: .dataType type :: es))
      (.accessDeclaration ⟨c.anchor, { name, place, type, direction }⟩) (c.holding []) :=
  anchor_gives.bind (token_gives.bind ((take_gives he).bind ((take_gives rfl).bind
    ((takeIf_gives_last hes).bind (finish_gives.bind pure_gives)))))

theorem globalVarSpec_gives_names (names : List Token) :
    globalVarSpec.Gives (c.holding [.tokens .globalVarList names]) (.globalNames (.names names))
      (c.holding []) :=
  tokenListIf_some.bind (pure_gives.bind (finish_gives.bind pure_gives))

theorem globalVarSpec_gives_located (name : Token) (location : Location) :
    globalVarSpec.Gives (c.holding [.token .identifier name, .location location])
      (.globalNames (.located name location)) (c.holding []) := by
  have haddress : (globalAddress name).Gives (c.holding [.location location])
      (.located name location) (c.holding []) :=
    (takeIf_gives_last (a := some location) (.one rfl)).bind pure_gives
  refine (tokenListIf_none ?_).bind ?_
  · simp
  · exact token_gives.bind (haddress.bind (finish_gives.bind pure_gives))

theorem globalVarSpec_gives_incomplete (name : Token) (location : IncompleteLocation) :
    globalVarSpec.Gives (c.holding [.token .identifier name, .incompleteLocation location])
      (.globalNames (.incomplete name location)) (c.holding []) := by
  have haddress : (globalAddress name).Gives (c.holding [.incompleteLocation location])
      (.incomplete name location) (c.holding []) :=
    (takeIf_gives_none (.cons rfl)).bind
      ((take_gives rfl).bind pure_gives)
  refine (tokenListIf_none ?_).bind ?_
  · simp
  · exact token_gives.bind (haddress.bind (finish_gives.bind pure_gives))

theorem globalVarDecl_gives_invocation (names : GlobalNames) (call : Call) :
    globalVarDecl.Gives (c.holding [.globalNames names, .invocation call])
      (.globalDeclaration ⟨c.anchor, { names, init := .invocation call }⟩) (c.holding []) := by
  have hinit : globalInit.Gives (c.holding [.invocation call]) (.invocation call) (c.holding []) :=
    (takeIf_gives_last (a := some call) (.one rfl)).bind pure_gives
  exact anchor_gives.bind ((take_gives rfl).bind
    (hinit.bind (finish_gives.bind pure_gives)))

/-- A specification is no call. -/
theorem stops_call {init : SpecInit} (he : ofElement? e = some init) : Stops Call [e] := by
  apply Stops.cons
  cases e <;> first | rfl | cases he

theorem globalVarDecl_gives_spec (names : GlobalNames) {init : SpecInit}
    (he : ofElement? e = some init) :
    globalVarDecl.Gives (c.holding [.globalNames names, e])
      (.globalDeclaration ⟨c.anchor, { names, init := .spec init }⟩) (c.holding []) := by
  have hinit : globalInit.Gives (c.holding [e]) (.spec init) (c.holding []) :=
    (takeIf_gives_none (stops_call he)).bind
      ((take_gives he).bind pure_gives)
  exact anchor_gives.bind ((take_gives rfl).bind
    (hinit.bind (finish_gives.bind pure_gives)))

/-! ## Blocks -/

theorem variableAttribute_gives {t : Token} {flag : Flags VariableAttribute}
    (ht : Flags.ofKeyword? t.text = some flag) :
    variableAttribute.Gives (c.holding [.token .variableAttribute t]) (.attributes flag)
      (c.holding []) := by
  refine token_gives.bind ?_
  simp only [ht]
  exact finish_gives.bind pure_gives

/-- What a block is made of: its attributes in one set, and its declarations. -/
theorem blockOf_gives {α : Type} [OfElement (Anchored α)]
    {attributes : List (Flags VariableAttribute)} (hes : Serve es attributes) {fs : List Element} {items : List (Anchored α)}
    (hfs : Serve fs items) (hstop : Stops (Flags VariableAttribute) fs) :
    (blockOf α).Gives (c.holding (es ++ fs))
      { anchor := c.anchor, attributes := attributes.foldl Flags.union {}, items }
      (c.holding []) :=
  anchor_gives.bind ((takeWhile_gives hes hstop).bind
    ((takeWhile_gives_all hfs).bind (finish_gives.bind pure_gives)))

/-! ## Type declarations -/

theorem structureElementDeclaration_gives (name : Token) {location : Option IncompleteLocation}
    (hes : Serve es location.toList) {init : SpecInit} (he : ofElement? e = some init) :
    structureElementDeclaration.Gives (c.holding (.token .identifier name :: (es ++ [e])))
      (.member ⟨c.anchor, { name, location, init }⟩) (c.holding []) := by
  refine anchor_gives.bind (token_gives.bind ((takeIf_gives hes ?_).bind
    ((take_gives he).bind (finish_gives.bind pure_gives))))
  intro _
  apply Stops.cons
  cases e <;> first | rfl | cases he

theorem structureTypeDeclaration_gives (name : Token) (extends? : Option Token)
    {indirection : Option Indirection} (hes : Serve es indirection.toList) {fs : List Element}
    {members : List (Anchored Member)} (hfs : Serve fs members) (hstop : Stops Indirection fs)
    (htoken : StopsToken .extendsClause (es ++ fs)) :
    structureTypeDeclaration.Gives
      (c.holding (.token .identifier name ::
        (extends?.toList.map (.token .extendsClause) ++ (es ++ fs))))
      (.typeDeclaration
        { anchor := c.anchor, name, extends?, definition := .struct indirection members })
      (c.holding []) :=
  anchor_gives.bind (token_gives.bind ((tokenIf_gives fun _ => htoken).bind
    ((takeIf_gives hes fun _ => hstop).bind
      ((takeWhile_gives_all hfs).bind (finish_gives.bind pure_gives)))))

theorem namedType_gives {what : String} {fits : SpecInit → Bool} (name : Token)
    (extends? : Option Token) {init : SpecInit} (he : ofElement? e = some init)
    (hfits : fits init = true) :
    (namedType what fits).Gives
      (c.holding (.token .identifier name ::
        (extends?.toList.map (.token .extendsClause) ++ [e])))
      (.typeDeclaration { anchor := c.anchor, name, extends?, definition := .spec init })
      (c.holding []) := by
  refine anchor_gives.bind (token_gives.bind ((tokenIf_gives ?_).bind ((take_gives he).bind ?_)))
  · intro _ t h
    simp only [List.head?_cons, Option.some.injEq] at h
    subst h
    cases he
  · simp only [hfits]
    exact finish_gives.bind pure_gives

theorem dataTypeDeclaration_gives {items : List TypeDeclaration} (hes : Serve es items)
    (hne : items ≠ []) :
    dataTypeDeclaration.Gives (c.holding es) (.item (.types { anchor := c.anchor, items }))
      (c.holding []) :=
  anchor_gives.bind ((takeWhile_gives_all hes).bind
    ((nonEmpty_gives hne).bind (finish_gives.bind pure_gives)))

end StructuredText.Build
