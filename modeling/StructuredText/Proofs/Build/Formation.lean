import StructuredText.Proofs.Build.Formation.Expressions
import StructuredText.Proofs.Build.Formation.Types
import StructuredText.Proofs.Build.Formation.Declarations
import StructuredText.Proofs.Build.Formation.Statements

/-!
# Builders make what the table says

The builders taken together, and what becomes of a node.

* `forms_of_builder` — what a builder makes is in the table.
* `Made`, `made_of_element` — what becomes of a node, with a builder or without.
-/

namespace StructuredText.Build

open Grammar Builder

variable {c c' : Children} {es : List Element} {x : Element}

/-! ## All builders -/

/-- What a builder makes is in the table. -/
theorem forms_of_builder {b : Builder Element} (hb : builder? c.rule = some b)
    (h : b.Gives (c.holding es) x c') : Forms c.anchor c.rule es x := by
  generalize hr : c.rule = r at hb
  -- One lemma for each handler; the rules of one handler are cases of its lemma.
  cases r
  all_goals first | (cases hb; done) | cases hb
  case binaryInteger | octalInteger | hexInteger | signedInteger =>
    exact forms_of_literally (integerOf_literally _ _) rfl h
  case integerLiteral => exact forms_of_literally integerLiteral_literally rfl h
  case realLiteral => exact forms_of_literally realLiteral_literally rfl h
  case binaryBitStringLiteral | octalBitStringLiteral | hexBitStringLiteral | bitStringLiteral =>
    exact forms_of_literally (bitStringOf_literally _ _) rfl h
  case trueValue | falseValue => exact forms_of_literally (booleanOf_literally _ _) rfl h
  case duration => exact forms_of_literally duration_literally rfl h
  case timeOfDay => exact forms_of_literally timeOfDay_literally rfl h
  case date => exact forms_of_literally date_literally rfl h
  case dateAndTime => exact forms_of_literally dateAndTime_literally rfl h
  case stringLiteral => exact forms_of_literally stringLiteral_literally rfl h
  case variableName => exact variableName_forms h
  case fieldSelector => exact fieldSelector_forms h
  case subscriptList => exact subscriptList_forms h
  case multiElementVariable => exact multiElementVariable_forms h
  case directVariable => exact directVariable_forms h
  case location => exact location_forms h
  case incompleteLocation => exact incompleteLocation_forms h
  case expression | xorExpression | andExpression | comparisonExpression | equalityExpression
      | addExpression | expressionTerm | powerExpression => exact binaryChain_forms rfl h
  case unaryExpression => exact unaryExpression_forms h
  case parenthesizedExpression => exact parenthesizedExpression_forms h
  case qualifiedEnumeratedValue => exact qualifiedEnumeratedValue_forms h
  case paramAssignment => exact paramAssignment_forms h
  case outputParameterAssignment => exact outputParameterAssignment_forms h
  case functionCall => exact functionCall_forms h
  case fbInvocation => exact fbInvocation_forms h
  case indirectionType => exact indirectionType_forms h
  case nonGenericTypeName => exact nonGenericTypeName_forms h
  case stringTypeSpecification => exact stringTypeSpecification_forms h
  case stringSpecInit => exact stringSpecInit_forms h
  case fullSubrange => exact fullSubrange_forms h
  case subrange => exact subrange_forms h
  case arraySpecification => exact arraySpecification_forms h
  case arrayInitialElement =>
    cases of_single h
    exact .pass x rfl
  case arrayInitialElementCount => exact arrayInitialElementCount_forms h
  case arrayInitialization => exact arrayInitialization_forms h
  case arraySpecInit => exact arraySpecInit_forms h
  case subrangeSpecification => exact subrangeSpecification_forms h
  case subrangeSpecInit => exact subrangeSpecInit_forms h
  case enumeratedValue => exact enumeratedValue_forms h
  case enumeratedSpecification => exact enumeratedSpecification_forms h
  case enumeratedSpecInit => exact enumeratedSpecInit_forms h
  case simpleSpecInit => exact simpleSpecInit_forms h
  case structureElementInitialization => exact structureElementInitialization_forms h
  case structureInitialization => exact structureInitialization_forms h
  case initializedStructure => exact initializedStructure_forms h
  case extendsClause => exact extendsClause_forms h
  case implementsClause | fbDeclNameList | globalVarList =>
    rw [← hr]
    exact nameList_forms (by rw [hr]; rfl) h
  case var1 => exact var1_forms h
  case var1List => exact var1List_forms h
  case var1InitDecl | arrayVarInitDecl | stringVarDeclaration => exact initDeclaration_forms rfl h
  case edge => exact edge_forms h
  case edgeDeclaration => exact edgeDeclaration_forms h
  case fbNameDecl => exact fbNameDecl_forms h
  case fbInvocationDecl => exact fbInvocationDecl_forms h
  case variableAttribute => exact variableAttribute_forms h
  case varDeclarations | tempVarDecls | varInstDeclaration | inputDeclarations | outputDeclarations
      | inputOutputDeclarations => exact plainBlock_forms rfl h
  case locatedVarDecl => exact locatedVarDecl_forms h
  case locatedVarDeclarations => exact locatedBlock_forms h
  case externalDeclaration => exact externalDeclaration_forms h
  case externalVarDeclarations => exact externalBlock_forms h
  case accessDirection => exact accessDirection_forms h
  case programAccessDecl => exact programAccessDecl_forms h
  case programAccessDecls => exact accessBlock_forms h
  case globalVarSpec => exact globalVarSpec_forms h
  case globalVarDecl => exact globalVarDecl_forms h
  case globalVarDeclarations => exact globalBlock_forms h
  case structureElementDeclaration => exact structureElementDeclaration_forms h
  case structureTypeDeclaration => exact structureTypeDeclaration_forms h
  case arrayTypeDeclaration | stringTypeDeclaration | subrangeTypeDeclaration
      | enumeratedTypeDeclaration | initializedStructureTypeDeclaration | simpleTypeDeclaration =>
    exact namedType_forms rfl h
  case dataTypeDeclaration => exact dataTypeDeclaration_forms h
  case assignmentStatement => exact assignmentStatement_forms h
  case setStatement | resetStatement | referenceAssignmentStatement =>
    exact targetedStatement_forms rfl h
  case elseIfClause => exact elseIfClause_forms h
  case elseClause => exact elseClause_forms h
  case ifStatement => exact ifStatement_forms h
  case caseElement => exact caseElement_forms h
  case caseStatement => exact caseStatement_forms h
  case forStatement => exact forStatement_forms h
  case whileStatement => exact whileStatement_forms h
  case repeatStatement => exact repeatStatement_forms h
  case exitStatement | continueStatement | returnStatement => exact jumpStatement_forms rfl h
  case methodStatement => exact methodStatement_forms h
  case fbInvocationStatement => exact fbInvocationStatement_forms h
  case noOpStatement => exact noOpStatement_forms h
  case statementList => exact statementList_forms h
  case functionBlockBody => exact functionBlockBody_forms h
  case functionBlockTypeDeclaration => exact functionBlockTypeDeclaration_forms h
  case functionDeclaration => exact functionDeclaration_forms h
  case programDeclaration => exact programDeclaration_forms h
  case methodAccess => exact methodAccess_forms h
  case functionBlockMethodDeclaration => exact functionBlockMethodDeclaration_forms h
  case action => exact action_forms h
  case entryAction => exact entryAction_forms h
  case exitAction => exact exitAction_forms h
  case iecSource => exact iecSource_forms h

/-! ## Nodes -/

section Nodes

variable {lines : LineIndex} {n : Node}

/-- The fresh anchor of a construct, at its node. -/
def freshAnchor (lines : LineIndex) (n : Node) : Anchor :=
  { line := lines.lineOf n.start.offset, span := n.span }

/-- What becomes of a node: a node without children is a token, from which its rule may build
something; one with children is built of their elements, or raw. -/
inductive Made (lines : LineIndex) (n : Node) : Element → Prop where
  | token (hb : builder? n.rule = none) (hn : n.children = []) :
      Made lines n (leafToken lines n.rule n.start n.stop)
  | leaf {x : Element} (hn : n.children = [])
      (h : Forms (freshAnchor lines n) n.rule [leafToken lines n.rule n.start n.stop] x) :
      Made lines n x
  | built {es : List Element} {x : Element} (hn : n.children ≠ [])
      (hes : elements lines n.children = .ok es)
      (h : Forms (freshAnchor lines n) n.rule es x) : Made lines n x
  | raw {es : List Element} (last : Node) (hb : builder? n.rule = none)
      (hlast : n.children.getLast? = some last) (hes : elements lines n.children = .ok es) :
      Made lines n (.raw
        { rule := n.rule, line := lines.lineOf n.start.offset, children := es
          span := ⟨n.start.offset, ownEnd n.text n.start.offset last.stop.offset⟩
          text := (n.text.takeBytes?
            (ownEnd n.text n.start.offset last.stop.offset - n.start.offset)).getD [] })

theorem forms_of_build {b : Builder Element} (hb : builder? n.rule = some b) {x : Element}
    (h : b.build (.ofList n.rule (lines.lineOf n.start.offset) n.span es) = .ok x) :
    Forms (freshAnchor lines n) n.rule es x := by
  obtain ⟨c', h₁⟩ := exists_gives_of_build h
  exact forms_of_builder (c := .ofList n.rule (lines.lineOf n.start.offset) n.span es) hb h₁

theorem made_of_element {x : Element} (h : element lines n = .ok x) : Made lines n x := by
  obtain ⟨es, hes, ⟨b, hb, hbuild⟩ | ⟨hb, ⟨hn, rfl⟩ | ⟨last, hlast, rfl⟩⟩⟩ := element_cases h
  · have hforms := forms_of_build hb hbuild
    cases hn : n.children with
    | nil =>
        simp only [hn, List.isEmpty_nil, if_true] at hforms
        exact .leaf hn hforms
    | cons m ms =>
        simp only [hn, List.isEmpty_cons, Bool.false_eq_true, if_false] at hforms
        exact .built (by simp [hn]) hes hforms
  · exact .token hb hn
  · exact .raw last hb hlast hes

end Nodes

end StructuredText.Build
