import StructuredText.Proofs.Build.Accepts.Declarations
import StructuredText.Proofs.Build.Accepts.Statements
import StructuredText.Proofs.Build.Accepts.Tokens

/-!
# Builders accept what their rules leave

The rules taken together. Every builder accepts, silent rules leave what the table says of them, and
a construct without a builder is kept as the table says.

* `accepts`, `acceptsToken` — every builder accepts what its rule leaves.
* `leaves_of_silent`, `makes_of_token`, `makes_of_raw` — the rules without a builder.
-/

namespace StructuredText.Build

open Grammar Expr

/-- Every builder accepts what the production of its rule leaves. -/
theorem accepts (r : Rule) : Accepts r := by
  cases r
  case binaryInteger => exact binaryInteger_accepts
  case octalInteger => exact octalInteger_accepts
  case hexInteger => exact hexInteger_accepts
  case signedInteger => exact signedInteger_accepts
  case integerLiteral => exact integerLiteral_accepts
  case realLiteral => exact realLiteral_accepts
  case binaryBitStringLiteral => exact binaryBitStringLiteral_accepts
  case octalBitStringLiteral => exact octalBitStringLiteral_accepts
  case hexBitStringLiteral => exact hexBitStringLiteral_accepts
  case bitStringLiteral => exact bitStringLiteral_accepts
  case duration => exact duration_accepts
  case timeOfDay => exact timeOfDay_accepts
  case date => exact date_accepts
  case dateAndTime => exact dateAndTime_accepts
  case variableName => exact variableName_accepts
  case fieldSelector => exact fieldSelector_accepts
  case subscriptList => exact subscriptList_accepts
  case multiElementVariable => exact multiElementVariable_accepts
  case directVariable => exact directVariable_accepts
  case location => exact location_accepts
  case incompleteLocation => exact incompleteLocation_accepts
  case expression => exact expression_accepts
  case xorExpression => exact xorExpression_accepts
  case andExpression => exact andExpression_accepts
  case comparisonExpression => exact comparisonExpression_accepts
  case equalityExpression => exact equalityExpression_accepts
  case addExpression => exact addExpression_accepts
  case expressionTerm => exact expressionTerm_accepts
  case powerExpression => exact powerExpression_accepts
  case unaryExpression => exact unaryExpression_accepts
  case parenthesizedExpression => exact parenthesizedExpression_accepts
  case qualifiedEnumeratedValue => exact qualifiedEnumeratedValue_accepts
  case paramAssignment => exact paramAssignment_accepts
  case outputParameterAssignment => exact outputParameterAssignment_accepts
  case functionCall => exact functionCall_accepts
  case fbInvocation => exact fbInvocation_accepts
  case nonGenericTypeName => exact nonGenericTypeName_accepts
  case stringTypeSpecification => exact stringTypeSpecification_accepts
  case subrange => exact subrange_accepts
  case arraySpecification => exact arraySpecification_accepts
  case subrangeSpecification => exact subrangeSpecification_accepts
  case enumeratedValue => exact enumeratedValue_accepts
  case enumeratedSpecification => exact enumeratedSpecification_accepts
  case arrayInitialElement => exact arrayInitialElement_accepts
  case arrayInitialElementCount => exact arrayInitialElementCount_accepts
  case arrayInitialization => exact arrayInitialization_accepts
  case structureElementInitialization => exact structureElementInitialization_accepts
  case structureInitialization => exact structureInitialization_accepts
  case initializedStructure => exact initializedStructure_accepts
  case stringSpecInit => exact stringSpecInit_accepts
  case arraySpecInit => exact arraySpecInit_accepts
  case subrangeSpecInit => exact subrangeSpecInit_accepts
  case enumeratedSpecInit => exact enumeratedSpecInit_accepts
  case simpleSpecInit => exact simpleSpecInit_accepts
  case extendsClause => exact extendsClause_accepts
  case implementsClause => exact implementsClause_accepts
  case fbDeclNameList => exact fbDeclNameList_accepts
  case globalVarList => exact globalVarList_accepts
  case var1 => exact var1_accepts
  case var1List => exact var1List_accepts
  case var1InitDecl => exact var1InitDecl_accepts
  case arrayVarInitDecl => exact arrayVarInitDecl_accepts
  case stringVarDeclaration => exact stringVarDeclaration_accepts
  case edgeDeclaration => exact edgeDeclaration_accepts
  case fbNameDecl => exact fbNameDecl_accepts
  case fbInvocationDecl => exact fbInvocationDecl_accepts
  case locatedVarDecl => exact locatedVarDecl_accepts
  case externalDeclaration => exact externalDeclaration_accepts
  case programAccessDecl => exact programAccessDecl_accepts
  case globalVarSpec => exact globalVarSpec_accepts
  case globalVarDecl => exact globalVarDecl_accepts
  case varDeclarations => exact varDeclarations_accepts
  case tempVarDecls => exact tempVarDecls_accepts
  case varInstDeclaration => exact varInstDeclaration_accepts
  case inputDeclarations => exact inputDeclarations_accepts
  case outputDeclarations => exact outputDeclarations_accepts
  case inputOutputDeclarations => exact inputOutputDeclarations_accepts
  case locatedVarDeclarations => exact locatedVarDeclarations_accepts
  case externalVarDeclarations => exact externalVarDeclarations_accepts
  case programAccessDecls => exact programAccessDecls_accepts
  case globalVarDeclarations => exact globalVarDeclarations_accepts
  case structureElementDeclaration => exact structureElementDeclaration_accepts
  case structureTypeDeclaration => exact structureTypeDeclaration_accepts
  case arrayTypeDeclaration => exact arrayTypeDeclaration_accepts
  case stringTypeDeclaration => exact stringTypeDeclaration_accepts
  case subrangeTypeDeclaration => exact subrangeTypeDeclaration_accepts
  case enumeratedTypeDeclaration => exact enumeratedTypeDeclaration_accepts
  case initializedStructureTypeDeclaration => exact initializedStructureTypeDeclaration_accepts
  case simpleTypeDeclaration => exact simpleTypeDeclaration_accepts
  case dataTypeDeclaration => exact dataTypeDeclaration_accepts
  case assignmentStatement => exact assignmentStatement_accepts
  case setStatement => exact setStatement_accepts
  case resetStatement => exact resetStatement_accepts
  case referenceAssignmentStatement => exact referenceAssignmentStatement_accepts
  case exitStatement => exact exitStatement_accepts
  case continueStatement => exact continueStatement_accepts
  case returnStatement => exact returnStatement_accepts
  case methodStatement => exact methodStatement_accepts
  case fbInvocationStatement => exact fbInvocationStatement_accepts
  case noOpStatement => exact noOpStatement_accepts
  case elseIfClause => exact elseIfClause_accepts
  case elseClause => exact elseClause_accepts
  case ifStatement => exact ifStatement_accepts
  case caseElement => exact caseElement_accepts
  case caseStatement => exact caseStatement_accepts
  case forStatement => exact forStatement_accepts
  case whileStatement => exact whileStatement_accepts
  case repeatStatement => exact repeatStatement_accepts
  case statementList => exact statementList_accepts
  case functionBlockBody => exact functionBlockBody_accepts
  case functionBlockTypeDeclaration => exact functionBlockTypeDeclaration_accepts
  case functionDeclaration => exact functionDeclaration_accepts
  case programDeclaration => exact programDeclaration_accepts
  case methodAccess => exact methodAccess_accepts
  case functionBlockMethodDeclaration => exact functionBlockMethodDeclaration_accepts
  case action => exact action_accepts
  case entryAction => exact entryAction_accepts
  case exitAction => exact exitAction_accepts
  case iecSource => exact iecSource_accepts
  -- the other rules have no builder, or are tokens
  all_goals
    intro b e es c hb hr
    first | (cases hb; done) | cases hr

/-- Every builder of a token accepts what the pattern of its rule spells. -/
theorem acceptsToken (r : Rule) : AcceptsToken r := by
  cases r
  case trueValue => exact trueValue_acceptsToken
  case falseValue => exact falseValue_acceptsToken
  case stringLiteral => exact stringLiteral_acceptsToken
  case fullSubrange => exact fullSubrange_acceptsToken
  case edge => exact edge_acceptsToken
  case accessDirection => exact accessDirection_acceptsToken
  case variableAttribute => exact variableAttribute_acceptsToken
  case indirectionType => exact indirectionType_acceptsToken
  -- the other rules have no builder, or are no tokens
  all_goals
    intro b p t c hb hr
    first | (cases hb; done) | cases hr

/-! ## Rules without a builder -/

/-- A token without a builder is what the table says, keywords apart. -/
theorem makes_of_token {r : Rule} {p : Pattern} {t : Token} (hb : builder? r = none)
    (hr : r.production = .token p) (hkeyword : r.isKeyword = false) (h : p.Spells t.text) :
    r.Makes (.token r t) := by
  have hspells : ∀ p', r.production = .token p' → p'.Spells t.text := by
    intro p' hp'
    obtain rfl := Production.token.inj (hr.symm.trans hp')
    exact h
  cases r
  all_goals first | (cases hb; done) | (cases hr; done) | (cases hkeyword; done) | skip
  all_goals exact ⟨t, rfl, hspells⟩

/-- A raw node that holds a number is a part of a duration, if its rule is a unit. -/
theorem isPart_of_unit {e : Expr} {es : List Element} {n : RawNode Element}
    (he : e.LeavesToken .durationNumber) (h : e.Leaves es) (hn : n.children = es)
    (hset : ∀ d number, (setPart? d number n.rule).isSome) : IsPart n := by
  obtain ⟨t, rfl⟩ := he es h
  refine ⟨t, ?_, fun d => hset d t⟩
  simp [RawNode.token?, hn]

/-- A number and its unit. -/
theorem leavesToken_unit {fs : List Expr} (hfs : fs.filter (!·.silent) = [.rule .durationNumber]) :
    (glued fs).LeavesToken .durationNumber := by
  intro es hes
  have hrow := row_of_glued hes
  rw [hfs] at hrow
  obtain ⟨_, rfl, t, rfl, -⟩ := hrow
  exact ⟨t, rfl⟩

/-- What the list of a case leaves are labels. -/
theorem labels_of_caseList {es : List Element}
    (h : (commaList (oneOf [Rule.subrange, Rule.expression])).Leaves es) :
    ∃ ls : List CaseLabel, Serve es ls := by
  obtain ⟨ls, -, hls⟩ := serve_of_commaList (α := CaseLabel) h (by
    rintro xs (⟨_, rfl, v, rfl⟩ | ⟨x, rfl, v, hv⟩)
    · exact ⟨_, rfl, .range v, rfl⟩
    · refine ⟨x, rfl, .value v, ?_⟩
      cases x <;> first | (cases hv; rfl) | cases hv)
  exact ⟨ls, hls⟩

/-- A construct without a builder is what the table says. -/
theorem makes_of_raw {r : Rule} {e : Expr} {es : List Element} (hb : builder? r = none)
    (hr : r.production = .node e) (h : e.Leaves es) {n : RawNode Element} (hrule : n.rule = r)
    (hn : n.children = es) : r.Makes (.raw n) := by
  cases r
  -- the other rules have a builder, or are no nodes
  all_goals first | (cases hb; done) | (cases hr; done) | skip
  case caseList =>
    cases hr
    rw [← hn] at h
    exact ⟨n, rfl, hrule, labels_of_caseList h⟩
  case interfaceDeclaration => exact ⟨_, rfl⟩
  all_goals
    cases hr
    exact ⟨n, rfl, isPart_of_unit (leavesToken_unit rfl) h hn (by rw [hrule]; intros; rfl)⟩

/-! ## Silent rules -/

/-- A semicolon that is only looked for leaves nothing. -/
theorem leaves_of_terminated {e : Expr} {es : List Element} (h : (terminated e).Leaves es) :
    e.Leaves es := by
  obtain ⟨xs, _, hxs, rfl, rfl⟩ := parts_of_spaced h
  rwa [List.append_nil]

/-- The end of a type declaration that is only looked for leaves nothing. -/
theorem leaves_of_typeEnded {e : Expr} {es : List Element} (h : (typeEnded e).Leaves es) :
    e.Leaves es := by
  obtain ⟨xs, _, hxs, rfl, rfl⟩ := parts_of_spaced h
  rwa [List.append_nil]

/-- What every alternative leaves, the choice leaves. -/
theorem leaves_of_oneOf {P : List Element → Prop} {e : Expr} {fs : List Expr} {es : List Element}
    (h : (oneOf (e :: fs)).Leaves es) (hall : ∀ f ∈ e :: fs, ∀ xs, f.Leaves xs → P xs) : P es := by
  induction fs generalizing e with
  | nil => exact hall e (by simp) es h
  | cons f fs ih =>
      rcases h with h | h
      · exact hall e (by simp) es h
      · exact ih h fun g hg => hall g (List.mem_cons_of_mem e hg)

/-- A silent rule leaves what the table says. -/
theorem leaves_of_silent {r : Rule} {e : Expr} {es : List Element} (hr : r.production = .silent e)
    (h : e.Leaves es) : r.Leaves es := by
  cases r
  -- the other rules are not silent
  all_goals first | (cases hr; done) | cases hr
  case whitespace | comment | identChar => exact h
  case reserved | digits | exponent | typeDeclarationEnd | emptyStatement =>
    exact eq_nil_of_silent rfl h
  case bitStringConstant =>
    rcases h with h | h | h | h <;> exact h
  case constant =>
    rcases h with h | h | h | h | h | h | ⟨_, rfl, i, rfl⟩ | ⟨_, rfl, s, rfl⟩ | h | h
    all_goals first | exact h | exact ⟨_, rfl, _, rfl⟩
  case anyVariable =>
    rcases h with ⟨_, rfl, v, rfl⟩ | h
    · exact ⟨_, rfl, _, rfl⟩
    · exact h
  case primaryExpression =>
    rcases h with h | ⟨_, rfl, v, rfl⟩ | ⟨_, rfl, v, rfl⟩ | h | ⟨_, rfl, v, rfl⟩
    all_goals first | exact h | exact ⟨_, rfl, _, rfl⟩
  case parameter =>
    rcases h with h | h <;> exact h
  case parameterList =>
    obtain ⟨ps, -, hps⟩ := serve_of_commaList (α := Parameter) h fun _ h => h
    exact ⟨ps, hps⟩
  case arraySubrange =>
    rcases h with h | h <;> exact h
  case arrayElementType | returnType =>
    rcases h with ⟨_, rfl, v, rfl⟩ | ⟨_, rfl, v, rfl⟩ | ⟨_, rfl, v, rfl⟩ <;>
      exact ⟨_, rfl, _, rfl⟩
  case locatedVarSpecInit =>
    refine leaves_of_oneOf h ?_
    intro f hf xs hxs
    simp only [List.mem_cons, List.not_mem_nil, or_false] at hf
    rcases hf with rfl | rfl | rfl | rfl | rfl | rfl
    · obtain ⟨_, rfl, i, t, v, rfl⟩ := leaves_of_terminated hxs
      exact ⟨_, rfl, _, rfl⟩
    · obtain ⟨_, rfl, t, v, rfl⟩ := leaves_of_terminated hxs
      exact ⟨_, rfl, _, rfl⟩
    · obtain ⟨_, rfl, v, rfl⟩ := leaves_of_terminated hxs
      exact ⟨_, rfl, _, rfl⟩
    · obtain ⟨_, rfl, i, t, v, rfl⟩ := leaves_of_terminated hxs
      exact ⟨_, rfl, _, rfl⟩
    · obtain ⟨_, rfl, i, t, v, rfl⟩ := leaves_of_terminated hxs
      exact ⟨_, rfl, _, rfl⟩
    · obtain ⟨_, rfl, t, v, rfl⟩ := leaves_of_terminated hxs
      exact ⟨_, rfl, _, rfl⟩
  case typeDeclaration =>
    rcases h with h | h | h | h | h | h | h
    · exact h
    all_goals exact leaves_of_typeEnded h
  case varInitDecl =>
    rcases h with h | h | h | h | h <;> exact leaves_of_terminated h
  case inputDeclaration =>
    rcases h with h | h
    · exact leaves_of_terminated h
    · exact h
  case externalSpec =>
    refine leaves_of_oneOf h ?_
    intro f hf xs hxs
    simp only [List.mem_cons, List.not_mem_nil, or_false] at hf
    rcases hf with rfl | rfl | rfl | rfl | rfl <;>
      (obtain ⟨_, rfl, v, rfl⟩ := leaves_of_terminated hxs; exact ⟨_, rfl, _, rfl⟩)
  case globalVarInit =>
    rcases h with h | ⟨x, rfl, hx⟩
    · obtain ⟨_, rfl, call, rfl⟩ := leaves_of_terminated h
      exact ⟨_, rfl, .inl ⟨call, rfl⟩⟩
    · exact ⟨x, rfl, .inr hx⟩
  case varDeclarationBlock =>
    rcases h with h | h | h | h | h | h | h | h | h | ⟨_, rfl, b, rfl⟩
    all_goals first | exact h | exact ⟨_, rfl, _, rfl⟩
  case statement =>
    rcases h with rfl | h | h | h | h | h | h | h | h | h | h | h | h | h | h | h
    · exact ⟨[], .nil⟩
    all_goals exact serve_of_one h
  case sourceItem =>
    rcases h with h | h | h | h | h | h | h | h | h | ⟨_, rfl, b, rfl⟩
    all_goals first | exact h | exact ⟨_, rfl, _, rfl⟩

end StructuredText.Build
