import StructuredText.Grammar.Productions
import StructuredText.Proofs.Build.Literals
import StructuredText.Proofs.Grammar.Reading

/-!
# What the children of a construct can be

The elements that a match leaves are known from its expression alone, once it is known what the
rules called on the way leave. The table of the rules is stated here; that it is right is proved
rule by rule when the builders are known.

* `Rule.Makes` — what the element of a rule is.
* `Rule.Leaves`, `Expr.Leaves` — the rows of elements that a match can leave.
* `serve_of_opt`, `serve_of_many`, `serve_of_commaList` — what rows of equal parts serve as.
-/

namespace StructuredText

/-- The element serves as some value of the type. -/
def Serves (α : Type) [OfElement α] (e : Element) : Prop := ∃ a : α, ofElement? e = some a

namespace Grammar

open Build (IsPart)

/-- What the element of a rule is. A rule without a builder makes a token, whose text its pattern
spells, or a raw node. -/
def Rule.Makes (r : Rule) (e : Element) : Prop :=
  match r with
  -- literals
  | .binaryInteger | .octalInteger | .hexInteger | .signedInteger | .integerLiteral =>
    ∃ i, e = .literal (.integer i)
  | .realLiteral | .binaryBitStringLiteral | .octalBitStringLiteral | .hexBitStringLiteral
  | .bitStringLiteral | .bitStringConstant | .trueValue | .falseValue | .duration | .timeOfDay
  | .date | .dateAndTime | .constant => ∃ v, e = .literal v
  | .days | .hours | .minutes | .seconds | .milliseconds => ∃ n, e = .raw n ∧ IsPart n
  | .stringLiteral => ∃ s, e = .literal (.string s)
  -- variables
  | .variableName => ∃ v, e = .place (.symbolic v)
  | .directVariable => ∃ v, e = .place (.direct v)
  | .multiElementVariable | .anyVariable => ∃ v, e = .place v
  | .fieldSelector | .subscriptList => Serves Selector e
  | .location => ∃ v, e = .location v
  | .incompleteLocation => ∃ v, e = .incompleteLocation v
  -- expressions
  | .expression | .xorExpression | .andExpression | .comparisonExpression | .equalityExpression
  | .addExpression | .expressionTerm | .powerExpression | .unaryExpression | .primaryExpression
  | .parenthesizedExpression | .functionCall => Serves Expression e
  | .qualifiedEnumeratedValue | .enumeratedValue => ∃ v, e = .enumeratedValue v
  | .paramAssignment | .outputParameterAssignment | .parameter => Serves Parameter e
  | .fbInvocation => ∃ v, e = .invocation v
  -- types and first values
  | .indirectionType => Serves Indirection e
  | .nonGenericTypeName => ∃ v, e = .dataType v
  | .stringTypeSpecification => ∃ v, e = .stringType v
  | .fullSubrange | .subrange | .arraySubrange => ∃ v, e = .subrange v
  | .arraySpecification => ∃ v, e = .arrayType v
  | .subrangeSpecification => ∃ v, e = .subrangeType v
  | .enumeratedSpecification => ∃ v, e = .enumeratedType v
  | .arrayElementType | .returnType | .externalSpec => Serves TypeSpecification e
  | .arrayInitialElement => Serves Initializer e
  | .arrayInitialElementCount => Serves ArrayInitialElement e
  | .arrayInitialization => ∃ v, e = .arrayInitialization v
  | .structureElementInitialization => Serves StructureElementInitialization e
  | .structureInitialization => ∃ v, e = .structureInitialization v
  | .initializedStructure => ∃ v, e = .initializedStructure v
  | .stringSpecInit => ∃ t v, e = .specInit (.string t v)
  | .arraySpecInit => ∃ i t v, e = .specInit (.array i t v)
  | .subrangeSpecInit => ∃ i t v, e = .specInit (.subrange i t v)
  | .enumeratedSpecInit => ∃ i t v, e = .specInit (.enumerated i t v)
  | .simpleSpecInit => ∃ t v, e = .specInit (.simple t v)
  | .locatedVarSpecInit => Serves SpecInit e
  -- declarations
  | .extendsClause => ∃ t, e = .token .extendsClause t
  | .implementsClause | .fbDeclNameList | .globalVarList => ∃ ts, e = .tokens r ts
  | .structureElementDeclaration => Serves (Anchored Member) e
  | .structureTypeDeclaration | .arrayTypeDeclaration | .stringTypeDeclaration
  | .subrangeTypeDeclaration | .enumeratedTypeDeclaration | .initializedStructureTypeDeclaration
  | .simpleTypeDeclaration | .typeDeclaration => Serves TypeDeclaration e
  | .var1 => Serves DeclaredVariable e
  | .var1List => ∃ vs, e = .declaredVariables vs
  | .edge => ∃ v, e = .edge v
  | .var1InitDecl | .arrayVarInitDecl | .stringVarDeclaration | .fbNameDecl | .fbInvocationDecl
  | .edgeDeclaration | .varInitDecl | .inputDeclaration => Serves (Anchored VariableDeclaration) e
  | .variableAttribute => Serves (Flags VariableAttribute) e
  | .locatedVarDecl => Serves (Anchored LocatedDeclaration) e
  | .externalDeclaration => Serves (Anchored ExternalDeclaration) e
  | .accessDirection => Serves AccessDirection e
  | .programAccessDecl => Serves (Anchored AccessDeclaration) e
  | .globalVarSpec => ∃ v, e = .globalNames v
  | .globalVarInit => (∃ v, e = .invocation v) ∨ Serves SpecInit e
  | .globalVarDecl => Serves (Anchored GlobalDeclaration) e
  | .globalVarDeclarations => ∃ b, e = .block (.global b)
  | .varDeclarations | .locatedVarDeclarations | .tempVarDecls | .varInstDeclaration
  | .inputDeclarations | .outputDeclarations | .inputOutputDeclarations | .externalVarDeclarations
  | .programAccessDecls | .varDeclarationBlock => ∃ b, e = .block b
  -- statements
  | .assignmentStatement | .setStatement | .resetStatement | .referenceAssignmentStatement
  | .ifStatement | .caseStatement | .forStatement | .whileStatement | .repeatStatement
  | .exitStatement | .continueStatement | .returnStatement | .methodStatement
  | .fbInvocationStatement | .noOpStatement => Serves Statement e
  | .elseIfClause => Serves ElseIf e
  | .elseClause => Serves Else e
  | .caseList => ∃ n, e = .raw n ∧ n.rule = .caseList ∧ ∃ ls : List CaseLabel, Serve n.children ls
  | .caseElement => Serves Case e
  | .statementList => ∃ ss, e = .statements ss
  -- units
  | .functionBlockBody => ∃ b, e = .body b
  | .methodAccess => Serves (Flags AccessSpecifier) e
  | .dataTypeDeclaration | .functionBlockTypeDeclaration | .functionDeclaration
  | .programDeclaration | .functionBlockMethodDeclaration | .action | .entryAction | .exitAction
  | .interfaceDeclaration | .sourceItem => Serves Item e
  | .iecSource => ∃ f, e = .file f
  | r => ∃ t, e = .token r t ∧ ∀ p, r.production = .token p → p.Spells t.text

/-- The rows of elements that a match of a rule can leave. Most rules leave one element. -/
def Rule.Leaves (r : Rule) (es : List Element) : Prop :=
  match r with
  | .keyword _ | .endOfInput | .whitespace | .comment | .identChar | .reserved | .digits | .exponent
  | .typeDeclarationEnd | .emptyStatement => es = []
  | .parameterList => ∃ ps : List Parameter, Serve es ps
  | .statement => ∃ ss : List Statement, Serve es ss
  | r => ∃ e, es = [e] ∧ r.Makes e

/-- Every match of the rule leaves nothing. -/
def Rule.silent : Rule → Bool
  | .keyword _ | .endOfInput | .whitespace | .comment | .identChar | .reserved | .digits
  | .exponent | .typeDeclarationEnd | .emptyStatement => true
  | _ => false

theorem Rule.eq_nil_of_silent {r : Rule} {es : List Element} (hs : r.silent = true)
    (h : r.Leaves es) : es = [] := by
  cases r <;> first | exact h | simp [silent] at hs

/-- The rows of elements that a match of an expression can leave. -/
def Expr.Leaves : Expr → List Element → Prop
  | .lexeme _, es => es = []
  | .rule r, es => r.Leaves es
  | .seq a b, es => ∃ xs ys, a.Leaves xs ∧ b.Leaves ys ∧ es = xs ++ ys
  | .alt a b, es => a.Leaves es ∨ b.Leaves es
  | .star a, es => ∃ rows : List (List Element), (∀ xs ∈ rows, a.Leaves xs) ∧ es = rows.flatten
  | .ahead _, es => es = []

namespace Expr

variable {e f : Expr} {fs : List Expr} {es : List Element}

/-! ## Rows of parts -/

/-- Every match of the expression leaves nothing. -/
def silent : Expr → Bool
  | .lexeme _ | .ahead _ => true
  | .rule r => r.silent
  | .seq a b | .alt a b => a.silent && b.silent
  | .star a => a.silent

theorem eq_nil_of_silent (hs : e.silent = true) (h : e.Leaves es) : es = [] := by
  induction e generalizing es with
  | lexeme | ahead => exact h
  | rule r => exact r.eq_nil_of_silent hs h
  | seq a b iha ihb =>
      obtain ⟨ha, hb⟩ : a.silent = true ∧ b.silent = true := by simpa [silent] using hs
      obtain ⟨xs, ys, hxs, hys, rfl⟩ := h
      rw [iha ha hxs, ihb hb hys, List.append_nil]
  | alt a b iha ihb =>
      obtain ⟨ha, hb⟩ : a.silent = true ∧ b.silent = true := by simpa [silent] using hs
      rcases h with h | h
      · exact iha ha h
      · exact ihb hb h
  | star a ih =>
      obtain ⟨rows, hrows, rfl⟩ := h
      exact List.flatten_eq_nil_iff.mpr fun xs hxs => ih hs (hrows xs hxs)

/-- The rows of elements that parts leave one after the other. -/
def LeavesRow : List Expr → List Element → Prop
  | [], es => es = []
  | [e], es => e.Leaves es
  | e :: f :: fs, es => ∃ xs ys, e.Leaves xs ∧ LeavesRow (f :: fs) ys ∧ es = xs ++ ys

theorem leavesRow_cons_iff :
    LeavesRow (e :: fs) es ↔ ∃ xs ys, e.Leaves xs ∧ LeavesRow fs ys ∧ es = xs ++ ys := by
  cases fs with
  | nil => simp [LeavesRow]
  | cons f fs => rfl

theorem leavesRow_filter (h : LeavesRow fs es) : LeavesRow (fs.filter (!·.silent)) es := by
  induction fs generalizing es with
  | nil => exact h
  | cons e fs ih =>
      obtain ⟨xs, ys, hxs, hys, rfl⟩ := leavesRow_cons_iff.mp h
      cases hs : e.silent with
      | true =>
          rw [eq_nil_of_silent hs hxs, List.filter_cons_of_neg (by simp [hs])]
          exact ih hys
      | false =>
          rw [List.filter_cons_of_pos (by simp [hs])]
          exact leavesRow_cons_iff.mpr ⟨xs, ys, hxs, ih hys, rfl⟩

theorem parts_of_spaced (h : (spaced fs).Leaves es) : LeavesRow fs es := by
  induction fs generalizing es with
  | nil => exact h
  | cons e fs ih =>
      cases fs with
      | nil => exact h
      | cons f fs =>
          obtain ⟨xs, ys, hxs, ⟨_, _, rfl, hys, rfl⟩, rfl⟩ := h
          exact ⟨xs, ys, hxs, ih hys, rfl⟩

theorem parts_of_glued (h : (glued fs).Leaves es) : LeavesRow fs es := by
  induction fs generalizing es with
  | nil => exact h
  | cons e fs ih =>
      cases fs with
      | nil => exact h
      | cons f fs =>
          obtain ⟨xs, ys, hxs, hys, rfl⟩ := h
          exact ⟨xs, ys, hxs, ih hys, rfl⟩

/-- Of spaced parts, those that leave something make up the row. -/
theorem row_of_spaced (h : (spaced fs).Leaves es) : LeavesRow (fs.filter (!·.silent)) es :=
  leavesRow_filter (parts_of_spaced h)

/-- Of glued parts, those that leave something make up the row. -/
theorem row_of_glued (h : (glued fs).Leaves es) : LeavesRow (fs.filter (!·.silent)) es :=
  leavesRow_filter (parts_of_glued h)

/-! ## Rows of equal parts -/

section Rows

variable {α : Type} [OfElement α] {r : Rule}

theorem serve_of_opt (h : (opt e).Leaves es)
    (he : ∀ xs, e.Leaves xs → ∃ x, xs = [x] ∧ Serves α x) : ∃ a : Option α, Serve es a.toList := by
  rcases h with h | rfl
  · obtain ⟨x, rfl, a, ha⟩ := he _ h
    exact ⟨some a, .one ha⟩
  · exact ⟨none, .nil⟩

theorem serve_flatten {rows : List (List Element)}
    (h : ∀ xs ∈ rows, ∃ as : List α, Serve xs as) : ∃ as : List α, Serve rows.flatten as := by
  induction rows with
  | nil => exact ⟨[], .nil⟩
  | cons xs rows ih =>
      obtain ⟨as, has⟩ := h xs (by simp)
      obtain ⟨bs, hbs⟩ := ih fun ys hys => h ys (by simp [hys])
      exact ⟨as ++ bs, has.append hbs⟩

/-- What a repetition leaves, round by round. -/
theorem rows_of_many (h : (many e).Leaves es) :
    ∃ rows : List (List Element), (∀ xs ∈ rows, e.Leaves xs) ∧ es = rows.flatten := by
  rcases h with ⟨xs, _, hxs, ⟨rows, hrows, rfl⟩, rfl⟩ | rfl
  · refine ⟨xs :: rows, ?_, rfl⟩
    intro ys hys
    rcases List.mem_cons.mp hys with rfl | hys
    · exact hxs
    · obtain ⟨_, _, rfl, hys, rfl⟩ := hrows ys hys
      exact hys
  · exact ⟨[], by simp, rfl⟩

theorem serve_of_many (h : (many e).Leaves es)
    (he : ∀ xs, e.Leaves xs → ∃ as : List α, Serve xs as) : ∃ as : List α, Serve es as := by
  obtain ⟨rows, hrows, rfl⟩ := rows_of_many h
  exact serve_flatten fun xs hxs => he xs (hrows xs hxs)

/-- One part and further ones serve as a row that is not empty. -/
theorem serve_of_first {xs ys : List Element} (hxs : ∃ x, xs = [x] ∧ Serves α x)
    (hys : ∃ as : List α, Serve ys as) : ∃ as : List α, as ≠ [] ∧ Serve (xs ++ ys) as := by
  obtain ⟨x, rfl, a, ha⟩ := hxs
  obtain ⟨as, has⟩ := hys
  exact ⟨a :: as, by simp, .cons ha has⟩

theorem serve_of_one {xs : List Element} (h : ∃ x, xs = [x] ∧ Serves α x) :
    ∃ as : List α, Serve xs as := by
  obtain ⟨x, rfl, a, ha⟩ := h
  exact ⟨[a], .one ha⟩

theorem serve_of_many1 (h : (many1 e).Leaves es)
    (he : ∀ xs, e.Leaves xs → ∃ x, xs = [x] ∧ Serves α x) :
    ∃ as : List α, as ≠ [] ∧ Serve es as := by
  obtain ⟨xs, _, hxs, ⟨_, ys, rfl, hys, rfl⟩, rfl⟩ := h
  exact serve_of_first (he xs hxs) (serve_of_many hys fun zs hzs => serve_of_one (he zs hzs))

theorem serve_of_commaList (h : (commaList e).Leaves es)
    (he : ∀ xs, e.Leaves xs → ∃ x, xs = [x] ∧ Serves α x) :
    ∃ as : List α, as ≠ [] ∧ Serve es as := by
  obtain ⟨xs, _, hxs, ⟨_, ys, rfl, hys, rfl⟩, rfl⟩ := h
  refine serve_of_first (he xs hxs) (serve_of_many hys ?_)
  rintro ys ⟨_, _, rfl, ⟨_, _, rfl, hys, rfl⟩, rfl⟩
  exact serve_of_one (he ys hys)

end Rows

/-- A token of the rule and nothing else. -/
def LeavesToken (e : Expr) (r : Rule) : Prop := ∀ es, e.Leaves es → ∃ t, es = [.token r t]

theorem leavesToken_rule {r : Rule} (h : ∀ es, r.Leaves es →
      ∃ e, es = [e] ∧ ∃ t, e = .token r t ∧ ∀ p, r.production = .token p → p.Spells t.text) :
    LeavesToken r r := by
  intro es hes
  obtain ⟨_, rfl, t, rfl, -⟩ := h es hes
  exact ⟨t, rfl⟩

theorem token_of_opt {r : Rule} (h : (opt e).Leaves es) (he : e.LeavesToken r) :
    ∃ t : Option Token, es = t.toList.map (.token r) := by
  rcases h with h | rfl
  · obtain ⟨t, rfl⟩ := he _ h
    exact ⟨some t, rfl⟩
  · exact ⟨none, rfl⟩

end Expr

end Grammar

end StructuredText
