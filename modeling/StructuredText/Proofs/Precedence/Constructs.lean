import StructuredText.Proofs.Build.Forms
import StructuredText.Proofs.Precedence.Yields

/-!
# Constructs of expressions, in order

For each rule that puts an expression together: what its production yields, and that the tree that
is built of it is layered and has the lexemes that were written.

* `level?_of_spells` — what the rule of an operator reads has its level.
* `ordered_of_forms` — what is built of parts in order is in order.
-/

namespace StructuredText

/-! ## Operators -/

/-- The level of the operators of a rule. -/
def Grammar.Rule.operatorLevel? : Grammar.Rule → Option Nat
  | .orOperator => some 1
  | .xorOperator => some 2
  | .andOperator => some 3
  | .equalsOperator => some 4
  | .compareOperator => some 5
  | .addOperator => some 6
  | .multiplyOperator => some 7
  | .powerOperator => some 8
  | _ => none

namespace Build

open Grammar Expr Pattern

/-- The level of an operator does not depend on its case. -/
theorem level?_of_upperCase {op : Token} {w : Text} {k : Nat}
    (h : op.text.upperCase = w.upperCase) (hw : Token.level? ⟨w, op.line⟩ = some k) :
    op.level? = some k := by
  simp only [Token.level?, Token.is, Text.sameWord, h] at hw ⊢
  exact hw

/-- What the rule of an operator reads is an operator of its level. -/
theorem level?_of_spells {r : Rule} {k : Nat} (hr : r.operatorLevel? = some k) {p : Pattern}
    (hp : r.production = .token p) {op : Token} (h : p.Spells op.text) : op.level? = some k := by
  have hword {w : String} (hw : (word w).Spells op.text)
      (hk : Token.level? ⟨w.toList, op.line⟩ = some k) : op.level? = some k :=
    level?_of_upperCase (word_spells hw) hk
  have htext {w : String} (hw : (text w).Spells op.text)
      (hk : Token.level? ⟨w.toList, op.line⟩ = some k) : op.level? = some k :=
    level?_of_upperCase (by rw [text_spells hw]) hk
  unfold Rule.operatorLevel? at hr
  -- One case for each level, with the words and marks of its rule.
  split at hr <;> cases hr <;> cases hp
  · rcases spells_boundary h with h | h
    · exact hword h rfl
    · exact hword h rfl
  · exact hword (spells_boundary h) rfl
  · rcases h with h | h
    · rcases spells_boundary h with h | h
      · exact hword h rfl
      · exact hword h rfl
    · exact htext h rfl
  · rcases h with h | h
    · exact htext h rfl
    · exact htext (spells_boundary h) rfl
  · rcases h with h | h | h | h
    · exact htext h rfl
    · exact htext h rfl
    · exact htext (spells_boundary h) rfl
    · exact htext h rfl
  · rcases h with h | h
    · exact htext h rfl
    · exact htext h rfl
  · rcases h with h | h | h
    · exact htext (spells_boundary h) rfl
    · exact htext h rfl
    · exact hword (spells_boundary h) rfl
  · exact htext h rfl

/-! ## Choices -/

/-- What an operand without a sign can be. -/
def primaries : List Rule :=
  [.parenthesizedExpression, .dateAndTime, .date, .timeOfDay, .duration, .realLiteral,
    .binaryBitStringLiteral, .octalBitStringLiteral, .hexBitStringLiteral, .bitStringLiteral,
    .integerLiteral, .stringLiteral, .trueValue, .falseValue, .qualifiedEnumeratedValue,
    .functionCall, .directVariable, .multiElementVariable]

variable {lines : LineIndex} {a : Anchor} {r : Rule} {s s' : Cursor} {es : List Element}
  {x : Element}

/-- A variable is an address or a name with selectors, wherever both may stand. -/
theorem picks_variable {rs : List Rule} (hdirect : .directVariable ∈ rs)
    (hmulti : .multiElementVariable ∈ rs) : Picks lines rs (.rule .anyVariable) :=
  .silent rfl (.alt (.rule hdirect rfl) (.rule hmulti rfl))

/-- A primary expression is one element of a rule that is an operand. -/
theorem picks_primary : Picks lines primaries (.rule .primaryExpression) := by
  have hrule (k : Rule) (hk : k ∈ primaries) (hin : k.inExpressions = true) :
      Picks lines primaries (.rule k) := .rule hk hin
  have hbits : Picks lines primaries (.rule .bitStringConstant) := by
    refine .silent rfl (Picks.oneOf [.binaryBitStringLiteral, .octalBitStringLiteral,
      .hexBitStringLiteral, .bitStringLiteral] (by simp) ?_)
    intro k hk
    simp only [List.mem_cons, List.not_mem_nil, or_false] at hk
    rcases hk with rfl | rfl | rfl | rfl <;> exact hrule _ (by decide) rfl
  have hconstant : Picks lines primaries (.rule .constant) := by
    refine .silent rfl (Picks.oneOf [.dateAndTime, .date, .timeOfDay, .duration,
      .realLiteral, .bitStringConstant, .integerLiteral, .stringLiteral, .trueValue, .falseValue]
      (by simp) ?_)
    intro k hk
    simp only [List.mem_cons, List.not_mem_nil, or_false] at hk
    rcases hk with rfl | rfl | rfl | rfl | rfl | rfl | rfl | rfl | rfl | rfl
    -- Bit strings have four rules; all other constants have one each.
    case inr.inr.inr.inr.inr.inl => exact hbits
    all_goals exact hrule _ (by decide) rfl
  exact .silent rfl (.alt (hrule _ (by decide) rfl) (.alt hconstant
    (.alt (hrule _ (by decide) rfl) (.alt (hrule _ (by decide) rfl)
      (picks_variable (by decide) (by decide))))))

/-- A parameter is an output or an input. -/
theorem picks_parameter :
    Picks lines [.outputParameterAssignment, .paramAssignment] (.rule .parameter) :=
  .silent rfl (.alt (.rule (by simp) rfl) (.rule (by simp) rfl))

/-- A selector is a subscript or a field. -/
theorem picks_selector :
    Picks lines [.subscriptList, .fieldSelector] (oneOf [Rule.subscriptList, Rule.fieldSelector]) :=
  .alt (.rule (by simp) rfl) (.rule (by simp) rfl)

/-! ## What is known of the parts -/

/-- The element of a rule is in order, and its lexemes are spread over what was read. -/
def Ordered (lines : LineIndex) (r : Rule) (x : Element) (s s' : Cursor) : Prop :=
  Graded r x ∧ Spread lines x.lexemes s s'

/-- An element that is a token by itself. -/
def isToken : Element → Bool
  | .token .. => true
  | _ => false

/-- Whether an element is a token can be told from its rule. -/
theorem isToken_of_graded (h : Graded r x) : isToken x = r.isPlainToken := by
  cases hr : r.isPlainToken with
  | true =>
      obtain ⟨t, p, rfl, -⟩ := h.spelled hr
      rfl
  | false =>
      cases x with
      | token k t => exact absurd rfl (h.construct hr k t)
      | _ => rfl

/-- What is no token is in order if it is layered. -/
theorem graded_of_construct (hr : r.isPlainToken = false) (hx : isToken x = false)
    (hlayered : x.Layered)
    (hoperand : r.isOperand = true → ∃ y : Expression, ofElement? x = some y ∧ r.tier ≤ y.tier) :
    Graded r x := by
  refine ⟨hlayered, hoperand, ?_, ?_⟩
  · intro h
    rw [hr] at h
    cases h
  · rintro _ k t rfl
    cases hx

/-- Rows that end in tokens fall apart in one way. -/
theorem append_tokens_inj {ys zs ds ms : List Element} (hys : ∀ y ∈ ys, isToken y = false)
    (hzs : ∀ z ∈ zs, isToken z = false) (hds : ∀ d ∈ ds, isToken d = true)
    (hms : ∀ m ∈ ms, isToken m = true) (h : ys ++ ds = zs ++ ms) : ys = zs ∧ ds = ms := by
  have hfilter : ys = zs := by
    have hkept := congrArg (List.filter (!isToken ·)) h
    rwa [List.filter_append, List.filter_append, List.filter_eq_self.mpr (by simpa using hys),
      List.filter_eq_nil_iff.mpr (by simpa using hds), List.filter_eq_self.mpr (by simpa using hzs),
      List.filter_eq_nil_iff.mpr (by simpa using hms), List.append_nil, List.append_nil] at hkept
  subst hfilter
  exact ⟨rfl, List.append_cancel_left h⟩

/-- What converts to an expression is no token. -/
theorem isToken_of_expression {y : Expression} (h : ofElement? x = some y) :
    isToken x = false := by
  cases x <;> cases h <;> rfl

/-! ## What productions yield -/

/-- A mark that may be missing. -/
def MarkRow (r : Rule) (ds : List Element) : Prop := ds = [] ∨ ∃ d, ds = [d] ∧ Graded r d

/-- A mark in front of something else is found in one way. -/
theorem markRow_append_inj {mark : Option Token} {ds fs gs : List Element} {y z : Element}
    (hr : r.isPlainToken = true) (hds : MarkRow r ds) (hy : ∀ t, y ≠ .token r t)
    (hz : ∀ t, z ≠ .token r t)
    (h : mark.toList.map (.token r) ++ y :: fs = ds ++ z :: gs) :
    mark.toList.map (.token r) = ds ∧ y = z ∧ fs = gs := by
  cases mark with
  | none =>
      rcases hds with rfl | ⟨d, rfl, hd⟩
      · obtain ⟨rfl, rfl⟩ := List.cons.inj h
        exact ⟨rfl, rfl, rfl⟩
      · obtain ⟨t, -, rfl, -⟩ := hd.spelled hr
        exact absurd (List.cons.inj h).1 (hy t)
  | some t =>
      rcases hds with rfl | ⟨d, rfl, hd⟩
      · exact absurd (List.cons.inj h).1.symm (hz t)
      · obtain ⟨rfl, hrest⟩ := List.cons.inj h
        obtain ⟨rfl, rfl⟩ := List.cons.inj hrest
        exact ⟨rfl, rfl, rfl⟩

/-- An optional mark yields a row of at most one token, and the tokens it writes. -/
theorem yields_mark (hr : r.inExpressions = true) (h : Yields lines (opt r) s es s') :
    MarkRow r es ∧ Spread lines (es.flatMap Element.lexemes) s s' := by
  rcases h.opt with ⟨rfl, rfl⟩ | h
  · exact ⟨.inl rfl, .nil (.refl _)⟩
  · obtain ⟨y, rfl, hgraded, hspread⟩ := h.rule hr
    exact ⟨.inr ⟨y, rfl, hgraded⟩, by simpa using hspread⟩

/-- A name yields its tokens in the order they are written. -/
theorem yields_variableName (h : Yields lines (spaced [Rule.identifier, opt Rule.deref]) s es s') :
    Spread lines (es.flatMap Element.lexemes) s s' := by
  obtain ⟨fs, gs, s₁, s₂, rfl, hname, hgap, hmark⟩ := h.spaced (by simp)
  obtain ⟨y, rfl, -, hspread⟩ := hname.rule rfl
  obtain ⟨-, hspread'⟩ := yields_mark rfl hmark
  simpa using hspread.append (hspread'.gap hgap)

/-- A field yields perhaps a mark, and the token behind the dot. -/
theorem yields_fieldSelector
    (h : Yields lines (glued [opt Rule.deref, ".", oneOf [Rule.identifier, Rule.fieldIndex]])
      s es s') :
    ∃ ds y, es = ds ++ [y] ∧ y.lexemes = [.token ((ofElement? y).getD ⟨[], 0⟩)] ∧
      Spread lines (ds.flatMap Element.lexemes ++ .mark "." :: y.lexemes) s s' := by
  obtain ⟨ds, gs, s₁, rfl, hmark, hrest⟩ := h.seq
  obtain ⟨fs, gs, s₂, rfl, hpoint, hname⟩ := hrest.seq
  obtain ⟨rfl, hpoints⟩ := hpoint.mark
  obtain ⟨-, hspread⟩ := yields_mark rfl hmark
  have hpick : Picks lines [.identifier, .fieldIndex] (oneOf [Rule.identifier, Rule.fieldIndex]) :=
    .alt (.rule (by simp) rfl) (.rule (by simp) rfl)
  obtain ⟨y, k, rfl, hk, hgraded, hspread'⟩ := hpick _ _ _ hname
  refine ⟨ds, y, rfl, ?_, hspread.append (hpoints.append hspread')⟩
  simp only [List.mem_cons, List.not_mem_nil, or_false] at hk
  rcases hk with rfl | rfl
  all_goals
    obtain ⟨t, p, rfl, -⟩ := hgraded.spelled rfl
    rfl

/-- Brackets around indices yield the indices with a comma between any two. -/
theorem yields_subscriptList
    (h : Yields lines (spaced ["[", commaList Rule.expression, "]", opt Rule.deref]) s es s') :
    ∃ ys ds, es = ys ++ ds ∧ (∀ y ∈ ys, Graded .expression y) ∧ MarkRow .deref ds ∧
      Spread lines (.mark "[" :: (Lexeme.commaRow (ys.map Element.lexemes) ++
        .mark "]" :: ds.flatMap Element.lexemes)) s s' := by
  obtain ⟨_, gs, s₁, s₂, rfl, hopening, hgap, hrest⟩ := h.spaced (by simp)
  obtain ⟨rfl, hopens⟩ := hopening.mark
  obtain ⟨ys, hs, s₃, s₄, rfl, hlist, hgap', hlast⟩ := hrest.spaced (by simp)
  have hpick : Picks lines [.expression] (.rule .expression) := .rule (by simp) rfl
  obtain ⟨-, hys, hspread⟩ := hpick.commaList hlist
  obtain ⟨_, ds, s₅, s₆, rfl, hclosing, hgap'', hmark⟩ := hlast.spaced (by simp)
  obtain ⟨rfl, hcloses⟩ := hclosing.mark
  obtain ⟨hds, hspread'⟩ := yields_mark rfl hmark
  refine ⟨ys, ds, rfl, by simpa using hys, hds, ?_⟩
  exact hopens.append ((hspread.append ((hcloses.append (hspread'.gap hgap'')).gap hgap')).gap
    hgap)

/-- A name with selectors yields elements that are all layered. -/
theorem yields_multiElementVariable
    (h : Yields lines (spaced [Rule.variableName,
      many (oneOf [Rule.subscriptList, Rule.fieldSelector])]) s es s') :
    Spread lines (es.flatMap Element.lexemes) s s' ∧ ∀ y ∈ es, y.Layered := by
  obtain ⟨fs, gs, s₁, s₂, rfl, hname, hgap, hselectors⟩ := h.spaced (by simp)
  obtain ⟨y, rfl, hgraded, hspread⟩ := hname.rule rfl
  obtain ⟨hspread', hgs⟩ := (Each.of_picks picks_selector).many _ _ _ hselectors
  refine ⟨by simpa using hspread.append (hspread'.gap hgap), ?_⟩
  refine List.forall_mem_cons.mpr ⟨hgraded.layered, ?_⟩
  intro z hz
  obtain ⟨k, -, hz⟩ := hgs z hz
  exact hz.layered

/-- A level yields an operand, and then operators of the level and operands by turns. -/
theorem yields_chain {operand operator : Rule} (hoperand : operand.inExpressions = true)
    (hoperator : operator.inExpressions = true) (h : Yields lines (chain operand operator) s es s') :
    ∃ y ys, es = y :: ys ∧ Graded operand y ∧ (∀ z ∈ ys, Graded operator z ∨ Graded operand z) ∧
      Spread lines (es.flatMap Element.lexemes) s s' := by
  obtain ⟨fs, gs, s₁, s₂, rfl, hfirst, hgap, hrest⟩ := h.spaced (by simp)
  obtain ⟨y, rfl, hgraded, hspread⟩ := hfirst.rule hoperand
  have hround : Each lines Element.lexemes (fun z => ∃ k ∈ [operator, operand], Graded k z)
      (spaced [operator, operand]) :=
    .spaced_pair (.of_picks (.rule (by simp) hoperator)) (.of_picks (.rule (by simp) hoperand))
  obtain ⟨hspread', hgs⟩ := hround.many _ _ _ hrest
  refine ⟨y, gs, rfl, hgraded, ?_, by simpa using hspread.append (hspread'.gap hgap)⟩
  intro z hz
  obtain ⟨k, hk, hz⟩ := hgs z hz
  simp only [List.mem_cons, List.not_mem_nil, or_false] at hk
  rcases hk with rfl | rfl
  · exact .inl hz
  · exact .inr hz

/-- Perhaps an operator, and one operand. -/
theorem yields_unaryExpression
    (h : Yields lines (spaced [opt Rule.unaryOperator, Rule.primaryExpression]) s es s') :
    ∃ ds y k, es = ds ++ [y] ∧ k ∈ primaries ∧ Graded k y ∧
      Spread lines (es.flatMap Element.lexemes) s s' := by
  obtain ⟨ds, gs, s₁, s₂, rfl, hmark, hgap, hoperand⟩ := h.spaced (by simp)
  obtain ⟨-, hspread⟩ := yields_mark rfl hmark
  obtain ⟨y, k, rfl, hk, hgraded, hspread'⟩ := picks_primary _ _ _ hoperand
  exact ⟨ds, y, k, rfl, hk, hgraded, by simpa using hspread.append (hspread'.gap hgap)⟩

/-- Parentheses yield the expression between them. -/
theorem yields_parenthesizedExpression
    (h : Yields lines (spaced ["(", Rule.expression, ")"]) s es s') :
    ∃ y, es = [y] ∧ Graded .expression y ∧
      Spread lines (.mark "(" :: (y.lexemes ++ [.mark ")"])) s s' := by
  obtain ⟨_, gs, s₁, s₂, rfl, hopening, hgap, hrest⟩ := h.spaced (by simp)
  obtain ⟨rfl, hopens⟩ := hopening.mark
  obtain ⟨fs, hs, s₃, s₄, rfl, hinner, hgap', hclosing⟩ := hrest.spaced (by simp)
  obtain ⟨y, rfl, hgraded, hspread⟩ := hinner.rule rfl
  obtain ⟨rfl, hcloses⟩ := hclosing.mark
  exact ⟨y, rfl, hgraded, hopens.append ((hspread.append (hcloses.gap hgap')).gap hgap)⟩

/-- A type and a name with a number sign between them. -/
theorem yields_qualifiedEnumeratedValue
    (h : Yields lines (glued [Rule.typeName, "#", Rule.identifier]) s es s') :
    ∃ y z, es = [y, z] ∧ Spread lines (y.lexemes ++ .mark "#" :: z.lexemes) s s' := by
  obtain ⟨fs, gs, s₁, rfl, htype, hrest⟩ := h.seq
  obtain ⟨y, rfl, -, hspread⟩ := htype.rule rfl
  obtain ⟨_, gs, s₂, rfl, hmark, hname⟩ := hrest.seq
  obtain ⟨rfl, hmarks⟩ := hmark.mark
  obtain ⟨z, rfl, -, hspread'⟩ := hname.rule rfl
  exact ⟨y, z, rfl, hspread.append (hmarks.append hspread')⟩

/-- A call yields who is called, then its parameters with commas between them. -/
theorem yields_functionCall
    (h : Yields lines (spaced [Rule.multiElementVariable, "(", opt Rule.parameterList, ")"])
      s es s') :
    ∃ y ys, es = y :: ys ∧ y.Layered ∧ (∀ z ∈ ys, z.Layered) ∧
      Spread lines (y.lexemes ++ .mark "(" :: (Lexeme.commaRow (ys.map Element.lexemes) ++
        [.mark ")"])) s s' := by
  obtain ⟨fs, gs, s₁, s₂, rfl, hcallee, hgap, hrest⟩ := h.spaced (by simp)
  obtain ⟨y, rfl, hgraded, hspread⟩ := hcallee.rule rfl
  obtain ⟨_, gs, s₃, s₄, rfl, hopening, hgap', hrest'⟩ := hrest.spaced (by simp)
  obtain ⟨rfl, hopens⟩ := hopening.mark
  obtain ⟨ys, hs, s₅, s₆, rfl, hlist, hgap'', hclosing⟩ := hrest'.spaced (by simp)
  obtain ⟨rfl, hcloses⟩ := hclosing.mark
  -- There may be no parameters, and then nothing is written between the parentheses.
  obtain ⟨hys, hspread'⟩ : (∀ z ∈ ys, z.Layered) ∧
      Spread lines (Lexeme.commaRow (ys.map Element.lexemes)) s₄ s₅ := by
    rcases hlist.opt with ⟨rfl, rfl⟩ | hlist
    · exact ⟨nofun, .nil (.refl _)⟩
    · obtain ⟨-, hys, hspread'⟩ := picks_parameter.commaList (hlist.silent rfl)
      refine ⟨?_, hspread'⟩
      intro z hz
      obtain ⟨k, -, hz⟩ := hys z hz
      exact hz.layered
  refine ⟨y, ys, by simp, hgraded.layered, hys, hspread.append (.gap hgap ?_)⟩
  exact hopens.append ((hspread'.append (hcloses.gap hgap'')).gap hgap')

/-- An input parameter yields perhaps a name, and an expression. -/
theorem yields_paramAssignment
    (h : Yields lines (spaced [opt (spaced [Rule.identifier, ":="]), Rule.expression]) s es s') :
    ∃ ds y, es = ds ++ [y] ∧ Graded .expression y ∧
      Spread lines (ds.flatMap (fun d => d.lexemes ++ [.mark ":="]) ++ y.lexemes) s s' := by
  obtain ⟨ds, gs, s₁, s₂, rfl, hname, hgap, hvalue⟩ := h.spaced (by simp)
  obtain ⟨y, rfl, hgraded, hspread⟩ := hvalue.rule rfl
  refine ⟨ds, y, rfl, hgraded, ?_⟩
  rcases hname.opt with ⟨rfl, rfl⟩ | hname
  · exact hspread.gap hgap
  · obtain ⟨fs, hs, s₃, s₄, rfl, hname, hgap', hmark⟩ := hname.spaced (by simp)
    obtain ⟨d, rfl, -, hspread'⟩ := hname.rule rfl
    obtain ⟨rfl, hmarks⟩ := hmark.mark
    simpa using (hspread'.append (hmarks.gap hgap')).append (hspread.gap hgap)

/-- An output parameter yields perhaps `NOT`, a name, and perhaps a variable. -/
theorem yields_outputParameterAssignment
    (h : Yields lines (spaced [opt Rule.outputInverter, Rule.identifier, "=>", opt Rule.anyVariable])
      s es s') :
    ∃ ds y vs, es = ds ++ y :: vs ∧ MarkRow .outputInverter ds ∧ Graded .identifier y ∧
      (∀ v ∈ vs, v.Layered) ∧
      Spread lines (ds.flatMap Element.lexemes ++ (y.lexemes ++ .mark "=>" ::
        vs.flatMap Element.lexemes)) s s' := by
  obtain ⟨ds, gs, s₁, s₂, rfl, hmark, hgap, hrest⟩ := h.spaced (by simp)
  obtain ⟨hds, hspread⟩ := yields_mark rfl hmark
  obtain ⟨fs, gs, s₃, s₄, rfl, hname, hgap', hrest'⟩ := hrest.spaced (by simp)
  obtain ⟨y, rfl, hgraded, hspread'⟩ := hname.rule rfl
  obtain ⟨_, vs, s₅, s₆, rfl, harrow, hgap'', htarget⟩ := hrest'.spaced (by simp)
  obtain ⟨rfl, hpasses⟩ := harrow.mark
  -- The target may be left out, so it is a row of at most one variable.
  have hpick : Picks lines [.directVariable, .multiElementVariable] (.rule .anyVariable) :=
    picks_variable (by simp) (by simp)
  obtain ⟨hspread'', hvs⟩ := (Each.of_picks hpick).opt _ _ _ htarget
  refine ⟨ds, y, vs, rfl, hds, hgraded, ?_, hspread.append (.gap hgap ?_)⟩
  · intro v hv
    obtain ⟨k, -, hv⟩ := hvs v hv
    exact hv.layered
  · exact hspread'.append ((hpasses.append (hspread''.gap hgap'')).gap hgap')

/-! ## What is built of it -/

/-- What stands in expressions is of no family of declarations or statements. -/
theorem families_of_inExpressions (hr : r.inExpressions = true) :
    r.isNameList = false ∧ r.isInitDeclaration = false ∧ r.plainKind? = none ∧
      r.isNamedType = false ∧ r.targetOperator? = none ∧ r.jump? = none := by
  simp only [Rule.inExpressions, Bool.or_eq_true, beq_iff_eq] at hr
  rcases hr with ((hr | hr) | rfl) | hr
  · unfold Rule.isPlainToken at hr
    split at hr <;> first | exact ⟨rfl, rfl, rfl, rfl, rfl, rfl⟩ | cases hr
  · unfold Rule.isConstant at hr
    split at hr <;> first | exact ⟨rfl, rfl, rfl, rfl, rfl, rfl⟩ | cases hr
  · exact ⟨rfl, rfl, rfl, rfl, rfl, rfl⟩
  · unfold Rule.isCompound at hr
    split at hr <;> first | exact ⟨rfl, rfl, rfl, rfl, rfl, rfl⟩ | cases hr

theorem inExpressions_of_isCompound (hr : r.isCompound = true) : r.inExpressions = true := by
  simp [Rule.inExpressions, hr]

theorem isLiteral_of_isCompound (hr : r.isCompound = true) : r.isLiteral = false := by
  unfold Rule.isCompound at hr
  split at hr <;> first | rfl | cases hr

/-- A layered variable is an operand for every rule that asks no more of it. -/
theorem graded_place {v : Variable} (hr : r.isPlainToken = false) (hv : v.Layered)
    (htier : r.tier ≤ 10) : Graded r (.place v) :=
  graded_of_construct hr rfl hv fun _ => ⟨.reference v, rfl, htier⟩

/-- The token of an operator has the level of its rule. -/
theorem level?_of_graded {operator : Rule} {k : Nat} (hk : operator.operatorLevel? = some k)
    (h : Graded operator x) : ∃ op, x = .token operator op ∧ x.lexemes = [.token op] ∧
      op.level? = some k := by
  obtain ⟨htoken, hlexemes⟩ : operator.isPlainToken = true ∧
      ∀ op, (Element.token operator op).lexemes = [.token op] := by
    unfold Rule.operatorLevel? at hk
    split at hk <;> first | exact ⟨rfl, fun _ => rfl⟩ | cases hk
  obtain ⟨op, p, rfl, hp, hspells⟩ := h.spelled htoken
  exact ⟨op, rfl, hlexemes op, level?_of_spells hk hp hspells⟩

/-- An operation at the level of its operators has its operands in order. -/
theorem inOrder_of_chained {operand operator : Rule} {k : Nat}
    (hk : operator.operatorLevel? = some k) (hoperand : operand.isOperand = true)
    (htier : operand.tier = k + 1) {left y : Expression} (h : Chained left es y)
    (hleft : k ≤ left.tier) (hlayered : left.Layered)
    (hes : ∀ z ∈ es, Graded operator z ∨ Graded operand z) :
    y.lexemes = left.lexemes ++ es.flatMap Element.lexemes ∧ k ≤ y.tier ∧ y.Layered := by
  -- The tree so far is the left operand of the next operation, so it may have the level of the
  -- operators, while an operand on the right binds more tightly.
  induction h with
  | done => exact ⟨by simp, hleft, hlayered⟩
  | @next left right y op f z es hf hz _ ih =>
      obtain ⟨hop, hright, hrest⟩ :=
        (List.forall_mem_cons.trans (and_congr_right' List.forall_mem_cons)).mp hes
      have hoperator : f.lexemes = [.token op] ∧ op.level? = some k := by
        rcases hop with hop | hop
        · obtain ⟨_, rfl, hlexemes, hlevel⟩ := level?_of_graded hk hop
          cases hf
          exact ⟨hlexemes, hlevel⟩
        · obtain ⟨x, hx, -⟩ := hop.operand hoperand
          cases f <;> cases hf
          cases hx
      have hright : Graded operand z := by
        rcases hright with hright | hright
        · obtain ⟨_, rfl, -⟩ := level?_of_graded hk hright
          cases hz
        · exact hright
      have htighter : k < right.tier := by
        have hle := hright.tier_le hoperand hz
        omega
      have hbinary : (Expression.binary left op right).tier = k := by
        rw [Expression.tier, hoperator.2]
        rfl
      obtain ⟨hy, hytier, hylayered⟩ := ih (Nat.le_of_eq hbinary.symm)
        ⟨⟨k, hoperator.2, hleft, htighter⟩, hlayered, InOrder.of_layered hz hright.layered⟩ hrest
      refine ⟨?_, hytier, hylayered⟩
      have hlexemes : right.lexemes = z.lexemes := InOrder.lexemes_eq hz
      rw [hy, Expression.lexemes, List.flatMap_cons, List.flatMap_cons, hoperator.1, hlexemes]
      simp

/-- A level of operators passes a single operand on, and makes operations of more. -/
theorem ordered_of_chain {operand operator : Rule} {k : Nat} (hr : r.isPlainToken = false)
    (hrtier : r.tier = k) (hk : operator.operatorLevel? = some k)
    (hoperand : operand.isOperand = true) (htier : operand.tier = k + 1)
    (hin : operand.inExpressions = true) (hin' : operator.inExpressions = true)
    (h : Yields lines (chain operand operator) s es s')
    (hx : es = [x] ∨ ∃ e fs left y, es = e :: fs ∧ ofElement? e = some left ∧
      Chained left fs y ∧ x = .expression y) :
    Ordered lines r x s s' := by
  obtain ⟨e, ys, rfl, hfirst, hys, hspread⟩ := yields_chain hin hin' h
  obtain ⟨first, hfirst', hle⟩ := hfirst.operand hoperand
  -- A single operand binds more tightly than the level asks.
  rcases hx with hx | ⟨e', fs, left, y, hes, hleft, hchained, rfl⟩
  · obtain ⟨rfl, rfl⟩ := List.cons.inj hx
    refine ⟨graded_of_construct hr (isToken_of_expression hfirst') hfirst.layered ?_,
      by simpa using hspread⟩
    exact fun _ => ⟨first, hfirst', by omega⟩
  · obtain ⟨rfl, rfl⟩ := List.cons.inj hes
    obtain rfl := Option.some.inj (hleft.symm.trans hfirst')
    have hleftlexemes : left.lexemes = e.lexemes := InOrder.lexemes_eq hleft
    obtain ⟨hlexemes, hytier, hylayered⟩ := inOrder_of_chained hk hoperand htier hchained (by omega)
      (InOrder.of_layered hleft hfirst.layered) hys
    refine ⟨graded_of_construct hr rfl hylayered fun _ => ⟨y, rfl, by omega⟩, ?_⟩
    show Spread lines y.lexemes s s'
    rw [hlexemes, hleftlexemes]
    exact hspread

/-- Each level of operators is such a chain. -/
theorem ordered_of_level (hr : r.isLevel = true) {e : Expr} (hbody : r.production = .node e)
    (h : Yields lines e s es s')
    (hx : es = [x] ∨ ∃ e fs left y, es = e :: fs ∧ ofElement? e = some left ∧
      Chained left fs y ∧ x = .expression y) :
    Ordered lines r x s s' := by
  unfold Rule.isLevel at hr
  split at hr
  all_goals first | cases hbody | cases hr
  all_goals exact ordered_of_chain rfl rfl rfl rfl rfl rfl rfl h hx

/-- The rules that may hand their one child through. -/
theorem cases_of_passes (hr : r.passes = true) :
    r = .unaryExpression ∨ r = .arrayInitialElement ∨ r.isLevel = true := by
  unfold Rule.passes at hr
  split at hr
  · exact .inl rfl
  · exact .inr (.inl rfl)
  · exact .inr (.inr hr)

/-- Primary expressions bind tightest. -/
theorem tier_of_primaries {k : Rule} (hk : k ∈ primaries) :
    k.tier = 10 ∧ k.isOperand = true := by
  have hall : ∀ k ∈ primaries, k.tier = 10 ∧ k.isOperand = true := by decide
  exact hall k hk

/-- A mark writes `^`, and no mark writes nothing. -/
theorem flatMap_lexemes_of_marks (mark : Option Token) :
    (mark.toList.map (Element.token .deref)).flatMap Element.lexemes =
      Lexeme.markIf mark.isSome "^" := by
  cases mark <;> rfl

/-- What is built of parts in order is in order. -/
theorem ordered_of_forms (hr : r.isCompound = true) {e : Expr} (hbody : r.production = .node e)
    (h : Yields lines e s es s') (hx : Forms a r es x) : Ordered lines r x s s' := by
  obtain ⟨hnames, hinit, hkind, htype, htarget, hjump⟩ :=
    families_of_inExpressions (inExpressions_of_isCompound hr)
  -- One case for each kind of tree: what its production yields is what it is built of.
  cases hx with
  | pass _ hpass =>
      rcases cases_of_passes hpass with rfl | rfl | hlevel
      · cases hbody
        obtain ⟨ds, y, k, hes, hk, hgraded, hspread⟩ := yields_unaryExpression h
        obtain ⟨rfl, hy⟩ := List.append_inj' (show [] ++ [x] = ds ++ [y] from hes) rfl
        obtain ⟨rfl, -⟩ := List.cons.inj hy
        obtain ⟨htier, hk⟩ := tier_of_primaries hk
        obtain ⟨operand, hoperand, hle⟩ := hgraded.operand hk
        rw [htier] at hle
        refine ⟨graded_of_construct rfl (isToken_of_expression hoperand) hgraded.layered ?_,
          by simpa using hspread⟩
        exact fun _ => ⟨operand, hoperand, Nat.le_trans (by decide) hle⟩
      · cases hr
      · exact ordered_of_level hlevel hbody h (.inl rfl)
  | chain hlevel he _ hchained =>
      exact ordered_of_level hlevel hbody h (.inr ⟨_, _, _, _, rfl, he, hchained, rfl⟩)
  | @unary e operand op he =>
      cases hbody
      obtain ⟨ds, y, k, hes, hk, hgraded, hspread⟩ := yields_unaryExpression h
      obtain ⟨rfl, hy⟩ := List.append_inj' (show [_] ++ [e] = ds ++ [y] from hes) rfl
      obtain ⟨rfl, -⟩ := List.cons.inj hy
      obtain ⟨htier, hk⟩ := tier_of_primaries hk
      have hle := hgraded.tier_le hk he
      rw [htier] at hle
      refine ⟨graded_of_construct rfl rfl ⟨hle, InOrder.of_layered he hgraded.layered⟩ ?_, ?_⟩
      · exact fun _ => ⟨_, rfl, Nat.le_refl 9⟩
      · have hlexemes : operand.lexemes = e.lexemes := InOrder.lexemes_eq he
        show Spread lines (.token op :: operand.lexemes) s s'
        rw [hlexemes]
        simpa [Element.lexemes] using hspread
  | @parenthesized e inner he =>
      cases hbody
      obtain ⟨y, hes, hgraded, hspread⟩ := yields_parenthesizedExpression h
      obtain ⟨rfl, -⟩ := List.cons.inj hes
      have hinner : inner.Layered := InOrder.of_layered he hgraded.layered
      refine ⟨graded_of_construct rfl rfl hinner ?_, ?_⟩
      · exact fun _ => ⟨_, rfl, Nat.le_refl 10⟩
      · have hlexemes : inner.lexemes = e.lexemes := InOrder.lexemes_eq he
        show Spread lines (.mark "(" :: (inner.lexemes ++ [.mark ")"])) s s'
        rw [hlexemes]
        exact hspread
  | qualified typeName name =>
      cases hbody
      obtain ⟨y, z, hes, hspread⟩ := yields_qualifiedEnumeratedValue h
      obtain ⟨rfl, rfl⟩ : _ = y ∧ _ = z := by simpa using hes
      exact ⟨graded_of_construct rfl rfl trivial fun _ => ⟨_, rfl, Nat.le_refl 10⟩, hspread⟩
  | @functionCall e callee fs parameters he hfs =>
      cases hbody
      obtain ⟨y, ys, hes, hcallee, hparameters, hspread⟩ := yields_functionCall h
      obtain ⟨rfl, rfl⟩ := List.cons.inj hes
      have hlayered : callee.Layered := InOrder.of_layered he hcallee
      have hcalleelexemes : callee.lexemes = e.lexemes := InOrder.lexemes_eq he
      refine ⟨graded_of_construct rfl rfl
        ⟨hlayered, Parameter.layeredAll_iff.mpr (layered_of_serve hfs hparameters)⟩ ?_, ?_⟩
      · exact fun _ => ⟨_, rfl, Nat.le_refl 10⟩
      · have hlexemes : parameters.map Parameter.lexemes = fs.map Element.lexemes :=
          map_lexemes_of_serve hfs
        show Spread lines (Call.lexemes ⟨callee, parameters⟩) s s'
        rw [Call.lexemes, Parameter.lexemesEach_eq_map, hcalleelexemes, hlexemes]
        exact hspread
  | @input e value name he =>
      cases hbody
      obtain ⟨ds, y, hes, hgraded, hspread⟩ := yields_paramAssignment h
      obtain ⟨rfl, hy⟩ := List.append_inj' hes rfl
      obtain ⟨rfl, -⟩ := List.cons.inj hy
      have hlexemes : value.lexemes = e.lexemes := InOrder.lexemes_eq he
      have hvalue : value.Layered := InOrder.of_layered he hgraded.layered
      refine ⟨graded_of_construct rfl rfl hvalue nofun, ?_⟩
      show Spread lines (Parameter.lexemes (.input name value)) s s'
      rw [Parameter.lexemes, hlexemes]
      cases name <;> exact hspread
  | @output fs target inverter name hfs =>
      cases hbody
      obtain ⟨ds, y, vs, hes, hds, hname, hvs, hspread⟩ := yields_outputParameterAssignment h
      obtain ⟨rfl, rfl, rfl⟩ := markRow_append_inj rfl hds (by simp) (by
        rintro t rfl
        obtain ⟨u, -, htoken, -⟩ := hname.spelled rfl
        cases htoken) hes
      have hlayered : Variable.LayeredOption target := Variable.layeredOption_iff.mpr
        fun v hv => layered_of_serve hfs hvs v (by simpa using hv)
      refine ⟨graded_of_construct rfl rfl hlayered nofun, ?_⟩
      have htarget : Variable.lexemesOption target = fs.flatMap Element.lexemes := by
        rw [List.flatMap_def, ← map_lexemes_of_serve hfs]
        cases target <;> simp [Variable.lexemesOption, InOrder.lexemes]
      show Spread lines (Parameter.lexemes (.output inverter.isSome name target)) s s'
      rw [Parameter.lexemes, htarget]
      cases inverter <;> exact hspread
  | variableName name mark =>
      cases hbody
      have hspread := yields_variableName h
      refine ⟨graded_place rfl trivial (by decide), ?_⟩
      show Spread lines (SymbolicVariable.lexemes ⟨name, mark.isSome⟩) s s'
      rw [SymbolicVariable.lexemes, ← flatMap_lexemes_of_marks]
      simpa [Element.lexemes] using hspread
  | @field e name mark he =>
      cases hbody
      obtain ⟨ds, y, hes, hlexemes, hspread⟩ := yields_fieldSelector h
      obtain ⟨rfl, hy⟩ := List.append_inj' hes rfl
      obtain ⟨rfl, -⟩ := List.cons.inj hy
      refine ⟨graded_of_construct rfl rfl trivial nofun, ?_⟩
      show Spread lines (Selector.lexemes (.field name mark.isSome)) s s'
      rw [Selector.lexemes, ← flatMap_lexemes_of_marks]
      rw [hlexemes, he] at hspread
      exact hspread
  | @subscript fs indices mark hfs hne =>
      cases hbody
      obtain ⟨ys, ds, hes, hys, hds, hspread⟩ := yields_subscriptList h
      obtain ⟨rfl, rfl⟩ : fs = ys ∧ mark.toList.map (.token .deref) = ds := by
        refine append_tokens_inj ?_ (fun y hy => isToken_of_graded (hys y hy)) ?_ ?_ hes
        · intro f hf
          obtain ⟨x, -, hx⟩ := hfs.exists_value hf
          exact isToken_of_expression hx
        · exact List.forall_mem_map.mpr fun _ _ => rfl
        · rcases hds with rfl | ⟨d, rfl, hd⟩
          · nofun
          · exact List.forall_mem_singleton.mpr (isToken_of_graded hd)
      have hlayered : Expression.LayeredAll indices :=
        Expression.layeredAll_iff.mpr (layered_of_serve hfs fun y hy => (hys y hy).layered)
      refine ⟨graded_of_construct rfl rfl hlayered nofun, ?_⟩
      have hlexemes : indices.map Expression.lexemes = fs.map Element.lexemes :=
        map_lexemes_of_serve hfs
      show Spread lines (Selector.lexemes (.subscript indices mark.isSome)) s s'
      rw [Selector.lexemes, Expression.lexemesEach_eq_map, hlexemes, ← flatMap_lexemes_of_marks]
      exact hspread
  | @plainVariable e name he =>
      cases hbody
      obtain ⟨hspread, -⟩ := yields_multiElementVariable h
      refine ⟨graded_place rfl trivial (by decide), ?_⟩
      have hlexemes : name.lexemes = e.lexemes := InOrder.lexemes_eq he
      show Spread lines name.lexemes s s'
      rw [hlexemes]
      simpa using hspread
  | @multiElement e name fs selectors he hfs hne =>
      cases hbody
      obtain ⟨hspread, hlayered⟩ := yields_multiElementVariable h
      obtain ⟨-, hlayered⟩ := List.forall_mem_cons.mp hlayered
      refine ⟨graded_place rfl (Selector.layeredAll_iff.mpr (layered_of_serve hfs hlayered))
        (by decide), ?_⟩
      have hlexemes : name.lexemes = e.lexemes := InOrder.lexemes_eq he
      have hselectors : selectors.map Selector.lexemes = fs.map Element.lexemes :=
        map_lexemes_of_serve hfs
      show Spread lines (Variable.lexemes (.multiElement name selectors)) s s'
      rw [Variable.lexemes, Selector.lexemesEach_eq_map, hlexemes, hselectors, ← List.flatMap_def]
      simpa using hspread
  | literal _ hrule => cases (isLiteral_of_isCompound hr).symm.trans hrule
  | names hrule => cases hnames.symm.trans hrule
  | initDeclaration hrule => cases hinit.symm.trans hrule
  | plainBlock hrule => cases hkind.symm.trans hrule
  | namedType _ _ hrule => cases htype.symm.trans hrule
  | targeted hrule => cases htarget.symm.trans hrule
  | jump hrule => cases hjump.symm.trans hrule
  | unit hheads => cases hheads <;> cases hr
  | action hacts => cases hacts <;> cases hr
  | _ => cases hr

end Build

end StructuredText
