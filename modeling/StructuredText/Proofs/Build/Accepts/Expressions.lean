import StructuredText.Build.Table
import StructuredText.Proofs.Build.Expressions
import StructuredText.Proofs.Build.Shapes

/-!
# Builders accept what their rules leave: literals and expressions

A rule of the grammar and the builder of its element are written apart. That they agree is a
statement about each rule: whatever row of elements its production leaves, the builder accepts it.
Rules of one form share a lemma, which is stated for the form.

* `Accepts` — agreement of a rule and its builder.
* `Expr.one_of_opt` and its like are in `Shapes`; here they are put together rule by rule.
-/

namespace StructuredText.Build

open Grammar Expr

/-- The builder of a rule accepts every row of elements that the production of the rule leaves, and
makes of it what the rule is to make. Only a duration is not accepted empty, which its production
allows. -/
def Accepts (r : Rule) : Prop :=
  ∀ (b : Builder Element) (e : Expr) (es : List Element) (c : Children),
    builder? r = some b → r.production = .node e → e.Leaves es → c.rule = r →
    (r = .duration → es ≠ []) → ∃ x c', b.Gives (c.holding es) x c' ∧ r.Makes x

variable {r : Rule} {e : Expr} {es : List Element}

/-! ## Literals -/

/-- An integer in any base is built of the one token of its digits. -/
theorem integerOf_accepts {digitsOf : Rule} {base : NumberBase}
    (hb : builder? r = some (integerOf digitsOf base)) (hr : r.production = .node e)
    (he : e.LeavesToken digitsOf) (hmakes : ∀ i, r.Makes (.literal (.integer i))) :
    Accepts r := by
  intro b e' es c hb' hr' h _ _
  obtain rfl := Option.some.inj (hb.symm.trans hb')
  obtain rfl := Production.node.inj (hr.symm.trans hr')
  obtain ⟨t, rfl⟩ := he es h
  exact ⟨_, _, integerOf_gives digitsOf base t, hmakes _⟩

theorem binaryInteger_accepts : Accepts .binaryInteger := by
  refine integerOf_accepts rfl rfl ?_ fun i => ⟨i, rfl⟩
  intro es h
  obtain ⟨_, rfl, t, rfl, -⟩ := row_of_glued h
  exact ⟨t, rfl⟩

theorem octalInteger_accepts : Accepts .octalInteger := by
  refine integerOf_accepts rfl rfl ?_ fun i => ⟨i, rfl⟩
  intro es h
  obtain ⟨_, rfl, t, rfl, -⟩ := row_of_glued h
  exact ⟨t, rfl⟩

theorem hexInteger_accepts : Accepts .hexInteger := by
  refine integerOf_accepts rfl rfl ?_ fun i => ⟨i, rfl⟩
  intro es h
  obtain ⟨_, rfl, t, rfl, -⟩ := row_of_glued h
  exact ⟨t, rfl⟩

theorem signedInteger_accepts : Accepts .signedInteger :=
  integerOf_accepts rfl rfl (leavesToken_rule fun _ h => h) fun i => ⟨i, rfl⟩

/-- The type in front of a number. -/
theorem leavesToken_typed (h : LeavesToken r r) : (glued [r, "#"]).LeavesToken r := by
  intro es hes
  obtain ⟨xs, _, hxs, rfl, rfl⟩ := parts_of_glued hes
  obtain ⟨t, rfl⟩ := h xs hxs
  exact ⟨t, rfl⟩

/-- An integer with the name of a type in front of it, or without one. -/
theorem integerLiteral_accepts : Accepts .integerLiteral := by
  rintro b e es c ⟨⟩ ⟨⟩ h - -
  obtain ⟨ts, is, hts, his, rfl⟩ := row_of_glued h
  obtain ⟨t, rfl⟩ := token_of_opt hts (leavesToken_typed (leavesToken_rule fun _ h => h))
  -- the four ways to write an integer leave the same kind of element
  obtain ⟨i, rfl⟩ : ∃ i, is = [.literal (.integer i)] := by
    rcases his with h | h | h | h <;>
      (obtain ⟨_, rfl, i, rfl⟩ := h; exact ⟨i, rfl⟩)
  exact ⟨_, _, integerLiteral_gives t i, _, rfl⟩

/-- A real number with the name of a type in front of it, or without one. -/
theorem realLiteral_accepts : Accepts .realLiteral := by
  rintro b e es c ⟨⟩ ⟨⟩ h - -
  obtain ⟨ts, _, hts, ⟨_, rfl, v, rfl, -⟩, rfl⟩ := row_of_glued h
  obtain ⟨t, rfl⟩ := token_of_opt hts (leavesToken_typed (leavesToken_rule fun _ h => h))
  exact ⟨_, _, realLiteral_gives t v, _, rfl⟩

/-- A bit string in any base is built of the name of its type and its digits, which are both there.
-/
theorem bitStringOf_accepts {digitsOf : Rule} {base : NumberBase}
    (hb : builder? r = some (bitStringOf digitsOf base)) (hr : r.production = .node e)
    (he : ∀ es, e.Leaves es →
      ∃ t v, es = [.token .bitStringTypeName t, .token digitsOf v])
    (hmakes : ∀ v, r.Makes (.literal v)) : Accepts r := by
  intro b e' es c hb' hr' h _ _
  obtain rfl := Option.some.inj (hb.symm.trans hb')
  obtain rfl := Production.node.inj (hr.symm.trans hr')
  obtain ⟨t, v, rfl⟩ := he es h
  exact ⟨_, _, bitStringOf_gives digitsOf base t v, hmakes _⟩

theorem binaryBitStringLiteral_accepts : Accepts .binaryBitStringLiteral := by
  refine bitStringOf_accepts rfl rfl ?_ fun v => ⟨v, rfl⟩
  intro es h
  obtain ⟨_, _, ⟨_, rfl, t, rfl, -⟩, ⟨_, rfl, v, rfl, -⟩, rfl⟩ := row_of_glued h
  exact ⟨t, v, rfl⟩

theorem octalBitStringLiteral_accepts : Accepts .octalBitStringLiteral := by
  refine bitStringOf_accepts rfl rfl ?_ fun v => ⟨v, rfl⟩
  intro es h
  obtain ⟨_, _, ⟨_, rfl, t, rfl, -⟩, ⟨_, rfl, v, rfl, -⟩, rfl⟩ := row_of_glued h
  exact ⟨t, v, rfl⟩

theorem hexBitStringLiteral_accepts : Accepts .hexBitStringLiteral := by
  refine bitStringOf_accepts rfl rfl ?_ fun v => ⟨v, rfl⟩
  intro es h
  obtain ⟨_, _, ⟨_, rfl, t, rfl, -⟩, ⟨_, rfl, v, rfl, -⟩, rfl⟩ := row_of_glued h
  exact ⟨t, v, rfl⟩

theorem bitStringLiteral_accepts : Accepts .bitStringLiteral := by
  refine bitStringOf_accepts rfl rfl ?_ fun v => ⟨v, rfl⟩
  intro es h
  obtain ⟨_, _, ⟨_, rfl, t, rfl, -⟩, ⟨_, rfl, v, rfl, -⟩, rfl⟩ := row_of_glued h
  exact ⟨t, v, rfl⟩

/-- The expression leaves parts of a duration. -/
def LeavesParts (e : Expr) : Prop :=
  ∀ es, e.Leaves es → ∃ ns : List (RawNode Element), Serve es ns ∧ ∀ n ∈ ns, IsPart n

/-- A part of a duration that may be left out. -/
theorem leavesParts_opt (h : ∀ xs, r.Leaves xs → ∃ x, xs = [x] ∧ ∃ n, x = .raw n ∧ IsPart n) :
    LeavesParts (opt r) := by
  intro es hes
  rcases hes with hes | rfl
  · obtain ⟨_, rfl, n, rfl, hn⟩ := h es hes
    exact ⟨[n], .one rfl, by simpa using hn⟩
  · exact ⟨[], .nil, by simp⟩

/-- Whichever parts of a row are there, they serve as parts of a duration. -/
theorem leavesParts_row {fs : List Expr} (hfs : ∀ f ∈ fs, LeavesParts f) (h : LeavesRow fs es) :
    ∃ ns : List (RawNode Element), Serve es ns ∧ ∀ n ∈ ns, IsPart n := by
  -- the parts in front of the others are served by the induction on the row
  induction fs generalizing es with
  | nil =>
      obtain rfl : es = [] := h
      exact ⟨[], .nil, by simp⟩
  | cons f fs ih =>
      obtain ⟨xs, ys, hxs, hys, rfl⟩ := leavesRow_cons_iff.mp h
      obtain ⟨ns, hns, hnparts⟩ := hfs f (by simp) xs hxs
      obtain ⟨ms, hms, hmparts⟩ := ih (fun g hg => hfs g (by simp [hg])) hys
      refine ⟨ns ++ ms, hns.append hms, ?_⟩
      intro n hn
      rcases List.mem_append.mp hn with hn | hn
      · exact hnparts n hn
      · exact hmparts n hn

/-- A duration is accepted if one of its five parts is there. -/
theorem duration_accepts : Accepts .duration := by
  rintro b e es c ⟨⟩ ⟨⟩ h - hne
  have hrow : LeavesRow [opt Rule.days, opt Rule.hours, opt Rule.minutes, opt Rule.seconds,
      opt Rule.milliseconds] es := row_of_glued h
  obtain ⟨ns, hns, hparts⟩ := leavesParts_row (by
    intro f hf
    simp only [List.mem_cons, List.not_mem_nil, or_false] at hf
    rcases hf with rfl | rfl | rfl | rfl | rfl <;> exact leavesParts_opt fun _ h => h) hrow
  -- a row without parts would have left no element, which is excluded
  have hnonempty : ns ≠ [] := by
    rintro rfl
    exact hne rfl (serve_nil_iff.mp hns)
  obtain ⟨d, hd⟩ := duration_gives hns hparts hnonempty
  exact ⟨_, _, hd, _, rfl⟩

/-- Hour, minute and second. -/
theorem timeOfDay_accepts : Accepts .timeOfDay := by
  rintro b e es c ⟨⟩ ⟨⟩ h - -
  obtain ⟨_, _, ⟨_, rfl, hh, rfl, -⟩, ⟨_, _, ⟨_, rfl, mm, rfl, -⟩, ⟨_, rfl, ss, rfl, -⟩, rfl⟩,
    rfl⟩ := row_of_glued h
  exact ⟨_, _, timeOfDay_gives hh mm ss, _, rfl⟩

/-- Year, month and day. -/
theorem date_accepts : Accepts .date := by
  rintro b e es c ⟨⟩ ⟨⟩ h - -
  obtain ⟨_, _, ⟨_, rfl, y, rfl, -⟩, ⟨_, _, ⟨_, rfl, m, rfl, -⟩, ⟨_, rfl, d, rfl, -⟩, rfl⟩, rfl⟩ :=
    row_of_glued h
  exact ⟨_, _, date_gives y m d, _, rfl⟩

/-- The three parts of a date and the three of a time. -/
theorem dateAndTime_accepts : Accepts .dateAndTime := by
  rintro b e es c ⟨⟩ ⟨⟩ h - -
  obtain ⟨_, _, ⟨_, rfl, y, rfl, -⟩, ⟨_, _, ⟨_, rfl, mo, rfl, -⟩, ⟨_, _, ⟨_, rfl, d, rfl, -⟩,
    ⟨_, _, ⟨_, rfl, hh, rfl, -⟩, ⟨_, _, ⟨_, rfl, mm, rfl, -⟩, ⟨_, rfl, ss, rfl, -⟩, rfl⟩, rfl⟩,
    rfl⟩, rfl⟩, rfl⟩ := row_of_glued h
  exact ⟨_, _, dateAndTime_gives y mo d hh mm ss, _, rfl⟩

/-! ## Variables -/

/-- A name, and behind it a mark for what it points to. -/
theorem variableName_accepts : Accepts .variableName := by
  rintro b e es c ⟨⟩ ⟨⟩ h - -
  obtain ⟨_, ms, ⟨_, rfl, name, rfl, -⟩, hms, rfl⟩ := row_of_spaced h
  obtain ⟨mark, rfl⟩ := token_of_opt hms (leavesToken_rule fun _ h => h)
  exact ⟨_, _, variableName_gives name mark, _, rfl⟩

/-- A field is chosen by its name or by a number. -/
theorem fieldSelector_accepts : Accepts .fieldSelector := by
  rintro b e es c ⟨⟩ ⟨⟩ h - -
  obtain ⟨ms, ns, hms, hns, rfl⟩ := row_of_glued h
  obtain ⟨mark, rfl⟩ := token_of_opt hms (leavesToken_rule fun _ h => h)
  -- by the kind of name: an identifier or a number
  rcases hns with ⟨_, rfl, name, rfl, -⟩ | ⟨_, rfl, name, rfl, -⟩
  · exact ⟨_, _, fieldSelector_gives mark (by decide) name, _, rfl⟩
  · exact ⟨_, _, fieldSelector_gives mark (by decide) name, _, rfl⟩

/-- One index or more, and behind the brackets a mark for what is pointed to. -/
theorem subscriptList_accepts : Accepts .subscriptList := by
  rintro b e es c ⟨⟩ ⟨⟩ h - -
  obtain ⟨is, ms, his, hms, rfl⟩ := row_of_spaced h
  obtain ⟨indices, hne, his⟩ := serve_of_commaList (α := Expression) his fun _ h => h
  obtain ⟨mark, rfl⟩ := token_of_opt hms (leavesToken_rule fun _ h => h)
  exact ⟨_, _, subscriptList_gives his hne mark, _, rfl⟩

/-- A name and any number of selectors of both kinds. -/
theorem multiElementVariable_accepts : Accepts .multiElementVariable := by
  rintro b e es c ⟨⟩ ⟨⟩ h - -
  obtain ⟨_, ss, ⟨_, rfl, name, rfl⟩, hss, rfl⟩ := row_of_spaced h
  obtain ⟨selectors, hss⟩ := serve_of_many (α := Selector) hss (by
    rintro xs (h | h) <;> exact serve_of_one h)
  exact ⟨_, _, multiElementVariable_gives rfl hss, _, rfl⟩

/-! ## Addresses -/

/-- Each letter of an area stands for one. -/
theorem areaOf_locationPrefix {t : Token}
    (ht : ∀ p, Rule.production .locationPrefix = .token p → p.Spells t.text) :
    ∃ area, areaOf? t.text.upperCase = some area := by
  rcases ht _ rfl with h | h | h
  · exact ⟨.I, by rw [Pattern.word_spells h]; rfl⟩
  · exact ⟨.Q, by rw [Pattern.word_spells h]; rfl⟩
  · exact ⟨.M, by rw [Pattern.word_spells h]; rfl⟩

/-- Each letter of a size stands for one. -/
theorem sizeOf_sizePrefix {t : Token}
    (ht : ∀ p, Rule.production .sizePrefix = .token p → p.Spells t.text) :
    ∃ size, sizeOf? t.text.upperCase = some size := by
  rcases ht _ rfl with h | h | h | h | h
  · exact ⟨.X, by rw [Pattern.word_spells h]; rfl⟩
  · exact ⟨.B, by rw [Pattern.word_spells h]; rfl⟩
  · exact ⟨.W, by rw [Pattern.word_spells h]; rfl⟩
  · exact ⟨.D, by rw [Pattern.word_spells h]; rfl⟩
  · exact ⟨.L, by rw [Pattern.word_spells h]; rfl⟩

/-- An address without a letter for its size is one of a single bit. -/
theorem sizeFor_of_opt (h : (opt Rule.sizePrefix).Leaves es) :
    ∃ (t : Option Token) (size : AddressSize),
      es = t.toList.map (.token .sizePrefix) ∧ sizeFor t size := by
  rcases h with ⟨_, rfl, t, rfl, ht⟩ | rfl
  · obtain ⟨size, hsize⟩ := sizeOf_sizePrefix ht
    exact ⟨some t, size, rfl, hsize⟩
  · exact ⟨none, .X, rfl, rfl⟩

/-- Rounds that leave a token each leave a row of tokens. -/
theorem tokens_of_star (h : (star e).Leaves es) (he : e.LeavesToken r) :
    ∃ ts : List Token, es = ts.map (.token r) := by
  obtain ⟨rows, hrows, rfl⟩ := h
  -- one token for each round, by induction on the rounds
  induction rows with
  | nil => exact ⟨[], rfl⟩
  | cons xs rows ih =>
      obtain ⟨t, rfl⟩ := he xs (hrows xs (by simp))
      obtain ⟨ts, hts⟩ := ih fun ys hys => hrows ys (by simp [hys])
      exact ⟨t :: ts, by simp [hts]⟩

/-- The letters of an address have a meaning each, and its numbers are tokens. -/
theorem directVariable_accepts : Accepts .directVariable := by
  rintro b e es c ⟨⟩ ⟨⟩ h - -
  obtain ⟨_, _, ⟨_, rfl, letter, rfl, hletter⟩, ⟨ss, _, hss, ⟨_, bs, ⟨_, rfl, place, rfl, -⟩,
    hbs, rfl⟩, rfl⟩, rfl⟩ := row_of_glued h
  obtain ⟨area, harea⟩ := areaOf_locationPrefix hletter
  obtain ⟨mark, size, rfl, hsize⟩ := sizeFor_of_opt hss
  -- the numbers behind the first one, each with its point
  obtain ⟨bits, rfl⟩ := tokens_of_star (r := .directBit) hbs (by
    intro xs hxs
    obtain ⟨_, rfl, t, rfl, -⟩ := row_of_glued hxs
    exact ⟨t, rfl⟩)
  exact ⟨_, _, directVariable_gives harea hsize place bits, _, rfl⟩

theorem location_accepts : Accepts .location := by
  rintro b e es c ⟨⟩ ⟨⟩ h - -
  obtain ⟨_, rfl, v, rfl⟩ := row_of_spaced h
  exact ⟨_, _, location_gives rfl, _, rfl⟩

theorem incompleteLocation_accepts : Accepts .incompleteLocation := by
  rintro b e es c ⟨⟩ ⟨⟩ h - -
  obtain ⟨_, rfl, t, rfl, -⟩ := row_of_spaced h
  exact ⟨_, _, incompleteLocation_gives t, _, rfl⟩

/-! ## Operators -/

/-- Operators with the operands behind them come in pairs. -/
theorem rounds_of_many {operand operator : Rule}
    (hoperand : ∀ xs, operand.Leaves xs → ∃ x, xs = [x] ∧ Serves Expression x)
    (hoperator : LeavesToken operator operator)
    (h : (many (spaced [operator, operand])).Leaves es) :
    ∃ rounds ops, es = roundElements rounds ∧ ServeRounds rounds ops := by
  obtain ⟨rows, hrows, rfl⟩ := rows_of_many h
  clear h
  -- a round leaves an operator and an operand, so rounds stay in step with pairs
  induction rows with
  | nil => exact ⟨[], [], rfl, .nil⟩
  | cons xs rows ih =>
      obtain ⟨os, _, hos, ⟨_, ys, rfl, hys, rfl⟩, rfl⟩ := hrows xs (by simp)
      obtain ⟨op, rfl⟩ := hoperator os hos
      obtain ⟨x, rfl, a, ha⟩ := hoperand _ hys
      obtain ⟨rounds, ops, hflat, hserve⟩ := ih fun ys hys => hrows ys (by simp [hys])
      refine ⟨(.token operator op, x) :: rounds, (op, a) :: ops, ?_, ?_⟩
      · simp [hflat, roundElements]
      · exact serveRounds_cons_iff.mpr ⟨op, a, ops, rfl, rfl, ha, hserve⟩

/-- A level of operators is accepted, with operators or without. -/
theorem chain_accepts {operand operator : Rule} (hb : builder? r = some binaryChain)
    (hr : r.production = .node (chain operand operator))
    (hoperand : ∀ xs, operand.Leaves xs → ∃ x, xs = [x] ∧ Serves Expression x)
    (hoperator : LeavesToken operator operator)
    (hmakes : ∀ x, Serves Expression x → r.Makes x) : Accepts r := by
  intro b e' es c hb' hr' h _ _
  obtain rfl := Option.some.inj (hb.symm.trans hb')
  obtain rfl := Production.node.inj (hr.symm.trans hr')
  obtain ⟨xs, _, hxs, ⟨_, ys, rfl, hys, rfl⟩, rfl⟩ := h
  obtain ⟨x, rfl, left, hleft⟩ := hoperand xs hxs
  obtain ⟨rounds, ops, rfl, hserve⟩ := rounds_of_many hoperand hoperator hys
  -- a single operand is not wrapped, so the two cases are built in different ways
  cases rounds with
  | nil => exact ⟨_, _, binaryChain_gives_single x, hmakes x ⟨left, hleft⟩⟩
  | cons r rounds =>
      exact ⟨_, _, binaryChain_gives hleft (by simp) hserve, hmakes _ ⟨_, rfl⟩⟩

theorem expression_accepts : Accepts .expression :=
  chain_accepts rfl rfl (fun _ h => h)
    (leavesToken_rule fun _ h => h) fun _ h => h

theorem xorExpression_accepts : Accepts .xorExpression :=
  chain_accepts rfl rfl (fun _ h => h)
    (leavesToken_rule fun _ h => h) fun _ h => h

theorem andExpression_accepts : Accepts .andExpression :=
  chain_accepts rfl rfl (fun _ h => h)
    (leavesToken_rule fun _ h => h) fun _ h => h

theorem comparisonExpression_accepts : Accepts .comparisonExpression :=
  chain_accepts rfl rfl (fun _ h => h)
    (leavesToken_rule fun _ h => h) fun _ h => h

theorem equalityExpression_accepts : Accepts .equalityExpression :=
  chain_accepts rfl rfl (fun _ h => h)
    (leavesToken_rule fun _ h => h) fun _ h => h

theorem addExpression_accepts : Accepts .addExpression :=
  chain_accepts rfl rfl (fun _ h => h)
    (leavesToken_rule fun _ h => h) fun _ h => h

theorem expressionTerm_accepts : Accepts .expressionTerm :=
  chain_accepts rfl rfl (fun _ h => h)
    (leavesToken_rule fun _ h => h) fun _ h => h

theorem powerExpression_accepts : Accepts .powerExpression :=
  chain_accepts rfl rfl (fun _ h => h)
    (leavesToken_rule fun _ h => h) fun _ h => h

/-- An operand is passed on as it is, if no operator stands in front of it. -/
theorem unaryExpression_accepts : Accepts .unaryExpression := by
  rintro b e es c ⟨⟩ ⟨⟩ h - -
  obtain ⟨os, _, hos, ⟨x, rfl, a, ha⟩, rfl⟩ := row_of_spaced h
  rcases hos with ⟨_, rfl, op, rfl, -⟩ | rfl
  · exact ⟨_, _, unaryExpression_gives op ha, _, rfl⟩
  · exact ⟨_, _, unaryExpression_gives_single ha, a, ha⟩

theorem parenthesizedExpression_accepts : Accepts .parenthesizedExpression := by
  rintro b e es c ⟨⟩ ⟨⟩ h - -
  obtain ⟨x, rfl, a, ha⟩ := row_of_spaced h
  exact ⟨_, _, parenthesizedExpression_gives ha, _, rfl⟩

theorem qualifiedEnumeratedValue_accepts : Accepts .qualifiedEnumeratedValue := by
  rintro b e es c ⟨⟩ ⟨⟩ h - -
  obtain ⟨_, _, ⟨_, rfl, t, rfl, -⟩, ⟨_, rfl, name, rfl, -⟩, rfl⟩ := row_of_glued h
  exact ⟨_, _, qualifiedEnumeratedValue_gives t name, _, rfl⟩

/-! ## Calls -/

/-- A name in front of what it names. -/
theorem name_of_opt {mark : Pattern} (h : (opt (spaced [Rule.identifier, .lexeme mark])).Leaves es) :
    ∃ name : Option Token, es = name.toList.map (.token .identifier) := by
  apply token_of_opt h
  intro xs hxs
  obtain ⟨_, rfl, t, rfl, -⟩ := row_of_spaced hxs
  exact ⟨t, rfl⟩

/-- The name of a parameter may be left out. -/
theorem paramAssignment_accepts : Accepts .paramAssignment := by
  rintro b e es c ⟨⟩ ⟨⟩ h - -
  obtain ⟨ns, _, hns, ⟨x, rfl, a, ha⟩, rfl⟩ := row_of_spaced h
  obtain ⟨name, rfl⟩ := name_of_opt hns
  exact ⟨_, _, paramAssignment_gives name ha, _, rfl⟩

/-- The variable for an output may be left out. -/
theorem outputParameterAssignment_accepts : Accepts .outputParameterAssignment := by
  rintro b e es c ⟨⟩ ⟨⟩ h - -
  obtain ⟨is, _, his, ⟨_, vs, ⟨_, rfl, name, rfl, -⟩, hvs, rfl⟩, rfl⟩ := row_of_spaced h
  obtain ⟨inverter, rfl⟩ := token_of_opt (r := .outputInverter) his (leavesToken_rule fun _ h => h)
  obtain ⟨target, hvs⟩ := serve_of_opt (α := Variable) hvs (by
    rintro xs ⟨_, rfl, v, rfl⟩
    exact ⟨_, rfl, v, rfl⟩)
  exact ⟨_, _, outputParameterAssignment_gives inverter name hvs, _, rfl⟩

/-- Nothing between the parentheses are no parameters. -/
theorem parameters_of_opt (h : (opt Rule.parameterList).Leaves es) :
    ∃ ps : List Parameter, Serve es ps := by
  rcases h with h | rfl
  · exact h
  · exact ⟨[], .nil⟩

theorem functionCall_accepts : Accepts .functionCall := by
  rintro b e es c ⟨⟩ ⟨⟩ h - -
  obtain ⟨_, ps, ⟨_, rfl, v, rfl⟩, hps, rfl⟩ := row_of_spaced h
  obtain ⟨parameters, hps⟩ := parameters_of_opt hps
  exact ⟨_, _, functionCall_gives rfl hps, _, rfl⟩

theorem fbInvocation_accepts : Accepts .fbInvocation := by
  rintro b e es c ⟨⟩ ⟨⟩ h - -
  obtain ⟨_, ps, ⟨_, rfl, v, rfl⟩, hps, rfl⟩ := row_of_spaced h
  obtain ⟨parameters, hps⟩ := parameters_of_opt hps
  exact ⟨_, _, fbInvocation_gives rfl hps, _, rfl⟩

end StructuredText.Build
