import StructuredText.Proofs.Build.Formation
import StructuredText.Proofs.Grammar.Guards
import StructuredText.Proofs.Precedence.Constructs

/-!
# Expressions as they are written

Every node of an expression becomes an element in order, by induction on the node: tokens are spelled
by their patterns, literals and addresses are what is built of them, and everything else is put
together of parts in order.

* `ordered_of_element` — what becomes of a node of an expression is in order.
* `Expression.layered_of_derive` — every text that is an expression becomes a layered expression,
  which is spread over the text.
-/

namespace StructuredText

open Grammar (Node Rule Pattern Matched derive decimalDigits)

namespace Build

open Grammar.Expr (rule Derives derives_rule_iff)

variable {lines : LineIndex} {n : Node} {a : Anchor} {r : Rule} {es : List Element} {x : Element}
  {s s' : Cursor}

/-! ## Tokens -/

/-- What is read by a rule that is a single token has the lexeme of the token. -/
theorem spread_of_token {p : Pattern} (hp : r.production = .token p)
    {t : Text} (hreads : s.Reads t s') (ht : p.Spells t) :
    Spread lines (Element.token r ⟨t, lines.lineOf s.offset⟩).lexemes s s' := by
  have htoken : Spread lines [.token ⟨t, lines.lineOf s.offset⟩] s s' := .one ⟨hreads, rfl⟩
  cases r
  case deref =>
    cases hp
    obtain rfl := Pattern.text_spells ht
    exact .one ⟨_, hreads, beq_self_eq_true _⟩
  case outputInverter =>
    cases hp
    have hword := Pattern.word_spells (Pattern.spells_boundary ht)
    exact .one ⟨t, hreads, beq_iff_eq.mpr hword⟩
  all_goals exact htoken

theorem token_of_isPlainToken (hr : r.isPlainToken = true) :
    (∃ p, r.production = .token p) ∧ builder? r = none ∧ r.isOperand = false := by
  unfold Rule.isPlainToken at hr
  split at hr <;> first | exact ⟨⟨_, rfl⟩, rfl, rfl⟩ | cases hr

/-- A token is in order. -/
theorem ordered_of_token (hr : n.rule.isPlainToken = true) (hn : Matched n)
    (h : element lines n = .ok x) : Ordered lines n.rule x n.start n.stop := by
  obtain ⟨⟨q, hq⟩, hb, hoperand⟩ := token_of_isPlainToken hr
  cases hn with
  | node hp => exact absurd (hq.symm.trans hp) (by simp)
  | @token r p s s' hp hrun =>
      have hx := (element_leaf hb).symm.trans h
      cases hx
      obtain ⟨t, hreads, ht⟩ := Pattern.run_spells hrun
      rw [leafToken, hreads.upTo]
      refine ⟨⟨trivial, ?_, fun _ => ⟨_, p, rfl, hp, ht⟩, ?_⟩, spread_of_token hp hreads ht⟩
      · intro h
        rw [hoperand] at h
        cases h
      · intro hplain
        rw [hr] at hplain
        cases hplain

/-! ## Literals and addresses -/

/-- A literal is a constant of the grammar. -/
theorem derives_constant (hr : r.isConstant = true) {ns : List Node}
    (h : (rule r).Derives s ns s') : (rule .constant).Derives s ns s' := by
  -- Each rule at its own place in the choice.
  have hbits (h : (rule .bitStringConstant).Derives s ns s') :
      (rule .constant).Derives s ns s' :=
    .silent rfl (.right (.right (.right (.right (.right (.left h))))))
  cases r <;> first | (cases hr; done) | skip
  case dateAndTime => exact .silent rfl (.left h)
  case date => exact .silent rfl (.right (.left h))
  case timeOfDay => exact .silent rfl (.right (.right (.left h)))
  case duration => exact .silent rfl (.right (.right (.right (.left h))))
  case realLiteral => exact .silent rfl (.right (.right (.right (.right (.left h)))))
  case binaryBitStringLiteral => exact hbits (.silent rfl (.left h))
  case octalBitStringLiteral => exact hbits (.silent rfl (.right (.left h)))
  case hexBitStringLiteral => exact hbits (.silent rfl (.right (.right (.left h))))
  case bitStringLiteral => exact hbits (.silent rfl (.right (.right (.right h))))
  case integerLiteral =>
    exact .silent rfl (.right (.right (.right (.right (.right (.right (.left h)))))))
  case stringLiteral =>
    exact .silent rfl (.right (.right (.right (.right (.right (.right (.right (.left h))))))))
  case trueValue =>
    exact .silent rfl
      (.right (.right (.right (.right (.right (.right (.right (.right (.left h)))))))))
  case falseValue =>
    exact .silent rfl
      (.right (.right (.right (.right (.right (.right (.right (.right (.right h)))))))))

theorem passes_of_isConstant (hr : r.isConstant = true) : r.passes = false ∧ r.isLevel = false := by
  unfold Rule.isConstant at hr
  split at hr <;> first | exact ⟨rfl, rfl⟩ | cases hr

theorem literal_of_forms (hr : r.isConstant = true) (h : Forms a r es x) :
    ∃ v, x = .literal v := by
  obtain ⟨hpass, hlevel⟩ := passes_of_isConstant hr
  obtain ⟨hnames, hinit, hkind, htype, htarget, hjump⟩ :=
    families_of_inExpressions (r := r) (by simp [Rule.inExpressions, hr])
  cases h with
  | literal v => exact ⟨v, rfl⟩
  | pass _ hrule => cases hpass.symm.trans hrule
  | chain hrule => cases hlevel.symm.trans hrule
  | names hrule => cases hnames.symm.trans hrule
  | initDeclaration hrule => cases hinit.symm.trans hrule
  | plainBlock hrule => cases hkind.symm.trans hrule
  | namedType _ _ hrule => cases htype.symm.trans hrule
  | targeted hrule => cases htarget.symm.trans hrule
  | jump hrule => cases hjump.symm.trans hrule
  | unit hheads => cases hheads <;> cases hr
  | action hacts => cases hacts <;> cases hr
  | _ => cases hr

theorem address_of_forms (h : Forms a .directVariable es x) : ∃ d, x = .place (.direct d) := by
  cases h with
  | direct d => exact ⟨d, rfl⟩
  | literal _ hr | pass _ hr | chain hr | names hr | initDeclaration hr | plainBlock hr
  | namedType _ _ hr | targeted hr | jump hr | unit hr | action hr => cases hr

/-- What has a builder is built of elements. -/
theorem exists_forms (hb : builder? n.rule ≠ none) (h : element lines n = .ok x) :
    ∃ es, Forms (freshAnchor lines n) n.rule es x := by
  cases made_of_element h with
  | token hnone => exact absurd hnone hb
  | leaf _ hforms => exact ⟨_, hforms⟩
  | built _ _ hforms => exact ⟨_, hforms⟩
  | raw _ hnone => exact absurd hnone hb

theorem construct_of_isConstant (hr : r.isConstant = true) :
    builder? r ≠ none ∧ r.isPlainToken = false ∧ r.tier = 10 := by
  unfold Rule.isConstant at hr
  split at hr <;> first | exact ⟨nofun, rfl, rfl⟩ | cases hr

theorem ordered_of_constant (hr : n.rule.isConstant = true) (hn : Matched n)
    (h : element lines n = .ok x) : Ordered lines n.rule x n.start n.stop := by
  obtain ⟨hb, htoken, htier⟩ := construct_of_isConstant hr
  obtain ⟨es, hforms⟩ := exists_forms hb h
  obtain ⟨v, rfl⟩ := literal_of_forms hr hforms
  exact ⟨graded_of_construct htoken rfl trivial fun _ => ⟨_, rfl, Nat.le_of_eq htier⟩,
    .one ⟨n, derives_constant hr hn.parses.derives, h⟩⟩

theorem ordered_of_address (hr : n.rule = .directVariable) (hn : Matched n)
    (h : element lines n = .ok x) : Ordered lines n.rule x n.start n.stop := by
  obtain ⟨es, hforms⟩ := exists_forms (by rw [hr]; nofun) h
  have hparses := hn.parses.derives
  rw [hr] at hforms hparses ⊢
  obtain ⟨d, rfl⟩ := address_of_forms hforms
  exact ⟨graded_of_construct rfl rfl trivial fun _ => ⟨_, rfl, Nat.le_refl 10⟩,
    .one ⟨n, hparses, h⟩⟩

/-! ## The induction -/

theorem node_of_isCompound (hr : r.isCompound = true) :
    (∃ e, r.production = .node e) ∧ r ≠ .duration ∧ r ≠ .statementList ∧ builder? r ≠ none := by
  unfold Rule.isCompound at hr
  split at hr <;> first | exact ⟨⟨_, rfl⟩, nofun, nofun, nofun⟩ | cases hr

/-- What becomes of a node of an expression is in order. -/
theorem ordered_of_element (n : Node) (hn : ∀ k, Within k n → Matched k)
    (hr : n.rule.inExpressions = true) {x : Element} (h : element lines n = .ok x) :
    Ordered lines n.rule x n.start n.stop := by
  have hmatched := hn n (.self n)
  simp only [Rule.inExpressions, Bool.or_eq_true, beq_iff_eq] at hr
  -- Tokens, constants and addresses have no inner expressions; all others are built of their
  -- children, which are smaller nodes.
  rcases hr with ((htoken | hconstant) | haddress) | hcompound
  · exact ordered_of_token htoken hmatched h
  · exact ordered_of_constant hconstant hmatched h
  · exact ordered_of_address haddress hmatched h
  · obtain ⟨⟨e, he⟩, hduration, hlist, hb⟩ := node_of_isCompound hcompound
    have hbody := (hmatched.body rfl he).derives
    have hne := ne_nil_of_node he hbody hduration hlist
    cases made_of_element h with
    | token hnone => exact absurd hnone hb
    | leaf hnil => exact absurd hnil hne
    | raw _ hnone => exact absurd hnone hb
    | built _ hes hforms =>
        refine ordered_of_forms hcompound he ⟨n.children, hbody, hes, ?_⟩ hforms
        intro m hm hin y hy
        have hlt := sizeOf_lt_of_mem_children hm
        have hkeyword : m.rule.isKeyword = false := by
          revert hin
          cases m.rule <;> first | exact fun _ => rfl | (intro hin; cases hin)
        exact ordered_of_element m (fun k hk => hn k (.child hm hkeyword hk)) hin hy
termination_by sizeOf n

end Build

/-! ## Whole expressions -/

namespace Expression

open Build

/-- A text that is an expression becomes a layered expression, which is spread over the text. Only
a duration without a part, with a digit behind it, becomes nothing. -/
theorem layered_of_derive {text : Text} {nodes : List Node} {stop : Cursor}
    (h : derive .expression text = .matched nodes stop) :
    ∃ n, nodes = [n] ∧
      (stop.At decimalDigits ∨ ∃ y, element (.ofText text) n = .ok y) ∧
      ∀ y, element (.ofText text) n = .ok y → ∃ x : Expression, ofElement? y = some x ∧
        x.Layered ∧ Spread (.ofText text) x.lexemes text.cursor stop := by
  have hparses := Grammar.derive_parses h
  obtain ⟨ns, -, rfl⟩ : ∃ ns, _ ∧ nodes = [⟨.expression, text.cursor, stop, ns⟩] :=
    Grammar.Expr.derives_rule_iff.mp hparses.derives
  refine ⟨_, rfl, ?_, ?_⟩
  -- A derivation is built or stranded in front of a digit.
  · have hbuilt : Built (.ofText text) _ _ _ := built_of_derives hparses.derives rfl
    rcases hbuilt with ⟨-, hat⟩ | ⟨es, hes, -⟩
    · exact .inl hat
    · obtain ⟨y, -, hy, -⟩ := elements_cons_eq_ok.mp hes
      exact .inr ⟨y, hy⟩
  · intro y hy
    obtain ⟨hmatched, -⟩ := Grammar.justified_of_parses hparses rfl
    obtain ⟨hroot, hinside⟩ := hmatched _ (.head _)
    have hall : ∀ k, Within k ⟨.expression, text.cursor, stop, ns⟩ → Matched k := by
      intro k hk
      cases hk with
      | self => exact hroot
      | child hm _ hk => exact (hinside _ hm k hk).matched
    obtain ⟨hgraded, hspread⟩ := ordered_of_element _ hall rfl hy
    obtain ⟨x, hx, -⟩ := hgraded.operand rfl
    have hlexemes : x.lexemes = y.lexemes := InOrder.lexemes_eq hx
    exact ⟨x, hx, InOrder.of_layered hx hgraded.layered, hlexemes ▸ hspread⟩

/-- A sum of a negation and a product, with a comment, a subscript and parentheses. -/
def mixedText : Text := "-a[i OR j] (* b *) + (2 - 1) * 3".toList

theorem layered_of_derive_mixedText :
    ∃ n stop y, derive .expression mixedText = .matched [n] stop ∧ stop.rest = [] ∧
      element (.ofText mixedText) n = .ok y ∧ ∃ x : Expression, ofElement? y = some x ∧
        x.Layered ∧ Spread (.ofText mixedText) x.lexemes mixedText.cursor stop := by
  have hcheck : (derive .expression mixedText).meets (fun ns stop => stop.rest.isEmpty &&
      ns.all fun n => (element (.ofText mixedText) n).toOption.isSome) = true := by
    decide +kernel
  obtain ⟨ns, stop, hderive, hcheck⟩ := Grammar.Outcome.exists_of_meets hcheck
  obtain ⟨n, rfl, -, hlayered⟩ := layered_of_derive hderive
  simp only [Bool.and_eq_true, List.isEmpty_iff, List.all_cons] at hcheck
  cases hy : element (.ofText mixedText) n with
  | error e =>
      rw [hy] at hcheck
      cases hcheck.2.1
  | ok y => exact ⟨n, stop, y, hderive, hcheck.1, hy, hlayered y hy⟩

end Expression

end StructuredText
