import StructuredText.Proofs.Build.Derivation
import StructuredText.Proofs.Precedence.Layers

/-!
# What the parts of an expression yield

A derivation is looked at through the elements that its nodes become: the parts of an expression of
the grammar are derived one behind the other, and yield elements whose lexemes are spread over what
was read. One lemma for each way to put an expression together says what it yields, so that the
rules can be gone through without looking at cursors.

* `Graded` — what is known of an element that a rule yields.
* `Yields` — the elements that an expression of the grammar yields between two cursors.
* `Picks`, `Each` — expressions that yield one element, or a row of them.
* `Picks.commaList` — lists with commas.
-/

namespace StructuredText

open Grammar (Gap Node Rule Keyword Production Pattern gap_of_trivia)

/-! ## Elements in order -/

/-- What an element of an expression consists of. -/
def Element.lexemes : Element → List Lexeme
  | .token .deref _ => [.mark "^"]
  | .token .outputInverter _ => [.mark "NOT"]
  | .token _ t => [.token t]
  | .literal v => [.literal v]
  | .expression x => x.lexemes
  | .place v => v.lexemes
  | .selector s => s.lexemes
  | .enumeratedValue v => v.lexemes
  | .parameter p => p.lexemes
  | _ => []

def Element.Layered : Element → Prop
  | .expression x => x.Layered
  | .place v => v.Layered
  | .selector s => s.Layered
  | .enumeratedValue v => v.Layered
  | .parameter p => p.Layered
  | _ => True

/-- Types whose values have the lexemes of the elements that serve as them. -/
class InOrder (α : Type) [OfElement α] where
  lexemes : α → List Lexeme
  layered : α → Prop
  lexemes_eq : ∀ {e : Element} {v : α}, ofElement? e = some v → lexemes v = e.lexemes
  of_layered : ∀ {e : Element} {v : α}, ofElement? e = some v → e.Layered → layered v

instance : InOrder Expression where
  lexemes := Expression.lexemes
  layered := Expression.Layered
  lexemes_eq {e _} h := by cases e <;> cases h <;> rfl
  of_layered {e _} h hlayered := by
    cases e <;> cases h <;> exact hlayered

instance : InOrder Variable where
  lexemes := Variable.lexemes
  layered := Variable.Layered
  lexemes_eq {e _} h := by
    cases e with
    | place =>
        cases h
        rfl
    | expression x =>
        cases x <;> cases h
        rfl
    | _ => cases h
  of_layered {e _} h hlayered := by
    cases e with
    | place =>
        cases h
        exact hlayered
    | expression x =>
        cases x <;> cases h
        exact hlayered
    | _ => cases h

instance : InOrder SymbolicVariable where
  lexemes := SymbolicVariable.lexemes
  layered _ := True
  lexemes_eq {e _} h := by
    cases e with
    | place v =>
        cases v <;> cases h
        rfl
    | _ => cases h
  of_layered _ _ := trivial

instance : InOrder Selector where
  lexemes := Selector.lexemes
  layered := Selector.Layered
  lexemes_eq {e _} h := by cases e <;> cases h; rfl
  of_layered {e _} h hlayered := by cases e <;> cases h; exact hlayered

instance : InOrder Parameter where
  lexemes := Parameter.lexemes
  layered := Parameter.Layered
  lexemes_eq {e _} h := by cases e <;> cases h; rfl
  of_layered {e _} h hlayered := by cases e <;> cases h; exact hlayered

section Serve

variable {α : Type} [OfElement α] [InOrder α] {es : List Element} {vs : List α}

/-- Values that elements serve have the tokens of the elements. -/
theorem map_lexemes_of_serve (h : Serve es vs) :
    vs.map InOrder.lexemes = es.map Element.lexemes := by
  induction vs generalizing es with
  | nil =>
      obtain rfl := serve_nil_iff.mp h
      rfl
  | cons v vs ih =>
      obtain ⟨e, es, rfl, he, hes⟩ := serve_cons_iff.mp h
      rw [List.map_cons, List.map_cons, ih hes, InOrder.lexemes_eq he]

/-- Values that layered elements serve are layered. -/
theorem layered_of_serve (h : Serve es vs) (hes : ∀ e ∈ es, e.Layered) :
    ∀ v ∈ vs, InOrder.layered v := by
  intro v hv
  obtain ⟨e, he, hserves⟩ := h.exists_element hv
  exact InOrder.of_layered hserves (hes e he)

end Serve

/-! ## Rules of expressions -/

namespace Grammar.Rule

/-- The rules of the literals in expressions. -/
def isConstant : Rule → Bool
  | .dateAndTime | .date | .timeOfDay | .duration | .realLiteral | .binaryBitStringLiteral
  | .octalBitStringLiteral | .hexBitStringLiteral | .bitStringLiteral | .integerLiteral
  | .stringLiteral | .trueValue | .falseValue => true
  | _ => false

/-- The tokens of expressions. -/
def isPlainToken : Rule → Bool
  | .identifier | .typeName | .fieldIndex | .deref | .outputInverter | .unaryOperator
  | .orOperator | .xorOperator | .andOperator | .equalsOperator | .compareOperator | .addOperator
  | .multiplyOperator | .powerOperator => true
  | _ => false

/-- Constructs that are put together of parts of expressions. -/
def isCompound : Rule → Bool
  | .expression | .xorExpression | .andExpression | .comparisonExpression | .equalityExpression
  | .addExpression | .expressionTerm | .powerExpression | .unaryExpression
  | .parenthesizedExpression | .qualifiedEnumeratedValue | .functionCall | .paramAssignment
  | .outputParameterAssignment | .variableName | .fieldSelector | .subscriptList
  | .multiElementVariable => true
  | _ => false

/-- The rules whose nodes stand in expressions. -/
def inExpressions (r : Rule) : Bool :=
  r.isPlainToken || r.isConstant || r == .directVariable || r.isCompound

/-- What a rule yields binds at least so tightly. -/
def tier : Rule → Nat
  | .expression => 1
  | .xorExpression => 2
  | .andExpression => 3
  | .comparisonExpression => 4
  | .equalityExpression => 5
  | .addExpression => 6
  | .expressionTerm => 7
  | .powerExpression => 8
  | .unaryExpression => 9
  | _ => 10

/-- The rules of what serves as an expression. -/
def isOperand : Rule → Bool
  | .expression | .xorExpression | .andExpression | .comparisonExpression | .equalityExpression
  | .addExpression | .expressionTerm | .powerExpression | .unaryExpression
  | .parenthesizedExpression | .qualifiedEnumeratedValue | .functionCall | .directVariable
  | .multiElementVariable => true
  | r => r.isConstant

end Grammar.Rule

/-- What is known of an element that a rule of expressions yields: how tightly it binds, and whether
it is a token. -/
structure Graded (r : Rule) (y : Element) : Prop where
  layered : y.Layered
  operand : r.isOperand = true → ∃ x : Expression, ofElement? y = some x ∧ r.tier ≤ x.tier
  spelled : r.isPlainToken = true →
    ∃ t p, y = .token r t ∧ r.production = .token p ∧ p.Spells t.text
  construct : r.isPlainToken = false → ∀ k t, y ≠ .token k t

/-- An operand of a rule is a tree that binds at least as tightly as the rule asks. -/
theorem Graded.tier_le {r : Rule} {y : Element} (h : Graded r y) (hr : r.isOperand = true)
    {x : Expression} (hx : ofElement? y = some x) : r.tier ≤ x.tier := by
  obtain ⟨z, hz, htier⟩ := h.operand hr
  obtain rfl := Option.some.inj (hx.symm.trans hz)
  exact htier

namespace Build

open Grammar Expr

variable {lines : LineIndex} {a b e : Expr} {r : Rule} {s s' : Cursor} {es : List Element}

/-- The elements of two rows of nodes are the elements of each, one behind the other. -/
theorem elements_append_eq_ok {ns ms : List Node} :
    elements lines (ns ++ ms) = .ok es ↔
      ∃ fs gs, es = fs ++ gs ∧ elements lines ns = .ok fs ∧ elements lines ms = .ok gs := by
  constructor
  · intro h
    -- Keywords have no element, so the two rows are not cut at the same place.
    induction ns generalizing es with
    | nil => exact ⟨[], es, rfl, elements_nil, h⟩
    | cons n ns ih =>
        rw [List.cons_append, elements_cons_eq_ok] at h
        split at h
        · rename_i hn
          obtain ⟨fs, gs, rfl, hfs, hgs⟩ := ih h
          exact ⟨fs, gs, rfl, elements_cons_eq_ok.mpr (by rw [if_pos hn]; exact hfs), hgs⟩
        · rename_i hn
          obtain ⟨f, fs, hf, hrest, rfl⟩ := h
          obtain ⟨fs, gs, rfl, hfs, hgs⟩ := ih hrest
          refine ⟨f :: fs, gs, rfl, elements_cons_eq_ok.mpr ?_, hgs⟩
          rw [if_neg hn]
          exact ⟨f, fs, hf, hfs, rfl⟩
  · rintro ⟨fs, gs, rfl, hfs, hgs⟩
    exact elements_append hfs hgs

/-- An expression of the grammar is derived between two cursors; its nodes become the elements, and
those of rules of expressions are known to be in order. -/
def Yields (lines : LineIndex) (e : Expr) (s : Cursor) (es : List Element) (s' : Cursor) : Prop :=
  ∃ ns, e.Derives s ns s' ∧ elements lines ns = .ok es ∧
    ∀ n ∈ ns, n.rule.inExpressions = true → ∀ y, element lines n = .ok y →
      Graded n.rule y ∧ Spread lines y.lexemes n.start n.stop

namespace Yields

/-- A mark or a blank yields no element. -/
theorem lexeme {p : Pattern} (h : Yields lines (.lexeme p) s es s') :
    es = [] ∧ p.run s = some s' := by
  obtain ⟨ns, hns, hes, -⟩ := h
  obtain ⟨rfl, hrun⟩ := derives_lexeme_iff.mp hns
  rw [elements_nil] at hes
  cases hes
  exact ⟨rfl, hrun⟩

/-- Blanks and comments yield no element. -/
theorem trivia (h : Yields lines trivia s es s') : es = [] ∧ Gap s s' := by
  obtain ⟨rfl, hrun⟩ := h.lexeme
  exact ⟨rfl, gap_of_trivia hrun⟩

/-- The empty sequence yields no element and reads nothing. -/
theorem nothing (h : Yields lines nothing s es s') : es = [] ∧ s' = s := by
  obtain ⟨rfl, hrun⟩ := h.lexeme
  exact ⟨rfl, (Option.some.inj hrun).symm⟩

/-- A mark yields no element and writes itself. -/
theorem mark {m : Text} (h : Yields lines (.lexeme (Pattern.text m)) s es s') :
    es = [] ∧ Spread lines [.mark m] s s' := by
  obtain ⟨rfl, hrun⟩ := h.lexeme
  exact ⟨rfl, .one ⟨m, Pattern.reads_of_run_text hrun, beq_self_eq_true _⟩⟩

/-- Two parts in a row yield the elements of the first, then those of the second. -/
theorem seq (h : Yields lines (.seq a b) s es s') :
    ∃ fs gs s₁, es = fs ++ gs ∧ Yields lines a s fs s₁ ∧ Yields lines b s₁ gs s' := by
  obtain ⟨ns, hns, hes, hparts⟩ := h
  obtain ⟨ms, ls, s₁, rfl, ha, hb⟩ := derives_seq_iff.mp hns
  obtain ⟨fs, gs, rfl, hfs, hgs⟩ := elements_append_eq_ok.mp hes
  exact ⟨fs, gs, s₁, rfl,
    ⟨ms, ha, hfs, fun n hn => hparts n (List.mem_append_left _ hn)⟩,
    ⟨ls, hb, hgs, fun n hn => hparts n (List.mem_append_right _ hn)⟩⟩

/-- Two parts have blanks and comments between them. -/
theorem spaced {e : Expr} {rest : List Expr} (hne : rest ≠ [])
    (h : Yields lines (spaced (e :: rest)) s es s') :
    ∃ fs gs s₁ s₂, es = fs ++ gs ∧ Yields lines e s fs s₁ ∧ Gap s₁ s₂ ∧
      Yields lines (Expr.spaced rest) s₂ gs s' := by
  cases rest with
  | nil => exact absurd rfl hne
  | cons f rest =>
      obtain ⟨fs, gs, s₁, rfl, he, hrest⟩ := seq h
      obtain ⟨_, gs, s₂, rfl, htrivia, hlast⟩ := seq hrest
      obtain ⟨rfl, hgap⟩ := htrivia.trivia
      exact ⟨fs, gs, s₁, s₂, rfl, he, hgap, hlast⟩

/-- A choice yields what one of its branches yields. -/
theorem alt (h : Yields lines (.alt a b) s es s') :
    Yields lines a s es s' ∨ Yields lines b s es s' := by
  obtain ⟨ns, hns, hes, hparts⟩ := h
  rcases derives_alt_iff.mp hns with ha | hb
  · exact .inl ⟨ns, ha, hes, hparts⟩
  · exact .inr ⟨ns, hb, hes, hparts⟩

/-- An optional part yields nothing, or what it yields when it is there. -/
theorem opt (h : Yields lines (opt e) s es s') : (es = [] ∧ s' = s) ∨ Yields lines e s es s' := by
  rcases h.alt with h | h
  · exact .inr h
  · exact .inl h.nothing

/-- A silent rule yields what its body yields. -/
theorem silent (hr : r.production = .silent e) (h : Yields lines (.rule r) s es s') :
    Yields lines e s es s' := by
  obtain ⟨ns, hns, hes, hparts⟩ := h
  rw [derives_rule_iff, hr] at hns
  exact ⟨ns, hns, hes, hparts⟩

/-- The rules of expressions are neither keywords nor without nodes. -/
theorem noded_of_inExpressions (hr : r.inExpressions = true) :
    r.isKeyword = false ∧ ∀ e, r.production ≠ .silent e := by
  simp only [Rule.inExpressions, Bool.or_eq_true, beq_iff_eq] at hr
  rcases hr with ((hr | hr) | rfl) | hr
  · unfold Rule.isPlainToken at hr
    split at hr <;> first | exact ⟨rfl, nofun⟩ | cases hr
  · unfold Rule.isConstant at hr
    split at hr <;> first | exact ⟨rfl, nofun⟩ | cases hr
  · exact ⟨rfl, nofun⟩
  · unfold Rule.isCompound at hr
    split at hr <;> first | exact ⟨rfl, nofun⟩ | cases hr

/-- A rule of expressions yields one element. -/
theorem rule (hr : r.inExpressions = true) (h : Yields lines (.rule r) s es s') :
    ∃ y, es = [y] ∧ Graded r y ∧ Spread lines y.lexemes s s' := by
  obtain ⟨ns, hns, hes, hparts⟩ := h
  obtain ⟨hkeyword, hnode⟩ := noded_of_inExpressions hr
  obtain ⟨ms, rfl⟩ : ∃ ms, ns = [⟨r, s, s', ms⟩] := by
    cases hns with
    | token => exact ⟨_, rfl⟩
    | node => exact ⟨_, rfl⟩
    | silent hsilent => exact absurd hsilent (hnode _)
  rw [elements_cons_eq_ok, if_neg (by simp [hkeyword])] at hes
  obtain ⟨y, fs, hy, hfs, rfl⟩ := hes
  rw [elements_nil] at hfs
  cases hfs
  obtain ⟨hgraded, hspread⟩ := hparts _ (.head _) hr y hy
  exact ⟨y, rfl, hgraded, hspread⟩

end Yields

/-! ## Parts that yield one element -/

/-- The expression of the grammar yields one element, by one of the rules. -/
def Picks (lines : LineIndex) (rs : List Rule) (e : Expr) : Prop :=
  ∀ s es s', Yields lines e s es s' →
    ∃ y r, es = [y] ∧ r ∈ rs ∧ Graded r y ∧ Spread lines y.lexemes s s'

namespace Picks

variable {rs : List Rule}

theorem rule (hr : r ∈ rs) (hin : r.inExpressions = true) : Picks lines rs (.rule r) := by
  intro s es s' h
  obtain ⟨y, rfl, hgraded, hspread⟩ := h.rule hin
  exact ⟨y, r, rfl, hr, hgraded, hspread⟩

/-- A silent rule picks what its body picks. -/
theorem silent (hr : r.production = .silent e) (he : Picks lines rs e) :
    Picks lines rs (.rule r) := fun s es s' h => he s es s' (h.silent hr)

/-- A choice picks from the rules of both branches. -/
theorem alt (ha : Picks lines rs a) (hb : Picks lines rs b) : Picks lines rs (.alt a b) := by
  intro s es s' h
  rcases h.alt with h | h
  · exact ha s es s' h
  · exact hb s es s' h

/-- A choice between rules. -/
theorem oneOf (ks : List Rule) (hne : ks ≠ []) (hks : ∀ k ∈ ks, Picks lines rs (.rule k)) :
    Picks lines rs (oneOf (ks.map Expr.rule)) := by
  match ks with
  | [] => exact absurd rfl hne
  | [k] => exact hks k (.head _)
  | k :: l :: ks =>
      exact .alt (hks k (.head _)) (oneOf (l :: ks) (by simp) fun m hm => hks m (.tail k hm))

end Picks

/-! ## Parts that yield a row of elements -/

/-- The elements that the expression of the grammar yields pass the test, and their lexemes, with
what comes with each, are spread over what was read. -/
def Each (lines : LineIndex) (lexemes : Element → List Lexeme) (Q : Element → Prop) (e : Expr) :
    Prop :=
  ∀ s es s', Yields lines e s es s' → Spread lines (es.flatMap lexemes) s s' ∧ ∀ y ∈ es, Q y

namespace Each

variable {lexemes : Element → List Lexeme} {Q : Element → Prop}

/-- A part that picks one element yields a row of one. -/
theorem of_picks {rs : List Rule} (he : Picks lines rs e) :
    Each lines Element.lexemes (fun y => ∃ r ∈ rs, Graded r y) e := by
  intro s es s' h
  obtain ⟨y, r, rfl, hr, hgraded, hspread⟩ := he s es s' h
  refine ⟨by simpa using hspread, ?_⟩
  intro z hz
  obtain rfl := List.mem_singleton.mp hz
  exact ⟨r, hr, hgraded⟩

/-- Blanks and comments yield the empty row. -/
theorem trivia : Each lines lexemes Q trivia := by
  intro s es s' h
  obtain ⟨rfl, hgap⟩ := h.trivia
  exact ⟨.nil hgap, nofun⟩

/-- Two rows one behind the other are a row. -/
theorem seq (ha : Each lines lexemes Q a) (hb : Each lines lexemes Q b) :
    Each lines lexemes Q (.seq a b) := by
  intro s es s' h
  obtain ⟨fs, gs, s₁, rfl, hfs, hgs⟩ := h.seq
  obtain ⟨hspread, hQ⟩ := ha s fs s₁ hfs
  obtain ⟨hspread', hQ'⟩ := hb s₁ gs s' hgs
  refine ⟨by simpa using hspread.append hspread', ?_⟩
  intro y hy
  rcases List.mem_append.mp hy with hy | hy
  · exact hQ y hy
  · exact hQ' y hy

/-- A row that may be missing is a row. -/
theorem opt (he : Each lines lexemes Q e) : Each lines lexemes Q (opt e) := by
  intro s es s' h
  rcases h.opt with ⟨rfl, rfl⟩ | h
  · exact ⟨.nil (.refl _), nofun⟩
  · exact he s es s' h

/-- A row that is repeated is a row, by induction on the reading. -/
theorem star (he : Each lines lexemes Q e) : Each lines lexemes Q (.star e) := by
  rintro s es s' ⟨ns, hns, hes, hparts⟩
  generalize hstar : Expr.star e = f at hns
  -- Each round yields a row, and the rounds behind it another.
  induction hns generalizing es with
  | done =>
      rw [elements_nil] at hes
      cases hes
      exact ⟨.nil (.refl _), nofun⟩
  | round hround _ _ ihs =>
      cases hstar
      obtain ⟨fs, gs, rfl, hfs, hgs⟩ := elements_append_eq_ok.mp hes
      obtain ⟨hspread, hQ⟩ :=
        he _ _ _ ⟨_, hround, hfs, fun n hn => hparts n (List.mem_append_left _ hn)⟩
      obtain ⟨hspread', hQ'⟩ := ihs _ hgs (fun n hn => hparts n (List.mem_append_right _ hn)) rfl
      refine ⟨by simpa using hspread.append hspread', ?_⟩
      intro y hy
      rcases List.mem_append.mp hy with hy | hy
      · exact hQ y hy
      · exact hQ' y hy
  | lexeme | token | node | silent | seq | left | right | ahead => cases hstar

/-- A row that is repeated with gaps between is a row. -/
theorem many (he : Each lines lexemes Q e) : Each lines lexemes Q (many e) :=
  .opt (.seq he (.star (.seq .trivia he)))

/-- Two rows with a gap between them are a row. -/
theorem spaced_pair (ha : Each lines lexemes Q a) (hb : Each lines lexemes Q b) :
    Each lines lexemes Q (spaced [a, b]) := .seq ha (.seq .trivia hb)

end Each

/-! ## Lists with commas -/

/-- A row with commas, cut behind its first part. -/
theorem commaRow_cons (row : List Lexeme) (rows : List (List Lexeme)) :
    Lexeme.commaRow (row :: rows) = row ++ rows.flatMap (.mark "," :: ·) := by
  induction rows generalizing row with
  | nil => simp [Lexeme.commaRow]
  | cons next rows ih =>
      have hnext := ih next
      rw [Lexeme.commaRow] at hnext ⊢
      rw [List.intercalate_cons_cons, hnext]
      simp

/-- A list with commas yields at least one element, and has commas between their lexemes. -/
theorem Picks.commaList {rs : List Rule} (he : Picks lines rs e)
    (h : Yields lines (commaList e) s es s') :
    es ≠ [] ∧ (∀ y ∈ es, ∃ r ∈ rs, Graded r y) ∧
      Spread lines (Lexeme.commaRow (es.map Element.lexemes)) s s' := by
  -- y.lexemes) (fun y => ∃ r ∈ rs, Graded r y) :: A comma belongs to the element behind it, so the
  -- rounds are rows by themselves.
  have hround : Each lines (fun y => .mark "," :: y.lexemes) (fun y => ∃ r ∈ rs, Graded r y)
      (spaced [",", e]) := by
    intro s es s' h
    obtain ⟨_, gs, s₁, s₂, rfl, hcomma, hgap, hlast⟩ := h.spaced (by simp)
    obtain ⟨rfl, hmark⟩ := hcomma.mark
    obtain ⟨y, r, rfl, hr, hgraded, hspread⟩ := he _ _ _ hlast
    refine ⟨by simpa using hmark.append (hspread.gap hgap), ?_⟩
    intro z hz
    obtain rfl := List.mem_singleton.mp hz
    exact ⟨r, hr, hgraded⟩
  obtain ⟨_, gs, s₁, s₂, rfl, hfirst, hgap, hrest⟩ := h.spaced (by simp)
  obtain ⟨y, r, rfl, hr, hgraded, hspread⟩ := he _ _ _ hfirst
  obtain ⟨hspread', hQ⟩ := hround.many _ _ _ hrest
  refine ⟨by simp, ?_, ?_⟩
  · exact List.forall_mem_cons.mpr ⟨⟨r, hr, hgraded⟩, hQ⟩
  · rw [List.singleton_append, List.map_cons, commaRow_cons, List.flatMap_map]
    exact hspread.append (hspread'.gap hgap)

end Build

end StructuredText
