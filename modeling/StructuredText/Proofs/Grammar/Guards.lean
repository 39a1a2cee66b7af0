import StructuredText.Proofs.Build.Derivation
import StructuredText.Proofs.Comments.Gaps
import StructuredText.Proofs.Grammar.Parses

/-!
# What is known of a node

A node of a derivation was matched by the search, so it is the result of its rule where it starts.
Its children are nodes of rules that its production calls. And a call of a function block in a
statement is tried only where a call of a method was not found.

* `Rule.mayHold`, `mayHold_of_mem` — the rules of which a construct can have children.
* `exists_of_leavesNode` — a rule of which it has one.
* `Justified`, `justified_of_within` — every node of a result is the result of its rule.
* `children_ne_singleton` — a call of a function block as a statement has parameters.
-/

namespace StructuredText.Grammar

open StructuredText.Grammar.Expr

/-! ## The rules of children -/

/-- A match of the expression may leave a node, given which rules may. -/
def Expr.mayLeave (ofRule : Rule → Bool) : Expr → Bool
  | .lexeme _ | .ahead _ => false
  | .rule r => ofRule r
  | .seq a b | .alt a b => a.mayLeave ofRule || b.mayLeave ofRule
  | .star a => a.mayLeave ofRule

/-- A match of the rule may leave a node of the rule `k`, as far as calls nested `depth` deep tell. -/
def Rule.mayLeave (k : Rule) : (depth : Nat) → Rule → Bool
  | 0, _ => true
  | depth + 1, r =>
    match r.production with
    | .token _ | .node _ => r == k
    | .silent e => e.mayLeave (Rule.mayLeave k depth)

/-- A construct of the rule may have a child of the rule `k`. -/
def Rule.mayHold (r k : Rule) : Bool :=
  match r.production with
  | .node e => e.mayLeave (k.mayLeave 9)
  | _ => false

variable {s s' : Cursor} {ns : List Node} {e : Expr}

theorem mayLeave_of_mem (h : e.Derives s ns s') {n : Node} (hn : n ∈ ns) (depth : Nat) :
    e.mayLeave (n.rule.mayLeave depth) = true := by
  -- Where the depth is used up, the check allows any rule.
  induction h generalizing depth with
  | lexeme | done | ahead => cases hn
  | token hr | node hr =>
      obtain rfl := List.mem_singleton.mp hn
      cases depth with
      | zero => rfl
      | succ depth => simp [Expr.mayLeave, Rule.mayLeave, hr]
  | silent hr _ ih =>
      cases depth with
      | zero => rfl
      | succ depth =>
          simp only [Expr.mayLeave, Rule.mayLeave, hr]
          exact ih hn depth
  | seq _ _ iha ihb =>
      simp only [Expr.mayLeave, Bool.or_eq_true]
      rcases List.mem_append.mp hn with hn | hn
      · exact .inl (iha hn depth)
      · exact .inr (ihb hn depth)
  | left _ ih =>
      simp only [Expr.mayLeave, Bool.or_eq_true]
      exact .inl (ih hn depth)
  | right _ ih =>
      simp only [Expr.mayLeave, Bool.or_eq_true]
      exact .inr (ih hn depth)
  | round _ _ iha ihs =>
      rcases List.mem_append.mp hn with hn | hn
      · exact iha hn depth
      · exact ihs hn depth

/-- The children of a construct are of rules that its production calls. -/
theorem mayHold_of_mem {r : Rule} (hr : r.production = .node e) (h : e.Derives s ns s') {n : Node}
    (hn : n ∈ ns) : r.mayHold n.rule = true := by
  simp only [Rule.mayHold, hr]
  exact mayLeave_of_mem h hn 9

/-- Where every match of an expression leaves a node of a rule, this one does. -/
theorem exists_of_leavesNode {k : Rule} (hk : ∀ e, k.production ≠ .silent e)
    (h : e.Derives s ns s') (he : Build.leavesNode (· == k) e = true) : ∃ n ∈ ns, n.rule = k := by
  induction h with
  | lexeme | done | round | ahead => cases he
  | token | node => exact ⟨_, .head _, beq_iff_eq.mp he⟩
  -- A silent rule is none that leaves a node of its own.
  | silent hr =>
      obtain rfl := beq_iff_eq.mp he
      exact absurd hr (hk _)
  | seq _ _ iha ihb =>
      rw [Build.leavesNode, Bool.or_eq_true] at he
      rcases he with he | he
      · obtain ⟨n, hn, hrule⟩ := iha he
        exact ⟨n, List.mem_append_left _ hn, hrule⟩
      · obtain ⟨n, hn, hrule⟩ := ihb he
        exact ⟨n, List.mem_append_right _ hn, hrule⟩
  | left _ ih =>
      rw [Build.leavesNode, Bool.and_eq_true] at he
      exact ih he.1
  | right _ ih =>
      rw [Build.leavesNode, Bool.and_eq_true] at he
      exact ih he.2

/-! ## Nodes of a result -/

/-- A call of a function block as a statement starts where there is no call of a method. -/
def Guarded (n : Node) : Prop :=
  n.rule = .fbInvocationStatement → (rule .methodStatement).Parses n.start none

/-- A node is the result of its rule where it starts. -/
inductive Matched : Node → Prop where
  | token {r : Rule} {p : Pattern} {s s' : Cursor} (hr : r.production = .token p)
      (h : p.run s = some s') : Matched ⟨r, s, s', []⟩
  | node {r : Rule} {e : Expr} {ns : List Node} {s s' : Cursor} (hr : r.production = .node e)
      (h : e.Parses s (some (ns, s'))) : Matched ⟨r, s, s', ns⟩

theorem Matched.parses {n : Node} (h : Matched n) :
    (rule n.rule).Parses n.start (some ([n], n.stop)) := by
  cases h with
  | token hr h => exact .token hr h
  | node hr h => exact .node hr h

/-- A construct is a match of the production of its rule. -/
theorem Matched.body {n : Node} (h : Matched n) {r : Rule} (hrule : n.rule = r) {e : Expr}
    (hr : r.production = .node e) : e.Parses n.start (some (n.children, n.stop)) := by
  subst hrule
  cases h with
  | token hr' => cases hr'.symm.trans hr
  | node hr' h =>
      obtain rfl := Production.node.inj (hr'.symm.trans hr)
      exact h

/-- The children of a node are of rules of which its construct may have children. -/
theorem Matched.mayHold {n m : Node} (h : Matched n) (hm : m ∈ n.children) :
    n.rule.mayHold m.rule = true := by
  cases h with
  | token => cases hm
  | node hr h => exact mayHold_of_mem hr h.derives hm

/-- A node is the result of its rule where it starts, and it is guarded. -/
structure Justified (n : Node) : Prop where
  matched : Matched n
  guarded : Guarded n

/-- A call of a function block is tried as a statement only behind that of a method. -/
def guards : Expr → Bool
  | .lexeme _ | .ahead _ => true
  | .rule r => r != .fbInvocationStatement
  | .seq a b => guards a && guards b
  | .alt (.rule .methodStatement) (.alt (.rule .fbInvocationStatement) c) => guards c
  | .alt a b => guards a && guards b
  | .star a => guards a

theorem Rule.guards_body (r : Rule) : guards r.production.body = true := by
  have hall : (Rule.inOrder.all fun r => guards r.production.body) = true := by
    decide +kernel
  exact Rule.of_all hall r

theorem guards_alt {a b : Expr} (h : guards (.alt a b) = true) :
    (guards a = true ∧ guards b = true) ∨
      (a = rule .methodStatement ∧
        ∃ c, b = .alt (rule .fbInvocationStatement) c ∧ guards c = true) := by
  unfold guards at h
  split at h
  all_goals first | (rename_i heq; cases heq; done) | skip
  · rename_i c heq
    cases heq
    exact .inr ⟨rfl, c, rfl, h⟩
  · rename_i heq
    cases heq
    simp only [Bool.and_eq_true] at h
    exact .inl h

/-- The nodes of a result are the results of their rules, and all nodes inside them are justified;
where the expression guards calls, they are so themselves. The last part is about the alternatives
behind a call of a method, which guard calls only together with it. -/
theorem justified_of_parses {o : Option (List Node × Cursor)} (h : e.Parses s o) {ns : List Node}
    {s' : Cursor} (ho : o = some (ns, s')) :
    (∀ n ∈ ns, Matched n ∧ ∀ m ∈ n.children, ∀ k, Build.Within k m → Justified k) ∧
    (guards e = true → ∀ n ∈ ns, Guarded n) ∧
    ∀ c, e = .alt (rule .fbInvocationStatement) c → guards c = true →
      (rule .methodStatement).Parses s none → ∀ n ∈ ns, Guarded n := by
  -- The third part says what holds of the second branch of a choice whose first branch is the
  -- guarded call.
  induction h generalizing ns s' with
  | lexemeFails | tokenFails | nodeFails | seqStops | seqFails | aheadFails => cases ho
  | lexeme | done | ahead =>
      cases ho
      refine ⟨by simp, by simp, ?_⟩
      intro c hc
      cases hc
  | @token r p s s' hr h =>
      cases ho
      refine ⟨?_, ?_, ?_⟩
      · intro n hn
        obtain rfl := List.mem_singleton.mp hn
        exact ⟨.token hr h, by simp⟩
      · intro hguards n hn hrule
        obtain rfl := List.mem_singleton.mp hn
        have hne : r ≠ .fbInvocationStatement := by simpa [guards] using hguards
        exact absurd hrule hne
      · intro c hc
        cases hc
  | @node r e ms s s' hr h ih =>
      cases ho
      obtain ⟨hmatched, hguarded, -⟩ := ih rfl
      have hbody := r.guards_body
      rw [hr] at hbody
      refine ⟨?_, ?_, ?_⟩
      · intro n hn
        obtain rfl := List.mem_singleton.mp hn
        refine ⟨.node hr h, ?_⟩
        intro m hm k hk
        cases hk with
        | self => exact ⟨(hmatched m hm).1, hguarded hbody m hm⟩
        | child hm' _ hk => exact (hmatched m hm).2 _ hm' k hk
      · intro hguards n hn hrule
        obtain rfl := List.mem_singleton.mp hn
        have hne : r ≠ .fbInvocationStatement := by simpa [guards] using hguards
        exact absurd hrule hne
      · intro c hc
        cases hc
  | @silent r e s o hr _ ih =>
      obtain ⟨hmatched, hguarded, -⟩ := ih ho
      have hbody := r.guards_body
      rw [hr] at hbody
      refine ⟨hmatched, fun _ => hguarded hbody, ?_⟩
      intro c hc
      cases hc
  | seq _ _ iha ihb | round _ _ iha ihb =>
      cases ho
      obtain ⟨hpa, hga, -⟩ := iha rfl
      obtain ⟨hpb, hgb, -⟩ := ihb rfl
      refine ⟨?_, ?_, ?_⟩
      · intro n hn
        rcases List.mem_append.mp hn with hn | hn
        · exact hpa n hn
        · exact hpb n hn
      · intro hguards n hn
        simp only [guards, Bool.and_eq_true] at hguards
        rcases List.mem_append.mp hn with hn | hn
        · first | exact hga hguards.1 n hn | exact hga hguards n hn
        · first | exact hgb hguards.2 n hn | exact hgb hguards n hn
      · intro c hc
        cases hc
  | left ha iha =>
      obtain ⟨hmatched, hguarded, -⟩ := iha ho
      refine ⟨hmatched, ?_, ?_⟩
      · intro hguards
        rcases guards_alt hguards with ⟨hga, -⟩ | ⟨rfl, -⟩
        · exact hguarded hga
        · exact hguarded rfl
      · intro c hc _ hfails n hn _
        cases hc
        cases ho
        obtain ⟨_, rfl, -⟩ := (parses_node_iff rfl).mp ha
        obtain rfl := List.mem_singleton.mp hn
        exact hfails
  | right ha _ _ ihb =>
      obtain ⟨hmatched, hguarded, halternatives⟩ := ihb ho
      refine ⟨hmatched, ?_, ?_⟩
      · intro hguards
        rcases guards_alt hguards with ⟨-, hgb⟩ | ⟨rfl, c, rfl, hgc⟩
        · exact hguarded hgb
        · exact halternatives c rfl hgc ha
      · intro c hc hguards _
        cases hc
        exact hguarded hguards

/-- All nodes in the root of a derivation are justified. -/
theorem justified_of_within {t : Text} {root k : Node} {stop : Cursor}
    (h : derive .iecSource t = .matched [root] stop) (hk : Build.Within k root) : Justified k := by
  obtain ⟨hmatched, hguarded, -⟩ := justified_of_parses (derive_parses h) rfl
  obtain ⟨hroot, hinside⟩ := hmatched root (by simp)
  cases hk with
  | self => exact ⟨hroot, hguarded rfl root (by simp)⟩
  | child hm _ hk => exact hinside _ hm k hk

/-! ## Calls of function blocks -/

/-- A call without parameters, followed by a semicolon, is a call of a method. -/
theorem method_of_invocation {n c : Node} (h : (rule .fbInvocationStatement).Parses n.start
      (some ([n], n.stop))) (hc : c ∈ n.children) {m : Node} (hm : c.children = [m]) :
    ∃ k, (rule .methodStatement).Parses n.start (some ([k], n.stop)) := by
  obtain ⟨-, -, hstatement⟩ := parses_of_node rfl h
  simp only [spaced, trivia, parses_seq_iff, parses_lexeme_iff] at hstatement
  obtain ⟨cs, _, s₁, hns, hcall, _, _, s₂, rfl, ⟨rfl, hgap⟩, rfl, hsemicolon⟩ := hstatement
  rw [List.append_nil, List.append_nil] at hns
  obtain rfl : cs = [c] := by
    obtain ⟨_, rfl, -⟩ := (parses_node_iff rfl).mp hcall
    rw [hns] at hc
    rw [List.mem_singleton.mp hc]
  obtain ⟨-, -, hcall⟩ := parses_of_node rfl hcall
  simp only [spaced, trivia, parses_seq_iff, parses_lexeme_iff] at hcall
  obtain ⟨vs, _, s₃, hchildren, hvariable, _, _, s₄, rfl, ⟨rfl, hgap₄⟩, _, _, s₅, rfl,
    ⟨rfl, hopening⟩, _, _, s₆, rfl, ⟨rfl, hgap₆⟩, ps, _, s₇, rfl, hparameters, _, _, s₈, rfl,
    ⟨rfl, hgap₈⟩, rfl, hclosing⟩ := hcall
  -- the variable is the only child, so the list of parameters leaves no node and reads nothing
  obtain rfl : ps = [] := by
    have hne : vs ≠ [] := Build.ne_nil_of_leavesNode hvariable.derives 1 rfl
    rw [hm] at hchildren
    simp only [List.nil_append, List.append_nil] at hchildren
    cases vs with
    | nil => exact absurd rfl hne
    | cons v vs => exact (List.append_eq_nil_iff.mp (List.cons.inj hchildren).2.symm).2
  obtain rfl : s₆ = s₇ := by
    rcases derives_alt_iff.mp hparameters.derives with hlist | hnothing
    · exact absurd rfl (Build.ne_nil_of_leavesNode hlist 9 rfl)
    · obtain ⟨-, hrun⟩ := derives_lexeme_iff.mp hnothing
      exact Option.some.inj hrun
  obtain rfl : s₆ = s₈ := Option.some.inj ((trivia_run_run hgap₆).symm.trans hgap₈)
  refine ⟨⟨.methodStatement, n.start, n.stop, vs ++ []⟩, .node rfl ?_⟩
  simp only [spaced, trivia, parses_seq_iff, parses_lexeme_iff]
  exact ⟨vs, [], s₃, rfl, hvariable, [], [], s₄, rfl, ⟨rfl, hgap₄⟩, [], [], s₅, rfl,
    ⟨rfl, hopening⟩, [], [], s₆, rfl, ⟨rfl, hgap₆⟩, [], [], s₁, rfl, ⟨rfl, hclosing⟩, [], [], s₂,
    rfl, ⟨rfl, hgap⟩, rfl, hsemicolon⟩

/-- As a statement, a call of a function block has parameters. -/
theorem children_ne_singleton {n c : Node} (h : Justified n) (hn : n.rule = .fbInvocationStatement)
    (hc : c ∈ n.children) (m : Node) : c.children ≠ [m] := by
  intro hm
  have hparses := h.matched.parses
  rw [hn] at hparses
  obtain ⟨k, hk⟩ := method_of_invocation hparses hc hm
  cases hk.unique (h.guarded hn)

end StructuredText.Grammar
