import Mathlib.Data.List.Forall2
import StructuredText.Proofs.Build.Derivation
import StructuredText.Proofs.Grammar.Matching
import StructuredText.Proofs.Grammar.Parses

/-!
# What a text is decoded to

A text is decoded in two steps: an expression of the grammar matches it, and the nodes that it
leaves are built. Both are said here together, for a text in front of another, with one lemma for
each way expressions are put together; so it can be followed part by part what becomes of a text.

* `Expr.Fails` — an expression does not match in front of a text.
* `Expr.Decodes` — an expression reads a text, and its nodes become elements with given properties.
* `Decodes.construct` — a node is built from what its production decodes to.
* `Decodes.exists_node` — running a rule on a text that it decodes.
-/

namespace StructuredText.Grammar

open Build

/-- The node is built, on whatever line, to an element with the property. -/
def Node.Becomes (P : Element → Prop) (n : Node) : Prop :=
  n.rule.isKeyword = false ∧ ∀ lines, ∃ x, element lines n = .ok x ∧ P x

/-- The nodes are built one by one. -/
theorem exists_elements {Ps : List (Element → Prop)} {ns : List Node}
    (h : List.Forall₂ Node.Becomes Ps ns) (lines : LineIndex) :
    ∃ es, elements lines ns = .ok es ∧ List.Forall₂ (fun P x => P x) Ps es := by
  induction h with
  | nil => exact ⟨[], elements_nil, .nil⟩
  | cons hn _ ih =>
      obtain ⟨x, hx, hP⟩ := hn.2 lines
      obtain ⟨es, hes, hPs⟩ := ih
      exact ⟨x :: es, elements_append (elements_one hn.1 hx) hes, .cons hP hPs⟩

namespace Expr

/-- The expression does not match in front of the text. -/
def Fails (e : Expr) (t : Text) : Prop := ∀ offset, e.Parses ⟨offset, t⟩ none

/-- In front of `rest` the expression reads the text, and leaves one node for each property, which
becomes an element with that property. -/
def Decodes (e : Expr) (t rest : Text) (Ps : List (Element → Prop)) : Prop :=
  ∀ offset, ∃ ns, e.Parses ⟨offset, t ++ rest⟩ (some (ns, ⟨offset + t.byteLength, rest⟩)) ∧
    List.Forall₂ Node.Becomes Ps ns

variable {a b e : Expr} {es : List Expr} {p : Pattern} {r : Rule} {t u rest : Text}
  {Ps Qs : List (Element → Prop)} {P : Element → Prop}

/-! ## Failures -/

/-- A pattern that refuses a text makes a mark fail. -/
theorem fails_lexeme (h : p.Refuses t) : (lexeme p).Fails t :=
  fun offset => .lexemeFails (h offset)

/-- A pattern that refuses a text makes a token fail. -/
theorem fails_token (hr : r.production = .token p) (h : p.Refuses t) : (rule r).Fails t :=
  fun offset => .tokenFails hr (h offset)

/-- A rule fails where its body does. -/
theorem Fails.node (hr : r.production = .node e) (h : e.Fails t) : (rule r).Fails t :=
  fun offset => .nodeFails hr (h offset)

theorem Fails.silent (hr : r.production = .silent e) (h : e.Fails t) : (rule r).Fails t :=
  fun offset => .silent hr (h offset)

/-- A sequence fails with its first part. -/
theorem Fails.seq (h : a.Fails t) : (seq a b).Fails t := fun offset => .seqStops (h offset)

/-- A choice fails where both branches do. -/
theorem Fails.alt (ha : a.Fails t) (hb : b.Fails t) : (alt a b).Fails t :=
  fun offset => .right (ha offset) (hb offset)

/-- The second expression fails behind what the first one reads. -/
theorem Decodes.seq_fails (ha : a.Decodes t rest Ps) (hb : b.Fails rest) :
    (seq a b).Fails (t ++ rest) := by
  intro offset
  obtain ⟨ns, hns, -⟩ := ha offset
  exact .seqFails hns (hb _)

/-! ## Matches -/

/-- A mark is read off and decodes to nothing. -/
theorem decodes_lexeme (h : p.Takes t rest) : (lexeme p).Decodes t rest [] :=
  fun offset => ⟨[], .lexeme (h offset), .nil⟩

/-- Two texts in a row decode to what each decodes to. -/
theorem Decodes.seq (ha : a.Decodes t (u ++ rest) Ps) (hb : b.Decodes u rest Qs) :
    (seq a b).Decodes (t ++ u) rest (Ps ++ Qs) := by
  intro offset
  obtain ⟨ns, hns, hPs⟩ := ha offset
  obtain ⟨ms, hms, hQs⟩ := hb (offset + t.byteLength)
  refine ⟨ns ++ ms, ?_, List.rel_append hPs hQs⟩
  rw [List.append_assoc, Text.byteLength_append, ← Nat.add_assoc]
  exact .seq hns hms

/-- The first branch that matches is taken. -/
theorem Decodes.left (ha : a.Decodes t rest Ps) : (alt a b).Decodes t rest Ps := by
  intro offset
  obtain ⟨ns, hns, hPs⟩ := ha offset
  exact ⟨ns, .left hns, hPs⟩

/-- The second branch is taken where the first fails. -/
theorem Decodes.right (hb : b.Decodes t rest Ps) (ha : a.Fails (t ++ rest)) :
    (alt a b).Decodes t rest Ps := by
  intro offset
  obtain ⟨ns, hns, hPs⟩ := hb offset
  exact ⟨ns, .right (ha offset) hns, hPs⟩

/-- Something that may be left out is left out. -/
theorem Fails.opt (h : e.Fails rest) : (opt e).Decodes [] rest [] :=
  (decodes_lexeme Pattern.takes_empty).right h

/-- What is only looked for is not read. -/
theorem Decodes.ahead (h : e.Decodes t rest Ps) : (ahead e).Decodes [] (t ++ rest) [] := by
  intro offset
  obtain ⟨ns, hns, -⟩ := h offset
  exact ⟨[], .ahead hns, .nil⟩

/-- A silent rule decodes as its body. -/
theorem Decodes.silent (hr : r.production = .silent e) (h : e.Decodes t rest Ps) :
    (rule r).Decodes t rest Ps := by
  intro offset
  obtain ⟨ns, hns, hPs⟩ := h offset
  exact ⟨ns, .silent hr hns, hPs⟩

/-- Parts that stand close together, the first in front. -/
theorem Decodes.glued_cons (he : e.Decodes t (u ++ rest) Ps) (hes : (glued es).Decodes u rest Qs) :
    (glued (e :: es)).Decodes (t ++ u) rest (Ps ++ Qs) := by
  cases es with
  | cons e' es => exact he.seq hes
  | nil =>
      obtain ⟨ns, hns, hQs⟩ := hes 0
      cases hns with
      | lexeme hrun =>
          obtain ⟨-, rfl⟩ : 0 = u.byteLength ∧ u = [] := by simpa [Pattern.run] using hrun
          cases hQs
          simpa [glued] using he

/-- The first choice. -/
theorem Decodes.oneOf_head (he : e.Decodes t rest Ps) : (oneOf (e :: es)).Decodes t rest Ps := by
  cases es with
  | nil => exact he
  | cons e' es => exact he.left

/-- A later choice, where the first fails. -/
theorem Decodes.oneOf_tail (hes : (oneOf es).Decodes t rest Ps) (he : e.Fails (t ++ rest)) :
    (oneOf (e :: es)).Decodes t rest Ps := by
  cases es with
  | nil =>
      obtain ⟨ns, hns, -⟩ := hes 0
      cases hns with
      | lexeme hrun => cases hrun
  | cons e' es => exact hes.right he

/-! ## Nodes -/

/-- The token of a rule, with its text. -/
def IsToken (r : Rule) (t : Text) (x : Element) : Prop := ∃ line, x = .token r ⟨t, line⟩

/-- A literal that is equal to `l`. -/
def IsLiteral (l : Literal) (x : Element) : Prop := ∃ l', x = .literal l' ∧ (l' == l) = true

/-- What a raw node was made of. -/
def IsRaw (r : Rule) (Ps : List (Element → Prop)) (x : Element) : Prop :=
  ∃ n : RawNode Element, x = .raw n ∧ n.rule = r ∧ List.Forall₂ (fun P x => P x) Ps n.children

/-- The first element is the token that its property asks for. -/
theorem exists_token {xs : List Element}
    (h : List.Forall₂ (fun P x => P x) (IsToken r t :: Ps) xs) :
    ∃ line ys, xs = .token r ⟨t, line⟩ :: ys ∧ List.Forall₂ (fun P x => P x) Ps ys := by
  cases h with
  | cons hx hys =>
      obtain ⟨line, rfl⟩ := hx
      exact ⟨line, _, rfl, hys⟩

variable {b : Builder Element}

/-- The token of a text that was just read. -/
theorem leafToken_eq (lines : LineIndex) (r : Rule) (t rest : Text) (offset : Nat) :
    leafToken lines r ⟨offset, t ++ rest⟩ ⟨offset + t.byteLength, rest⟩ =
      .token r ⟨t, lines.lineOf offset⟩ := by
  have hreads : Cursor.Reads ⟨offset, t ++ rest⟩ t ⟨offset + t.byteLength, rest⟩ := ⟨rfl, rfl⟩
  rw [leafToken, hreads.upTo]

/-- A token without a handler of its own decodes to its text. -/
theorem decodes_token (hr : r.production = .token p) (hb : builder? r = none)
    (hk : r.isKeyword = false) (h : p.Takes t rest) : (rule r).Decodes t rest [IsToken r t] := by
  intro offset
  refine ⟨_, .token hr (h offset), .cons ⟨hk, fun lines => ?_⟩ .nil⟩
  refine ⟨_, element_leaf hb, lines.lineOf offset, ?_⟩
  exact leafToken_eq lines r t rest offset

/-- A token that is built right away. -/
theorem decodes_builtToken (hr : r.production = .token p) (hb : builder? r = some b)
    (hk : r.isKeyword = false) (h : p.Takes t rest)
    (hbuild : ∀ line c, ∃ x, b.Gives (Children.holding c [.token r ⟨t, line⟩]) x (c.holding []) ∧
      P x) : (rule r).Decodes t rest [P] := by
  intro offset
  refine ⟨_, .token hr (h offset), .cons ⟨hk, fun lines => ?_⟩ .nil⟩
  obtain ⟨x, hx, hP⟩ := hbuild (lines.lineOf offset)
    (construct lines r ⟨offset, t ++ rest⟩ ⟨offset + t.byteLength, rest⟩
      [.token r ⟨t, lines.lineOf offset⟩])
  refine ⟨x, element_built_leaf hb ?_, hP⟩
  rw [leafToken_eq]
  exact hx.build

/-- A construct is built from what becomes of its nodes. -/
theorem becomes_of_builder (hb : builder? r = some b) (hk : r.isKeyword = false) {s s' : Cursor}
    {ns : List Node} (hns : List.Forall₂ Node.Becomes Ps ns) (hne : Ps ≠ [])
    (hbuild : ∀ es, List.Forall₂ (fun P x => P x) Ps es →
      ∀ c, ∃ x, b.Gives (Children.holding c es) x (c.holding []) ∧ P x) :
    Node.Becomes P ⟨r, s, s', ns⟩ := by
  refine ⟨hk, fun lines => ?_⟩
  obtain ⟨es, hes, hPs⟩ := exists_elements hns lines
  obtain ⟨x, hx, hP⟩ := hbuild es hPs (Build.construct lines r s s' es)
  refine ⟨x, element_built hb ?_ hes hx.build, hP⟩
  rintro rfl
  cases hns
  exact hne rfl

/-- A construct is built from what its production decodes to. -/
theorem Decodes.construct (hr : r.production = .node e) (hb : builder? r = some b)
    (hk : r.isKeyword = false) (h : e.Decodes t rest Ps) (hne : Ps ≠ [])
    (hbuild : ∀ es, List.Forall₂ (fun P x => P x) Ps es →
      ∀ c, ∃ x, b.Gives (Children.holding c es) x (c.holding []) ∧ P x) :
    (rule r).Decodes t rest [P] := by
  intro offset
  obtain ⟨ns, hns, hPs⟩ := h offset
  exact ⟨_, .node hr hns, .cons (becomes_of_builder hb hk hPs hne hbuild) .nil⟩

/-- A construct without a builder is raw. -/
theorem Decodes.raw (hr : r.production = .node e) (hb : builder? r = none)
    (hk : r.isKeyword = false) (h : e.Decodes t rest Ps) (hne : Ps ≠ []) :
    (rule r).Decodes t rest [IsRaw r Ps] := by
  intro offset
  obtain ⟨ns, hns, hPs⟩ := h offset
  refine ⟨_, .node hr hns, .cons ⟨hk, fun lines => ?_⟩ .nil⟩
  obtain ⟨es, hes, hPs'⟩ := exists_elements hPs lines
  have hne' : ns ≠ [] := by
    rintro rfl
    cases hPs
    exact hne rfl
  obtain ⟨n, hn, hrule, rfl⟩ := element_raw ⟨offset, t ++ rest⟩ ⟨offset + t.byteLength, rest⟩ hb
    hne' hes
  exact ⟨_, hn, n, rfl, hrule, hPs'⟩

/-- A text that a rule reads by itself has one node, which becomes an element with the property. -/
theorem Decodes.exists_node (h : (rule r).Decodes t [] [P]) :
    ∃ node, derive r t = .matched [node] ⟨t.byteLength, []⟩ ∧
      ∀ lines, ∃ x, element lines node = .ok x ∧ P x := by
  obtain ⟨ns, hparses, hnodes⟩ := h 0
  obtain ⟨node, rfl, hnode⟩ : ∃ node, ns = [node] ∧ node.Becomes P := by
    cases hnodes with
    | cons hnode hnil =>
        cases hnil
        exact ⟨_, rfl, hnode⟩
  refine ⟨node, derive_of_parses ?_, hnode.2⟩
  simpa [Text.cursor] using hparses

end Expr

end StructuredText.Grammar
