import StructuredText.Proofs.Grammar.Guards
import StructuredText.Proofs.Places.Builders
import StructuredText.Proofs.Positions.Placement

/-!
# Derivations moved to another text

A derivation can be moved to another text, where its cursors have other places. If its tokens are
written there as they were, on the same lines, then what is built of it is the same up to its place.

* `Node.moved` — a node between the places of its cursors.
* `Node.Alike` — the node is on the same line there, and a token has the same text.
* `Build.unplaced_of_element` — what becomes of a node and of the node that was moved.
-/

namespace StructuredText

namespace Grammar

mutual

/-- A node between the places of its cursors. -/
def Node.moved (place : Cursor → Cursor) : Node → Node
  | ⟨r, s, s', ns⟩ => ⟨r, place s, place s', Node.movedEach place ns⟩

def Node.movedEach (place : Cursor → Cursor) : List Node → List Node
  | [] => []
  | n :: ns => n.moved place :: Node.movedEach place ns

end

/-- The result of a match between the places of its cursors. -/
def Expr.resultMoved (place : Cursor → Cursor) :
    Option (List Node × Cursor) → Option (List Node × Cursor) :=
  Option.map fun x => (x.1.map (Node.moved place), place x.2)

theorem Node.movedEach_eq_map (place : Cursor → Cursor) (ns : List Node) :
    Node.movedEach place ns = ns.map (Node.moved place) := by
  induction ns with
  | nil => rfl
  | cons n ns ih => rw [Node.movedEach, ih, List.map_cons]

theorem Node.moved_mk (place : Cursor → Cursor) (r : Rule) (s s' : Cursor) (ns : List Node) :
    Node.moved place ⟨r, s, s', ns⟩ = ⟨r, place s, place s', ns.map (Node.moved place)⟩ := by
  rw [Node.moved, Node.movedEach_eq_map]

@[simp] theorem Node.rule_moved (place : Cursor → Cursor) (n : Node) :
    (n.moved place).rule = n.rule := by
  obtain ⟨r, s, s', ns⟩ := n
  rfl

@[simp] theorem Node.start_moved (place : Cursor → Cursor) (n : Node) :
    (n.moved place).start = place n.start := by
  obtain ⟨r, s, s', ns⟩ := n
  rfl

@[simp] theorem Node.stop_moved (place : Cursor → Cursor) (n : Node) :
    (n.moved place).stop = place n.stop := by
  obtain ⟨r, s, s', ns⟩ := n
  rfl

@[simp] theorem Node.children_moved (place : Cursor → Cursor) (n : Node) :
    (n.moved place).children = n.children.map (Node.moved place) := by
  obtain ⟨r, s, s', ns⟩ := n
  rw [Node.moved_mk]

/-- The node is on the same line in the other text, and if it is a token, then it has the same text
there. -/
structure Node.Alike (lines lines' : LineIndex) (place : Cursor → Cursor) (n : Node) : Prop where
  matched : Matched n
  line : lines'.lineOf (place n.start).offset = lines.lineOf n.start.offset
  text : (∃ p, n.rule.production = .token p) → (n.moved place).text = n.text

end Grammar

namespace Build

open Grammar

variable {place : Cursor → Cursor} {lines lines' : LineIndex} {n : Node} {x x' : Element}

/-- What stands for a node without children is the same. -/
theorem leafToken_moved (hn : n.Alike lines lines' place) (hnil : n.children = [])
    (hduration : n.rule ≠ .duration) (hlist : n.rule ≠ .statementList) :
    leafToken lines' n.rule (n.moved place).start (n.moved place).stop =
      leafToken lines n.rule n.start n.stop := by
  have htoken : ∃ p, n.rule.production = .token p := by
    cases hn.matched with
    | token hr => exact ⟨_, hr⟩
    | node hr hparses =>
        exact absurd hnil (ne_nil_of_node hr hparses.derives hduration hlist)
  have htext := hn.text htoken
  rw [leafToken, leafToken, Node.start_moved, hn.line, ← Node.start_moved place]
  exact congrArg (fun t => Element.token n.rule ⟨t, _⟩) htext

/-- A list of nothing but empty statements is no statement, whatever its text. -/
theorem eq_of_emptyList (hrule : n.rule = .statementList) (hnil : n.children = [])
    (h : element lines n = .ok x) : x = .statements [] := by
  obtain ⟨r, s, s', ns⟩ := n
  obtain rfl : r = .statementList := hrule
  obtain rfl : ns = [] := hnil
  have hgives := statementList_gives
    (c := construct lines .statementList s s' [leafToken lines .statementList s s'])
    (some ⟨s.upTo s', lines.lineOf s.offset⟩) .nil (by simp)
  exact Except.ok.inj (h.symm.trans (element_built_leaf rfl hgives.build))

/-- A duration without parts is not built. -/
theorem not_built_of_emptyDuration (hrule : n.rule = .duration) (hnil : n.children = []) :
    element lines n ≠ .ok x := by
  obtain ⟨r, s, s', ns⟩ := n
  obtain rfl : r = .duration := hrule
  obtain rfl : ns = [] := hnil
  rw [element, elements_nil]
  intro h
  cases h

/-- From children that are alike up to their places, a builder makes what is alike up to its
places. -/
theorem unplaced_of_build {r : Rule} {b : Builder Element} (hb : builder? r = some b)
    {c c' : Children} (hc : c'.unplaced = c.unplaced) (h : b.build c = .ok x)
    (h' : b.build c' = .ok x') : x'.unplaced = x.unplaced := by
  obtain ⟨d, hgives⟩ := exists_gives_of_build h
  obtain ⟨d', hgives'⟩ := exists_gives_of_build h'
  have hbare := oblivious_of_builder hb c x d hgives
  have hbare' := oblivious_of_builder hb c' x' d' hgives'
  rw [hc] at hbare'
  exact (hbare'.unique hbare).1

/-- Constructs on one line are alike if their children are. -/
theorem construct_unplaced {r : Rule} {s s₁ s' s₁' : Cursor} {es es' : List Element}
    (hline : lines'.lineOf s'.offset = lines.lineOf s.offset)
    (hes : es'.map Element.unplaced = es.map Element.unplaced) :
    (construct lines' r s' s₁' es').unplaced = (construct lines r s s₁ es).unplaced := by
  have hlength : es'.length = es.length := by simpa using congrArg List.length hes
  simp only [construct, Children.ofList, Children.unplaced, hline, hes, hlength]

/-- What becomes of the nodes of a row stands in the same order as what becomes of them in the other
text. -/
theorem forall₂_elements {ns : List Node} {es es' : List Element} (hes : elements lines ns = .ok es)
    (hes' : elements lines' (ns.map (Node.moved place)) = .ok es') :
    List.Forall₂ (fun e e' => ∃ m ∈ ns, m.rule.isKeyword = false ∧ element lines m = .ok e ∧
      element lines' (m.moved place) = .ok e') es es' := by
  induction ns generalizing es es' with
  | nil =>
      rw [elements_nil] at hes
      rw [List.map_nil, elements_nil] at hes'
      cases hes
      cases hes'
      exact .nil
  | cons m ns ih =>
      -- A node of the row behind is a node of the whole row.
      have hbehind {fs fs' : List Element} (hfs : elements lines ns = .ok fs)
          (hfs' : elements lines' (ns.map (Node.moved place)) = .ok fs') :
          List.Forall₂ (fun e e' => ∃ k ∈ m :: ns, k.rule.isKeyword = false ∧
            element lines k = .ok e ∧ element lines' (k.moved place) = .ok e') fs fs' := by
        refine (ih hfs hfs').imp ?_
        rintro e e' ⟨k, hk, hrest⟩
        exact ⟨k, List.mem_cons_of_mem m hk, hrest⟩
      rw [elements_cons_eq_ok] at hes
      rw [List.map_cons, elements_cons_eq_ok, Node.rule_moved] at hes'
      split at hes
      · rw [if_pos ‹_›] at hes'
        exact hbehind hes hes'
      · rename_i hkeyword
        rw [if_neg hkeyword] at hes'
        obtain ⟨e, fs, he, hfs, rfl⟩ := hes
        obtain ⟨e', fs', he', hfs', rfl⟩ := hes'
        exact .cons ⟨m, List.mem_cons_self, by simpa using hkeyword, he, he'⟩ (hbehind hfs hfs')

/-- What becomes of a node in the other text is alike, up to its places, to what becomes of it where
it was derived. -/
theorem unplaced_of_element (n : Node) (hn : ∀ k, Within k n → k.Alike lines lines' place)
    {x x' : Element} (h : element lines n = .ok x) (h' : element lines' (n.moved place) = .ok x') :
    x'.unplaced = x.unplaced := by
  obtain ⟨es, hes, hx⟩ := element_cases h
  obtain ⟨es', hes', hx'⟩ := element_cases h'
  rw [Node.children_moved] at hes'
  rw [Node.rule_moved] at hx'
  have hchildren : es'.map Element.unplaced = es.map Element.unplaced := by
    rw [← List.forall₂_eq_eq_eq, List.forall₂_map_left_iff, List.forall₂_map_right_iff]
    refine (forall₂_elements hes hes').flip.imp ?_
    rintro e' e ⟨m, hm, hkeyword, he, he'⟩
    have hlt := sizeOf_lt_of_mem_children hm
    exact unplaced_of_element m (fun k hk => hn k (.child hm hkeyword hk)) he he'
  have hline := (hn n (.self n)).line
  rw [← Node.start_moved place] at hline
  by_cases hlist : n.rule = .statementList ∧ n.children = []
  · obtain ⟨hrule, hnil⟩ := hlist
    rw [eq_of_emptyList hrule hnil h, eq_of_emptyList (by simpa using hrule) (by simp [hnil]) h']
  have hleaf (hnil : n.children = []) := leafToken_moved (hn n (.self n)) hnil
    (fun hrule => not_built_of_emptyDuration hrule hnil h) (fun hrule => hlist ⟨hrule, hnil⟩)
  -- The rule is the same, so both nodes have a handler or neither has one.
  rcases hx with ⟨b, hb, hbuild⟩ | ⟨hb, hx⟩
  · rcases hx' with ⟨b', hb', hbuild'⟩ | ⟨hb', -⟩
    · obtain rfl : b' = b := Option.some.inj (hb'.symm.trans hb)
      refine unplaced_of_build hb ?_ hbuild hbuild'
      rw [received, received, Node.rule_moved, Node.children_moved, List.isEmpty_map]
      refine construct_unplaced hline ?_
      split
      · rw [hleaf (List.isEmpty_iff.mp ‹_›)]
      · exact hchildren
    · cases hb'.symm.trans hb
  · rcases hx' with ⟨b', hb', -⟩ | ⟨-, hx'⟩
    · cases hb.symm.trans hb'
    rcases hx with ⟨hnil, rfl⟩ | ⟨last, hlast, rfl⟩
    · rcases hx' with ⟨-, rfl⟩ | ⟨last', hlast', -⟩
      · rw [hleaf hnil]
      · simp [hnil] at hlast'
    · rcases hx' with ⟨hnil', -⟩ | ⟨last', -, rfl⟩
      · simp only [Node.children_moved, List.map_eq_nil_iff] at hnil'
        simp [hnil'] at hlast
      · simp only [Element.unplaced_raw, RawNode.unplaced, rawNode, hline, hchildren,
          Node.rule_moved]
termination_by sizeOf n

end Build

end StructuredText
