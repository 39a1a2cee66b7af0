import StructuredText.Build.Tree
import StructuredText.Proofs.Build.Accepts
import StructuredText.Proofs.Grammar.Stranding

/-!
# Every derivation is built

By induction on a derivation: the nodes it leaves become elements, in a row that the expression can
leave. The one way to fail, a duration without a part, ends in front of a digit, where nothing goes
on reading.

* `Expr.Derives.builds` — the nodes of a derivation are built, or it is stranded.
* `sourceFile_of_derives` — a whole file is built.
-/

namespace StructuredText.Build

open Grammar Expr

variable {lines : LineIndex} {r : Rule} {s s' : Cursor} {ns : List Node}

/-! ## The elements of nodes -/

theorem elements_nil : elements lines [] = .ok [] := by
  rw [elements]
  rfl

/-- A keyword is passed over; any other node adds its element. -/
theorem elements_cons_eq_ok {n : Node} {es : List Element} :
    elements lines (n :: ns) = .ok es ↔
      if n.rule.isKeyword then elements lines ns = .ok es
      else ∃ e fs, element lines n = .ok e ∧ elements lines ns = .ok fs ∧ es = e :: fs := by
  rw [elements]
  cases hn : n.rule.isKeyword with
  | true => simp
  | false =>
      simp only [Bool.false_eq_true, if_false]
      cases he : element lines n with
      | error x => simp [bind, Except.bind]
      | ok e =>
          cases hns : elements lines ns with
          | error x => simp [bind, Except.bind]
          | ok fs => simp [bind, Except.bind, pure, Except.pure, eq_comm]

theorem elements_append {ms : List Node} {es fs : List Element} (hns : elements lines ns = .ok es)
    (hms : elements lines ms = .ok fs) : elements lines (ns ++ ms) = .ok (es ++ fs) := by
  induction ns generalizing es with
  | nil =>
      rw [elements_nil] at hns
      cases hns
      exact hms
  | cons n ns ih =>
      rw [List.cons_append, elements_cons_eq_ok]
      rw [elements_cons_eq_ok] at hns
      cases hn : n.rule.isKeyword with
      | true =>
          simp only [hn, if_true] at hns ⊢
          exact ih hns
      | false =>
          simp only [hn, Bool.false_eq_true, if_false] at hns ⊢
          obtain ⟨e, gs, he, hgs, rfl⟩ := hns
          exact ⟨e, gs ++ fs, he, ih hgs, rfl⟩

/-- A node by itself. -/
theorem elements_one {n : Node} (hn : n.rule.isKeyword = false) {e : Element}
    (he : element lines n = .ok e) : elements lines [n] = .ok [e] := by
  rw [elements_cons_eq_ok, if_neg (by simp [hn])]
  exact ⟨e, [], he, elements_nil, rfl⟩

/-- The token of a node without children. -/
def leafToken (lines : LineIndex) (r : Rule) (s s' : Cursor) : Element :=
  .token r ⟨s.upTo s', lines.lineOf s.offset⟩

/-- The construct of a node, before its children are given. -/
def construct (lines : LineIndex) (r : Rule) (s s' : Cursor) (received : List Element) : Children :=
  .ofList r (lines.lineOf s.offset) ⟨s.offset, s'.offset⟩ received

/-- A node without children and without a builder is its token. -/
theorem element_leaf (hb : builder? r = none) :
    element lines ⟨r, s, s', []⟩ = .ok (leafToken lines r s s') := by
  rw [element, elements_nil]
  simp only [List.getLast?_nil, hb]
  rfl

/-- A node without children is built from its token. -/
theorem element_built_leaf {b : Builder Element} (hb : builder? r = some b) {x : Element}
    (hx : b.build (construct lines r s s' [leafToken lines r s s']) = .ok x) :
    element lines ⟨r, s, s', []⟩ = .ok x := by
  rw [element, elements_nil]
  simp only [List.getLast?_nil, hb]
  exact hx

/-- A node with children is built from their elements. -/
theorem element_built {b : Builder Element} (hb : builder? r = some b) (hne : ns ≠ [])
    {es : List Element} (hes : elements lines ns = .ok es) {x : Element}
    (hx : b.build (construct lines r s s' es) = .ok x) :
    element lines ⟨r, s, s', ns⟩ = .ok x := by
  obtain ⟨last, hlast⟩ : ∃ last, ns.getLast? = some last :=
    ⟨_, List.getLast?_eq_some_getLast hne⟩
  rw [element, hes]
  simp only [hlast, hb]
  exact hx

/-- A node with children and without a builder is raw. -/
theorem element_raw (s s' : Cursor) (hb : builder? r = none) (hne : ns ≠ []) {es : List Element}
    (hes : elements lines ns = .ok es) :
    ∃ n : RawNode Element, element lines ⟨r, s, s', ns⟩ = .ok (.raw n) ∧ n.rule = r ∧
      n.children = es := by
  obtain ⟨last, hlast⟩ : ∃ last, ns.getLast? = some last :=
    ⟨_, List.getLast?_eq_some_getLast hne⟩
  rw [element, hes]
  simp only [hlast, hb]
  exact ⟨_, rfl, rfl, rfl⟩

/-- What the builder of a node receives: the elements of its children, or its token if it has no
children. -/
def received (lines : LineIndex) (n : Node) (es : List Element) : Children :=
  construct lines n.rule n.start n.stop
    (if n.children.isEmpty then [leafToken lines n.rule n.start n.stop] else es)

/-- The raw node of a node whose children end with the given one. -/
def rawNode (lines : LineIndex) (n last : Node) (es : List Element) : RawNode Element :=
  let own := ownEnd n.text n.start.offset last.stop.offset
  { rule := n.rule, line := lines.lineOf n.start.offset, children := es
    span := ⟨n.start.offset, own⟩
    text := (n.text.takeBytes? (own - n.start.offset)).getD [] }

/-- What becomes of a node: it is built, or where its rule has no builder, it is a token if it has no
children, and raw if it has some. -/
theorem element_cases {n : Node} {x : Element} (h : element lines n = .ok x) :
    ∃ es, elements lines n.children = .ok es ∧
      ((∃ b, builder? n.rule = some b ∧ b.build (received lines n es) = .ok x) ∨
        builder? n.rule = none ∧
          (n.children = [] ∧ x = leafToken lines n.rule n.start n.stop ∨
            ∃ last, n.children.getLast? = some last ∧ x = .raw (rawNode lines n last es))) := by
  obtain ⟨rule, start, stop, children⟩ := n
  rw [element] at h
  cases hes : elements lines children with
  | error e => simp [hes, bind, Except.bind] at h
  | ok es =>
      refine ⟨es, rfl, ?_⟩
      rw [hes] at h
      -- A node without children is built of the token of its own text, so the last child tells
      -- which of the two cases it is.
      cases hlast : children.getLast? with
      | none =>
          obtain rfl := List.getLast?_eq_none_iff.mp hlast
          cases hb : builder? rule with
          | none =>
              simp only [hb, List.getLast?_nil] at h
              cases h
              exact .inr ⟨rfl, .inl ⟨rfl, rfl⟩⟩
          | some b =>
              simp only [hb, List.getLast?_nil] at h
              exact .inl ⟨b, rfl, h⟩
      | some last =>
          cases hb : builder? rule with
          | none =>
              simp only [hb, hlast] at h
              cases h
              exact .inr ⟨rfl, .inr ⟨last, rfl, rfl⟩⟩
          | some b =>
              simp only [hb, hlast] at h
              have hne : children.isEmpty = false := by
                cases children with
                | nil => cases hlast
                | cons => rfl
              refine .inl ⟨b, rfl, ?_⟩
              simp only [received, hne, Bool.false_eq_true, if_false]
              exact h

/-! ## Nodes that are left -/

/-- Every match of the expression leaves a node, as far as calls nested `depth` deep tell. -/
def leavesNode (ofRule : Rule → Bool) : Expr → Bool
  | .lexeme _ | .ahead _ | .star _ => false
  | .rule r => ofRule r
  | .seq a b => leavesNode ofRule a || leavesNode ofRule b
  | .alt a b => leavesNode ofRule a && leavesNode ofRule b

/-- Every match of the rule leaves a node, as far as calls nested `depth` deep tell. -/
def ruleLeavesNode : (depth : Nat) → Rule → Bool
  | 0, _ => false
  | depth + 1, r =>
    match r.production with
    | .token _ | .node _ => true
    | .silent e => leavesNode (ruleLeavesNode depth) e

theorem ne_nil_of_leavesNode {e : Expr} (h : e.Derives s ns s') (depth : Nat)
    (hv : leavesNode (ruleLeavesNode depth) e = true) : ns ≠ [] := by
  -- The check looks into silent rules up to a depth, so the depth shrinks where the derivation goes
  -- into one.
  induction h generalizing depth with
  | lexeme | done | round | ahead => simp [leavesNode] at hv
  | token | node => simp
  | silent hr _ ih =>
      cases depth with
      | zero => simp [leavesNode, ruleLeavesNode] at hv
      | succ depth =>
          simp only [leavesNode, ruleLeavesNode, hr] at hv
          exact ih depth hv
  | seq _ _ iha ihb =>
      simp only [leavesNode, Bool.or_eq_true] at hv
      rcases hv with hv | hv
      · simp [iha depth hv]
      · simp [ihb depth hv]
  | left _ ih =>
      simp only [leavesNode, Bool.and_eq_true] at hv
      exact ih depth hv.1
  | right _ ih =>
      simp only [leavesNode, Bool.and_eq_true] at hv
      exact ih depth hv.2

/-- Only a duration and a list of statements can be matched without leaving a node inside. -/
theorem ne_nil_of_node {e : Expr} (hr : r.production = .node e) (h : e.Derives s ns s')
    (hduration : r ≠ .duration) (hlist : r ≠ .statementList) : ns ≠ [] := by
  have hall : (Rule.inOrder.all fun r =>
      match r.production with
      | .node e => leavesNode (ruleLeavesNode 9) e || r == .duration || r == .statementList
      | _ => true) = true := by
    decide +kernel
  have hv := Rule.of_all hall r
  simp only [hr, Bool.or_eq_true, beq_iff_eq, hduration, hlist, or_false] at hv
  exact ne_nil_of_leavesNode h 9 hv

/-- An optional node that was left out reads nothing. -/
theorem stays_of_opt {e : Expr} (hr : r.production = .node e) (h : (opt r).Derives s [] s') :
    s' = s := by
  rcases derives_alt_iff.mp h with h | h
  · simp [derives_rule_iff, hr] at h
  · obtain ⟨-, h⟩ := derives_lexeme_iff.mp h
    exact (Option.some.inj h).symm

theorem derives_seq_nil_iff {a b : Expr} :
    (seq a b).Derives s [] s' ↔ ∃ s₁, a.Derives s [] s₁ ∧ b.Derives s₁ [] s' := by
  rw [derives_seq_iff]
  constructor
  · rintro ⟨ms, ls, s₁, hnil, ha, hb⟩
    obtain ⟨rfl, rfl⟩ := List.nil_eq_append_iff.mp hnil
    exact ⟨s₁, ha, hb⟩
  · rintro ⟨s₁, ha, hb⟩
    exact ⟨[], [], s₁, rfl, ha, hb⟩

/-- A duration that leaves no node stops in front of a digit. -/
theorem at_digit_of_duration {e : Expr} (hr : Rule.production .duration = .node e)
    (h : e.Derives s [] s') : s'.At decimalDigits := by
  cases hr
  simp only [glued, derives_seq_nil_iff] at h
  obtain ⟨_, -, _, -, _, hdigit, _, hd, _, hh, _, hm, _, hs, hms⟩ := h
  obtain ⟨-, rfl, _, s₈, hdigit⟩ := derives_ahead_iff.mp hdigit
  obtain rfl := stays_of_opt rfl hd
  obtain rfl := stays_of_opt rfl hh
  obtain rfl := stays_of_opt rfl hm
  obtain rfl := stays_of_opt rfl hs
  obtain rfl := stays_of_opt rfl hms
  obtain ⟨-, hrun⟩ := derives_lexeme_iff.mp hdigit
  obtain ⟨t, hreads, c, hc, rfl⟩ := Pattern.run_spells hrun
  exact ⟨c, mem_decimalDigits hc, by rw [hreads.rest]; rfl⟩

/-! ## The induction -/

/-- The nodes of a derivation of an expression are built, or it is stranded in front of a digit. -/
def Built (lines : LineIndex) (e : Expr) (ns : List Node) (s' : Cursor) : Prop :=
  (e.strands = true ∧ s'.At decimalDigits) ∨ ∃ es, elements lines ns = .ok es ∧ e.Leaves es

/-- Nothing goes on behind a stranded part, except for parts that read nothing. -/
theorem built_seq {a b : Expr} {ms : List Node} {s₁ : Cursor} (hb : b.Derives s₁ ms s')
    (hopens : a.strands = true → b.atDigit ≠ .opens) (iha : Built lines a ns s₁)
    (ihb : Built lines b ms s') : Built lines (.seq a b) (ns ++ ms) s' := by
  -- A stranded first part is in front of a digit, and there the second part reads nothing.
  rcases iha with ⟨hstrands, hat⟩ | ⟨es, hes, hleaves⟩
  · left
    have hallows : b.atDigit.Allows s₁ s' := hb.respects hat 14
    cases hx : b.atDigit with
    | blocks =>
        rw [hx] at hallows
        exact hallows.elim
    | opens => exact absurd hx (hopens hstrands)
    | passes =>
        rw [hx] at hallows
        obtain rfl : s' = s₁ := hallows
        exact ⟨by simp [strands, hstrands, hx], hat⟩
  · rcases ihb with ⟨hstrands, hat⟩ | ⟨fs, hfs, hleaves'⟩
    · left
      exact ⟨by simp [strands, hstrands], hat⟩
    · right
      exact ⟨es ++ fs, elements_append hes hfs, es, fs, hleaves, hleaves', rfl⟩

theorem built_round {a : Expr} {ms : List Node} {s₁ : Cursor} (hs : (star a).Derives s₁ ms s')
    (hopens : a.strands = true → a.atDigit ≠ .opens) (iha : Built lines a ns s₁)
    (ihs : Built lines (.star a) ms s') : Built lines (.star a) (ns ++ ms) s' := by
  -- After a stranded round no further round reads anything, so the whole repetition is stranded.
  rcases iha with ⟨hstrands, hat⟩ | ⟨es, hes, hleaves⟩
  · left
    have hallows : a.atDigit.maybe.Allows s₁ s' := hs.respects hat 14
    have hstays : s' = s₁ := by
      cases hx : a.atDigit with
      | opens => exact absurd hx (hopens hstrands)
      | blocks | passes =>
          rw [hx] at hallows
          exact hallows
    rw [hstays]
    exact ⟨hstrands, hat⟩
  · rcases ihs with ⟨hstrands, hat⟩ | ⟨fs, hfs, rows, hrows, rfl⟩
    · left
      exact ⟨hstrands, hat⟩
    · right
      refine ⟨es ++ rows.flatten, elements_append hes hfs, es :: rows, ?_, rfl⟩
      intro xs hxs
      rcases List.mem_cons.mp hxs with rfl | hxs
      · exact hleaves
      · exact hrows xs hxs

/-- A rule that leaves a node leaves what it makes. -/
theorem leaves_of_makes (hr : ∀ e, r.production ≠ .silent e) (hkeyword : r.isKeyword = false)
    {x : Element} (h : r.Makes x) : r.Leaves [x] := by
  cases r
  all_goals first | exact ⟨x, rfl, h⟩ | (cases hkeyword; done) | exact absurd rfl (hr _)

/-- A token becomes what the table says of its rule. -/
theorem built_token {p : Pattern} (hr : r.production = .token p) (h : p.run s = some s') :
    ∃ es, elements lines [⟨r, s, s', []⟩] = .ok es ∧ r.Leaves es := by
  obtain ⟨t, hreads, hspells⟩ := Pattern.run_spells h
  have htext : p.Spells (s.upTo s') := by rwa [hreads.upTo]
  -- Keywords leave no element; all other tokens leave one.
  cases hkeyword : r.isKeyword with
  | true =>
      refine ⟨[], ?_, ?_⟩
      · rw [elements_cons_eq_ok, if_pos hkeyword]
        exact elements_nil
      · cases r <;> first | rfl | cases hkeyword
  | false =>
      have hmakes : ∃ x, element lines ⟨r, s, s', []⟩ = .ok x ∧ r.Makes x := by
        cases hb : builder? r with
        | none => exact ⟨_, element_leaf hb, makes_of_token hb hr hkeyword htext⟩
        | some b =>
            obtain ⟨x, c', hgives, hx⟩ := acceptsToken r b p
              ⟨s.upTo s', lines.lineOf s.offset⟩ (construct lines r s s' [leafToken lines r s s'])
              hb hr htext
            exact ⟨x, element_built_leaf hb hgives.build, hx⟩
      obtain ⟨x, hx, hmakes⟩ := hmakes
      exact ⟨[x], elements_one hkeyword hx, leaves_of_makes (by simp [hr]) hkeyword hmakes⟩

/-- All rules that the expression calls leave nodes, and are no keywords. -/
def callsNodes : Expr → Bool
  | .lexeme _ | .ahead _ => true
  | .rule r => !r.isKeyword && match r.production with | .silent _ => false | _ => true
  | .seq a b | .alt a b => callsNodes a && callsNodes b
  | .star a => callsNodes a

theorem not_keyword_of_callsNodes {e : Expr} (h : e.Derives s ns s') (hc : callsNodes e = true) :
    ∀ n ∈ ns, n.rule.isKeyword = false := by
  -- The nodes on the top level are made by the tokens and nodes that the expression calls.
  induction h with
  | lexeme | done | ahead => simp
  | token hr | node hr =>
      simp only [callsNodes, Bool.and_eq_true, Bool.not_eq_true'] at hc
      simpa using hc.1
  | silent hr => simp [callsNodes, hr] at hc
  | left _ ih =>
      simp only [callsNodes, Bool.and_eq_true] at hc
      exact ih hc.1
  | right _ ih =>
      simp only [callsNodes, Bool.and_eq_true] at hc
      exact ih hc.2
  | seq _ _ iha ihb =>
      simp only [callsNodes, Bool.and_eq_true] at hc
      intro n hn
      rcases List.mem_append.mp hn with hn | hn
      · exact iha hc.1 n hn
      · exact ihb hc.2 n hn
  | round _ _ iha ihs =>
      intro n hn
      rcases List.mem_append.mp hn with hn | hn
      · exact iha hc n hn
      · exact ihs hc n hn

/-- A duration that leaves a node has a part. -/
theorem parts_of_duration {e : Expr} (hr : Rule.production .duration = .node e)
    (h : e.Derives s ns s') (hne : ns ≠ []) {es : List Element}
    (hes : elements lines ns = .ok es) : es ≠ [] := by
  cases hr
  rintro rfl
  have hnodes := not_keyword_of_callsNodes h rfl
  cases ns with
  | nil => exact hne rfl
  | cons n ns =>
      rw [elements_cons_eq_ok, if_neg (by simp [hnodes n (by simp)])] at hes
      obtain ⟨e, fs, -, -, hnil⟩ := hes
      cases hnil

/-- A node with children becomes what the table says of its rule. -/
theorem makes_of_node {e : Expr} (hr : r.production = .node e) (h : e.Derives s ns s')
    (hne : ns ≠ []) {es : List Element} (hes : elements lines ns = .ok es) (hleaves : e.Leaves es) :
    ∃ x, element lines ⟨r, s, s', ns⟩ = .ok x ∧ r.Makes x := by
  cases hb : builder? r with
  | none =>
      obtain ⟨n, hn, hrule, hchildren⟩ := element_raw s s' hb hne hes
      exact ⟨_, hn, makes_of_raw hb hr hleaves hrule hchildren⟩
  | some b =>
      obtain ⟨x, c', hgives, hx⟩ := accepts r b e es (construct lines r s s' es) hb hr hleaves rfl
        (by rintro rfl; exact parts_of_duration hr h hne hes)
      exact ⟨x, element_built hb hne hes hgives.build, hx⟩

/-- A node becomes what the table says of its rule, unless it is a duration without a part. -/
theorem built_node {e : Expr} (hr : r.production = .node e) (h : e.Derives s ns s')
    (ih : Built lines e ns s') : Built lines (.rule r) [⟨r, s, s', ns⟩] s' := by
  have hkeyword : r.isKeyword = false := by
    cases r <;> first | rfl | cases hr
  have hmade : ∀ x, element lines ⟨r, s, s', ns⟩ = .ok x → r.Makes x →
      Built lines (.rule r) [⟨r, s, s', ns⟩] s' := fun x hx hmakes =>
    .inr ⟨[x], elements_one hkeyword hx, leaves_of_makes (by simp [hr]) hkeyword hmakes⟩
  rcases ih with ⟨hstrands, hat⟩ | ⟨es, hes, hleaves⟩
  · left
    exact ⟨r.strands_of_production (by rw [hr]; exact hstrands), hat⟩
  -- Only a duration and a list of statements can be without a part, and an empty list of statements
  -- is built all the same.
  · by_cases hnil : ns = []
    · subst hnil
      by_cases hduration : r = .duration
      · subst hduration
        exact .inl ⟨rfl, at_digit_of_duration hr h⟩
      · by_cases hlist : r = .statementList
        · subst hlist
          have hgives := statementList_gives
            (c := construct lines .statementList s s' [leafToken lines .statementList s s'])
            (some ⟨s.upTo s', lines.lineOf s.offset⟩) .nil (by simp)
          exact hmade _ (element_built_leaf rfl hgives.build) ⟨_, rfl⟩
        · exact absurd rfl (ne_nil_of_node hr h hduration hlist)
    · obtain ⟨x, hx, hmakes⟩ := makes_of_node hr h hnil hes hleaves
      exact hmade x hx hmakes

/-- The nodes of a derivation are built, or it is stranded in front of a digit. -/
theorem built_of_derives {e : Expr} (h : e.Derives s ns s') (hc : e.contained = true) :
    Built lines e ns s' := by
  have hnil : elements lines [] = .ok [] := elements_nil
  -- Being stranded passes through rules and choices; only a sequence and a repetition look at what
  -- comes behind.
  induction h with
  | lexeme => exact .inr ⟨[], hnil, rfl⟩
  | token hr h => exact .inr (built_token hr h)
  | @node r _ _ _ _ hr h ih =>
      have hbody := r.contained
      rw [hr] at hbody
      exact built_node hr h (ih hbody)
  | @silent r _ _ _ _ hr h ih =>
      have hbody := r.contained
      rw [hr] at hbody
      rcases ih hbody with ⟨hstrands, hat⟩ | ⟨es, hes, hleaves⟩
      · exact .inl ⟨r.strands_of_production (by rw [hr]; exact hstrands), hat⟩
      · exact .inr ⟨es, hes, leaves_of_silent hr hleaves⟩
  | seq _ hb iha ihb =>
      simp only [contained, Bool.and_eq_true, Bool.or_eq_true, Bool.not_eq_true', bne_iff_ne] at hc
      exact built_seq hb (fun hs => by simpa [hs] using hc.2) (iha hc.1.1) (ihb hc.1.2)
  | left _ ih =>
      simp only [contained, Bool.and_eq_true] at hc
      rcases ih hc.1 with ⟨hstrands, hat⟩ | ⟨es, hes, hleaves⟩
      · exact .inl ⟨by simp [strands, hstrands], hat⟩
      · exact .inr ⟨es, hes, .inl hleaves⟩
  | right _ ih =>
      simp only [contained, Bool.and_eq_true] at hc
      rcases ih hc.2 with ⟨hstrands, hat⟩ | ⟨es, hes, hleaves⟩
      · exact .inl ⟨by simp [strands, hstrands], hat⟩
      · exact .inr ⟨es, hes, .inr hleaves⟩
  | done => exact .inr ⟨[], hnil, [], by simp, rfl⟩
  | round _ hs iha ihs =>
      have hparts := hc
      simp only [contained, Bool.and_eq_true, Bool.or_eq_true, Bool.not_eq_true', bne_iff_ne] at hparts
      exact built_round hs (fun hstrands => by simpa [hstrands] using hparts.2) (iha hparts.1)
        (ihs hc)
  | ahead => exact .inr ⟨[], hnil, rfl⟩

/-- A whole file is never stranded: its one node becomes the tree of a file. -/
theorem sourceFile_of_derives (h : (rule .iecSource).Derives s ns s') :
    ∃ root f, ns = [root] ∧ sourceFile lines root = .ok f := by
  have hbuilt : Built lines (.rule .iecSource) ns s' := built_of_derives h rfl
  rcases hbuilt with ⟨hstrands, -⟩ | ⟨es, hes, x, rfl, f, rfl⟩
  · cases hstrands
  · obtain ⟨ms, hms, rfl⟩ := derives_rule_iff.mp h
    refine ⟨_, f, rfl, ?_⟩
    have hroot : element lines ⟨.iecSource, s, s', ms⟩ = .ok (.file f) := by
      rw [elements_cons_eq_ok, if_neg (by simp [Rule.isKeyword])] at hes
      obtain ⟨e, fs, he, -, heq⟩ := hes
      rw [he, (List.cons.inj heq).1]
    rw [sourceFile, hroot]
    rfl

/-! ## The constructs of a file -/

/-- A node stands in another: it is the node itself, or it stands in one of its children that is no
keyword. -/
inductive Within : Node → Node → Prop where
  | self (n : Node) : Within n n
  | child {k m n : Node} (hm : m ∈ n.children) (hkeyword : m.rule.isKeyword = false)
      (h : Within k m) : Within k n

theorem element_of_mem {m : Node} (hm : m ∈ ns) (hkeyword : m.rule.isKeyword = false)
    {es : List Element} (hes : elements lines ns = .ok es) : ∃ x, element lines m = .ok x := by
  induction ns generalizing es with
  | nil => cases hm
  | cons n ns ih =>
      rw [elements_cons_eq_ok] at hes
      rcases List.mem_cons.mp hm with rfl | hm
      · rw [if_neg (by simp [hkeyword])] at hes
        obtain ⟨e, -, he, -⟩ := hes
        exact ⟨e, he⟩
      · split at hes
        · exact ih hm hes
        · obtain ⟨-, fs, -, hfs, -⟩ := hes
          exact ih hm hfs

/-- Where a node is built, everything in it is. -/
theorem element_of_within {k n : Node} (h : Within k n) {x : Element}
    (hx : element lines n = .ok x) : ∃ y, element lines k = .ok y := by
  induction h generalizing x with
  | self => exact ⟨x, hx⟩
  | child hm hkeyword _ ih =>
      obtain ⟨es, hes, -⟩ := element_cases hx
      obtain ⟨y, hy⟩ := element_of_mem hm hkeyword hes
      exact ih hy

end StructuredText.Build
