import StructuredText.Proofs.Grammar.Depth

/-!
# What a search decides

A derivation says what can be matched, but not that it is what the search finds: the search takes the
second alternative of a choice only where the first one fails, and goes on with a repetition as long
as it can. `Expr.Parses` is the search without its bounds: an expression matches at a cursor, or it
fails there, and it never does both.

* `Expr.Parses` — an expression matches or fails at a cursor.
* `Expr.Parses.unique` — there is one result at most.
* `Rule.search_parses`, `derive_parses` — a search that is not cut short finds this result.
* `Rule.exists_parses` — there is one for every rule.
* `Expr.Parses.derives` — a match is a derivation.
* `Expr.parses_seq_iff`, `Expr.parses_node_iff` — a match taken apart.
* `Expr.Tries` — the rules that are tried on the way, and where.
-/

namespace StructuredText.Grammar

/-- At a cursor the expression matches, leaves nodes and reaches a cursor, or it fails. -/
inductive Expr.Parses : Expr → Cursor → Option (List Node × Cursor) → Prop where
  | lexeme {p : Pattern} {s s' : Cursor} (h : p.run s = some s') :
      Parses (.lexeme p) s (some ([], s'))
  | lexemeFails {p : Pattern} {s : Cursor} (h : p.run s = none) : Parses (.lexeme p) s none
  | token {r : Rule} {p : Pattern} {s s' : Cursor} (hr : r.production = .token p)
      (h : p.run s = some s') : Parses (.rule r) s (some ([⟨r, s, s', []⟩], s'))
  | tokenFails {r : Rule} {p : Pattern} {s : Cursor} (hr : r.production = .token p)
      (h : p.run s = none) : Parses (.rule r) s none
  | node {r : Rule} {e : Expr} {ns : List Node} {s s' : Cursor} (hr : r.production = .node e)
      (h : Parses e s (some (ns, s'))) : Parses (.rule r) s (some ([⟨r, s, s', ns⟩], s'))
  | nodeFails {r : Rule} {e : Expr} {s : Cursor} (hr : r.production = .node e)
      (h : Parses e s none) : Parses (.rule r) s none
  | silent {r : Rule} {e : Expr} {s : Cursor} {o : Option (List Node × Cursor)}
      (hr : r.production = .silent e) (h : Parses e s o) : Parses (.rule r) s o
  | seq {a b : Expr} {ns ms : List Node} {s s₁ s' : Cursor} (ha : Parses a s (some (ns, s₁)))
      (hb : Parses b s₁ (some (ms, s'))) : Parses (.seq a b) s (some (ns ++ ms, s'))
  | seqStops {a b : Expr} {s : Cursor} (ha : Parses a s none) : Parses (.seq a b) s none
  | seqFails {a b : Expr} {ns : List Node} {s s₁ : Cursor} (ha : Parses a s (some (ns, s₁)))
      (hb : Parses b s₁ none) : Parses (.seq a b) s none
  | left {a b : Expr} {s : Cursor} {x : List Node × Cursor} (ha : Parses a s (some x)) :
      Parses (.alt a b) s (some x)
  | right {a b : Expr} {s : Cursor} {o : Option (List Node × Cursor)} (ha : Parses a s none)
      (hb : Parses b s o) : Parses (.alt a b) s o
  | done {a : Expr} {s : Cursor} (ha : Parses a s none) : Parses (.star a) s (some ([], s))
  | round {a : Expr} {ns ms : List Node} {s s₁ s' : Cursor} (ha : Parses a s (some (ns, s₁)))
      (hs : Parses (.star a) s₁ (some (ms, s'))) : Parses (.star a) s (some (ns ++ ms, s'))
  | ahead {a : Expr} {s : Cursor} {x : List Node × Cursor} (ha : Parses a s (some x)) :
      Parses (.ahead a) s (some ([], s))
  | aheadFails {a : Expr} {s : Cursor} (ha : Parses a s none) : Parses (.ahead a) s none

namespace Expr

variable {a b e : Expr} {s s' : Cursor} {ns : List Node}

/-! ## One result -/

/-- At a cursor an expression has one result. -/
theorem Parses.unique {o o' : Option (List Node × Cursor)} (h : e.Parses s o)
    (h' : e.Parses s o') : o = o' := by
  -- Each case is met by the cases of the other result for the same expression: they agree, or one
  -- of them fails where the other matches.
  induction h generalizing o' with
  | lexeme h =>
      cases h' with
      | lexeme h' => rw [Option.some.inj (h.symm.trans h')]
      | lexemeFails h' => cases h.symm.trans h'
  | lexemeFails h =>
      cases h' with
      | lexeme h' => cases h.symm.trans h'
      | lexemeFails => rfl
  | token hr h =>
      cases h' with
      | token hr' h' =>
          obtain rfl := Production.token.inj (hr.symm.trans hr')
          rw [Option.some.inj (h.symm.trans h')]
      | tokenFails hr' h' =>
          obtain rfl := Production.token.inj (hr.symm.trans hr')
          cases h.symm.trans h'
      | node hr' | nodeFails hr' | silent hr' => cases hr.symm.trans hr'
  | tokenFails hr h =>
      cases h' with
      | token hr' h' =>
          obtain rfl := Production.token.inj (hr.symm.trans hr')
          cases h.symm.trans h'
      | tokenFails => rfl
      | node hr' | nodeFails hr' | silent hr' => cases hr.symm.trans hr'
  | node hr _ ih =>
      cases h' with
      | node hr' h' =>
          obtain rfl := Production.node.inj (hr.symm.trans hr')
          cases ih h'
          rfl
      | nodeFails hr' h' =>
          obtain rfl := Production.node.inj (hr.symm.trans hr')
          cases ih h'
      | token hr' | tokenFails hr' | silent hr' => cases hr.symm.trans hr'
  | nodeFails hr _ ih =>
      cases h' with
      | node hr' h' =>
          obtain rfl := Production.node.inj (hr.symm.trans hr')
          cases ih h'
      | nodeFails => rfl
      | token hr' | tokenFails hr' | silent hr' => cases hr.symm.trans hr'
  | silent hr _ ih =>
      cases h' with
      | silent hr' h' =>
          obtain rfl := Production.silent.inj (hr.symm.trans hr')
          exact ih h'
      | token hr' | tokenFails hr' | node hr' | nodeFails hr' => cases hr.symm.trans hr'
  | seq _ _ iha ihb =>
      cases h' with
      | seq ha' hb' =>
          cases iha ha'
          cases ihb hb'
          rfl
      | seqStops ha' => cases iha ha'
      | seqFails ha' hb' =>
          cases iha ha'
          cases ihb hb'
  | seqStops _ iha =>
      cases h' with
      | seq ha' | seqFails ha' => cases iha ha'
      | seqStops => rfl
  | seqFails _ _ iha ihb =>
      cases h' with
      | seq ha' hb' =>
          cases iha ha'
          cases ihb hb'
      | seqStops | seqFails => rfl
  | left _ iha =>
      cases h' with
      | left ha' => exact iha ha'
      | right ha' => cases iha ha'
  | right _ _ iha ihb =>
      cases h' with
      | left ha' => cases iha ha'
      | right _ hb' => exact ihb hb'
  | done _ iha =>
      cases h' with
      | done => rfl
      | round ha' => cases iha ha'
  | round _ _ iha ihs =>
      cases h' with
      | done ha' => cases iha ha'
      | round ha' hs' =>
          cases iha ha'
          cases ihs hs'
          rfl
  | ahead _ iha =>
      cases h' with
      | ahead => rfl
      | aheadFails ha' => cases iha ha'
  | aheadFails _ iha =>
      cases h' with
      | ahead ha' => cases iha ha'
      | aheadFails => rfl

/-- A match is a derivation. -/
theorem Parses.derives_of_eq {o : Option (List Node × Cursor)} (h : e.Parses s o) {ns : List Node}
    {s' : Cursor} (ho : o = some (ns, s')) : e.Derives s ns s' := by
  -- What a choice or a repetition has tried before is forgotten.
  induction h generalizing ns s' with
  | lexeme h =>
      cases ho
      exact .lexeme h
  | token hr h =>
      cases ho
      exact .token hr h
  | node hr _ ih =>
      cases ho
      exact .node hr (ih rfl)
  | silent hr _ ih => exact .silent hr (ih ho)
  | seq _ _ iha ihb =>
      cases ho
      exact .seq (iha rfl) (ihb rfl)
  | left _ iha => exact .left (iha ho)
  | right _ _ _ ihb => exact .right (ihb ho)
  | done =>
      cases ho
      exact .done
  | round _ _ iha ihs =>
      cases ho
      exact .round (iha rfl) (ihs rfl)
  | ahead _ iha =>
      cases ho
      exact .ahead (iha rfl)
  | lexemeFails | tokenFails | nodeFails | seqStops | seqFails | aheadFails => cases ho

theorem Parses.derives (h : e.Parses s (some (ns, s'))) : e.Derives s ns s' :=
  h.derives_of_eq rfl

/-! ## Matches taken apart -/

section Matches

theorem parses_lexeme_iff {p : Pattern} :
    (lexeme p).Parses s (some (ns, s')) ↔ ns = [] ∧ p.run s = some s' := by
  constructor
  · intro h
    cases h with
    | lexeme h => exact ⟨rfl, h⟩
  · rintro ⟨rfl, h⟩
    exact .lexeme h

theorem parses_seq_iff :
    (seq a b).Parses s (some (ns, s')) ↔ ∃ ms ls s₁, ns = ms ++ ls ∧
      a.Parses s (some (ms, s₁)) ∧ b.Parses s₁ (some (ls, s')) := by
  constructor
  · intro h
    cases h with
    | seq ha hb => exact ⟨_, _, _, rfl, ha, hb⟩
  · rintro ⟨_, _, _, rfl, ha, hb⟩
    exact .seq ha hb

theorem parses_token_iff {r : Rule} {p : Pattern} (hr : r.production = .token p) :
    (rule r).Parses s (some (ns, s')) ↔ ns = [⟨r, s, s', []⟩] ∧ p.run s = some s' := by
  constructor
  · intro h
    cases h with
    | token hr' h =>
        obtain rfl := Production.token.inj (hr.symm.trans hr')
        exact ⟨rfl, h⟩
    | node hr' | silent hr' => cases hr.symm.trans hr'
  · rintro ⟨rfl, h⟩
    exact .token hr h

theorem parses_node_iff {r : Rule} {e : Expr} (hr : r.production = .node e) :
    (rule r).Parses s (some (ns, s')) ↔
      ∃ ms, ns = [⟨r, s, s', ms⟩] ∧ e.Parses s (some (ms, s')) := by
  constructor
  · intro h
    cases h with
    | node hr' h =>
        obtain rfl := Production.node.inj (hr.symm.trans hr')
        exact ⟨_, rfl, h⟩
    | token hr' | silent hr' => cases hr.symm.trans hr'
  · rintro ⟨_, rfl, h⟩
    exact .node hr h

theorem parses_of_node {r : Rule} {e : Expr} {n : Node} (hr : r.production = .node e)
    (h : (rule r).Parses s (some ([n], s'))) :
    n.start = s ∧ n.stop = s' ∧ e.Parses s (some (n.children, s')) := by
  obtain ⟨_, hn, he⟩ := (parses_node_iff hr).mp h
  obtain rfl := List.singleton_inj.mp hn
  exact ⟨rfl, rfl, he⟩

end Matches

/-! ## The search finds it -/

/-- Every round of every repetition in the expression reads a character. -/
def advances : Expr → Bool
  | .lexeme _ | .rule _ => true
  | .seq a b | .alt a b => a.advances && b.advances
  | .star a => a.advances && a.consumes (Rule.consumes 9)
  | .ahead a => a.advances

/-- The result of a search that was not cut short. -/
def Found (o : Outcome) (e : Expr) (s : Cursor) : Prop :=
  match o with
  | .matched ns s' => e.Parses s (some (ns, s'))
  | .failed => e.Parses s none
  | .exhausted => True

/-- The rounds of a repetition are as many as there can be, as the characters ahead are enough to
count them. -/
theorem rounds_parses {step : Cursor → Outcome} (hstep : ∀ s, Found (step s) a s)
    (hconsumes : a.consumes (Rule.consumes 9) = true) {bound : Text}
    {made : List (List Node)} (hbound : s.rest.length ≤ bound.length)
    (h : rounds step bound made s = .matched ns s') :
    ∃ ms, ns = made.reverse.flatten ++ ms ∧ (star a).Parses s (some (ms, s')) := by
  -- A round makes the text shorter, so a bound as long as the text is never used up.
  induction bound generalizing made s with
  | nil =>
      have hs := hstep s
      rw [rounds_eq] at h
      cases hstep : step s with
      | exhausted => simp [hstep] at h
      | failed =>
          rw [hstep] at hs
          obtain ⟨rfl, rfl⟩ : _ ∧ s = s' := by simpa [hstep] using h
          exact ⟨[], by simp, .done hs⟩
      | matched ns₁ s₁ =>
          rw [hstep] at hs
          have hlt := (Parses.derives hs).length_lt 9 hconsumes
          simp only [List.length_nil] at hbound
          omega
  | cons _ bound ih =>
      have hs := hstep s
      rw [rounds_eq] at h
      cases hstep : step s with
      | exhausted => simp [hstep] at h
      | failed =>
          rw [hstep] at hs
          obtain ⟨rfl, rfl⟩ : _ ∧ s = s' := by simpa [hstep] using h
          exact ⟨[], by simp, .done hs⟩
      | matched ns₁ s₁ =>
          rw [hstep] at hs
          have hlt := (Parses.derives hs).length_lt 9 hconsumes
          simp only [List.length_cons] at hbound
          simp only [hstep] at h
          obtain ⟨ms, rfl, hms⟩ := ih (by omega) h
          exact ⟨ns₁ ++ ms, by simp, .round hs hms⟩

/-- A repetition does not fail. -/
theorem rounds_ne_failed {step : Cursor → Outcome} {bound : Text} {made : List (List Node)} :
    rounds step bound made s ≠ .failed := by
  induction bound generalizing made s with
  | nil =>
      rw [rounds_eq]
      cases step s <;> simp
  | cons _ bound ih =>
      rw [rounds_eq]
      cases step s with
      | matched => exact ih
      | failed | exhausted => simp

theorem search_parses {depth : Nat} (hrule : ∀ r s, Found (r.search depth s) (.rule r) s)
    (he : e.advances = true) (s : Cursor) : Found (e.search depth s) e s := by
  -- A search that is cut short says nothing; any other says what its parts have found.
  induction e generalizing s with
  | lexeme p =>
      rw [search_lexeme]
      cases hp : p.run s with
      | none => exact .lexemeFails hp
      | some s' => exact .lexeme hp
  | rule r => exact hrule r s
  | seq a b iha ihb =>
      simp only [advances, Bool.and_eq_true] at he
      have ha := iha he.1 s
      rw [search_seq]
      cases hsearch : a.search depth s with
      | exhausted => trivial
      | failed =>
          rw [hsearch] at ha
          exact .seqStops ha
      | matched ns s₁ =>
          rw [hsearch] at ha
          have hb := ihb he.2 s₁
          simp only [Outcome.andThen]
          cases hsearch' : b.search depth s₁ with
          | exhausted => trivial
          | failed =>
              rw [hsearch'] at hb
              exact .seqFails ha hb
          | matched ms s' =>
              rw [hsearch'] at hb
              exact .seq ha hb
  | alt a b iha ihb =>
      simp only [advances, Bool.and_eq_true] at he
      have ha := iha he.1 s
      have hb := ihb he.2 s
      rw [search_alt]
      cases hsearch : a.search depth s with
      | exhausted => trivial
      | matched ns s' =>
          rw [hsearch] at ha
          exact .left ha
      | failed =>
          rw [hsearch] at ha
          simp only [Outcome.orElse]
          cases hsearch' : b.search depth s with
          | exhausted => trivial
          | failed =>
              rw [hsearch'] at hb
              exact .right ha hb
          | matched ms s' =>
              rw [hsearch'] at hb
              exact .right ha hb
  | star a ih =>
      simp only [advances, Bool.and_eq_true] at he
      rw [search_star]
      cases hsearch : rounds (a.search depth) s.rest [] s with
      | exhausted => trivial
      | failed => exact absurd hsearch rounds_ne_failed
      | matched ns s' =>
          obtain ⟨ms, rfl, hms⟩ := rounds_parses (ih he.1) he.2 (Nat.le_refl _) hsearch
          exact hms
  | ahead a ih =>
      simp only [advances] at he
      have ha := ih he s
      rw [search_ahead]
      cases hsearch : a.search depth s with
      | exhausted => trivial
      | failed =>
          rw [hsearch] at ha
          exact .aheadFails ha
      | matched ns s' =>
          rw [hsearch] at ha
          exact .ahead ha

end Expr

/-- In every production, every round of a repetition reads a character. -/
theorem Rule.advances_body (r : Rule) : r.production.body.advances = true := by
  have hall : (Rule.inOrder.all fun r => r.production.body.advances) = true := by
    decide +kernel
  exact Rule.of_all hall r

/-- A search for a rule that is not cut short finds the result. -/
theorem Rule.search_parses (depth : Nat) (r : Rule) (s : Cursor) :
    Expr.Found (r.search depth s) (.rule r) s := by
  induction depth generalizing r s with
  | zero => trivial
  | succ depth ih =>
      have hbody := r.advances_body
      rw [search_succ]
      cases hr : r.production with
      | token p =>
          simp only
          cases hp : p.run s with
          | none => exact .tokenFails hr hp
          | some s' => exact .token hr hp
      | node e =>
          rw [hr] at hbody
          have he : Expr.Found (e.search depth s) e s := Expr.search_parses ih hbody s
          simp only
          cases hsearch : e.search depth s with
          | exhausted => trivial
          | failed =>
              rw [hsearch] at he
              exact .nodeFails hr he
          | matched ns s' =>
              rw [hsearch] at he
              exact .node hr he
      | silent e =>
          rw [hr] at hbody
          have he : Expr.Found (e.search depth s) e s := Expr.search_parses ih hbody s
          simp only
          cases hsearch : e.search depth s with
          | exhausted => trivial
          | failed =>
              rw [hsearch] at he
              exact .silent hr he
          | matched ns s' =>
              rw [hsearch] at he
              exact .silent hr he

theorem Rule.parses_of_search {depth : Nat} {r : Rule} {s stop : Cursor} {ns : List Node}
    (h : r.search depth s = .matched ns stop) : (Expr.rule r).Parses s (some (ns, stop)) := by
  have hfound := r.search_parses depth s
  rw [h] at hfound
  exact hfound

theorem Rule.search_of_parses {depth : Nat} {r : Rule} {s stop : Cursor} {ns : List Node}
    (hdecided : r.search depth s ≠ .exhausted) (h : (Expr.rule r).Parses s (some (ns, stop))) :
    r.search depth s = .matched ns stop := by
  have hfound := r.search_parses depth s
  cases hsearch : r.search depth s with
  | exhausted => exact absurd hsearch hdecided
  | failed =>
      rw [hsearch] at hfound
      cases h.unique hfound
  | matched ms s' =>
      rw [hsearch] at hfound
      cases h.unique hfound
      rfl

/-- At every cursor a rule has a result. -/
theorem Rule.exists_parses (r : Rule) (s : Cursor) : ∃ o, (Expr.rule r).Parses s o := by
  have hdecided : r.search (s.rest.length * placeDepth + placeDepth) s ≠ .exhausted :=
    r.decidedAt_of_grounded r.grounded_placeDepth (Nat.le_refl _) s (Nat.le_refl _)
  have hfound := r.search_parses (s.rest.length * placeDepth + placeDepth) s
  cases hsearch : r.search (s.rest.length * placeDepth + placeDepth) s with
  | exhausted => exact absurd hsearch hdecided
  | failed =>
      rw [hsearch] at hfound
      exact ⟨_, hfound⟩
  | matched ns s' =>
      rw [hsearch] at hfound
      exact ⟨_, hfound⟩

/-- A rule that blocks at a character fails there. -/
theorem fails_of_blocks {cs : List Char} {s : Cursor} (hs : s.At cs) {r : Rule} (depth : Nat)
    (hr : r.reaction cs depth = .blocks) : (Expr.rule r).Parses s none := by
  obtain ⟨o, ho⟩ := r.exists_parses s
  cases o with
  | none => exact ho
  | some x =>
      have hallows := ho.derives.respects hs depth
      rw [Expr.reaction, hr] at hallows
      exact hallows.elim

/-- What is derived at the start of a text is the result there. -/
theorem derive_parses {r : Rule} {t : Text} {ns : List Node} {stop : Cursor}
    (h : derive r t = .matched ns stop) : (Expr.rule r).Parses t.cursor (some (ns, stop)) :=
  Rule.parses_of_search ((derive_eq r t).symm.trans h)

/-- The result at the start of a text is derived there. -/
theorem derive_of_parses {r : Rule} {t : Text} {ns : List Node} {stop : Cursor}
    (h : (Expr.rule r).Parses t.cursor (some (ns, stop))) : derive r t = .matched ns stop :=
  (derive_eq r t).trans
    (Rule.search_of_parses (fun hd => derive_ne_exhausted r t ((derive_eq r t).trans hd)) h)

/-! ## What is tried -/

/-- On the way to the result of the expression at a cursor, the rule is tried at another cursor. It
need not match there, nor need what it is a part of: the second alternative of a choice is gone into
where the first one fails, and what comes second where it comes first matches. -/
inductive Expr.Tries : Expr → Cursor → Rule → Cursor → Prop where
  | self (r : Rule) (s : Cursor) : Tries (.rule r) s r s
  | body {r q : Rule} {s t : Cursor} (h : Tries r.production.body s q t) : Tries (.rule r) s q t
  | first {a b : Expr} {q : Rule} {s t : Cursor} (h : Tries a s q t) : Tries (.seq a b) s q t
  | second {a b : Expr} {q : Rule} {ns : List Node} {s s₁ t : Cursor}
      (ha : a.Parses s (some (ns, s₁))) (h : Tries b s₁ q t) : Tries (.seq a b) s q t
  | left {a b : Expr} {q : Rule} {s t : Cursor} (h : Tries a s q t) : Tries (.alt a b) s q t
  | right {a b : Expr} {q : Rule} {s t : Cursor} (ha : a.Parses s none) (h : Tries b s q t) :
      Tries (.alt a b) s q t
  | round {a : Expr} {q : Rule} {s t : Cursor} (h : Tries a s q t) : Tries (.star a) s q t
  | further {a : Expr} {q : Rule} {ns : List Node} {s s₁ t : Cursor}
      (ha : a.Parses s (some (ns, s₁))) (h : Tries (.star a) s₁ q t) : Tries (.star a) s q t
  | ahead {a : Expr} {q : Rule} {s t : Cursor} (h : Tries a s q t) : Tries (.ahead a) s q t

/-- A rule is tried at a cursor that is reached. -/
theorem Expr.Tries.reads {e : Expr} {q : Rule} {s t : Cursor} (h : e.Tries s q t) :
    ∃ u, s.Reads u t := by
  induction h with
  | self _ s => exact ⟨[], .refl s⟩
  | body _ ih | first _ ih | left _ ih | right _ _ ih | round _ ih | ahead _ ih => exact ih
  | second ha _ ih | further ha _ ih =>
      obtain ⟨u, hu⟩ := ha.derives.reads
      obtain ⟨v, hv⟩ := ih
      exact ⟨u ++ v, hu.trans hv⟩

end StructuredText.Grammar
