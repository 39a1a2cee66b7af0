import StructuredText.Grammar.Derivation
import StructuredText.Proofs.Grammar.Reading

/-!
# Searching for a match

A search that only parses is `Rule.run` without an observer. Its equations are stated here once, so
that no later proof opens the monad. What a search finds is also a derivation in the ordinary sense,
in which a choice may take either alternative and a repetition may stop anywhere.

* `Rule.search`, `Expr.search` — matching with nobody watching; `derive_eq` ties them to `derive`.
* `Expr.Derives` — the derivations of an expression, an inductive relation.
* `Rule.search_derives` — every match is a derivation.
* `Expr.Derives.reads` — a derivation reads the text between its cursors.
-/

namespace StructuredText.Grammar

/-! ## Searches -/

/-- Matches a rule with nobody watching. -/
def Rule.search (depth : Nat) (r : Rule) (s : Cursor) : Outcome :=
  Id.run (Rule.run (fun _ _ attempt => attempt) depth r s)

/-- Matches an expression with nobody watching, where rules are matched at a depth. -/
def Expr.search (depth : Nat) (e : Expr) (s : Cursor) : Outcome :=
  Id.run (e.run (Rule.run (fun _ _ attempt => attempt) depth) s)

/-- The rounds of a repetition, with nobody watching. -/
def Expr.rounds (step : Cursor → Outcome) (bound : Text) (made : List (List Node)) (s : Cursor) :
    Outcome :=
  Id.run (Expr.repeatedly (m := Id) step bound made s)

theorem derive_eq (r : Rule) (t : Text) : derive r t = r.search (callDepth t) t.cursor := rfl

namespace Outcome

/-- Goes on behind a match. -/
def andThen (o : Outcome) (next : List Node → Cursor → Outcome) : Outcome :=
  match o with
  | .matched nodes s => next nodes s
  | .failed => .failed
  | .exhausted => .exhausted

/-- Goes on where there is no match. -/
def orElse (o other : Outcome) : Outcome :=
  match o with
  | .matched nodes s => .matched nodes s
  | .failed => other
  | .exhausted => .exhausted

/-- Whether there is a match, and a test holds of its nodes and the cursor behind it. -/
def meets (test : List Node → Cursor → Bool) (o : Outcome) : Bool :=
  match o with
  | .matched nodes s => test nodes s
  | .failed => false
  | .exhausted => false

/-- What meets a test is a match. -/
theorem exists_of_meets {test : List Node → Cursor → Bool} {o : Outcome}
    (h : o.meets test = true) : ∃ ns s, o = .matched ns s ∧ test ns s = true := by
  cases o with
  | matched ns s => exact ⟨ns, s, rfl, h⟩
  | failed => cases h
  | exhausted => cases h

/-- Both of two searches in a row have matched. -/
theorem andThen_eq_matched {o : Outcome} {next : List Node → Cursor → Outcome} {ns : List Node}
    {s : Cursor} :
    o.andThen next = .matched ns s ↔ ∃ ms s₁, o = .matched ms s₁ ∧ next ms s₁ = .matched ns s := by
  cases o with
  | matched ms s₁ =>
      constructor
      · intro h
        exact ⟨ms, s₁, rfl, h⟩
      · rintro ⟨_, _, ⟨rfl, rfl⟩, h⟩
        exact h
  | failed | exhausted => simp [andThen]

/-- The first search has matched, or it has failed and the second has matched. -/
theorem orElse_eq_matched {o other : Outcome} {ns : List Node} {s : Cursor} :
    o.orElse other = .matched ns s ↔
      o = .matched ns s ∨ (o = .failed ∧ other = .matched ns s) := by
  cases o <;> simp [orElse]

end Outcome

namespace Expr

variable {depth : Nat} {s : Cursor}

/-- A mark is searched by its pattern. -/
theorem search_lexeme (p : Pattern) :
    (lexeme p).search depth s =
      match p.run s with
      | some s' => .matched [] s'
      | none => .failed := by
  simp only [search, run]
  cases p.run s <;> rfl

/-- The second part is searched from where the first ends. -/
theorem search_seq (a b : Expr) :
    (seq a b).search depth s =
      (a.search depth s).andThen fun ns s' =>
        (b.search depth s').andThen fun ms s'' => .matched (ns ++ ms) s'' := by
  simp only [search, run, Id.run, Outcome.andThen]
  rfl

/-- The second branch is searched only where the first fails. -/
theorem search_alt (a b : Expr) :
    (alt a b).search depth s = (a.search depth s).orElse (b.search depth s) := rfl

/-- The rounds of a repetition are bounded by the text that is left. -/
theorem search_star (a : Expr) :
    (star a).search depth s = rounds (a.search depth) s.rest [] s := rfl

theorem search_ahead (a : Expr) :
    (ahead a).search depth s = (a.search depth s).andThen fun _ _ => .matched [] s := rfl

/-- One round of a repetition: the nodes made so far are kept, the last ones first. -/
theorem rounds_eq (step : Cursor → Outcome) (bound : Text) (made : List (List Node)) :
    rounds step bound made s =
      match step s with
      | .failed => .matched made.reverse.flatten s
      | .exhausted => .exhausted
      | .matched nodes s' =>
        match bound with
        | [] => .matched (nodes :: made).reverse.flatten s'
        | _ :: bound => rounds step bound (nodes :: made) s' := by
  cases bound <;> (simp only [rounds]; rw [repeatedly]; cases step s <;> rfl)

end Expr

theorem Rule.search_zero (r : Rule) (s : Cursor) : r.search 0 s = .exhausted := rfl

/-- A rule is matched by its production. -/
theorem Rule.search_succ (depth : Nat) (r : Rule) (s : Cursor) :
    r.search (depth + 1) s =
      match r.production with
      | .silent e => e.search depth s
      | .token p =>
        match p.run s with
        | some s' => .matched [⟨r, s, s', []⟩] s'
        | none => .failed
      | .node e => (e.search depth s).andThen fun ns s' => .matched [⟨r, s, s', ns⟩] s' := by
  simp only [search, run]
  cases r.production <;> rfl

/-! ## Derivations -/

/-- The derivations of an expression: from a cursor to a cursor, leaving nodes. -/
inductive Expr.Derives : Expr → Cursor → List Node → Cursor → Prop where
  | lexeme {p : Pattern} {s s' : Cursor} (h : p.run s = some s') : Derives (.lexeme p) s [] s'
  | token {r : Rule} {p : Pattern} {s s' : Cursor} (hr : r.production = .token p)
      (h : p.run s = some s') : Derives (.rule r) s [⟨r, s, s', []⟩] s'
  | node {r : Rule} {e : Expr} {ns : List Node} {s s' : Cursor} (hr : r.production = .node e)
      (h : Derives e s ns s') : Derives (.rule r) s [⟨r, s, s', ns⟩] s'
  | silent {r : Rule} {e : Expr} {ns : List Node} {s s' : Cursor} (hr : r.production = .silent e)
      (h : Derives e s ns s') : Derives (.rule r) s ns s'
  | seq {a b : Expr} {ns ms : List Node} {s s₁ s' : Cursor} (ha : Derives a s ns s₁)
      (hb : Derives b s₁ ms s') : Derives (.seq a b) s (ns ++ ms) s'
  | left {a b : Expr} {ns : List Node} {s s' : Cursor} (h : Derives a s ns s') :
      Derives (.alt a b) s ns s'
  | right {a b : Expr} {ns : List Node} {s s' : Cursor} (h : Derives b s ns s') :
      Derives (.alt a b) s ns s'
  | done {a : Expr} {s : Cursor} : Derives (.star a) s [] s
  | round {a : Expr} {ns ms : List Node} {s s₁ s' : Cursor} (ha : Derives a s ns s₁)
      (hs : Derives (.star a) s₁ ms s') : Derives (.star a) s (ns ++ ms) s'
  | ahead {a : Expr} {ns : List Node} {s s' : Cursor} (h : Derives a s ns s') :
      Derives (.ahead a) s [] s

/-- Rounds that are derivations make up a derivation of the repetition. -/
theorem Expr.rounds_derives {a : Expr} {step : Cursor → Outcome}
    (hstep : ∀ s ns s', step s = .matched ns s' → a.Derives s ns s') {bound : Text}
    {made : List (List Node)} {s s' : Cursor} {ns : List Node}
    (h : Expr.rounds step bound made s = .matched ns s') :
    ∃ ms, ns = made.reverse.flatten ++ ms ∧ (Expr.star a).Derives s ms s' := by
  -- The rounds made so far are kept aside; the derivation begins at the present cursor.
  induction bound generalizing made s with
  | nil =>
      rw [rounds_eq] at h
      cases hs : step s with
      | exhausted => simp [hs] at h
      | failed =>
          obtain ⟨rfl, rfl⟩ : _ ∧ s = s' := by simpa [hs] using h
          exact ⟨[], by simp, .done⟩
      | matched ns₁ s₁ =>
          obtain ⟨rfl, rfl⟩ : _ ∧ s₁ = s' := by simpa [hs] using h
          exact ⟨ns₁ ++ [], by simp, .round (hstep _ _ _ hs) .done⟩
  | cons _ bound ih =>
      rw [rounds_eq] at h
      cases hs : step s with
      | exhausted => simp [hs] at h
      | failed =>
          obtain ⟨rfl, rfl⟩ : _ ∧ s = s' := by simpa [hs] using h
          exact ⟨[], by simp, .done⟩
      | matched ns₁ s₁ =>
          simp only [hs] at h
          obtain ⟨ms, rfl, hms⟩ := ih h
          exact ⟨ns₁ ++ ms, by simp, .round (hstep _ _ _ hs) hms⟩

/-- A match of an expression is a derivation, if the matches of rules are. -/
theorem Expr.search_derives {depth : Nat}
    (hrule : ∀ r s ns s', r.search depth s = .matched ns s' → (Expr.rule r).Derives s ns s')
    {e : Expr} {s s' : Cursor} {ns : List Node} (h : e.search depth s = .matched ns s') :
    e.Derives s ns s' := by
  -- The search for a rule goes into its production, at a smaller depth, so it is a hypothesis.
  induction e generalizing s s' ns with
  | lexeme p =>
      rw [search_lexeme] at h
      cases hp : p.run s with
      | none => simp [hp] at h
      | some s₁ =>
          obtain ⟨rfl, rfl⟩ : [] = ns ∧ s₁ = s' := by simpa [hp] using h
          exact .lexeme hp
  | rule r => exact hrule r s ns s' h
  | seq a b iha ihb =>
      rw [search_seq, Outcome.andThen_eq_matched] at h
      obtain ⟨ns₁, s₁, ha, h⟩ := h
      obtain ⟨ns₂, s₂, hb, h⟩ := Outcome.andThen_eq_matched.mp h
      obtain ⟨rfl, rfl⟩ : ns₁ ++ ns₂ = ns ∧ s₂ = s' := by simpa using h
      exact .seq (iha ha) (ihb hb)
  | alt a b iha ihb =>
      rw [search_alt, Outcome.orElse_eq_matched] at h
      rcases h with h | ⟨-, h⟩
      · exact .left (iha h)
      · exact .right (ihb h)
  | star a ih =>
      rw [search_star] at h
      obtain ⟨ms, rfl, hms⟩ := rounds_derives (fun _ _ _ => ih) h
      exact hms
  | ahead a ih =>
      rw [search_ahead, Outcome.andThen_eq_matched] at h
      obtain ⟨ns₁, s₁, ha, h⟩ := h
      obtain ⟨rfl, rfl⟩ : [] = ns ∧ s = s' := by simpa using h
      exact .ahead (ih ha)

/-- A match of a rule is a derivation. -/
theorem Rule.search_derives {depth : Nat} {r : Rule} {s s' : Cursor} {ns : List Node}
    (h : r.search depth s = .matched ns s') : (Expr.rule r).Derives s ns s' := by
  -- On the depth of calls, for a production may call its own rule.
  induction depth generalizing r s s' ns with
  | zero => simp [search_zero] at h
  | succ depth ih =>
      rw [search_succ] at h
      cases hr : r.production with
      | token p =>
          cases hp : p.run s with
          | none => simp [hr, hp] at h
          | some s₁ =>
              obtain ⟨rfl, rfl⟩ : [⟨r, s, s₁, []⟩] = ns ∧ s₁ = s' := by simpa [hr, hp] using h
              exact .token hr hp
      | node e =>
          simp only [hr, Outcome.andThen_eq_matched] at h
          obtain ⟨ns₁, s₁, he, h⟩ := h
          obtain ⟨rfl, rfl⟩ : [⟨r, s, s₁, ns₁⟩] = ns ∧ s₁ = s' := by simpa using h
          exact .node hr (Expr.search_derives (fun _ _ _ _ => ih) he)
      | silent e =>
          simp only [hr] at h
          exact .silent hr (Expr.search_derives (fun _ _ _ _ => ih) h)

/-- A match at the start of a text is a derivation. -/
theorem derive_derives {r : Rule} {t : Text} {ns : List Node} {s' : Cursor}
    (h : derive r t = .matched ns s') : (Expr.rule r).Derives t.cursor ns s' :=
  Rule.search_derives ((derive_eq r t).symm.trans h)

/-! ## Derivations taken apart -/

namespace Expr

variable {a b : Expr} {s s' : Cursor} {ns : List Node}

/-- A mark derives no nodes. -/
theorem derives_lexeme_iff {p : Pattern} :
    (lexeme p).Derives s ns s' ↔ ns = [] ∧ p.run s = some s' := by
  constructor
  · rintro ⟨h⟩
    exact ⟨rfl, h⟩
  · rintro ⟨rfl, h⟩
    exact .lexeme h

/-- A sequence derives the nodes of both parts in order. -/
theorem derives_seq_iff :
    (seq a b).Derives s ns s' ↔
      ∃ ms ls s₁, ns = ms ++ ls ∧ a.Derives s ms s₁ ∧ b.Derives s₁ ls s' := by
  constructor
  · rintro (_ | _ | _ | _ | ⟨ha, hb⟩)
    exact ⟨_, _, _, rfl, ha, hb⟩
  · rintro ⟨_, _, _, rfl, ha, hb⟩
    exact .seq ha hb

/-- A choice derives what one of its branches derives. -/
theorem derives_alt_iff : (alt a b).Derives s ns s' ↔ a.Derives s ns s' ∨ b.Derives s ns s' := by
  constructor
  · intro h
    cases h with
    | left h => exact .inl h
    | right h => exact .inr h
  · rintro (h | h)
    · exact .left h
    · exact .right h

/-- Looking ahead derives nothing and reads nothing. -/
theorem derives_ahead_iff :
    (ahead a).Derives s ns s' ↔ ns = [] ∧ s' = s ∧ ∃ ms s₁, a.Derives s ms s₁ := by
  constructor
  · rintro ⟨⟩
    exact ⟨rfl, rfl, _, _, ‹_›⟩
  · rintro ⟨rfl, rfl, _, _, h⟩
    exact .ahead h

/-- What a rule derives, by the kind of its production. -/
theorem derives_rule_iff {r : Rule} :
    (rule r).Derives s ns s' ↔
      match r.production with
      | .token p => p.run s = some s' ∧ ns = [⟨r, s, s', []⟩]
      | .node e => ∃ ms, e.Derives s ms s' ∧ ns = [⟨r, s, s', ms⟩]
      | .silent e => e.Derives s ns s' := by
  constructor
  · intro h
    cases h with
    | token hr h => simp [hr, h]
    | node hr h => simp [hr, h]
    | silent hr h => simpa [hr] using h
  · intro h
    cases hr : r.production with
    | token p =>
        simp only [hr] at h
        obtain ⟨h, rfl⟩ := h
        exact .token hr h
    | node e =>
        simp only [hr] at h
        obtain ⟨ms, h, rfl⟩ := h
        exact .node hr h
    | silent e =>
        simp only [hr] at h
        exact .silent hr h

end Expr

/-- A derivation reads the text between its cursors. -/
theorem Expr.Derives.reads {e : Expr} {s s' : Cursor} {ns : List Node} (h : e.Derives s ns s') :
    ∃ t, s.Reads t s' := by
  induction h with
  | lexeme h | token _ h =>
      obtain ⟨t, ht, -⟩ := Pattern.run_spells h
      exact ⟨t, ht⟩
  | node _ _ ih | silent _ _ ih | left _ ih | right _ ih => exact ih
  | seq _ _ iha ihb | round _ _ iha ihb =>
      obtain ⟨t, ht⟩ := iha
      obtain ⟨u, hu⟩ := ihb
      exact ⟨t ++ u, ht.trans hu⟩
  | done | ahead => exact ⟨[], .refl _⟩

end StructuredText.Grammar
