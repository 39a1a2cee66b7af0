import StructuredText.Proofs.Grammar.Search

/-!
# Reactions to a character

What a match can do is often clear from the next character alone. An expression *blocks* at a
character when no derivation starts there, and *passes* when every derivation that starts there
reads nothing. Both can be computed from the productions, following the rules that are called before
anything is read.

* `Pattern.reaction`, `Expr.reaction`, `Rule.reaction` — the reaction to a set of characters.
* `Expr.Derives.respects` — a derivation does what the reaction of its expression allows.
-/

namespace StructuredText

/-- The next character is one of the characters. -/
def Cursor.At (cs : List Char) (s : Cursor) : Prop := ∃ c ∈ cs, s.rest.head? = some c

/-- Where a single character is read as a mark, it is next. -/
theorem Cursor.at_of_run_text {c : Char} {s s' : Cursor}
    (h : (Grammar.Pattern.text [c]).run s = some s') : s.At [c] :=
  ⟨c, List.mem_singleton_self c, by rw [(Grammar.Pattern.reads_of_run_text h).rest]; rfl⟩

namespace Grammar

/-- What a match can do at a character. -/
inductive Reaction where
  /-- There is none. -/
  | blocks
  /-- It reads nothing. -/
  | passes
  /-- Nothing is known. -/
  | opens
  deriving DecidableEq, Repr

namespace Reaction

/-- The reaction of two parts, the second behind the first. -/
def andThen : Reaction → Reaction → Reaction
  | blocks, _ => blocks
  | passes, y => y
  | opens, _ => opens

/-- The reaction of a choice. -/
def orElse : Reaction → Reaction → Reaction
  | blocks, y => y
  | x, blocks => x
  | passes, passes => passes
  | _, _ => opens

/-- The reaction of something that may be left out. -/
def maybe : Reaction → Reaction
  | opens => opens
  | _ => passes

/-- The reaction of something that is only looked for. -/
def still : Reaction → Reaction
  | blocks => blocks
  | _ => passes

/-- A match from a cursor to a cursor is in keeping with a reaction. -/
def Allows : Reaction → Cursor → Cursor → Prop
  | blocks, _, _ => False
  | passes, s, s' => s' = s
  | opens, _, _ => True

variable {x y : Reaction} {s s₁ s' : Cursor}

theorem Allows.andThen (hx : x.Allows s s₁) (hy : s₁ = s → y.Allows s₁ s') :
    (x.andThen y).Allows s s' := by
  cases x with
  | blocks => exact hx
  | passes =>
      obtain rfl : s₁ = s := hx
      exact hy rfl
  | opens => trivial

theorem Allows.left (hx : x.Allows s s') : (x.orElse y).Allows s s' := by
  cases x <;> cases y <;> first | exact hx | trivial

theorem Allows.right (hy : y.Allows s s') : (x.orElse y).Allows s s' := by
  cases x <;> cases y <;> first | exact hy | trivial

theorem Allows.maybe (hx : x.Allows s s') : x.maybe.Allows s s' := by
  cases x <;> first | exact hx | exact hx.elim

theorem Allows.still (hx : x.Allows s s') : x.still.Allows s s := by
  cases x <;> first | exact hx | rfl

theorem allows_refl_maybe : x.maybe.Allows s s := by
  cases x <;> trivial

end Reaction

/-! ## Patterns -/

/-- The reaction of a pattern to the characters. -/
def Pattern.reaction (cs : List Char) : Pattern → Reaction
  | .empty => .passes
  | .char test => if cs.any test then .opens else .blocks
  | .seq p q => (p.reaction cs).andThen (q.reaction cs)
  | .alt p q => (p.reaction cs).orElse (q.reaction cs)
  | .star p => (p.reaction cs).maybe
  | .notAhead _ => .passes

section

variable {cs : List Char} {s s' : Cursor}

/-- Steps that keep to a reaction stay where they are, or nothing is known. -/
theorem Pattern.repeatedly_respects {step : Cursor → Option Cursor} {x : Reaction}
    (hstep : ∀ s₁, step s = some s₁ → x.Allows s s₁) (bound : Text) :
    x.maybe.Allows s (repeatedly step bound s) := by
  induction bound with
  | nil => exact Reaction.allows_refl_maybe
  | cons _ bound ih =>
      rw [repeatedly]
      cases h : step s with
      | none => exact Reaction.allows_refl_maybe
      | some s₁ =>
          have hx := hstep s₁ h
          cases x with
          | blocks => exact hx.elim
          | passes =>
              obtain rfl : s₁ = s := hx
              exact ih
          | opens => trivial

/-- A match of a pattern does what the reaction allows. -/
theorem Pattern.run_respects (hs : s.At cs) {p : Pattern} (h : p.run s = some s') :
    (p.reaction cs).Allows s s' := by
  induction p generalizing s s' with
  | empty =>
      obtain rfl : s = s' := by simpa [run] using h
      rfl
  -- The character ahead is one of those the reaction was computed for.
  | char test =>
      obtain ⟨c, hc, hs⟩ := hs
      obtain ⟨offset, _ | ⟨d, ds⟩⟩ := s
      · simp [run] at h
      · obtain rfl : d = c := by simpa using hs
        obtain ⟨hd, -⟩ : test d = true ∧ _ := by simpa [run] using h
        have hany : cs.any test = true := List.any_eq_true.mpr ⟨d, hc, hd⟩
        simp [reaction, hany, Reaction.Allows]
  | seq p q ihp ihq =>
      obtain ⟨s₁, hp, hq⟩ := Option.bind_eq_some_iff.mp h
      refine (ihp hs hp).andThen fun h₁ => ?_
      subst h₁
      exact ihq hs hq
  | alt p q ihp ihq =>
      rcases Option.or_eq_some_iff.mp h with hp | ⟨-, hq⟩
      · exact (ihp hs hp).left
      · exact (ihq hs hq).right
  | star p ih =>
      obtain rfl : repeatedly p.run s.rest s = s' := by simpa [run] using h
      exact repeatedly_respects (fun _ => ih hs) s.rest
  | notAhead p =>
      obtain ⟨-, rfl⟩ : _ ∧ s = s' := by simpa [run] using h
      rfl

/-- A pattern that blocks at a character does not match there. -/
theorem Pattern.run_eq_none_of_blocks (hs : s.At cs) {q : Pattern}
    (hq : q.reaction cs = .blocks) : q.run s = none := by
  cases h : q.run s with
  | none => rfl
  | some s' =>
      have hallows := Pattern.run_respects hs h
      rw [hq] at hallows
      exact hallows.elim

/-! ## Expressions and rules -/

/-- The reaction of an expression, given those of the rules. -/
def Expr.reaction (cs : List Char) (ofRule : Rule → Reaction) : Expr → Reaction
  | .lexeme p => p.reaction cs
  | .rule r => ofRule r
  | .seq a b => (a.reaction cs ofRule).andThen (b.reaction cs ofRule)
  | .alt a b => (a.reaction cs ofRule).orElse (b.reaction cs ofRule)
  | .star a => (a.reaction cs ofRule).maybe
  | .ahead a => (a.reaction cs ofRule).still

/-- The reaction of a rule, as far as calls nested `depth` deep tell. -/
def Rule.reaction (cs : List Char) : (depth : Nat) → Rule → Reaction
  | 0, _ => .opens
  | depth + 1, r =>
    match r.production with
    | .token p => p.reaction cs
    | .node e | .silent e => e.reaction cs (Rule.reaction cs depth)

/-- A derivation does what the reaction of its expression allows. -/
theorem Expr.Derives.respects {e : Expr} {ns : List Node} (h : e.Derives s ns s') (hs : s.At cs)
    (depth : Nat) : (e.reaction cs (Rule.reaction cs depth)).Allows s s' := by
  induction h generalizing depth with
  | lexeme h => exact Pattern.run_respects hs h
  | token hr h =>
      cases depth with
      | zero => trivial
      | succ depth =>
          simp only [reaction, Rule.reaction, hr]
          exact Pattern.run_respects hs h
  | node hr _ ih | silent hr _ ih =>
      cases depth with
      | zero => trivial
      | succ depth =>
          simp only [reaction, Rule.reaction, hr]
          exact ih hs depth
  | seq _ _ iha ihb =>
      refine (iha hs depth).andThen fun h₁ => ?_
      subst h₁
      exact ihb hs depth
  | left _ ih => exact (ih hs depth).left
  | right _ ih => exact (ih hs depth).right
  | done => exact Reaction.allows_refl_maybe
  -- A step that passes reads nothing, and one that blocks cannot have matched.
  | @round a _ _ s s₁ s' _ _ iha ihs =>
      have ha := iha hs depth
      simp only [reaction] at ihs ⊢
      cases hx : a.reaction cs (Rule.reaction cs depth) with
      | blocks => simp [hx, Reaction.Allows] at ha
      | passes =>
          obtain rfl : s₁ = s := by simpa [hx, Reaction.Allows] using ha
          simpa [hx] using ihs hs depth
      | opens => trivial
  | ahead _ ih =>
      exact (ih hs depth).still

end

/-! ## Checks over all rules -/

/-- What a rule reads as, without what it leaves. -/
def Production.body : Production → Expr
  | .token p => .lexeme p
  | .node e | .silent e => e

/-- The place of a rule in the order of the grammar. -/
def Rule.place : Rule → Nat
  | .endOfInput => 0
  | .whitespace => 1
  | .comment => 2
  | .identChar => 3
  | .keyword k => 4 + k.ctorIdx
  -- the keywords, of which there are fifty-three, stand where one constructor does
  | r => r.ctorIdx + 52

theorem Rule.getElem?_place (r : Rule) : Rule.inOrder[r.place]? = some r := by
  cases r with
  | keyword k => cases k <;> rfl
  | _ => rfl

/-- What can be checked of the rules in their order holds of every rule. -/
theorem Rule.of_all {p : Rule → Bool} (h : Rule.inOrder.all p = true) (r : Rule) : p r = true :=
  List.all_eq_true.mp h r (List.mem_of_getElem? r.getElem?_place)

end Grammar

end StructuredText
