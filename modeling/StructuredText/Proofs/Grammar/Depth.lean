import StructuredText.Proofs.Grammar.Reaction

/-!
# The depth of a search

The bound on nested rule calls is never reached. A rule that is called before anything was read
stands lower than the rule that calls it, so calls at one place nest at most as deep as the rules
are ranked; and there are no more places than characters.

* `Expr.consumes`, `Expr.leading` — what is read at least, and what is called before that.
* `Rule.grounded` — calls at one place end within a number of steps; `grounded_of_rule` for all rules.
* `derive_ne_exhausted` — a derivation from the start of a text is decided.
-/

namespace StructuredText.Grammar

/-! ## What is read at least -/

/-- Every match of the pattern reads a character. -/
def Pattern.consumes : Pattern → Bool
  | .char _ => true
  | .seq p q => p.consumes || q.consumes
  | .alt p q => p.consumes && q.consumes
  | .empty | .star _ | .notAhead _ => false

theorem Pattern.ne_nil_of_consumes {p : Pattern} (hp : p.consumes = true) {t : Text}
    (h : p.Spells t) : t ≠ [] := by
  induction p generalizing t with
  | char =>
      obtain ⟨c, -, rfl⟩ := h
      simp
  | seq p q ihp ihq =>
      obtain ⟨u, v, hu, hv, rfl⟩ := h
      simp only [consumes, Bool.or_eq_true] at hp
      rcases hp with hp | hp
      · simp [ihp hp hu]
      · simp [ihq hp hv]
  | alt p q ihp ihq =>
      simp only [consumes, Bool.and_eq_true] at hp
      rcases h with h | h
      · exact ihp hp.1 h
      · exact ihq hp.2 h
  | empty | star | notAhead => simp [consumes] at hp

/-- Every match of the expression reads a character, given which rules always do. -/
def Expr.consumes (ofRule : Rule → Bool) : Expr → Bool
  | .lexeme p => p.consumes
  | .rule r => ofRule r
  | .seq a b => a.consumes ofRule || b.consumes ofRule
  | .alt a b => a.consumes ofRule && b.consumes ofRule
  | .star _ | .ahead _ => false

/-- Every match of the rule reads a character, as far as calls nested `depth` deep tell. -/
def Rule.consumes : (depth : Nat) → Rule → Bool
  | 0, _ => false
  | depth + 1, r => r.production.body.consumes (Rule.consumes depth)

/-- Behind what consumes, fewer characters are ahead. -/
theorem Expr.Derives.length_lt {e : Expr} {s s' : Cursor} {ns : List Node} (h : e.Derives s ns s')
    (depth : Nat) (hc : e.consumes (Rule.consumes depth) = true) :
    s'.rest.length < s.rest.length := by
  induction h generalizing depth with
  | lexeme h =>
      obtain ⟨t, hreads, hspells⟩ := Pattern.run_spells h
      have hpos := List.length_pos_iff.mpr (Pattern.ne_nil_of_consumes hc hspells)
      rw [hreads.rest, List.length_append]
      omega
  | token hr h =>
      cases depth with
      | zero => simp [consumes, Rule.consumes] at hc
      | succ depth =>
          simp only [consumes, Rule.consumes, hr, Production.body] at hc
          obtain ⟨t, hreads, hspells⟩ := Pattern.run_spells h
          have hpos := List.length_pos_iff.mpr (Pattern.ne_nil_of_consumes hc hspells)
          rw [hreads.rest, List.length_append]
          omega
  | node hr _ ih | silent hr _ ih =>
      cases depth with
      | zero => simp [consumes, Rule.consumes] at hc
      | succ depth =>
          simp only [consumes, Rule.consumes, hr, Production.body] at hc
          exact ih depth hc
  -- One of the two parts consumes, and the other gives nothing back.
  | seq ha hb iha ihb =>
      obtain ⟨_, hra⟩ := ha.reads
      obtain ⟨_, hrb⟩ := hb.reads
      have hla := hra.length_le
      have hlb := hrb.length_le
      simp only [consumes, Bool.or_eq_true] at hc
      rcases hc with hc | hc
      · have := iha depth hc
        omega
      · have := ihb depth hc
        omega
  | left _ ih =>
      simp only [consumes, Bool.and_eq_true] at hc
      exact ih depth hc.1
  | right _ ih =>
      simp only [consumes, Bool.and_eq_true] at hc
      exact ih depth hc.2
  | done | round | ahead => simp [consumes] at hc

/-! ## What is called before that -/

/-- The rules that may be called before anything was read. -/
def Expr.leading : Expr → List Rule
  | .lexeme _ => []
  | .rule r => [r]
  | .seq a b => a.leading ++ if a.consumes (Rule.consumes 9) then [] else b.leading
  | .alt a b => a.leading ++ b.leading
  | .star a | .ahead a => a.leading

/-- Calls of rules at one place, from the rule on, nest less deeply than `depth`. -/
def Rule.grounded : (depth : Nat) → Rule → Bool
  | 0, _ => false
  | depth + 1, r => r.production.body.leading.all (Rule.grounded depth)

/-- How deep calls of rules nest at one place. -/
def placeDepth : Nat := 30

theorem Rule.grounded_placeDepth (r : Rule) : r.grounded placeDepth = true := by
  have hall : (Rule.inOrder.all fun r => r.grounded placeDepth) = true := by
    decide +kernel
  exact Rule.of_all hall r

/-! ## Searches that are decided -/

/-- The rule is decided at a depth wherever at most `ahead` characters are ahead. -/
def Rule.DecidedAt (depth ahead : Nat) (r : Rule) : Prop :=
  ∀ s : Cursor, s.rest.length ≤ ahead → r.search depth s ≠ .exhausted

namespace Expr

variable {depth : Nat} {s s' : Cursor} {ns : List Node}

theorem search_length_le {e : Expr} (h : e.search depth s = .matched ns s') :
    s'.rest.length ≤ s.rest.length := by
  obtain ⟨_, hreads⟩ := (search_derives (fun _ _ _ _ => Rule.search_derives) h).reads
  exact hreads.length_le

theorem search_length_lt {e : Expr} (h : e.search depth s = .matched ns s')
    (hc : e.consumes (Rule.consumes 9) = true) : s'.rest.length < s.rest.length :=
  (search_derives (fun _ _ _ _ => Rule.search_derives) h).length_lt 9 hc

theorem rounds_ne_exhausted {step : Cursor → Outcome} {n : Nat}
    (hstep : ∀ s, s.rest.length ≤ n → step s ≠ .exhausted)
    (hle : ∀ s ns s', step s = .matched ns s' → s'.rest.length ≤ s.rest.length) {bound : Text}
    {made : List (List Node)} (hs : s.rest.length ≤ n) : rounds step bound made s ≠ .exhausted := by
  induction bound generalizing made s with
  | nil =>
      rw [rounds_eq]
      have := hstep s hs
      cases h : step s <;> simp_all
  | cons _ bound ih =>
      rw [rounds_eq]
      cases h : step s with
      | failed => simp
      | exhausted => exact absurd h (hstep s hs)
      | matched ms s₁ =>
          have := hle s ms s₁ h
          exact ih (by omega)

/-- An expression is decided where the rules that it may call first are, and behind what was read
all rules are. -/
theorem search_ne_exhausted {e : Expr} {n : Nat} (hlead : ∀ r ∈ e.leading, r.DecidedAt depth n)
    (hall : ∀ m < n, ∀ r : Rule, r.DecidedAt depth m) (hs : s.rest.length ≤ n) :
    e.search depth s ≠ .exhausted := by
  induction e generalizing s n with
  | lexeme p =>
      rw [search_lexeme]
      cases p.run s <;> simp
  | rule r => exact hlead r (by simp [leading]) s hs
  | seq a b iha ihb =>
      have ha := iha (fun r hr => hlead r (by simp [leading, hr])) hall hs
      rw [search_seq]
      cases h : a.search depth s with
      | exhausted => exact absurd h ha
      | failed => simp [Outcome.andThen]
      | matched ms s₁ =>
          have hb : b.search depth s₁ ≠ .exhausted := by
            -- Behind a part that consumes fewer characters are ahead, and there all rules are
            -- decided.
            cases hc : a.consumes (Rule.consumes 9) with
            | false =>
                refine ihb (fun r hr => hlead r ?_) hall ?_
                · simp [leading, hc, hr]
                · have := search_length_le h
                  omega
            | true =>
                have hlt := search_length_lt h hc
                exact ihb (n := s₁.rest.length) (fun r _ => hall _ (by omega) r)
                  (fun m hm => hall m (by omega)) (Nat.le_refl _)
          cases h' : b.search depth s₁ with
          | exhausted => exact absurd h' hb
          | failed | matched => simp [Outcome.andThen, h']
  | alt a b iha ihb =>
      have ha := iha (fun r hr => hlead r (by simp [leading, hr])) hall hs
      have hb := ihb (fun r hr => hlead r (by simp [leading, hr])) hall hs
      rw [search_alt]
      cases h : a.search depth s with
      | exhausted => exact absurd h ha
      | failed => exact hb
      | matched => simp [Outcome.orElse]
  | star a ih =>
      rw [search_star]
      exact rounds_ne_exhausted (fun s hs => ih hlead hall hs) (fun _ _ _ => search_length_le) hs
  | ahead a ih =>
      have ha := ih hlead hall hs
      rw [search_ahead]
      cases h : a.search depth s with
      | exhausted => exact absurd h ha
      | failed | matched => simp [Outcome.andThen]

end Expr

/-- A rule is decided at a depth that leaves `placeDepth` calls for every character ahead. -/
theorem Rule.decidedAt_of_grounded {n k : Nat} {r : Rule} (hr : r.grounded k = true) {depth : Nat}
    (hdepth : n * placeDepth + k ≤ depth) : r.DecidedAt depth n := by
  -- On the characters ahead, and for equally many on the rules that a rule calls in front of all
  -- else.
  induction n using Nat.strongRecOn generalizing k r depth with
  | ind n ihn =>
      induction k generalizing r depth with
      | zero => simp [grounded] at hr
      | succ k ihk =>
          intro s hs
          cases depth with
          | zero => omega
          | succ depth =>
              have hbody : r.production.body.search depth s ≠ .exhausted := by
                refine Expr.search_ne_exhausted (n := n) ?_ ?_ hs
                · intro q hq
                  exact ihk (List.all_eq_true.mp hr q hq) (by omega)
                · intro m hm q
                  refine ihn m hm q.grounded_placeDepth ?_
                  have hmul : (m + 1) * placeDepth ≤ n * placeDepth := Nat.mul_le_mul_right _ hm
                  rw [Nat.succ_mul] at hmul
                  omega
              rw [search_succ]
              cases hp : r.production with
              | token p => cases h : p.run s <;> simp [h]
              | silent e =>
                  rw [hp] at hbody
                  exact hbody
              | node e =>
                  rw [hp] at hbody
                  cases h : e.search depth s with
                  | exhausted => exact absurd h hbody
                  | failed | matched => simp [Outcome.andThen, h]

/-- Matching a rule at the start of a text is decided. -/
theorem derive_ne_exhausted (r : Rule) (t : Text) : derive r t ≠ .exhausted := by
  rw [derive_eq]
  refine Rule.decidedAt_of_grounded (n := t.length) r.grounded_placeDepth ?_ t.cursor (Nat.le_refl _)
  have hplace : placeDepth ≤ Rule.inOrder.length + 1 := by decide +kernel
  have hmul : (t.length + 1) * placeDepth ≤ (t.length + 1) * (Rule.inOrder.length + 1) :=
    Nat.mul_le_mul_left _ hplace
  rw [Nat.succ_mul] at hmul
  exact hmul

end StructuredText.Grammar
