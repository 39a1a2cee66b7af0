import StructuredText.Proofs.Grammar.Depth

/-!
# Repetitions of a pattern

A repetition takes a step for as long as one can be taken. The characters ahead bound the steps, and
where every step reads a character that bound is never reached, so a repetition ends where its body
does not match.

* `Pattern.last` — where a repetition ends; `Pattern.last_of_none`, `Pattern.last_of_some`.
* `Pattern.run_star_stops` — there its body does not match.
-/

namespace StructuredText.Grammar.Pattern

variable {p : Pattern} {s s₁ s' : Cursor}

/-- Steps that each read a character go on until one fails. -/
theorem step_repeatedly {step : Cursor → Option Cursor}
    (hreads : ∀ s s', step s = some s' → s'.rest.length < s.rest.length) {bound : Text} {s : Cursor}
    (hbound : s.rest.length ≤ bound.length) : step (repeatedly step bound s) = none := by
  induction bound generalizing s with
  | nil =>
      cases hs : step s with
      | none => exact hs
      | some s' =>
          have hlt := hreads s s' hs
          simp only [List.length_nil] at hbound
          omega
  | cons _ bound ih =>
      cases hs : step s with
      | none => simp [repeatedly, hs]
      | some s' =>
          have hlt := hreads s s' hs
          simp only [List.length_cons] at hbound
          simp only [repeatedly, hs]
          exact ih (by omega)

/-- What holds at the start and is kept by each step holds at the end. -/
theorem repeatedly_keeps {step : Cursor → Option Cursor} {P : Cursor → Prop}
    (hstep : ∀ s s', P s → step s = some s' → P s') {bound : Text} {s : Cursor} (hs : P s) :
    P (repeatedly step bound s) := by
  induction bound generalizing s with
  | nil => exact hs
  | cons _ bound ih =>
      cases h : step s with
      | none => simpa [repeatedly, h] using hs
      | some s' =>
          simp only [repeatedly, h]
          exact ih (hstep s s' hs h)

theorem length_lt_of_consumes {p : Pattern} (hp : p.consumes = true) {s s' : Cursor}
    (h : p.run s = some s') : s'.rest.length < s.rest.length := by
  obtain ⟨t, hreads, hspells⟩ := run_spells h
  have hpos := List.length_pos_iff.mpr (ne_nil_of_consumes hp hspells)
  rw [hreads.rest, List.length_append]
  omega

/-- A repetition ends where its body does not match. -/
theorem run_star_stops {p : Pattern} (hp : p.consumes = true) {s s' : Cursor}
    (h : (star p).run s = some s') : p.run s' = none := by
  obtain rfl : repeatedly p.run s.rest s = s' := by simpa [run] using h
  exact step_repeatedly (fun _ _ => length_lt_of_consumes hp) (Nat.le_refl _)

/-- The bound of a repetition that reads something in every step does not matter. -/
theorem repeatedly_bound {step : Cursor → Option Cursor}
    (hreads : ∀ s s', step s = some s' → s'.rest.length < s.rest.length) {bound bound' : Text}
    {s : Cursor} (h : s.rest.length ≤ bound.length) (h' : s.rest.length ≤ bound'.length) :
    repeatedly step bound s = repeatedly step bound' s := by
  have hstays {s : Cursor} (bound : Text) (hs : step s = none) : repeatedly step bound s = s := by
    cases bound <;> simp [repeatedly, hs]
  -- Both bounds shrink with the text, and neither ends before it.
  induction bound generalizing s bound' with
  | nil =>
      cases hs : step s with
      | none => rw [hstays _ hs, hstays _ hs]
      | some s' =>
          have hlt := hreads s s' hs
          simp only [List.length_nil] at h
          omega
  | cons _ bound ih =>
      cases hs : step s with
      | none => rw [hstays _ hs, hstays _ hs]
      | some s' =>
          have hlt := hreads s s' hs
          cases bound' with
          | nil =>
              simp only [List.length_nil] at h'
              omega
          | cons _ bound' =>
              simp only [List.length_cons] at h h'
              simp only [repeatedly, hs]
              exact ih (by omega) (by omega)

/-- Where a repetition ends. -/
def last (p : Pattern) (s : Cursor) : Cursor := repeatedly p.run s.rest s

theorem run_star : (star p).run s = some (p.last s) := rfl

theorem last_of_none (h : p.run s = none) : p.last s = s := by
  rw [last]
  cases s.rest <;> simp [repeatedly, h]

/-- Where its body does not match, a repetition reads nothing. -/
theorem run_star_of_none (h : p.run s = none) : (star p).run s = some s :=
  congrArg some (last_of_none h)

theorem last_of_some (hp : p.consumes = true) (h : p.run s = some s₁) : p.last s = p.last s₁ := by
  have hlt := length_lt_of_consumes hp h
  rw [last, last]
  cases hrest : s.rest with
  | nil =>
      rw [hrest, List.length_nil] at hlt
      omega
  | cons c cs =>
      rw [hrest, List.length_cons] at hlt
      simp only [repeatedly, h]
      exact repeatedly_bound (fun _ _ => length_lt_of_consumes hp) (by omega) (Nat.le_refl _)

end StructuredText.Grammar.Pattern
