import StructuredText.Proofs.Build.Children

/-!
# What a builder found

Read backwards, a builder that succeeded tells what its children were: each way to take children
found what it takes in front, or at the end, and the rest of the builder went on with what was left.

* `of_take`, `of_takeIf`, `of_takeWhile`, `of_token`, … — what each way to take children found.
* `of_finish` — nothing was left.
-/

namespace StructuredText.Builder

open Grammar (Rule)

variable {α β γ : Type} {c c' : Children} {es : List Element} {x : β}

/-- A builder gives one thing for given children. -/
theorem Gives.unique {b : Builder α} {a a' : α} {c₁ c₂ : Children} (h : b.Gives c a c₁)
    (h' : b.Gives c a' c₂) : a = a' ∧ c₁ = c₂ := by
  have heq := h.symm.trans h'
  cases heq
  exact ⟨rfl, rfl⟩

theorem of_pure {a : β} (h : (pure a : Builder β).Gives c x c') : x = a ∧ c' = c := by
  cases h
  exact ⟨rfl, rfl⟩

/-- Binds are read from left to right. -/
theorem of_bind {b : Builder α} {f : α → Builder γ} {g : γ → Builder β}
    (h : ((b >>= f) >>= g).Gives c x c') : (b >>= fun a => f a >>= g).Gives c x c' := by
  obtain ⟨z, c₂, hbf, hg⟩ := gives_bind_iff.mp h
  obtain ⟨a, c₁, hb, hf⟩ := gives_bind_iff.mp hbf
  exact hb.bind (hf.bind hg)

theorem of_pure_bind {a : α} {f : α → Builder β} (h : ((pure a : Builder α) >>= f).Gives c x c') :
    (f a).Gives c x c' := by
  obtain ⟨_, _, ⟨⟩, hf⟩ := gives_bind_iff.mp h
  exact hf

/-- Looking at the children changes none of them. -/
theorem of_get {f : Children → Builder β} (h : (get >>= f).Gives c x c') : (f c).Gives c x c' := by
  obtain ⟨_, _, ⟨⟩, hf⟩ := gives_bind_iff.mp h
  exact hf

theorem of_anchor {f : Anchor → Builder β} (h : (anchor >>= f).Gives c x c') :
    (f c.anchor).Gives c x c' := by
  obtain ⟨_, _, ⟨⟩, hf⟩ := gives_bind_iff.mp h
  exact hf

/-- A builder that fails gives nothing. -/
theorem not_gives_fail {e : Expectation} : ¬ (fail e : Builder β).Gives c x c' := by
  rintro ⟨⟩

theorem not_gives_fail_bind {e : Expectation} {f : α → Builder β} :
    ¬ ((fail e : Builder α) >>= f).Gives c x c' := by
  intro h
  obtain ⟨_, _, ⟨⟩, -⟩ := gives_bind_iff.mp h

/-- What goes on behind the first child sees the others. -/
theorem of_tookFirst {a : α} {f : α → Builder β} {e : Element}
    (h : (tookFirst a >>= f).Gives (c.holding (e :: es)) x c') :
    (f a).Gives (c.holding es) x c' := by
  obtain ⟨_, _, ⟨⟩, hf⟩ := gives_bind_iff.mp h
  exact hf

/-- What goes on behind the last child sees those in front of it. -/
theorem of_tookLast {a : α} {f : α → Builder β} {e : Element}
    (h : (tookLast a >>= f).Gives (c.holding (es ++ [e])) x c') :
    (f a).Gives (c.holding es) x c' := by
  obtain ⟨_, _, hlast, hf⟩ := gives_bind_iff.mp h
  obtain ⟨rfl, rfl⟩ := hlast.unique tookLast_gives
  exact hf

section Values

variable [OfElement α]

/-- A required child was there, and it serves as a value. -/
theorem of_require {child : Option Element} {f : α → Builder β}
    (h : (require child >>= f).Gives c x c') :
    ∃ e a, child = some e ∧ ofElement? e = some a ∧ (f a).Gives c x c' := by
  cases child with
  | none => exact (not_gives_fail_bind h).elim
  | some e =>
      rw [require] at h
      split at h
      · rename_i a ha
        exact ⟨e, a, rfl, ofElement?_eq_some_iff.mpr ha, of_pure_bind h⟩
      · exact (not_gives_fail_bind h).elim

/-- The first child served as the value. -/
theorem of_take {f : α → Builder β} (h : (take α >>= f).Gives (c.holding es) x c') :
    ∃ e rest a, es = e :: rest ∧ ofElement? e = some a ∧ (f a).Gives (c.holding rest) x c' := by
  have h : ((tookFirst () >>= fun _ => require es.head?) >>= f).Gives (c.holding es) x c' :=
    of_get (of_bind h)
  cases es with
  | nil =>
      obtain ⟨_, c₁, -, hrequire⟩ := gives_bind_iff.mp (of_bind h)
      obtain ⟨_, _, hnone, -⟩ := of_require hrequire
      cases hnone
  | cons e rest =>
      have h := of_bind h
      obtain ⟨_, a, ⟨⟩, ha, hf⟩ := of_require (of_tookFirst h)
      exact ⟨e, rest, a, rfl, ha, hf⟩

/-- The last child served as the value. -/
theorem of_takeLast {f : α → Builder β} (h : (takeLast α >>= f).Gives (c.holding es) x c') :
    ∃ e rest a, es = rest ++ [e] ∧ ofElement? e = some a ∧ (f a).Gives (c.holding rest) x c' := by
  have h : ((tookLast () >>= fun _ => require es.getLast?) >>= f).Gives (c.holding es) x c' :=
    of_get (of_bind h)
  rcases List.eq_nil_or_concat es with rfl | ⟨rest, e, hes⟩
  · obtain ⟨_, c₁, -, hrequire⟩ := gives_bind_iff.mp (of_bind h)
    obtain ⟨_, _, hnone, -⟩ := of_require hrequire
    cases hnone
  · rw [List.concat_eq_append] at hes
    subst hes
    have h := of_bind h
    obtain ⟨e', a, he, ha, hf⟩ := of_require (of_tookLast h)
    obtain rfl : e = e' := by simpa using he
    exact ⟨e, rest, a, rfl, ha, hf⟩

/-- A child that may be missing was in front, or nothing that could be taken for it was. -/
theorem of_takeIf {f : Option α → Builder β} (h : (takeIf α >>= f).Gives (c.holding es) x c') :
    ∃ fs rest a, es = fs ++ rest ∧ Serve fs a.toList ∧ (a = none → Stops α rest) ∧
      (f a).Gives (c.holding rest) x c' := by
  obtain ⟨o, c₁, htake, hf⟩ := gives_bind_iff.mp h
  cases es with
  | nil =>
      obtain ⟨rfl, rfl⟩ := htake.unique (takeIf_gives_none .nil)
      exact ⟨[], [], none, rfl, .nil, fun _ => .nil, hf⟩
  | cons e rest =>
      cases he : (ofElement? e : Option α) with
      | none =>
          obtain ⟨rfl, rfl⟩ := htake.unique (takeIf_gives_none (.cons he))
          exact ⟨[], e :: rest, none, rfl, .nil, fun _ => .cons he, hf⟩
      | some a =>
          obtain ⟨rfl, rfl⟩ := htake.unique (takeIf_gives (a := some a) (.one he) (by simp))
          exact ⟨[e], rest, some a, rfl, .one he, by simp, hf⟩

/-- A child that may be missing was at the end, or nothing that could be taken for it was. -/
theorem of_takeLastIf {f : Option α → Builder β}
    (h : (takeLastIf α >>= f).Gives (c.holding es) x c') :
    ∃ fs rest a, es = rest ++ fs ∧ Serve fs a.toList ∧ (f a).Gives (c.holding rest) x c' := by
  obtain ⟨o, c₁, htake, hf⟩ := gives_bind_iff.mp h
  rcases List.eq_nil_or_concat es with rfl | ⟨rest, e, hes⟩
  · obtain ⟨rfl, rfl⟩ := htake.unique takeLastIf_gives_nil
    exact ⟨[], [], none, rfl, .nil, hf⟩
  · rw [List.concat_eq_append] at hes
    subst hes
    cases he : (ofElement? e : Option α) with
    | none =>
        obtain ⟨rfl, rfl⟩ := htake.unique (takeLastIf_gives_none he)
        exact ⟨[], rest ++ [e], none, (List.append_nil _).symm, .nil, hf⟩
    | some a =>
        obtain ⟨rfl, rfl⟩ := htake.unique (takeLastIf_gives (a := some a) (.one he) (by simp))
        exact ⟨[e], rest, some a, rfl, .one he, hf⟩

/-- The elements in front that serve are put down, and the one behind them does not serve. -/
theorem splitWhile_spec (es : List Element) :
    ∃ fs, es = fs ++ (splitWhile α es).2 ∧ Serve fs (splitWhile α es).1 ∧
      Stops α (splitWhile α es).2 := by
  induction es with
  | nil => exact ⟨[], rfl, .nil, .nil⟩
  | cons e es ih =>
      obtain ⟨fs, hfs, hserve, hstops⟩ := ih
      cases he : (ofElement? e : Option α) with
      | none =>
          simp only [splitWhile, ofElement?_eq_none_iff.mp he]
          exact ⟨[], rfl, .nil, .cons he⟩
      | some a =>
          simp only [splitWhile, ofElement?_eq_some_iff.mp he]
          refine ⟨e :: fs, ?_, .cons he hserve, hstops⟩
          rw [List.cons_append, ← hfs]

/-- All children in front that could be taken were. -/
theorem of_takeWhile {f : List α → Builder β}
    (h : (takeWhile α >>= f).Gives (c.holding es) x c') :
    ∃ fs rest as, es = fs ++ rest ∧ Serve fs as ∧ Stops α rest ∧
      (f as).Gives (c.holding rest) x c' := by
  obtain ⟨_, _, ⟨⟩, hf⟩ := gives_bind_iff.mp h
  obtain ⟨fs, hfs, hserve, hstops⟩ := splitWhile_spec (α := α) es
  exact ⟨fs, _, _, hfs, hserve, hstops, hf⟩

end Values

/-- A token that was looked for stood in front, or was not there. -/
theorem of_tokenIf {r : Rule} {f : Option Token → Builder β}
    (h : (tokenIf r >>= f).Gives (c.holding es) x c') :
    ∃ t rest, es = t.toList.map (.token r) ++ rest ∧ (f t).Gives (c.holding rest) x c' := by
  replace h := of_get (of_bind h)
  simp only [Children.holding_rest] at h
  split at h
  · rename_i r' t rest
    split at h
    · rename_i hr
      subst hr
      exact ⟨some t, rest, rfl, of_tookFirst h⟩
    · exact ⟨none, _, rfl, of_pure_bind h⟩
  · exact ⟨none, es, rfl, of_pure_bind h⟩

/-- A value was found where none would have been a mismatch. -/
theorem of_orMismatch {r : Rule} {o : Option α} {f : α → Builder β}
    (h : (orMismatch r o >>= f).Gives c x c') : ∃ a, o = some a ∧ (f a).Gives c x c' := by
  cases o with
  | none => exact (not_gives_fail_bind (of_get (of_bind h))).elim
  | some a => exact ⟨a, rfl, of_pure_bind h⟩

/-- The token stood in front of the other children. -/
theorem of_token {r : Rule} {f : Token → Builder β}
    (h : (token r >>= f).Gives (c.holding es) x c') :
    ∃ t rest, es = .token r t :: rest ∧ (f t).Gives (c.holding rest) x c' := by
  replace h := of_bind h
  obtain ⟨o, rest, rfl, hrest⟩ := of_tokenIf h
  obtain ⟨t, rfl, hf⟩ := of_orMismatch hrest
  exact ⟨t, rest, rfl, hf⟩

/-- A token list that was looked for stood in front, or was not there. -/
theorem of_tokenListIf {r : Rule} {f : Option (List Token) → Builder β}
    (h : (tokenListIf r >>= f).Gives (c.holding es) x c') :
    ∃ ts rest, es = ts.toList.map (.tokens r) ++ rest ∧ (f ts).Gives (c.holding rest) x c' := by
  replace h := of_get (of_bind h)
  simp only [Children.holding_rest] at h
  split at h
  · rename_i r' ts rest
    split at h
    · rename_i hr
      subst hr
      exact ⟨some ts, rest, rfl, of_tookFirst h⟩
    · exact ⟨none, _, rfl, of_pure_bind h⟩
  · exact ⟨none, es, rfl, of_pure_bind h⟩

/-- The token list stood in front of the other children. -/
theorem of_tokenList {r : Rule} {f : List Token → Builder β}
    (h : (tokenList r >>= f).Gives (c.holding es) x c') :
    ∃ ts rest, es = .tokens r ts :: rest ∧ (f ts).Gives (c.holding rest) x c' := by
  replace h := of_bind h
  obtain ⟨o, rest, rfl, hrest⟩ := of_tokenListIf h
  obtain ⟨ts, rfl, hf⟩ := of_orMismatch hrest
  exact ⟨ts, rest, rfl, hf⟩

/-- A single child is passed on. -/
theorem of_single {e : Element} (h : single.Gives (c.holding es) e c') : es = [e] := by
  unfold single at h
  replace h := of_get h
  simp only [Children.holding_rest] at h
  split at h
  · obtain ⟨rfl, -⟩ := of_pure h
    rfl
  · exact (not_gives_fail h).elim

/-- No child was left at the end. -/
theorem of_finish {f : Unit → Builder β} (h : (finish >>= f).Gives (c.holding es) x c') :
    es = [] ∧ (f ()).Gives (c.holding []) x c' := by
  replace h := of_get (of_bind h)
  simp only [Children.holding_rest] at h
  split at h
  · exact ⟨rfl, of_pure_bind h⟩
  · exact (not_gives_fail_bind h).elim

/-- Most builders end so: nothing is left, and the result is given. -/
theorem of_finish_pure {a : β} (h : (finish >>= fun _ => pure a).Gives (c.holding es) x c') :
    es = [] ∧ x = a := by
  obtain ⟨rfl, h⟩ := of_finish h
  exact ⟨rfl, (of_pure h).1⟩

/-- The row was not empty. -/
theorem of_nonEmpty {what : String} {as : List α} {f : List α → Builder β}
    (h : (nonEmpty what as >>= f).Gives c x c') : as ≠ [] ∧ (f as).Gives c x c' := by
  rw [nonEmpty] at h
  split at h
  · exact (not_gives_fail_bind h).elim
  · rename_i hne
    exact ⟨by simpa using hne, of_pure_bind h⟩

end StructuredText.Builder
