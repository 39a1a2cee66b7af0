import StructuredText.Build.Table
import StructuredText.Proofs.Build.Inversion

/-!
# What the errors of builders are about

A builder takes children and does nothing else to its construct: the rule, the line and the number
of children given at first stay as they are. So an error tells them as they were given, however many
children were taken before.

* `Builder.Framed` — a builder that leaves its construct alone, and fails with errors about it.
* `Build.framed_of_builder` — all builders.
* `Build.error_of_build` — what the error of a builder says.
-/

namespace StructuredText

namespace Builder

open Grammar (Rule)

variable {α β : Type}

/-- The builder changes nothing but the children that are left, and its errors are about the
construct. -/
class Framed (b : Builder α) : Prop where
  leaves : ∀ c, ∃ es, (b.run c).2 = c.holding es
  error : ∀ c e, (b.run c).1 = .error e → ∃ x, e = c.error x

/-- Builders that never fail. -/
theorem Framed.of_gives {b : Builder α} (h : ∀ c, ∃ a es, b.Gives c a (c.holding es)) :
    Framed b where
  leaves c := by
    obtain ⟨a, es, hgives⟩ := h c
    exact ⟨es, congrArg Prod.snd hgives⟩
  error c e he := by
    obtain ⟨a, es, hgives⟩ := h c
    cases he.symm.trans (congrArg Prod.fst hgives)

instance {a : α} : Framed (pure a) := .of_gives fun c => ⟨a, c.rest, rfl⟩

instance : Framed (get : Builder Children) := .of_gives fun c => ⟨c, c.rest, rfl⟩

instance : Framed anchor := .of_gives fun c => ⟨c.anchor, c.rest, rfl⟩

instance {a : α} : Framed (tookFirst a) := .of_gives fun c => ⟨a, c.rest.tail, rfl⟩

instance {a : α} : Framed (tookLast a) := .of_gives fun c => ⟨a, c.rest.dropLast, rfl⟩

instance {e : Element} : Framed (putFirst e) := .of_gives fun c => ⟨(), e :: c.rest, rfl⟩

instance {e : Element} : Framed (putLast e) := .of_gives fun c => ⟨(), c.rest ++ [e], rfl⟩

instance {x : Expectation} : Framed (fail x : Builder α) where
  leaves c := ⟨c.rest, rfl⟩
  error := by
    rintro c _ ⟨⟩
    exact ⟨x, rfl⟩

/-- What comes behind a part that leaves the construct alone. -/
theorem Framed.after {b : Builder α} [hb : Framed b] {f : α → Builder β}
    (hf : ∀ a, Framed (f a)) : Framed (b >>= f) where
  leaves c := by
    obtain ⟨es, hes⟩ := hb.leaves c
    rw [run_bind]
    rcases hrun : b.run c with ⟨_ | a, c₁⟩
    · rw [hrun] at hes
      exact ⟨es, hes⟩
    · obtain rfl : c₁ = c.holding es := by rw [← hes, hrun]
      exact (hf a).leaves (c.holding es)
  error c e he := by
    obtain ⟨es, hes⟩ := hb.leaves c
    rw [run_bind] at he
    rcases hrun : b.run c with ⟨e' | a, c₁⟩
    · rw [hrun] at he
      obtain rfl : e' = e := by simpa using he
      exact hb.error c e' (congrArg Prod.fst hrun)
    · rw [hrun] at he
      -- The first part has changed nothing but the children that are left.
      obtain rfl : c₁ = c.holding es := by rw [← hes, hrun]
      exact (hf a).error (c.holding es) e he

instance {b : Builder α} {f : α → Builder β} [Framed b] [∀ a, Framed (f a)] :
    Framed (b >>= f) := .after inferInstance

instance {p : Prop} [Decidable p] {b b' : Builder α} [Framed b] [Framed b'] :
    Framed (if p then b else b') := by
  split <;> infer_instance

/-! ## Ways to take children -/

section Values

variable [OfElement α]

instance {child : Option Element} : Framed (require child : Builder α) := by
  cases child with
  | none => exact inferInstanceAs (Framed (fail (.child (wanted α) none) : Builder α))
  | some e =>
      rw [require]
      split <;> infer_instance

instance {putBack : Element → Builder Unit} [∀ e, Framed (putBack e)] {e : Element} :
    Framed (acceptOr α putBack e) := by
  rw [acceptOr]
  split <;> infer_instance

instance : Framed (take α) :=
  inferInstanceAs (Framed (get >>= fun c => tookFirst () >>= fun _ => require c.rest.head?))

instance : Framed (takeLast α) :=
  inferInstanceAs (Framed (get >>= fun c => tookLast () >>= fun _ => require c.rest.getLast?))

instance : Framed (takeIf α) := by
  refine .after fun c => ?_
  split <;> infer_instance

instance : Framed (takeLastIf α) := by
  refine .after fun c => ?_
  split <;> infer_instance

instance : Framed (takeWhile α) := .of_gives fun _ => ⟨_, _, rfl⟩

end Values

instance {r : Rule} : Framed (tokenIf r) := by
  refine .after fun c => ?_
  split <;> infer_instance

instance {r : Rule} : Framed (tokenListIf r) := by
  refine .after fun c => ?_
  split <;> infer_instance

instance {r : Rule} {o : Option α} : Framed (orMismatch r o) := by
  cases o with
  | none =>
      exact inferInstanceAs (Framed (get >>= fun c =>
        (fail (.child r.name (c.rest.head?.map Element.kind)) : Builder α)))
  | some a => exact inferInstanceAs (Framed (pure a))

instance {r : Rule} : Framed (token r) := inferInstanceAs (Framed (tokenIf r >>= orMismatch r))

instance {r : Rule} : Framed (tokenList r) :=
  inferInstanceAs (Framed (tokenListIf r >>= orMismatch r))

instance {what : String} {as : List α} : Framed (nonEmpty what as) :=
  inferInstanceAs (Framed (if as.isEmpty then fail (.atLeastOne what) else pure as))

instance : Framed single := by
  refine .after fun c => ?_
  split <;> infer_instance

instance : Framed finish := by
  refine .after fun c => ?_
  split <;> infer_instance

/-! ## Loops -/

instance {step : β → α → Builder β} [∀ b a, Framed (step b a)] {as : List α} {b : β} :
    Framed (as.foldlM step b) := by
  induction as generalizing b with
  | nil => exact inferInstanceAs (Framed (pure b))
  | cons a as ih =>
      rw [List.foldlM_cons]
      exact .after fun _ => ih

instance {f : α → Builder β} [∀ a, Framed (f a)] {as : List α} : Framed (as.mapM f) := by
  induction as with
  | nil => exact inferInstanceAs (Framed (pure []))
  | cons a as ih =>
      rw [List.mapM_cons]
      infer_instance

end Builder

namespace Build

open Grammar (Rule)
open Builder

variable {α : Type}

/-! ## Parts of builders -/

instance {what : String} {value? : Text → Option α} {t : Token} :
    Framed (letterOf what value? t) := by
  rw [letterOf]
  split <;> infer_instance

instance {r : Rule} : Framed (takeTokens r) := .of_gives fun _ => ⟨_, _, rfl⟩

instance {left : Expression} {bound : List Element} : Framed (chainOnto left bound) := by
  induction bound generalizing left with
  | nil =>
      refine .after fun c => ?_
      split <;> infer_instance
  | cons _ bound ih =>
      refine .after fun c => ?_
      split
      · infer_instance
      · exact .after fun op => .after fun right => ih

instance : Framed binaryChain := by
  refine .after fun c => ?_
  split
  · infer_instance
  · exact .after fun left => .after inferInstance

instance : Framed unaryExpression := by
  refine .after fun op => ?_
  cases op with
  | none => exact inferInstanceAs (Framed single)
  | some op => exact .after inferInstance

instance : Framed directVariable := by
  refine .after fun letter => .after fun area => .after fun size => ?_
  split <;> infer_instance

instance : Framed callOf := .after inferInstance

instance : Framed takeTime := .after inferInstance

instance : Framed takeDate := .after inferInstance

instance {d : Duration} {part : RawNode Element} : Framed (addPart d part) := by
  rw [addPart]
  split
  · infer_instance
  · split <;> infer_instance

instance : Framed arrayElement := by
  refine .after fun o => ?_
  split <;> infer_instance

instance {bound : List Element} : Framed (arrayElements bound) := by
  induction bound with
  | nil =>
      refine .after fun c => ?_
      split <;> infer_instance
  | cons _ bound ih =>
      refine .after fun c => ?_
      split <;> infer_instance

instance {name : Token} : Framed (globalAddress name) := by
  refine .after fun o => ?_
  split <;> infer_instance

instance : Framed globalVarSpec := by
  refine .after fun listed => ?_
  split <;> infer_instance

instance : Framed globalInit := by
  refine .after fun o => ?_
  split <;> infer_instance

instance : Framed variableAttribute := by
  refine .after fun t => ?_
  split <;> infer_instance

instance [OfElement (Anchored α)] : Framed (blockOf α) := .after inferInstance

instance {what : String} {fits : SpecInit → Bool} : Framed (namedType what fits) :=
  .after inferInstance

instance : Framed takeBody := .after inferInstance

instance {statement : Builder SimpleStatement} [Framed statement] : Framed (simpleOf statement) :=
  .after inferInstance

instance {e : Element} : Framed (caseLabel e) := by
  rw [caseLabel]
  split <;> infer_instance

instance : Framed takeUnitBody := .after inferInstance

instance {heading : Builder (UnitKind × Token)} [Framed heading] : Framed (unitOf heading) :=
  .after inferInstance

instance {access : Flags AccessSpecifier} {t : Token} : Framed (addSpecifier access t) := by
  rw [addSpecifier]
  split <;> infer_instance

instance {kind : Builder ActionKind} [Framed kind] : Framed (actionOf kind) := .after inferInstance

/-! ## The table -/

/-- No builder changes anything but the children that are left. -/
theorem framed_of_builder {r : Rule} {b : Builder Element} (hb : builder? r = some b) :
    Framed b := by
  cases r
  -- the other rules have no builder
  all_goals first | (cases hb; done) | skip
  all_goals
    cases hb
    first
    | infer_instance
    | exact .after inferInstance

/-- The error of a builder names the rule and the line of its construct and the number of children
that it was given. -/
theorem error_of_build {r : Rule} {b : Builder Element} (hb : builder? r = some b) {line : Nat}
    {span : Span} {es : List Element} {e : ConstructionError}
    (he : b.build (.ofList r line span es) = .error e) :
    e.rule = r ∧ e.line = line ∧ e.received = es.length := by
  obtain ⟨x, rfl⟩ := (framed_of_builder hb).error _ e he
  exact ⟨rfl, rfl, rfl⟩

end Build

end StructuredText
