import StructuredText.Proofs.Build.Failures
import StructuredText.Proofs.Build.Formation

/-!
# Surplus children

No child of a construct is ignored: where a builder accepts children, it fails when a raw node
follows them. Nearly every builder ends by looking whether a child is left, and until then the raw
node stays where it is, for it serves as none of the values that are taken. The few other builders
are looked at one by one.

* `Builder.KeepsLast`, `Builder.Refuses` — a raw node at the end stays there, and makes a builder
  fail.
* `Builder.Strict` — a builder does not accept what it accepts with a raw node behind it.
* `Build.strict_of_builder` — all builders but that of whole files, in which raw nodes are items.
* `Build.surplus_refused` — surplus children make builders fail, and errors tell the construct.
-/

namespace StructuredText

/-- The parts of a duration. -/
def Grammar.Rule.isDurationPart : Rule → Bool
  | .days | .hours | .minutes | .seconds | .milliseconds => true
  | _ => false

namespace Builder

open Grammar (Rule)

variable {α β : Type} {n : RawNode Element}

/-- The last of the children that are left is the raw node. -/
def Ends (n : RawNode Element) (es : List Element) : Prop := ∃ front, es = front ++ [.raw n]

/-- Where nothing is left, no raw node is. -/
theorem not_ends_nil : ¬ Ends n [] := by
  rintro ⟨front, hfront⟩
  simp at hfront

/-- Another child in front of the raw node can be taken. -/
theorem Ends.tail {e : Element} {es : List Element} (h : Ends n (e :: es)) (he : e ≠ .raw n) :
    Ends n es := by
  obtain ⟨_ | ⟨f, front⟩, hfront⟩ := h
  · exact absurd (List.cons.inj hfront).1 he
  · exact ⟨front, (List.cons.inj hfront).2⟩

/-- A row in which the raw node does not occur can be taken. -/
theorem Ends.of_append {es rest : List Element} (h : Ends n (es ++ rest)) (hes : .raw n ∉ es) :
    Ends n rest := by
  induction es with
  | nil => exact h
  | cons e es ih =>
      exact ih (h.tail (List.ne_of_not_mem_cons hes).symm) (List.not_mem_of_not_mem_cons hes)

/-- What a builder leaves still ends in the raw node. -/
class KeepsLast (n : RawNode Element) (b : Builder α) : Prop where
  keeps : ∀ (c : Children) es a c', Ends n es → b.Gives (c.holding es) a c' → Ends n c'.rest

/-- The builder fails on children that end in the raw node. -/
class Refuses (n : RawNode Element) (b : Builder α) : Prop where
  refuses : ∀ (c : Children) es a c', Ends n es → ¬ b.Gives (c.holding es) a c'

instance {a : α} : KeepsLast n (pure a) where
  keeps := by
    rintro c es _ _ h ⟨⟩
    exact h

instance : KeepsLast n (get : Builder Children) where
  keeps := by
    rintro c es _ _ h ⟨⟩
    exact h

instance : KeepsLast n anchor where
  keeps := by
    rintro c es _ _ h ⟨⟩
    exact h

instance {x : Expectation} : Refuses n (fail x : Builder α) where
  refuses := by
    rintro c es _ _ - ⟨⟩

instance {b : Builder α} [hb : Refuses n b] : KeepsLast n b where
  keeps c es a c' h hgives := absurd hgives (hb.refuses c es a c' h)

/-- Two parts in a row that both keep the raw node at the end. -/
theorem KeepsLast.after {b : Builder α} [hb : KeepsLast n b] {f : α → Builder β}
    (hf : ∀ a, KeepsLast n (f a)) : KeepsLast n (b >>= f) where
  keeps c es x c' h hgives := by
    obtain ⟨a, c₁, hgives₁, hgives₂⟩ := gives_bind_iff.mp hgives
    exact (hf a).keeps c₁ c₁.rest x c' (hb.keeps c es a c₁ h hgives₁) hgives₂

/-- What comes behind a part that keeps the raw node at the end. -/
theorem Refuses.after {b : Builder α} [hb : KeepsLast n b] {f : α → Builder β}
    (hf : ∀ a, Refuses n (f a)) : Refuses n (b >>= f) where
  refuses c es x c' h hgives := by
    obtain ⟨a, c₁, hgives₁, hgives₂⟩ := gives_bind_iff.mp hgives
    exact (hf a).refuses c₁ c₁.rest x c' (hb.keeps c es a c₁ h hgives₁) hgives₂

instance {b : Builder α} {f : α → Builder β} [KeepsLast n b] [∀ a, KeepsLast n (f a)] :
    KeepsLast n (b >>= f) := .after inferInstance

instance {b : Builder α} {f : α → Builder β} [KeepsLast n b] [∀ a, Refuses n (f a)] :
    Refuses n (b >>= f) := .after inferInstance

/-- A part that refuses makes what follows refuse. -/
theorem Refuses.first {b : Builder α} [hb : Refuses n b] {f : α → Builder β} :
    Refuses n (b >>= f) where
  refuses c es x c' h hgives := by
    obtain ⟨a, c₁, hgives₁, -⟩ := gives_bind_iff.mp hgives
    exact hb.refuses c es a c₁ h hgives₁

instance {b : Builder α} {f : α → Builder β} [Refuses n b] : Refuses n (b >>= f) := .first

instance {p : Prop} [Decidable p] {b b' : Builder α} [KeepsLast n b] [KeepsLast n b'] :
    KeepsLast n (if p then b else b') := by
  split <;> infer_instance

instance {p : Prop} [Decidable p] {b b' : Builder α} [Refuses n b] [Refuses n b'] :
    Refuses n (if p then b else b') := by
  split <;> infer_instance

/-- The builder does not accept what it accepts with the raw node behind it. -/
def Strict (n : RawNode Element) (b : Builder α) : Prop :=
  ∀ (c : Children) es x c', b.Gives (c.holding es) x c' →
    ∀ (c₁ : Children) x' c₁', ¬ b.Gives (c₁.holding (es ++ [.raw n])) x' c₁'

/-- A builder that never accepts a raw node at the end is strict. -/
theorem Refuses.strict {b : Builder α} (h : Refuses n b) : Strict n b :=
  fun _ es _ _ _ c₁ x' c₁' => h.refuses c₁ _ x' c₁' ⟨es, rfl⟩

/-- Builders that accept some children, but no raw node behind others. -/
theorem Strict.of_nonempty {b : Builder α}
    (hnil : ∀ (c : Children) x c', ¬ b.Gives (c.holding []) x c')
    (hcons : ∀ (c : Children) e es x c', ¬ b.Gives (c.holding (e :: (es ++ [.raw n]))) x c') :
    Strict n b := by
  intro c es x c' h c₁ x' c₁' h'
  cases es with
  | nil => exact hnil c x c' h
  | cons e es => exact hcons c₁ e es x' c₁' h'

/-! ## Ways to take children -/

/-- Types as whose values raw nodes do not serve. -/
class Typed (α : Type) [OfElement α] : Prop where
  ofElement?_raw (n : RawNode Element) : (ofElement? (.raw n) : Option α) = none

/-- What serves as a value is no raw node. -/
theorem Typed.ne_raw [OfElement α] [Typed α] {e : Element} {a : α} (h : ofElement? e = some a) :
    e ≠ .raw n := by
  rintro rfl
  rw [Typed.ofElement?_raw] at h
  cases h

/-- Of elements that serve as values of such a type, none is a raw node. -/
theorem Typed.not_mem_of_serve [OfElement α] [Typed α] {es : List Element} {as : List α}
    (h : Serve es as) : .raw n ∉ es := by
  intro hmem
  obtain ⟨a, -, ha⟩ := h.exists_value hmem
  exact Typed.ne_raw ha rfl

instance : Typed Selector := ⟨fun _ => rfl⟩
instance : Typed Location := ⟨fun _ => rfl⟩
instance : Typed IncompleteLocation := ⟨fun _ => rfl⟩
instance : Typed EnumeratedValue := ⟨fun _ => rfl⟩
instance : Typed Parameter := ⟨fun _ => rfl⟩
instance : Typed Call := ⟨fun _ => rfl⟩
instance : Typed Indirection := ⟨fun _ => rfl⟩
instance : Typed DataType := ⟨fun _ => rfl⟩
instance : Typed StringType := ⟨fun _ => rfl⟩
instance : Typed Subrange := ⟨fun _ => rfl⟩
instance : Typed SubrangeType := ⟨fun _ => rfl⟩
instance : Typed EnumeratedType := ⟨fun _ => rfl⟩
instance : Typed ArrayType := ⟨fun _ => rfl⟩
instance : Typed ArrayInitialElement := ⟨fun _ => rfl⟩
instance : Typed ArrayInitialization := ⟨fun _ => rfl⟩
instance : Typed StructureElementInitialization := ⟨fun _ => rfl⟩
instance : Typed StructureInitialization := ⟨fun _ => rfl⟩
instance : Typed DeclaredVariable := ⟨fun _ => rfl⟩
instance : Typed (List DeclaredVariable) := ⟨fun _ => rfl⟩
instance : Typed (Flags VariableAttribute) := ⟨fun _ => rfl⟩
instance : Typed (Flags AccessSpecifier) := ⟨fun _ => rfl⟩
instance : Typed Edge := ⟨fun _ => rfl⟩
instance : Typed AccessDirection := ⟨fun _ => rfl⟩
instance : Typed (Anchored VariableDeclaration) := ⟨fun _ => rfl⟩
instance : Typed GlobalNames := ⟨fun _ => rfl⟩
instance : Typed (Anchored GlobalDeclaration) := ⟨fun _ => rfl⟩
instance : Typed (Anchored LocatedDeclaration) := ⟨fun _ => rfl⟩
instance : Typed (Anchored ExternalDeclaration) := ⟨fun _ => rfl⟩
instance : Typed (Anchored AccessDeclaration) := ⟨fun _ => rfl⟩
instance : Typed (Anchored Member) := ⟨fun _ => rfl⟩
instance : Typed TypeDeclaration := ⟨fun _ => rfl⟩
instance : Typed DeclarationBlock := ⟨fun _ => rfl⟩
instance : Typed Statement := ⟨fun _ => rfl⟩
instance : Typed (List Statement) := ⟨fun _ => rfl⟩
instance : Typed ElseIf := ⟨fun _ => rfl⟩
instance : Typed Else := ⟨fun _ => rfl⟩
instance : Typed Case := ⟨fun _ => rfl⟩
instance : Typed Body := ⟨fun _ => rfl⟩
instance : Typed Token := ⟨fun _ => rfl⟩
instance : Typed Expression := ⟨fun _ => rfl⟩
instance : Typed Variable := ⟨fun _ => rfl⟩
instance : Typed SymbolicVariable := ⟨fun _ => rfl⟩
instance : Typed DirectVariable := ⟨fun _ => rfl⟩
instance : Typed Integer := ⟨fun _ => rfl⟩
instance : Typed StringLiteral := ⟨fun _ => rfl⟩
instance : Typed Initializer := ⟨fun _ => rfl⟩
instance : Typed TypeSpecification := ⟨fun _ => rfl⟩
instance : Typed SpecInit := ⟨fun _ => rfl⟩

/-- A builder that takes children in front, none of which is the raw node, keeps it at the end. -/
theorem KeepsLast.of_front {b : Builder α}
    (h : ∀ (c : Children) es a c', (b >>= pure).Gives (c.holding es) a c' →
      ∃ fs, es = fs ++ c'.rest ∧ .raw n ∉ fs) : KeepsLast n b where
  keeps c es a c' hends hgives := by
    obtain ⟨fs, rfl, hfs⟩ := h c es a c' (hgives.bind pure_gives)
    exact hends.of_append hfs

section Values

variable [OfElement α] [Typed α]

instance : KeepsLast n (take α) := .of_front fun c es a c' h => by
  obtain ⟨e, rest, a', rfl, he, hpure⟩ := of_take h
  obtain ⟨-, rfl⟩ := of_pure hpure
  exact ⟨[e], rfl, Typed.not_mem_of_serve (.one he)⟩

instance : KeepsLast n (takeIf α) := .of_front fun c es a c' h => by
  obtain ⟨fs, rest, a', rfl, hserve, -, hpure⟩ := of_takeIf h
  obtain ⟨-, rfl⟩ := of_pure hpure
  exact ⟨fs, rfl, Typed.not_mem_of_serve hserve⟩

instance : KeepsLast n (takeWhile α) := .of_front fun c es a c' h => by
  obtain ⟨fs, rest, as, rfl, hserve, -, hpure⟩ := of_takeWhile h
  obtain ⟨-, rfl⟩ := of_pure hpure
  exact ⟨fs, rfl, Typed.not_mem_of_serve hserve⟩

instance : Refuses n (takeLast α) where
  refuses c es a c' := by
    rintro ⟨front, rfl⟩ hgives
    obtain ⟨e, rest, a', hes, he, -⟩ := of_takeLast (hgives.bind pure_gives)
    have hlast := List.append_inj_right' hes rfl
    exact Typed.ne_raw he (List.singleton_inj.mp hlast).symm

instance : KeepsLast n (takeLastIf α) where
  keeps c es a c' hends hgives := by
    obtain ⟨fs, rest, a', rfl, hserve, hpure⟩ := of_takeLastIf (hgives.bind pure_gives)
    obtain ⟨-, rfl⟩ := of_pure hpure
    cases a' with
    | none =>
        obtain rfl := serve_nil_iff.mp hserve
        rwa [List.append_nil] at hends
    | some a' =>
        obtain ⟨e, rfl, he⟩ := serve_one_iff.mp hserve
        obtain ⟨front, hfront⟩ := hends
        have hlast := List.append_inj_right' hfront rfl
        exact absurd (List.singleton_inj.mp hlast) (Typed.ne_raw he)

end Values

instance {r : Rule} : KeepsLast n (tokenIf r) := .of_front fun c es a c' h => by
  obtain ⟨t, rest, rfl, hpure⟩ := of_tokenIf h
  obtain ⟨-, rfl⟩ := of_pure hpure
  exact ⟨_, rfl, by simp⟩

instance {r : Rule} : KeepsLast n (tokenListIf r) := .of_front fun c es a c' h => by
  obtain ⟨ts, rest, rfl, hpure⟩ := of_tokenListIf h
  obtain ⟨-, rfl⟩ := of_pure hpure
  exact ⟨_, rfl, by simp⟩

instance {r : Rule} {o : Option α} : KeepsLast n (orMismatch r o) := by
  cases o with
  | none =>
      exact inferInstanceAs (KeepsLast n (get >>= fun c =>
        (fail (.child r.name (c.rest.head?.map Element.kind)) : Builder α)))
  | some a => exact inferInstanceAs (KeepsLast n (pure a))

instance {r : Rule} : KeepsLast n (token r) :=
  inferInstanceAs (KeepsLast n (tokenIf r >>= orMismatch r))

instance {r : Rule} : KeepsLast n (tokenList r) :=
  inferInstanceAs (KeepsLast n (tokenListIf r >>= orMismatch r))

instance {what : String} {as : List α} : KeepsLast n (nonEmpty what as) :=
  inferInstanceAs (KeepsLast n (if as.isEmpty then fail (.atLeastOne what) else pure as))

instance : Refuses n finish where
  refuses c es a c' h hgives := by
    obtain ⟨rfl, -⟩ := of_finish (hgives.bind pure_gives)
    exact not_ends_nil h

/-! ## Loops -/

instance {step : β → α → Builder β} [∀ b a, KeepsLast n (step b a)] {as : List α} {b : β} :
    KeepsLast n (as.foldlM step b) := by
  induction as generalizing b with
  | nil => exact inferInstanceAs (KeepsLast n (pure b))
  | cons a as ih =>
      rw [List.foldlM_cons]
      exact .after fun _ => ih

instance {f : α → Builder β} [∀ a, KeepsLast n (f a)] {as : List α} : KeepsLast n (as.mapM f) := by
  induction as with
  | nil => exact inferInstanceAs (KeepsLast n (pure []))
  | cons a as ih =>
      rw [List.mapM_cons]
      infer_instance

end Builder

namespace Build

open Grammar (Rule)
open Builder

variable {α : Type} {n : RawNode Element} {c c' : Children}

/-! ## Parts of builders -/

instance {what : String} {value? : Text → Option α} {t : Token} :
    KeepsLast n (letterOf what value? t) := by
  rw [letterOf]
  split <;> infer_instance

/-- The tokens in front are split off and keep their order. -/
theorem splitTokens_spec (r : Rule) (es : List Element) :
    es = (splitTokens r es).1.map (.token r) ++ (splitTokens r es).2 := by
  induction es with
  | nil => rfl
  | cons e es ih =>
      cases e with
      | token r' t =>
          rw [splitTokens]
          split
          case isTrue hr =>
            rw [hr, List.map_cons, List.cons_append, ← ih]
          case isFalse => rfl
      | _ => rfl

instance {r : Rule} : KeepsLast n (takeTokens r) := .of_front fun c es ts c' h => by
  obtain ⟨_, _, ⟨⟩, hpure⟩ := gives_bind_iff.mp h
  obtain ⟨-, rfl⟩ := of_pure hpure
  exact ⟨_, splitTokens_spec r es, by simp⟩

instance : Refuses n callOf := .after inferInstance

instance : KeepsLast n takeTime := .after inferInstance

instance : KeepsLast n takeDate := .after inferInstance

instance : KeepsLast n arrayElement := by
  refine .after fun o => ?_
  split <;> infer_instance

instance {name : Token} : KeepsLast n (globalAddress name) := by
  refine .after fun o => ?_
  split <;> infer_instance

instance : KeepsLast n globalInit := by
  refine .after fun o => ?_
  split <;> infer_instance

instance [OfElement (Anchored α)] [Typed (Anchored α)] : Refuses n (blockOf α) :=
  .after inferInstance

instance {what : String} {fits : SpecInit → Bool} : Refuses n (namedType what fits) :=
  .after inferInstance

instance : KeepsLast n takeBody := .after inferInstance

instance {statement : Builder SimpleStatement} [KeepsLast n statement] :
    Refuses n (simpleOf statement) :=
  .after inferInstance

instance {e : Element} : KeepsLast n (caseLabel e) := by
  rw [caseLabel]
  split <;> infer_instance

instance : KeepsLast n takeUnitBody := .after inferInstance

instance {heading : Builder (UnitKind × Token)} [KeepsLast n heading] :
    Refuses n (unitOf heading) :=
  .after inferInstance

instance {access : Flags AccessSpecifier} {t : Token} : KeepsLast n (addSpecifier access t) := by
  rw [addSpecifier]
  split <;> infer_instance

instance {kind : Builder ActionKind} [KeepsLast n kind] : Refuses n (actionOf kind) :=
  .after inferInstance

/-! ## Durations -/

/-- Only the rule of a part sets one. -/
theorem isDurationPart_of_setPart? {d d' : Duration} {number : Token} {r : Rule}
    (h : setPart? d number r = some d') : r.isDurationPart = true := by
  unfold setPart? at h
  split at h
  all_goals first | rfl | cases h

/-- Only a node of a part's rule is added to a duration. -/
theorem isDurationPart_of_addPart {d d' : Duration} {part : RawNode Element}
    (h : (addPart d part).Gives c d' c') : part.rule.isDurationPart = true := by
  rw [addPart] at h
  split at h
  · exact (not_gives_fail h).elim
  · split at h
    · exact (not_gives_fail h).elim
    · rename_i hset
      exact isDurationPart_of_setPart? hset

/-- All nodes that are added to a duration are of parts' rules. -/
theorem isDurationPart_of_addParts {d d' : Duration} {parts : List (RawNode Element)}
    (h : (parts.foldlM addPart d).Gives c d' c') :
    ∀ part ∈ parts, part.rule.isDurationPart = true := by
  induction parts generalizing d c with
  | nil => simp
  | cons part parts ih =>
      rw [List.foldlM_cons] at h
      obtain ⟨d₁, c₁, hpart, hparts⟩ := gives_bind_iff.mp h
      exact List.forall_mem_cons.mpr ⟨isDurationPart_of_addPart hpart, ih hparts⟩

/-- A duration takes raw nodes, but only those that are parts of it. -/
theorem duration_refuses (hn : n.rule.isDurationPart = false) : Refuses n duration where
  refuses c es x c' := by
    rintro ⟨front, rfl⟩ h
    obtain ⟨fs, rest, parts, hes, hserve, -, h₁⟩ := of_takeWhile h
    replace h₁ := of_get h₁
    split at h₁
    case isTrue => exact not_gives_fail_bind h₁
    case isFalse hleft =>
      obtain ⟨rfl, -⟩ : rest = [] ∧ parts ≠ [] := by simpa using hleft
      rw [List.append_nil] at hes
      obtain ⟨part, hpart, hraw⟩ := hserve.exists_value (e := .raw n) (by simp [← hes])
      cases hraw
      obtain ⟨d, c₁, hd, -⟩ := gives_bind_iff.mp h₁
      rw [isDurationPart_of_addParts hd n hpart] at hn
      cases hn

/-! ## Builders of their own kind -/

instance : Refuses n directVariable := by
  refine .after fun letter => .after fun area => .after fun size => ?_
  split <;> infer_instance

instance : Refuses n globalVarSpec := by
  refine .after fun listed => ?_
  split <;> infer_instance

instance : Refuses n variableAttribute := by
  refine .after fun t => ?_
  split <;> infer_instance

theorem arrayElement?_raw : arrayElement? (.raw n) = none := rfl

/-- All that is left is taken for elements of the array. -/
instance : Refuses n arrayInitialization where
  refuses c es x c' := by
    rintro ⟨front, rfl⟩ h
    rw [arrayInitialization] at h
    replace h := of_get h
    obtain ⟨elements, c₁, helements, -⟩ := gives_bind_iff.mp h
    have hfound : (front ++ [Element.raw n]).map arrayElement? = elements.map some :=
      arrayElements_found (Nat.le_refl _) helements
    have hmem : none ∈ (front ++ [Element.raw n]).map arrayElement? :=
      List.mem_map.mpr ⟨Element.raw n, by simp, arrayElement?_raw⟩
    rw [hfound] at hmem
    simp at hmem

/-- No operand and no operator of a chain is a raw node. -/
theorem Chained.not_ends {left x : Expression} {es : List Element} (h : Chained left es x) :
    ¬ Ends n es := by
  induction h with
  | done => exact not_ends_nil
  | next hf he _ ih =>
      intro hends
      exact ih ((hends.tail (Typed.ne_raw hf)).tail (Typed.ne_raw he))

/-- Two children are more than one. -/
theorem single_strict : Strict n single := by
  refine .of_nonempty (fun c x c' h => ?_) fun c e es x c' h => ?_
  · cases of_single h
  · simpa using of_single h

/-- A chain of odd length with one more child is of even length. -/
theorem binaryChain_strict : Strict n binaryChain := by
  refine .of_nonempty (fun c x c' h => ?_) fun c e es x c' h => ?_
  · obtain h | ⟨e, fs, left, y, h, -⟩ := of_binaryChain h <;> cases h
  · obtain h | ⟨e', fs, left, y, h, -, -, hchain, -⟩ := of_binaryChain h
    · simp at h
    · obtain ⟨-, rfl⟩ := List.cons.inj h
      exact hchain.not_ends ⟨es, rfl⟩

theorem unaryExpression_strict : Strict n unaryExpression := by
  refine .of_nonempty (fun c x c' h => ?_) fun c e es x c' h => ?_
  all_goals obtain ⟨o, rest, hes, h₁⟩ := of_tokenIf h
  · cases o with
    | none =>
        obtain rfl : [] = rest := hes
        cases of_single h₁
    | some op => cases hes
  · cases o with
    | none =>
        obtain rfl : e :: (es ++ [.raw n]) = rest := hes
        simpa using of_single h₁
    | some op =>
        obtain ⟨-, rfl⟩ := List.cons.inj hes
        exact Refuses.refuses (n := n) _ _ _ _ ⟨es, rfl⟩ h₁

/-- The first child of a case is a raw node itself, but another one behind it is left. -/
theorem caseElement_strict : Strict n caseElement := by
  refine .of_nonempty (fun c x c' h => ?_) fun c e es x c' h => ?_
  all_goals
    replace h := of_anchor h
    obtain ⟨e', rest, list, hes, he, h₁⟩ := of_take h
  · cases hes
  · obtain ⟨rfl, rfl⟩ := List.cons.inj hes
    dsimp only at h₁
    exact Refuses.refuses (n := n) _ _ _ _ ⟨es, rfl⟩ h₁

/-! ## The table -/

/-- No builder accepts what it accepts with a raw node behind it, unless it takes the raw node for a
part of a duration, or for an item of a file. -/
theorem strict_of_builder {r : Rule} {b : Builder Element} (hb : builder? r = some b)
    (hr : r ≠ .iecSource) (hn : n.rule.isDurationPart = false) : Strict n b := by
  cases r
  case expression | xorExpression | andExpression | comparisonExpression | equalityExpression
      | addExpression | expressionTerm | powerExpression =>
    cases hb
    exact binaryChain_strict
  case unaryExpression =>
    cases hb
    exact unaryExpression_strict
  case arrayInitialElement =>
    cases hb
    exact single_strict
  case caseElement =>
    cases hb
    exact caseElement_strict
  case duration =>
    cases hb
    exact (duration_refuses hn).strict
  case iecSource => exact absurd rfl hr
  -- the other rules have no builder, or one that looks whether a child is left
  all_goals first | (cases hb; done) | skip
  all_goals
    cases hb
    refine Refuses.strict ?_
    first
    | infer_instance
    | exact .after inferInstance
    | exact .first

/-- Where a builder accepts children, it fails when a raw node follows them, unless this is a part of
a duration, or the builder is that of whole files. And where a builder fails, on whatever children,
its error names the rule and the line of the construct and the number of children given at first. -/
theorem surplus_refused {r : Rule} {b : Builder Element} (hb : builder? r = some b) (line : Nat)
    (span : Span) (es : List Element) :
    (r ≠ .iecSource → ∀ x, b.build (.ofList r line span es) = .ok x →
      ∀ n : RawNode Element, n.rule.isDurationPart = false →
        ∃ e, b.build (.ofList r line span (es ++ [.raw n])) = .error e) ∧
    ∀ e, b.build (.ofList r line span es) = .error e →
      e.rule = r ∧ e.line = line ∧ e.received = es.length := by
  refine ⟨fun hr x hx n hn => ?_, fun e => error_of_build hb⟩
  have hgives : b.Gives ((Children.ofList r line span es).holding es) x
      (b.run (.ofList r line span es)).2 := Prod.ext hx rfl
  cases hsurplus : b.build (.ofList r line span (es ++ [.raw n])) with
  | error e => exact ⟨e, rfl⟩
  | ok x' =>
      have hgives' : b.Gives ((Children.ofList r line span (es ++ [.raw n])).holding
          (es ++ [.raw n])) x' (b.run (.ofList r line span (es ++ [.raw n]))).2 :=
        Prod.ext hsurplus rfl
      exact (strict_of_builder hb hr hn _ es x _ hgives _ x' _ hgives').elim

/-- A variable has a name and perhaps an address; when an interface follows its name, the error
counts both children, though the name was taken before. -/
theorem surplus_refused_variable :
    var1.build (.ofList .var1 7 {} [.token .identifier ⟨['x'], 7⟩]) =
      .ok (.declaredVariable ⟨⟨['x'], 7⟩, none⟩) ∧
    ∃ e, var1.build (.ofList .var1 7 {}
        [.token .identifier ⟨['x'], 7⟩, .raw ⟨.interfaceDeclaration, 7, {}, [], []⟩]) = .error e ∧
      e.rule = .var1 ∧ e.line = 7 ∧ e.received = 2 := by
  have hname : var1.build (.ofList .var1 7 {} [.token .identifier ⟨['x'], 7⟩]) =
      .ok (.declaredVariable ⟨⟨['x'], 7⟩, none⟩) := rfl
  obtain ⟨e, he⟩ := (surplus_refused (r := .var1) rfl 7 {} _).1 (by decide) _ hname
    ⟨.interfaceDeclaration, 7, {}, [], []⟩ rfl
  exact ⟨hname, e, he, (surplus_refused (r := .var1) rfl 7 {} _).2 e he⟩

end Build

end StructuredText
