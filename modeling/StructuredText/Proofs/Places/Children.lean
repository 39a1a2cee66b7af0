import StructuredText.Proofs.Build.Inversion
import StructuredText.Proofs.Places.Trees

/-!
# Builders that look at no place

A builder may ask for the anchor of its construct and put it into what it makes, but it never decides
by it. From the children without their places it therefore makes the same as from the children,
without its places.

* `Element.unplaced` — an element without the places of what it serves as.
* `Still`, `Placed` — types whose values have no places, and types whose values have some.
* `Builder.Follows` — what a builder makes of children without places is told by what another makes.
* `Builder.Steady` — a builder makes the same value with places and without.
-/

namespace StructuredText

/-! ## Elements -/

mutual

/-- An element without the places of what it serves as; of a raw node its text is left out too. -/
def Element.unplaced : Element → Element
  | .raw ⟨rule, line, _, _, es⟩ => .raw ⟨rule, line, {}, [], Element.unplacedEach es⟩
  | .declaration d => .declaration d.unplaced
  | .globalDeclaration d => .globalDeclaration d.unplaced
  | .locatedDeclaration d => .locatedDeclaration d.unplaced
  | .externalDeclaration d => .externalDeclaration d.unplaced
  | .accessDeclaration d => .accessDeclaration d.unplaced
  | .member d => .member d.unplaced
  | .typeDeclaration t => .typeDeclaration t.unplaced
  | .block b => .block b.unplaced
  | .statement s => .statement s.unplaced
  | .statements ss => .statements (ss.map Statement.unplaced)
  | .elseIf e => .elseIf e.unplaced
  | .otherwise e => .otherwise e.unplaced
  | .case c => .case c.unplaced
  | .body b => .body b.unplaced
  | .item i => .item i.unplaced
  | .file f => .file f.unplaced
  | e => e
termination_by structural e => e

def Element.unplacedEach : List Element → List Element
  | [] => []
  | e :: es => e.unplaced :: Element.unplacedEach es
termination_by structural es => es

end

theorem Element.unplacedEach_eq_map (es : List Element) :
    Element.unplacedEach es = es.map Element.unplaced := by
  induction es with
  | nil => rfl
  | cons e es ih => rw [Element.unplacedEach, ih, List.map_cons]

/-- A raw node without its place, its text and the places of its children. -/
def RawNode.unplaced (n : RawNode Element) : RawNode Element :=
  { n with span := {}, text := [], children := n.children.map Element.unplaced }

/-- A raw node without its places is raw. -/
theorem Element.unplaced_raw (n : RawNode Element) :
    (Element.raw n).unplaced = .raw n.unplaced := by
  rw [RawNode.unplaced, ← Element.unplacedEach_eq_map]
  rfl

/-- A token keeps its text and its line. -/
theorem RawNode.token?_unplaced (n : RawNode Element) : n.unplaced.token? = n.token? := by
  obtain ⟨rule, line, span, text, children⟩ := n
  match children with
  | [] => rfl
  | [e] => cases e <;> rfl
  | e :: _ :: _ => cases e <;> rfl

/-! ## Values -/

/-- Without its places an element serves as the values that it serves as, with `u` applied to
them. -/
def Unplaces {α : Type} [OfElement α] (u : α → α) : Prop :=
  ∀ e : Element, ofElement? e.unplaced = (ofElement? e).map u

/-- Types whose values have no places. -/
class Still (α : Type) [OfElement α] : Prop where
  ofElement?_unplaced (e : Element) : (ofElement? e.unplaced : Option α) = ofElement? e

/-- Values without places are the same in a text without places. -/
theorem Still.unplaces {α : Type} [OfElement α] [Still α] : Unplaces (id : α → α) := by
  intro e
  rw [Still.ofElement?_unplaced, Option.map_id]
  rfl

instance : Still Literal := ⟨fun e => by cases e <;> rfl⟩
instance : Still Selector := ⟨fun e => by cases e <;> rfl⟩
instance : Still Location := ⟨fun e => by cases e <;> rfl⟩
instance : Still IncompleteLocation := ⟨fun e => by cases e <;> rfl⟩
instance : Still EnumeratedValue := ⟨fun e => by cases e <;> rfl⟩
instance : Still Parameter := ⟨fun e => by cases e <;> rfl⟩
instance : Still Call := ⟨fun e => by cases e <;> rfl⟩
instance : Still Indirection := ⟨fun e => by cases e <;> rfl⟩
instance : Still DataType := ⟨fun e => by cases e <;> rfl⟩
instance : Still StringType := ⟨fun e => by cases e <;> rfl⟩
instance : Still Subrange := ⟨fun e => by cases e <;> rfl⟩
instance : Still SubrangeType := ⟨fun e => by cases e <;> rfl⟩
instance : Still EnumeratedType := ⟨fun e => by cases e <;> rfl⟩
instance : Still ArrayType := ⟨fun e => by cases e <;> rfl⟩
instance : Still ArrayInitialElement := ⟨fun e => by cases e <;> rfl⟩
instance : Still ArrayInitialization := ⟨fun e => by cases e <;> rfl⟩
instance : Still StructureElementInitialization := ⟨fun e => by cases e <;> rfl⟩
instance : Still StructureInitialization := ⟨fun e => by cases e <;> rfl⟩
instance : Still InitializedStructure := ⟨fun e => by cases e <;> rfl⟩
instance : Still DeclaredVariable := ⟨fun e => by cases e <;> rfl⟩
instance : Still (List DeclaredVariable) := ⟨fun e => by cases e <;> rfl⟩
instance : Still (Flags VariableAttribute) := ⟨fun e => by cases e <;> rfl⟩
instance : Still (Flags AccessSpecifier) := ⟨fun e => by cases e <;> rfl⟩
instance : Still Edge := ⟨fun e => by cases e <;> rfl⟩
instance : Still AccessDirection := ⟨fun e => by cases e <;> rfl⟩
instance : Still GlobalNames := ⟨fun e => by cases e <;> rfl⟩
instance : Still Token := ⟨fun e => by cases e <;> rfl⟩
instance : Still Expression := ⟨fun e => by cases e <;> rfl⟩
instance : Still Variable := ⟨fun e => by cases e <;> rfl⟩
instance : Still SymbolicVariable := ⟨fun e => by cases e <;> rfl⟩
instance : Still DirectVariable := ⟨fun e => by cases e <;> rfl⟩
instance : Still Integer := ⟨fun e => by cases e <;> rfl⟩
instance : Still StringLiteral := ⟨fun e => by cases e <;> rfl⟩
instance : Still Initializer := ⟨fun e => by cases e <;> rfl⟩
instance : Still CaseLabel := ⟨fun e => by cases e <;> rfl⟩
instance : Still TypeSpecification := ⟨fun e => by cases e <;> rfl⟩
instance : Still SpecInit := ⟨fun e => by cases e <;> rfl⟩

/-- Types whose values have places. -/
class Placed (α : Type) [OfElement α] where
  /-- The value without its places. -/
  unplaced : α → α
  unplaces : Unplaces unplaced

instance : Placed (Anchored VariableDeclaration) := ⟨Anchored.unplaced, fun e => by cases e <;> rfl⟩
instance : Placed (Anchored GlobalDeclaration) := ⟨Anchored.unplaced, fun e => by cases e <;> rfl⟩
instance : Placed (Anchored LocatedDeclaration) := ⟨Anchored.unplaced, fun e => by cases e <;> rfl⟩
instance : Placed (Anchored ExternalDeclaration) := ⟨Anchored.unplaced, fun e => by cases e <;> rfl⟩
instance : Placed (Anchored AccessDeclaration) := ⟨Anchored.unplaced, fun e => by cases e <;> rfl⟩
instance : Placed (Anchored Member) := ⟨Anchored.unplaced, fun e => by cases e <;> rfl⟩
instance : Placed TypeDeclaration := ⟨TypeDeclaration.unplaced, fun e => by cases e <;> rfl⟩
instance : Placed DeclarationBlock := ⟨DeclarationBlock.unplaced, fun e => by cases e <;> rfl⟩
instance : Placed Statement := ⟨Statement.unplaced, fun e => by cases e <;> rfl⟩
instance : Placed (List Statement) := ⟨List.map Statement.unplaced, fun e => by cases e <;> rfl⟩
instance : Placed ElseIf := ⟨ElseIf.unplaced, fun e => by cases e <;> rfl⟩
instance : Placed Else := ⟨Else.unplaced, fun e => by cases e <;> rfl⟩
instance : Placed Case := ⟨Case.unplaced, fun e => by cases e <;> rfl⟩
instance : Placed Body := ⟨Body.unplaced, fun e => by cases e <;> rfl⟩

instance : Placed (RawNode Element) where
  unplaced := RawNode.unplaced
  unplaces e := by
    cases e with
    | raw n => exact congrArg ofElement? (Element.unplaced_raw n)
    | _ => rfl

instance : Placed Item where
  unplaced := Item.unplaced
  unplaces e := by
    cases e with
    | block b => cases b <;> rfl
    | _ => rfl

/-! ## Ways to take children -/

/-- The children of a construct without their places and its own. -/
def Children.unplaced (c : Children) : Children :=
  { c with span := {}, rest := c.rest.map Element.unplaced }

/-- The first child left, without its places. -/
theorem Children.head?_unplaced (c : Children) :
    c.unplaced.rest.head? = c.rest.head?.map Element.unplaced := List.head?_map

/-- The last child left, without its places. -/
theorem Children.getLast?_unplaced (c : Children) :
    c.unplaced.rest.getLast? = c.rest.getLast?.map Element.unplaced := List.getLast?_map

namespace Builder

variable {α β : Type} {u : α → α} {v : β → β} {a a' : α}

/-- From children without places, the second builder makes what the first makes of the children, with
`u` applied to it. -/
def Follows (u : α → α) (b b' : Builder α) : Prop :=
  ∀ c a c', b.Gives c a c' → b'.Gives c.unplaced (u a) c'.unplaced

/-- Handing a value out follows itself. -/
theorem Follows.pure (h : u a = a') : Follows u (pure a) (pure a') := by
  rintro c _ _ ⟨⟩
  rw [h]
  exact pure_gives

/-- A builder that always fails is followed by any other. -/
theorem follows_fail {x : Expectation} {b : Builder α} : Follows u (fail x) b := by
  rintro c _ _ ⟨⟩

/-- Builders in a row follow one another step by step. -/
theorem Follows.bind {b b' : Builder α} {f f' : α → Builder β} (hb : Follows u b b')
    (hf : ∀ a, Follows v (f a) (f' (u a))) : Follows v (b >>= f) (b' >>= f') := by
  intro c x c' h
  obtain ⟨a, c₁, hgives, hrest⟩ := gives_bind_iff.mp h
  exact (hb c a c₁ hgives).bind (hf a c₁ x c' hrest)

/-- Reading the children sees them without their places. -/
theorem follows_get : Follows Children.unplaced get get := by
  rintro c _ _ ⟨⟩
  exact get_gives

/-- The anchor of the node, without its place. -/
theorem follows_anchor : Follows Anchor.unplaced anchor anchor := by
  rintro c _ _ ⟨⟩
  exact anchor_gives

/-- Taking the first child away goes the same way in both rows. -/
theorem follows_tookFirst (h : u a = a') : Follows u (tookFirst a) (tookFirst a') := by
  rintro c _ _ ⟨⟩
  have hrun : (tookFirst a').Gives c.unplaced a' { c.unplaced with rest := c.unplaced.rest.tail } :=
    rfl
  have htail : c.unplaced.rest.tail = c.rest.tail.map Element.unplaced := List.map_tail.symm
  rw [htail] at hrun
  rw [h]
  exact hrun

/-- Taking the last child away goes the same way in both rows. -/
theorem follows_tookLast (h : u a = a') : Follows u (tookLast a) (tookLast a') := by
  rintro c _ _ ⟨⟩
  have hrun : (tookLast a').Gives c.unplaced a'
      { c.unplaced with rest := c.unplaced.rest.dropLast } := rfl
  have hlast : c.unplaced.rest.dropLast = c.rest.dropLast.map Element.unplaced :=
    List.map_dropLast.symm
  rw [hlast] at hrun
  rw [h]
  exact hrun

/-- A child that is put back keeps its turn at the front. -/
theorem follows_putFirst (e : Element) : Follows id (putFirst e) (putFirst e.unplaced) := by
  rintro c _ _ ⟨⟩
  exact putFirst_gives (c := c.unplaced)

/-- A child that is put back keeps its turn at the end. -/
theorem follows_putLast (e : Element) : Follows id (putLast e) (putLast e.unplaced) := by
  rintro c _ _ ⟨⟩
  have hrun : (putLast e.unplaced).Gives c.unplaced ()
      { c.unplaced with rest := c.unplaced.rest ++ [e.unplaced] } := rfl
  have hlast : (c.rest ++ [e]).map Element.unplaced = c.unplaced.rest ++ [e.unplaced] :=
    List.map_append
  rw [← hlast] at hrun
  exact hrun

end Builder

namespace Unplaces

open Builder

variable {α : Type} [OfElement α] {u : α → α}

/-- What an element converts to, it converts to without its places. -/
theorem ok (h : Unplaces u) {e : Element} {a : α} (he : ofElement e = .ok a) :
    ofElement e.unplaced = .ok (u a) := by
  rw [← ofElement?_eq_some_iff] at he ⊢
  rw [h e, he, Option.map_some]

/-- An element that does not convert does not convert without its places either. -/
theorem error (h : Unplaces u) {e e' : Element}
    (he : (ofElement e : Except Element α) = .error e') :
    e' = e ∧ (ofElement e.unplaced : Except Element α) = .error e.unplaced := by
  obtain rfl := OfElement.handsBack he
  rw [← ofElement?_eq_none_iff] at he ⊢
  rw [h, he, Option.map_none]
  exact ⟨rfl, rfl⟩

/-- A required child is there in both rows or in neither. -/
theorem require (h : Unplaces u) (child : Option Element) :
    Follows u (Builder.require child) (Builder.require (child.map Element.unplaced)) := by
  cases child with
  | none => exact follows_fail
  | some e =>
      cases he : (ofElement e : Except Element α) with
      | error e' =>
          simp only [Builder.require, he]
          exact follows_fail
      | ok a =>
          simp only [Builder.require, Option.map_some, he, h.ok he]
          exact .pure rfl

/-- A child is accepted in both rows, or put back in both. -/
theorem acceptOr (h : Unplaces u) {putBack : Element → Builder Unit}
    (hback : ∀ e, Follows id (putBack e) (putBack e.unplaced)) (e : Element) :
    Follows (Option.map u) (Builder.acceptOr α putBack e)
      (Builder.acceptOr α putBack e.unplaced) := by
  cases he : (ofElement e : Except Element α) with
  | error e' =>
      obtain ⟨rfl, hunplaced⟩ := h.error he
      simp only [Builder.acceptOr, he, hunplaced]
      exact (hback _).bind fun _ => .pure rfl
  | ok a =>
      simp only [Builder.acceptOr, he, h.ok he]
      exact .pure rfl

/-- Taking the first child. -/
theorem take (h : Unplaces u) : Follows u (Builder.take α) (Builder.take α) := by
  refine follows_get.bind fun c => ?_
  rw [Children.head?_unplaced]
  exact (follows_tookFirst (u := id) rfl).bind fun _ => h.require _

/-- Taking the last child. -/
theorem takeLast (h : Unplaces u) : Follows u (Builder.takeLast α) (Builder.takeLast α) := by
  refine follows_get.bind fun c => ?_
  rw [Children.getLast?_unplaced]
  exact (follows_tookLast (u := id) rfl).bind fun _ => h.require _

/-- Taking the first child if it fits. -/
theorem takeIf (h : Unplaces u) :
    Follows (Option.map u) (Builder.takeIf α) (Builder.takeIf α) := by
  refine follows_get.bind fun c => ?_
  rw [Children.head?_unplaced]
  cases c.rest.head? with
  | none => exact .pure rfl
  | some e =>
      exact (follows_tookFirst (u := id) rfl).bind fun _ => h.acceptOr follows_putFirst e

/-- Taking the last child if it fits. -/
theorem takeLastIf (h : Unplaces u) :
    Follows (Option.map u) (Builder.takeLastIf α) (Builder.takeLastIf α) := by
  refine follows_get.bind fun c => ?_
  rw [Children.getLast?_unplaced]
  cases c.rest.getLast? with
  | none => exact .pure rfl
  | some e =>
      exact (follows_tookLast (u := id) rfl).bind fun _ => h.acceptOr follows_putLast e

/-- A row is split at the same element with its places and without them. -/
theorem splitWhile (h : Unplaces u) (es : List Element) :
    Builder.splitWhile α (es.map Element.unplaced) =
      ((Builder.splitWhile α es).1.map u, (Builder.splitWhile α es).2.map Element.unplaced) := by
  induction es with
  | nil => rfl
  | cons e es ih =>
      rw [List.map_cons, Builder.splitWhile, Builder.splitWhile]
      cases he : (ofElement e : Except Element α) with
      | error e' =>
          obtain ⟨rfl, hunplaced⟩ := h.error he
          rw [hunplaced]
          rfl
      | ok a =>
          rw [h.ok he, ih]
          rfl

/-- Taking the children in front that fit. -/
theorem takeWhile (h : Unplaces u) :
    Follows (List.map u) (Builder.takeWhile α) (Builder.takeWhile α) := by
  intro c as c' hgives
  have hrun (c : Children) : (Builder.takeWhile α).Gives c (Builder.splitWhile α c.rest).1
      { c with rest := (Builder.splitWhile α c.rest).2 } := rfl
  obtain ⟨rfl, rfl⟩ := hgives.unique (hrun c)
  have hrun' := hrun c.unplaced
  have hrest : c.unplaced.rest = c.rest.map Element.unplaced := rfl
  rw [hrest, h.splitWhile] at hrun'
  exact hrun'

end Unplaces

namespace Builder

open Grammar (Rule)

variable {α β : Type} {u : α → α} {v : β → β}

/-! ## Steady builders -/

/-- The builder makes the same value of the children without places as of the children. -/
class Steady (b : Builder α) : Prop where
  follows : Follows id b b

/-- What comes behind a steady part. -/
theorem Follows.after {b : Builder α} [hb : Steady b] {f f' : α → Builder β}
    (hf : ∀ a, Follows v (f a) (f' a)) : Follows v (b >>= f) (b >>= f') := hb.follows.bind hf

instance {a : α} : Steady (pure a) := ⟨.pure rfl⟩

instance {x : Expectation} : Steady (fail x : Builder α) := ⟨follows_fail⟩

instance {b : Builder α} {f : α → Builder β} [Steady b] [hf : ∀ a, Steady (f a)] :
    Steady (b >>= f) := ⟨.after fun a => (hf a).follows⟩

section Values

variable [OfElement α] [Still α]

instance : Steady (take α) := ⟨Still.unplaces (α := α).take⟩

instance : Steady (takeLast α) := ⟨Still.unplaces (α := α).takeLast⟩

instance : Steady (takeIf α) := ⟨by simpa using Still.unplaces (α := α).takeIf⟩

instance : Steady (takeLastIf α) := ⟨by simpa using Still.unplaces (α := α).takeLastIf⟩

instance : Steady (takeWhile α) := ⟨by simpa using Still.unplaces (α := α).takeWhile⟩

end Values

instance {r : Rule} : Steady (tokenIf r) where
  follows := by
    refine follows_get.bind fun c => ?_
    obtain ⟨rule, line, span, received, _ | ⟨e, es⟩⟩ := c
    · exact .pure rfl
    · cases e with
      | token r' t =>
          show Follows id (if r' = r then tookFirst (some t) else pure none)
            (if r' = r then tookFirst (some t) else pure none)
          split
          · exact follows_tookFirst rfl
          · exact .pure rfl
      | _ => exact .pure rfl

instance {r : Rule} : Steady (tokenListIf r) where
  follows := by
    refine follows_get.bind fun c => ?_
    obtain ⟨rule, line, span, received, _ | ⟨e, es⟩⟩ := c
    · exact .pure rfl
    · cases e with
      | tokens r' ts =>
          show Follows id (if r' = r then tookFirst (some ts) else pure none)
            (if r' = r then tookFirst (some ts) else pure none)
          split
          · exact follows_tookFirst rfl
          · exact .pure rfl
      | _ => exact .pure rfl

instance {r : Rule} {o : Option α} : Steady (orMismatch r o) where
  follows := by
    cases o with
    | none => exact follows_get.bind fun _ => follows_fail
    | some a => exact .pure rfl

instance {r : Rule} : Steady (token r) := inferInstanceAs (Steady (tokenIf r >>= orMismatch r))

instance {r : Rule} : Steady (tokenList r) :=
  inferInstanceAs (Steady (tokenListIf r >>= orMismatch r))

instance {what : String} {as : List α} : Steady (nonEmpty what as) where
  follows := by
    rw [nonEmpty]
    split
    · exact follows_fail
    · exact .pure rfl

instance : Steady finish where
  follows := by
    refine follows_get.bind fun c => ?_
    obtain ⟨rule, line, span, received, _ | ⟨e, es⟩⟩ := c
    · exact .pure rfl
    · exact follows_fail

/-- What is passed on is passed on without its places. -/
theorem follows_single : Follows Element.unplaced single single := by
  refine follows_get.bind fun c => ?_
  obtain ⟨rule, line, span, received, rest⟩ := c
  match rest with
  | [] => exact follows_fail
  | [e] => exact .pure rfl
  | e :: f :: es => exact follows_fail

end Builder

end StructuredText
