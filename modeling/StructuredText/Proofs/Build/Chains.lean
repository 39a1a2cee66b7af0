import Mathlib.Data.List.Induction
import StructuredText.Proofs.Build.Failures
import StructuredText.Proofs.Build.Formation.Expressions

/-!
# Which children make a chain of operators

A level of operators passes a single child on, whatever it is. Of more children it makes an expression
exactly if they are operands and operators by turns, with an operand at each end; it takes the
operators from left to right, so the left spine of the expression has the operands and operators in
the order of the children. It accepts no other children.

* `Alternates` — children at even places are operands, those at odd places operators.
* `ChainOf` — the operands and operators that such children serve as.
* `Expression.leftSpine` — the operands and operators on the left spine of an expression.
* `Build.binaryChain_exact` — what a level of operators makes of any children.
-/

namespace StructuredText

/-! ## The left spine of an expression -/

/-- The left spine of an expression, read so many operators deep: the expression at which the reading
stops, and the operators above it, each with its right operand, from left to right. -/
def Expression.leftSpine : Nat → Expression → Expression × List (Token × Expression)
  | n + 1, .binary left op right =>
    let (e, rounds) := leftSpine n left
    (e, rounds ++ [(op, right)])
  | _, e => (e, [])

namespace Build

open Grammar (Rule)
open Builder

variable {e x : Element} {es : List Element} {left : Expression}
  {pairs : List (Element × Element)} {rounds : List (Token × Expression)}

theorem foldRounds_append_one (left : Expression) (rounds : List (Token × Expression))
    (op : Token) (right : Expression) :
    foldRounds left (rounds ++ [(op, right)]) = .binary (foldRounds left rounds) op right := by
  rw [foldRounds, List.foldl_append]
  rfl

/-- The left spine of a chain is that of its first operand, and above it the rounds of the chain. -/
theorem leftSpine_foldRounds (m : Nat) (left : Expression) (rounds : List (Token × Expression)) :
    (foldRounds left rounds).leftSpine (m + rounds.length) =
      ((left.leftSpine m).1, (left.leftSpine m).2 ++ rounds) := by
  induction rounds using List.reverseRecOn with
  | nil => simp [foldRounds]
  | append_singleton rounds o ih =>
      obtain ⟨op, right⟩ := o
      rw [foldRounds_append_one, List.length_append, List.length_singleton, ← Nat.add_assoc,
        Expression.leftSpine, ih]
      simp

/-! ## Operands and operators by turns -/

/-- The element serves as an operand. -/
def IsOperand (e : Element) : Prop := ∃ x : Expression, ofElement? e = some x

/-- The element is a token. -/
def IsOperator (e : Element) : Prop := ∃ r t, e = .token r t

/-- Elements at even places are operands, and elements at odd places operators. -/
def Alternates (es : List Element) : Prop :=
  ∀ i e, es[i]? = some e → if i % 2 = 0 then IsOperand e else IsOperator e

/-- The elements at even places serve as the first operand and the right operands of the rounds, and
those at odd places are the operators of the rounds. -/
structure ChainOf (es : List Element) (left : Expression) (rounds : List (Token × Expression)) :
    Prop where
  length_eq : es.length = 2 * rounds.length + 1
  first : es[0]?.bind ofElement? = some left
  operator : ∀ i o, rounds[i]? = some o → es[2 * i + 1]?.bind ofElement? = some o.1
  operand : ∀ i o, rounds[i]? = some o → es[2 * i + 2]?.bind ofElement? = some o.2

theorem isOperator_iff : IsOperator e ↔ ∃ t : Token, ofElement? e = some t := by
  constructor
  · rintro ⟨r, t, rfl⟩
    exact ⟨t, rfl⟩
  · rintro ⟨t, ht⟩
    cases e <;> cases ht
    exact ⟨_, _, rfl⟩

theorem alternates_one_iff : Alternates [e] ↔ IsOperand e := by
  constructor
  · intro h
    exact h 0 e rfl
  · rintro he (_ | i) e' hi
    · cases hi
      exact he
    · simp at hi

theorem alternates_cons_cons_iff {f : Element} :
    Alternates (e :: f :: es) ↔ IsOperand e ∧ IsOperator f ∧ Alternates es := by
  constructor
  · intro h
    refine ⟨h 0 e rfl, h 1 f rfl, fun i e' hi => ?_⟩
    have hshift := h (i + 2) e' (by simpa using hi)
    rwa [Nat.add_mod_right] at hshift
  · rintro ⟨he, hf, hes⟩ (_ | _ | i) e' hi
    · cases hi
      exact he
    · cases hi
      exact hf
    · have hplace := hes i e' (by simpa using hi)
      rwa [← Nat.add_mod_right] at hplace

/-- An odd number of elements that alternate are an operand and rounds. -/
theorem exists_rounds_of_alternates (es : List Element) (hodd : es.length % 2 = 1)
    (h : Alternates es) :
    ∃ e pairs rounds, ∃ left : Expression, es = e :: roundElements pairs ∧
      ofElement? e = some left ∧ ServeRounds pairs rounds := by
  match es with
  | [] => simp at hodd
  | [e] =>
      obtain ⟨left, hleft⟩ := alternates_one_iff.mp h
      exact ⟨e, [], [], left, rfl, hleft, .nil⟩
  | e :: f :: es =>
      obtain ⟨⟨left, hleft⟩, hf, hes⟩ := alternates_cons_cons_iff.mp h
      obtain ⟨op, hop⟩ := isOperator_iff.mp hf
      have hodd' : es.length % 2 = 1 := by
        rwa [List.length_cons, List.length_cons, Nat.add_assoc, Nat.add_mod_right] at hodd
      obtain ⟨e', pairs, rounds, right, rfl, hright, hrounds⟩ :=
        exists_rounds_of_alternates es hodd' hes
      exact ⟨e, (f, e') :: pairs, (op, right) :: rounds, left, rfl, hleft,
        serveRounds_cons_iff.mpr ⟨op, right, rounds, rfl, hop, hright, hrounds⟩⟩

theorem alternates_of_rounds (he : ofElement? e = some left) (h : ServeRounds pairs rounds) :
    Alternates (e :: roundElements pairs) := by
  induction pairs generalizing e left rounds with
  | nil => exact alternates_one_iff.mpr ⟨left, he⟩
  | cons p pairs ih =>
      obtain ⟨op, right, rounds, rfl, hop, hright, hrounds⟩ := serveRounds_cons_iff.mp h
      exact alternates_cons_cons_iff.mpr
        ⟨⟨left, he⟩, isOperator_iff.mpr ⟨op, hop⟩, ih hright hrounds⟩

theorem length_roundElements (pairs : List (Element × Element)) :
    (roundElements pairs).length = 2 * pairs.length := by
  induction pairs with
  | nil => rfl
  | cons p pairs ih =>
      show (p.1 :: p.2 :: roundElements pairs).length = _
      rw [List.length_cons, List.length_cons, ih, List.length_cons]
      omega

/-- The rounds of a chain stand two by two. -/
theorem getElem?_roundElements (pairs : List (Element × Element)) (i : Nat) :
    (roundElements pairs)[2 * i]? = pairs[i]?.map Prod.fst ∧
      (roundElements pairs)[2 * i + 1]? = pairs[i]?.map Prod.snd := by
  induction pairs generalizing i with
  | nil => exact ⟨rfl, rfl⟩
  | cons p pairs ih =>
      cases i with
      | zero => exact ⟨rfl, rfl⟩
      | succ i => exact ih i

theorem ServeRounds.of_getElem? (h : ServeRounds pairs rounds) {i : Nat} {o : Token × Expression}
    (ho : rounds[i]? = some o) :
    ∃ p, pairs[i]? = some p ∧ ofElement? p.1 = some o.1 ∧ ofElement? p.2 = some o.2 := by
  induction pairs generalizing rounds i with
  | nil =>
      obtain rfl : rounds = [] := by simpa [ServeRounds] using h.symm
      cases ho
  | cons p pairs ih =>
      obtain ⟨op, right, rounds, rfl, hop, hright, hrounds⟩ := serveRounds_cons_iff.mp h
      cases i with
      | zero =>
          cases ho
          exact ⟨p, rfl, hop, hright⟩
      | succ i => exact ih hrounds ho

theorem chainOf_of_rounds (he : ofElement? e = some left) (h : ServeRounds pairs rounds) :
    ChainOf (e :: roundElements pairs) left rounds := by
  have hlength : pairs.length = rounds.length := by simpa using congrArg List.length h
  refine ⟨by rw [List.length_cons, length_roundElements, hlength], he, fun i o ho => ?_,
    fun i o ho => ?_⟩
  · obtain ⟨p, hp, hop, -⟩ := h.of_getElem? ho
    rw [List.getElem?_cons_succ, (getElem?_roundElements pairs i).1, hp]
    exact hop
  · obtain ⟨p, hp, -, hright⟩ := h.of_getElem? ho
    rw [List.getElem?_cons_succ, (getElem?_roundElements pairs i).2, hp]
    exact hright

/-! ## What a level of operators makes -/

theorem Chained.exists_rounds {y : Expression} (h : Chained left es y) :
    ∃ pairs rounds, es = roundElements pairs ∧ ServeRounds pairs rounds ∧
      y = foldRounds left rounds := by
  induction h with
  | done x => exact ⟨[], [], rfl, .nil, rfl⟩
  | @next left right x op f e es hf he _ ih =>
      obtain ⟨pairs, rounds, rfl, hrounds, rfl⟩ := ih
      exact ⟨(f, e) :: pairs, (op, right) :: rounds, rfl,
        serveRounds_cons_iff.mpr ⟨op, right, rounds, rfl, hf, he, hrounds⟩, rfl⟩

theorem build_single (r : Rule) (line : Nat) (span : Span) (e : Element) :
    binaryChain.build (.ofList r line span [e]) = .ok e :=
  (binaryChain_gives_single (c := .ofList r line span [e]) e).build

/-- What was made of several children is the chain that they are. -/
theorem exists_chainOf_of_build {r : Rule} {line : Nat} {span : Span} (hone : es.length ≠ 1)
    (h : binaryChain.build (.ofList r line span es) = .ok x) :
    Alternates es ∧
      ∃ left rounds, ChainOf es left rounds ∧ x = .expression (foldRounds left rounds) := by
  have hgives : binaryChain.Gives ((Children.ofList r line span es).holding es) x
      (binaryChain.run (.ofList r line span es)).2 := Prod.ext h rfl
  obtain rfl | ⟨e, fs, left, y, rfl, -, he, hchain, rfl⟩ := of_binaryChain hgives
  · exact absurd rfl hone
  · obtain ⟨pairs, rounds, rfl, hrounds, rfl⟩ := hchain.exists_rounds
    exact ⟨alternates_of_rounds he hrounds, left, rounds, chainOf_of_rounds he hrounds, rfl⟩

theorem exists_build_of_alternates (r : Rule) (line : Nat) (span : Span) (hone : es.length ≠ 1)
    (hodd : es.length % 2 = 1) (h : Alternates es) :
    ∃ x, binaryChain.build (.ofList r line span es) = .ok x := by
  obtain ⟨e, pairs, rounds, left, rfl, hleft, hrounds⟩ := exists_rounds_of_alternates es hodd h
  have hne : pairs ≠ [] := by
    rintro rfl
    exact hone rfl
  let c := Children.ofList r line span (e :: roundElements pairs)
  exact ⟨_, (binaryChain_gives (c := c) hleft hne hrounds).build⟩

/-- Every other list of children is refused, with an error about the construct. -/
theorem exists_error_of_not_alternates (r : Rule) (line : Nat) (span : Span) (hone : es.length ≠ 1)
    (h : ¬ (es.length % 2 = 1 ∧ Alternates es)) :
    ∃ x, binaryChain.build (.ofList r line span es) = .error x ∧ x.rule = r ∧ x.line = line ∧
      x.received = es.length := by
  cases hbuild : binaryChain.build (.ofList r line span es) with
  | ok x =>
      obtain ⟨halternates, left, rounds, hchain, -⟩ := exists_chainOf_of_build hone hbuild
      have hlength := hchain.length_eq
      exact absurd ⟨by omega, halternates⟩ h
  | error x =>
      obtain ⟨expected, rfl⟩ := Framed.error (b := binaryChain) _ _ hbuild
      exact ⟨_, rfl, rfl, rfl, rfl⟩

/-- A level of operators passes a single child on. Of an odd number of children, more than one, it
makes an expression exactly if they alternate, and then it is their chain, with the operators taken
from left to right: read back, its left spine has the operands and operators in the order of the
children. It refuses all other children. -/
theorem binaryChain_exact (r : Rule) (line : Nat) (span : Span) (es : List Element) :
    (∀ e, es = [e] → binaryChain.build (.ofList r line span es) = .ok e) ∧
    (∀ n, 1 ≤ n → es.length = 2 * n + 1 →
      ((∃ x, binaryChain.build (.ofList r line span es) = .ok x) ↔ Alternates es) ∧
      ∀ x, binaryChain.build (.ofList r line span es) = .ok x →
        ∃ left rounds, ChainOf es left rounds ∧ x = .expression (foldRounds left rounds) ∧
          (foldRounds left rounds).leftSpine n = (left, rounds)) ∧
    (es.length ≠ 1 → ¬ (es.length % 2 = 1 ∧ Alternates es) →
      ∃ x, binaryChain.build (.ofList r line span es) = .error x ∧ x.rule = r ∧ x.line = line ∧
        x.received = es.length) := by
  -- One child, an odd number of them, and all others.
  refine ⟨?_, fun n hn hlength => ⟨⟨?_, ?_⟩, ?_⟩, exists_error_of_not_alternates r line span⟩
  · rintro e rfl
    exact build_single r line span e
  · rintro ⟨x, hx⟩
    exact (exists_chainOf_of_build (by omega) hx).1
  · exact exists_build_of_alternates r line span (by omega) (by omega)
  · intro x hx
    obtain ⟨-, left, rounds, hchain, rfl⟩ := exists_chainOf_of_build (by omega) hx
    refine ⟨left, rounds, hchain, rfl, ?_⟩
    obtain rfl : n = rounds.length := by
      have hrounds := hchain.length_eq
      omega
    have hspine := leftSpine_foldRounds 0 left rounds
    rwa [Nat.zero_add] at hspine

end Build

end StructuredText
