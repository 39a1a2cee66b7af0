import StructuredText.Build.Tree
import StructuredText.Proofs.Comments.Gaps
import StructuredText.Proofs.Grammar.Search

/-!
# How expressions are layered and spread

Operators have eight levels. In a layered expression the operands of an operator bind more tightly
than the operator, except that a left operand may be of the same level; what binds less tightly
stands in parentheses. The lexemes of an expression are its operands, operators, parentheses and
other marks in order, and an expression is spread over a text when these are what is written there,
with nothing but blanks and comments between them.

* `Expression.tier`, `Expression.Layered` — how tightly an expression binds, and layered expressions.
* `Expression.lexemes` — an expression in order.
* `Spread` — lexemes written one behind the other.
-/

namespace StructuredText

open Grammar (Gap Pattern)
open Grammar.Expr (rule)

/-! ## Levels -/

/-- The level of a binary operator, from the loosest to the tightest. -/
def Token.level? (op : Token) : Option Nat :=
  [["OR", "OR_ELSE"], ["XOR"], ["AND", "AND_THEN", "&"], ["=", "<>"], ["<", ">", "<=", ">="],
      ["+", "-"], ["*", "/", "MOD"], ["**"]].findIdx? (fun ops => ops.any (op.is ·)) |>.map (· + 1)

/-- How tightly an expression binds: a binary operator by its level, signs and negations more
tightly than all of them, and everything else most tightly. -/
def Expression.tier : Expression → Nat
  | .binary _ op _ => op.level?.getD 0
  | .unary .. => 9
  | _ => 10

mutual

/-- Every binary operator in the expression has a level; its right operand binds more tightly than
itself, and its left operand at least as tightly. The operand of a sign is no operation. -/
def Expression.Layered : Expression → Prop
  | .literal _ => True
  | .reference v => v.Layered
  | .enumerated v => v.Layered
  | .unary _ x => 9 < x.tier ∧ x.Layered
  | .binary x op y =>
    (∃ k, op.level? = some k ∧ k ≤ x.tier ∧ k < y.tier) ∧ x.Layered ∧ y.Layered
  | .parenthesized x => x.Layered
  | .call c => c.Layered

def Variable.Layered : Variable → Prop
  | .symbolic _ | .direct _ => True
  | .multiElement _ ss => Selector.LayeredAll ss

def Selector.Layered : Selector → Prop
  | .subscript is _ => Expression.LayeredAll is
  | .field .. => True

def EnumeratedValue.Layered : EnumeratedValue → Prop
  | ⟨_, _, v⟩ => Expression.LayeredOption v

def Parameter.Layered : Parameter → Prop
  | .input _ x => x.Layered
  | .output _ _ v => Variable.LayeredOption v

def Call.Layered : Call → Prop
  | ⟨f, ps⟩ => f.Layered ∧ Parameter.LayeredAll ps

def Expression.LayeredAll : List Expression → Prop
  | [] => True
  | x :: xs => x.Layered ∧ Expression.LayeredAll xs

def Selector.LayeredAll : List Selector → Prop
  | [] => True
  | s :: ss => s.Layered ∧ Selector.LayeredAll ss

def Parameter.LayeredAll : List Parameter → Prop
  | [] => True
  | p :: ps => p.Layered ∧ Parameter.LayeredAll ps

def Expression.LayeredOption : Option Expression → Prop
  | none => True
  | some x => x.Layered

def Variable.LayeredOption : Option Variable → Prop
  | none => True
  | some v => v.Layered

end

theorem Expression.layeredAll_iff {xs : List Expression} :
    Expression.LayeredAll xs ↔ ∀ x ∈ xs, x.Layered := by
  induction xs with
  | nil => simp [Expression.LayeredAll]
  | cons x xs ih => simp [Expression.LayeredAll, ih]

theorem Selector.layeredAll_iff {ss : List Selector} :
    Selector.LayeredAll ss ↔ ∀ s ∈ ss, s.Layered := by
  induction ss with
  | nil => simp [Selector.LayeredAll]
  | cons s ss ih => simp [Selector.LayeredAll, ih]

theorem Parameter.layeredAll_iff {ps : List Parameter} :
    Parameter.LayeredAll ps ↔ ∀ p ∈ ps, p.Layered := by
  induction ps with
  | nil => simp [Parameter.LayeredAll]
  | cons p ps ih => simp [Parameter.LayeredAll, ih]

theorem Variable.layeredOption_iff {v : Option Variable} :
    Variable.LayeredOption v ↔ ∀ w ∈ v, w.Layered := by
  cases v <;> simp [Variable.LayeredOption]

/-! ## Lexemes -/

/-- What an expression consists of, in order: names and operators, literals, hardware addresses, and
marks such as parentheses, of which the tree keeps no token. -/
inductive Lexeme where
  | token (token : Token)
  | literal (value : Literal)
  | address (value : DirectVariable)
  | mark (text : Text)

/-- A mark that is there or not. -/
def Lexeme.markIf (there : Bool) (text : Text) : List Lexeme := if there then [.mark text] else []

/-- Rows of lexemes with commas between them. -/
def Lexeme.commaRow (rows : List (List Lexeme)) : List Lexeme := List.intercalate [.mark ","] rows

def SymbolicVariable.lexemes (v : SymbolicVariable) : List Lexeme :=
  .token v.name :: Lexeme.markIf v.dereferenced "^"

mutual

/-- The operands, operators, parentheses and marks of an expression in order. -/
def Expression.lexemes : Expression → List Lexeme
  | .literal v => [.literal v]
  | .reference v => v.lexemes
  | .enumerated v => v.lexemes
  | .unary op x => .token op :: x.lexemes
  | .binary x op y => x.lexemes ++ .token op :: y.lexemes
  | .parenthesized x => .mark "(" :: (x.lexemes ++ [.mark ")"])
  | .call c => c.lexemes

def Variable.lexemes : Variable → List Lexeme
  | .symbolic v => v.lexemes
  | .multiElement v ss => v.lexemes ++ (Selector.lexemesEach ss).flatten
  | .direct d => [.address d]

def Selector.lexemes : Selector → List Lexeme
  | .subscript is d =>
    .mark "[" :: (Lexeme.commaRow (Expression.lexemesEach is) ++ .mark "]" :: Lexeme.markIf d "^")
  | .field name d => Lexeme.markIf d "^" ++ [.mark ".", .token name]

def EnumeratedValue.lexemes : EnumeratedValue → List Lexeme
  | ⟨typeName, name, v⟩ =>
    typeName.toList.flatMap (fun t => [.token t, .mark "#"]) ++
      .token name :: Expression.lexemesOption v

def Parameter.lexemes : Parameter → List Lexeme
  | .input name x => name.toList.flatMap (fun t => [.token t, .mark ":="]) ++ x.lexemes
  | .output inverted name v =>
    Lexeme.markIf inverted "NOT" ++ .token name :: .mark "=>" :: Variable.lexemesOption v

def Call.lexemes : Call → List Lexeme
  | ⟨f, ps⟩ => f.lexemes ++ .mark "(" :: (Lexeme.commaRow (Parameter.lexemesEach ps) ++ [.mark ")"])

def Expression.lexemesEach : List Expression → List (List Lexeme)
  | [] => []
  | x :: xs => x.lexemes :: Expression.lexemesEach xs

def Selector.lexemesEach : List Selector → List (List Lexeme)
  | [] => []
  | s :: ss => s.lexemes :: Selector.lexemesEach ss

def Parameter.lexemesEach : List Parameter → List (List Lexeme)
  | [] => []
  | p :: ps => p.lexemes :: Parameter.lexemesEach ps

/-- The number of an enumerated value. -/
def Expression.lexemesOption : Option Expression → List Lexeme
  | none => []
  | some x => .mark ":=" :: x.lexemes

def Variable.lexemesOption : Option Variable → List Lexeme
  | none => []
  | some v => v.lexemes

end

theorem Expression.lexemesEach_eq_map (xs : List Expression) :
    Expression.lexemesEach xs = xs.map Expression.lexemes := by
  induction xs with
  | nil => rfl
  | cons x xs ih => rw [Expression.lexemesEach, ih, List.map_cons]

theorem Selector.lexemesEach_eq_map (ss : List Selector) :
    Selector.lexemesEach ss = ss.map Selector.lexemes := by
  induction ss with
  | nil => rfl
  | cons s ss ih => rw [Selector.lexemesEach, ih, List.map_cons]

theorem Parameter.lexemesEach_eq_map (ps : List Parameter) :
    Parameter.lexemesEach ps = ps.map Parameter.lexemes := by
  induction ps with
  | nil => rfl
  | cons p ps ih => rw [Parameter.lexemesEach, ih, List.map_cons]

/-! ## Lexemes in a text -/

/-- A lexeme is written between two cursors. A token has its text and its line; marks are written in
any case. A literal or an address is written as the grammar has it, so that the same is built of
what is written. -/
def Lexeme.Written (lines : LineIndex) : Lexeme → Cursor → Cursor → Prop
  | .token t, s, s' => s.Reads t.text s' ∧ t.line = lines.lineOf s.offset
  | .literal v, s, s' => ∃ n, (rule .constant).Derives s [n] s' ∧
      Build.element lines n = .ok (.literal v)
  | .address d, s, s' => ∃ n, (rule .directVariable).Derives s [n] s' ∧
      Build.element lines n = .ok (.place (.direct d))
  | .mark m, s, s' => ∃ t, s.Reads t s' ∧ t.sameWord m

/-- The lexemes are written one behind the other between two cursors, with nothing but blanks and
comments around them. -/
inductive Spread (lines : LineIndex) : List Lexeme → Cursor → Cursor → Prop where
  | nil {s s' : Cursor} (h : Gap s s') : Spread lines [] s s'
  | cons {p : Lexeme} {ps : List Lexeme} {s s₁ s₂ s' : Cursor} (hgap : Gap s s₁)
      (hp : p.Written lines s₁ s₂) (hps : Spread lines ps s₂ s') : Spread lines (p :: ps) s s'

namespace Spread

variable {lines : LineIndex} {ps qs : List Lexeme} {s s₁ s' : Cursor}

theorem gap (h : Gap s s₁) (hps : Spread lines ps s₁ s') : Spread lines ps s s' := by
  cases hps with
  | nil hgap => exact .nil (h.trans hgap)
  | cons hgap hp hps => exact .cons (h.trans hgap) hp hps

theorem append (hps : Spread lines ps s s₁) (hqs : Spread lines qs s₁ s') :
    Spread lines (ps ++ qs) s s' := by
  induction hps with
  | nil h => exact hqs.gap h
  | cons hgap hp _ ih => exact .cons hgap hp (ih hqs)

theorem one {p : Lexeme} (hp : p.Written lines s s') : Spread lines [p] s s' :=
  .cons (.refl s) hp (.nil (.refl s'))

end Spread

end StructuredText
