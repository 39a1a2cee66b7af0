import StructuredText.Literal.Basic

/-!
# Expressions

Variables, expressions and calls. They contain each other: a variable may have subscripts, which are
expressions, and a call has parameters.

Operators are kept flat in precedence: `a + b - c` is the difference of `a + b` and `c`, and
parentheses stay where they were written.
-/

namespace StructuredText

/-- `x`, or `p^` for what `p` points to. -/
structure SymbolicVariable where
  name : Token
  dereferenced : Bool
  deriving BEq

/-- The areas of hardware addresses: inputs, outputs and memory. -/
inductive AddressArea where
  | I | Q | M
  deriving DecidableEq, Repr

/-- The sizes of hardware addresses: bit, byte, word, double word and long word. -/
inductive AddressSize where
  | X | B | W | D | L
  deriving DecidableEq, Repr

/-- `%IX1.0`, `%QW4`: a hardware address. -/
structure DirectVariable where
  area : AddressArea
  size : AddressSize
  location : Token
  bits : List Token
  deriving BEq

mutual

/-- An expression. -/
inductive Expression where
  | literal (value : Literal)
  | reference (place : Variable)
  | enumerated (value : EnumeratedValue)
  | unary (op : Token) (operand : Expression)
  | binary (left : Expression) (op : Token) (right : Expression)
  | parenthesized (inner : Expression)
  | call (call : Call)

/-- Something that has a value and may be assigned. -/
inductive Variable where
  | symbolic (name : SymbolicVariable)
  /-- `a.b[1]^.c`: a name and what is selected from it. -/
  | multiElement (name : SymbolicVariable) (selectors : List Selector)
  | direct (address : DirectVariable)

/-- A part of a compound variable. -/
inductive Selector where
  /-- `[i, j + 1]`, and what that points to. -/
  | subscript (indices : List Expression) (dereferenced : Bool)
  /-- `.name`, or `^.name` from what the owner points to. -/
  | field (name : Token) (dereferenced : Bool)

/-- `Color#Red`; in the list of an enumeration also `Red` and `Red := 1`. -/
inductive EnumeratedValue where
  | mk (typeName : Option Token) (name : Token) (value : Option Expression)

/-- What is passed to a call. -/
inductive Parameter where
  /-- `name := value`, or a value alone. -/
  | input (name : Option Token) (value : Expression)
  /-- `name => target`, `NOT name => target`, also without a target. -/
  | output (inverted : Bool) (name : Token) (target : Option Variable)

/-- `f(a, IN := b, Q => c)` -/
inductive Call where
  | mk (callee : Variable) (parameters : List Parameter)

end

/-- The name a variable begins with; a hardware address has none. -/
def Variable.rootName? : Variable → Option Token
  | .symbolic v => some v.name
  | .multiElement v _ => some v.name
  | .direct _ => none

/-! ## Equality -/

mutual

def Expression.beq : Expression → Expression → Bool
  | .literal a, .literal b => a == b
  | .reference a, .reference b => a.beq b
  | .enumerated a, .enumerated b => a.beq b
  | .unary op a, .unary op' a' => op == op' && a.beq a'
  | .binary a op b, .binary a' op' b' => a.beq a' && op == op' && b.beq b'
  | .parenthesized a, .parenthesized b => a.beq b
  | .call a, .call b => a.beq b
  | _, _ => false
termination_by structural a => a

def Variable.beq : Variable → Variable → Bool
  | .symbolic a, .symbolic b => a == b
  | .multiElement a ss, .multiElement b ts => a == b && Selector.beqAll ss ts
  | .direct a, .direct b => a == b
  | _, _ => false
termination_by structural a => a

def Selector.beq : Selector → Selector → Bool
  | .subscript as d, .subscript bs d' => Expression.beqAll as bs && d == d'
  | .field a d, .field b d' => a == b && d == d'
  | _, _ => false
termination_by structural a => a

def EnumeratedValue.beq : EnumeratedValue → EnumeratedValue → Bool
  | ⟨t, a, v⟩, ⟨t', a', v'⟩ => t == t' && a == a' && Expression.beqOption v v'
termination_by structural a => a

def Parameter.beq : Parameter → Parameter → Bool
  | .input a v, .input b w => a == b && v.beq w
  | .output i a v, .output j b w => i == j && a == b && Variable.beqOption v w
  | _, _ => false
termination_by structural a => a

def Call.beq : Call → Call → Bool
  | ⟨f, ps⟩, ⟨g, qs⟩ => f.beq g && Parameter.beqAll ps qs
termination_by structural a => a

def Expression.beqAll : List Expression → List Expression → Bool
  | [], [] => true
  | a :: as, b :: bs => a.beq b && Expression.beqAll as bs
  | _, _ => false
termination_by structural as => as

def Selector.beqAll : List Selector → List Selector → Bool
  | [], [] => true
  | a :: as, b :: bs => a.beq b && Selector.beqAll as bs
  | _, _ => false
termination_by structural as => as

def Parameter.beqAll : List Parameter → List Parameter → Bool
  | [], [] => true
  | a :: as, b :: bs => a.beq b && Parameter.beqAll as bs
  | _, _ => false
termination_by structural as => as

def Expression.beqOption : Option Expression → Option Expression → Bool
  | none, none => true
  | some a, some b => a.beq b
  | _, _ => false
termination_by structural a => a

def Variable.beqOption : Option Variable → Option Variable → Bool
  | none, none => true
  | some a, some b => a.beq b
  | _, _ => false
termination_by structural a => a

end

instance : BEq Expression := ⟨Expression.beq⟩
instance : BEq Variable := ⟨Variable.beq⟩
instance : BEq Selector := ⟨Selector.beq⟩
instance : BEq EnumeratedValue := ⟨EnumeratedValue.beq⟩
instance : BEq Parameter := ⟨Parameter.beq⟩
instance : BEq Call := ⟨Call.beq⟩

end StructuredText
