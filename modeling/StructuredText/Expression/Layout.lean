import StructuredText.Expression.Basic
import StructuredText.Literal.Layout

/-!
# Expressions as text

Binary operators stand between blanks. A unary operator stands right before its operand, and a word
used as one is kept apart from it by a blank.
-/

namespace StructuredText

/-- The mark of what a pointer points to. -/
def derefMark (dereferenced : Bool) : Text := if dereferenced then ['^'] else []

def SymbolicVariable.render (v : SymbolicVariable) : Text := v.name.text ++ derefMark v.dereferenced

def AddressArea.letter : AddressArea → Char
  | .I => 'I'
  | .Q => 'Q'
  | .M => 'M'

def AddressSize.letter : AddressSize → Char
  | .X => 'X'
  | .B => 'B'
  | .W => 'W'
  | .D => 'D'
  | .L => 'L'

def DirectVariable.render (v : DirectVariable) : Text :=
  ['%', v.area.letter, v.size.letter] ++ v.location.text ++
    (v.bits.map fun bit => '.' :: bit.text).flatten

/-- What stands between a unary operator and its operand. -/
def unaryGap (op : Token) : Text :=
  match op.text with
  | c :: _ => if c.isAlpha then [' '] else []
  | [] => []

mutual

def Expression.render : Expression → Text
  | .literal v => v.render
  | .reference v => v.render
  | .enumerated v => v.render
  | .unary op e => op.text ++ unaryGap op ++ e.render
  | .binary a op b => a.render ++ " " ++ op.text ++ " " ++ b.render
  | .parenthesized e => "(" ++ e.render ++ ")"
  | .call c => c.render

def Variable.render : Variable → Text
  | .symbolic v => v.render
  | .multiElement v ss => v.render ++ Selector.renderAll ss
  | .direct v => v.render

def Selector.render : Selector → Text
  | .subscript es d => "[" ++ Text.joinWith ", " (Expression.renderAll es) ++ "]" ++ derefMark d
  | .field a d => derefMark d ++ "." ++ a.text

def EnumeratedValue.render : EnumeratedValue → Text
  | ⟨t, a, v⟩ => typeMark t ++ a.text ++ Expression.renderValue v

def Parameter.render : Parameter → Text
  | .input (some a) e => a.text ++ " := " ++ e.render
  | .input none e => e.render
  | .output inverted a v =>
    (if inverted then "NOT " else "") ++ a.text ++ " =>" ++ Variable.renderTarget v

def Call.render : Call → Text
  | ⟨f, ps⟩ => f.render ++ "(" ++ Text.joinWith ", " (Parameter.renderAll ps) ++ ")"

def Expression.renderAll : List Expression → List Text
  | [] => []
  | e :: es => e.render :: Expression.renderAll es

/-- The selectors right behind each other. -/
def Selector.renderAll : List Selector → Text
  | [] => []
  | s :: ss => s.render ++ Selector.renderAll ss

def Parameter.renderAll : List Parameter → List Text
  | [] => []
  | p :: ps => p.render :: Parameter.renderAll ps

/-- A value that is given to what stands before it, if there is one. -/
def Expression.renderValue : Option Expression → Text
  | some e => " := " ++ e.render
  | none => []

/-- The target of an output, if there is one. -/
def Variable.renderTarget : Option Variable → Text
  | some v => " " ++ v.render
  | none => []

end

end StructuredText
