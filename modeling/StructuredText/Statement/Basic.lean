import StructuredText.Expression.Basic
import StructuredText.TypeSpec.Basic

/-!
# Statements

A statement is simple, or it holds further statements. Every statement has an anchor, and so has
every clause of one: the alternatives of an `IF`, the cases of a `CASE`.

The body of a statement or clause is the list of its statements. Empty statements leave no trace in
it, so a body that held nothing else is the empty list, as is one that was not written.
-/

namespace StructuredText

/-- What an assignment to one target does: it sets or resets the target if the value is true, or
makes the target refer to the value. -/
inductive TargetOperator where
  | set | reset | refer
  deriving DecidableEq, Repr

/-- Statements of one keyword that leave a loop, a round of it, or the unit. -/
inductive Jump where
  | exit | continue | return
  deriving DecidableEq, Repr

/-- A statement that holds no others. -/
inductive SimpleStatement where
  /-- `a := b := value;` -/
  | assignment (targets : List Variable) (value : Expression)
  /-- `x S= value;`, `x R= value;`, `x REF= value;` -/
  | targeted (op : TargetOperator) (target : Variable) (value : Expression)
  /-- `f.method();` -/
  | methodCall (method : Variable)
  /-- `fb(IN := x);` -/
  | invocation (call : Call)
  /-- `x;` -/
  | noOp (place : Variable)
  | jump (jump : Jump)
  deriving BEq

/-- A label of a case: a value or a range of values. -/
inductive CaseLabel where
  | value (value : Expression)
  | range (range : Subrange)
  deriving BEq

mutual

/-- A statement with its anchor. -/
inductive Statement where
  | simple (anchor : Anchor) (statement : SimpleStatement)
  | ifThen (anchor : Anchor) (condition : Expression) (body : List Statement)
      (elseIfs : List ElseIf) (otherwise : Option Else)
  | caseOf (anchor : Anchor) (selector : Expression) (cases : List Case)
      (otherwise : Option Else)
  | forTo (anchor : Anchor) (control : SymbolicVariable) (first last : Expression)
      (step : Option Expression) (body : List Statement)
  | whileDo (anchor : Anchor) (condition : Expression) (body : List Statement)
  | repeatUntil (anchor : Anchor) (body : List Statement) (condition : Expression)

/-- `ELSIF condition THEN ...` -/
inductive ElseIf where
  | mk (anchor : Anchor) (condition : Expression) (body : List Statement)

/-- `ELSE ...` -/
inductive Else where
  | mk (anchor : Anchor) (body : List Statement)

/-- `1, 5..9: ...` -/
inductive Case where
  | mk (anchor : Anchor) (labels : List CaseLabel) (body : List Statement)

end

/-- The anchor of a statement. -/
def Statement.anchor : Statement → Anchor
  | .simple a _ => a
  | .ifThen a .. => a
  | .caseOf a .. => a
  | .forTo a .. => a
  | .whileDo a .. => a
  | .repeatUntil a .. => a

/-! ## Equality -/

mutual

def Statement.beq : Statement → Statement → Bool
  | .simple a s, .simple b t => a == b && s == t
  | .ifThen a c ss es o, .ifThen b d ts fs p =>
    a == b && c == d && Statement.beqAll ss ts && ElseIf.beqAll es fs && Else.beqOption o p
  | .caseOf a e cs o, .caseOf b f ds p =>
    a == b && e == f && Case.beqAll cs ds && Else.beqOption o p
  | .forTo a v e f s ss, .forTo b w g h t ts =>
    a == b && v == w && e == g && f == h && s == t && Statement.beqAll ss ts
  | .whileDo a c ss, .whileDo b d ts => a == b && c == d && Statement.beqAll ss ts
  | .repeatUntil a ss c, .repeatUntil b ts d => a == b && Statement.beqAll ss ts && c == d
  | _, _ => false
termination_by structural s => s

def Statement.beqAll : List Statement → List Statement → Bool
  | [], [] => true
  | s :: ss, t :: ts => s.beq t && Statement.beqAll ss ts
  | _, _ => false
termination_by structural ss => ss

def ElseIf.beqAll : List ElseIf → List ElseIf → Bool
  | [], [] => true
  | ⟨a, c, ss⟩ :: es, ⟨b, d, ts⟩ :: fs =>
    a == b && c == d && Statement.beqAll ss ts && ElseIf.beqAll es fs
  | _, _ => false
termination_by structural es => es

def Else.beqOption : Option Else → Option Else → Bool
  | none, none => true
  | some ⟨a, ss⟩, some ⟨b, ts⟩ => a == b && Statement.beqAll ss ts
  | _, _ => false
termination_by structural e => e

def Case.beqAll : List Case → List Case → Bool
  | [], [] => true
  | ⟨a, ls, ss⟩ :: cs, ⟨b, ms, ts⟩ :: ds =>
    a == b && ls == ms && Statement.beqAll ss ts && Case.beqAll cs ds
  | _, _ => false
termination_by structural cs => cs

end

instance : BEq Statement := ⟨Statement.beq⟩

/-! ## The anchors of statements -/

section Anchors

variable {m : Type → Type} [Monad m] (visit : Anchor → m Anchor)

mutual

/-- Replaces the anchors of a statement and of all statements and clauses in it, in the order in
which they are written; the anchor of a statement comes before those of its parts. -/
def Statement.mapAnchors : Statement → m Statement
  | .simple a s => do pure (.simple (← visit a) s)
  | .ifThen a c ss es o => do
    let a ← visit a
    let ss ← Statement.mapAnchorsAll ss
    let es ← ElseIf.mapAnchorsAll es
    let o ← Else.mapAnchorsOption o
    pure (.ifThen a c ss es o)
  | .caseOf a e cs o => do
    let a ← visit a
    let cs ← Case.mapAnchorsAll cs
    let o ← Else.mapAnchorsOption o
    pure (.caseOf a e cs o)
  | .forTo a v e f s ss => do
    let a ← visit a
    let ss ← Statement.mapAnchorsAll ss
    pure (.forTo a v e f s ss)
  | .whileDo a c ss => do
    let a ← visit a
    let ss ← Statement.mapAnchorsAll ss
    pure (.whileDo a c ss)
  | .repeatUntil a ss c => do
    let a ← visit a
    let ss ← Statement.mapAnchorsAll ss
    pure (.repeatUntil a ss c)

def Statement.mapAnchorsAll : List Statement → m (List Statement)
  | [] => pure []
  | s :: ss => do
    let s ← s.mapAnchors
    let ss ← Statement.mapAnchorsAll ss
    pure (s :: ss)

def ElseIf.mapAnchorsAll : List ElseIf → m (List ElseIf)
  | [] => pure []
  | ⟨a, c, ss⟩ :: es => do
    let a ← visit a
    let ss ← Statement.mapAnchorsAll ss
    let es ← ElseIf.mapAnchorsAll es
    pure (⟨a, c, ss⟩ :: es)

def Else.mapAnchorsOption : Option Else → m (Option Else)
  | none => pure none
  | some ⟨a, ss⟩ => do
    let a ← visit a
    let ss ← Statement.mapAnchorsAll ss
    pure (some ⟨a, ss⟩)

def Case.mapAnchorsAll : List Case → m (List Case)
  | [] => pure []
  | ⟨a, ls, ss⟩ :: cs => do
    let a ← visit a
    let ss ← Statement.mapAnchorsAll ss
    let cs ← Case.mapAnchorsAll cs
    pure (⟨a, ls, ss⟩ :: cs)

end

end Anchors

end StructuredText
