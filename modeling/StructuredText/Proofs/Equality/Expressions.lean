import StructuredText.Expression.Basic

/-!
# What equality compares

Trees are compared by what they say. The wording of a tree is the tree with all its lines and spans
replaced by fixed ones, so that nothing is left in it but what it says; and trees are equal if and
only if they have the same wording. This holds for a node when it holds for its parts, and an
equality of which it holds is an equivalence.

* `ComparedBy` — the equality of a type compares the results of a function.
* `Expression.wording` — an expression without lines.
* `Expression.beq_iff` — expressions are equal when their wordings are the same.
-/

namespace StructuredText

/-- The equality of a type compares the results of a function. -/
class ComparedBy (α : Type) [BEq α] (wording : outParam (α → α)) : Prop where
  beq_iff (a b : α) : (a == b) = true ↔ wording a = wording b

section Containers

variable {α : Type} [BEq α] {wording : α → α} [ComparedBy α wording]

theorem beq_iff_wording (a b : α) : (a == b) = true ↔ wording a = wording b :=
  ComparedBy.beq_iff a b

/-- An equality that compares the results of a function is an equivalence. -/
instance ComparedBy.equivBEq : EquivBEq α where
  rfl := by
    intro a
    rw [beq_iff_wording]
  symm := by
    intro a b hab
    rw [beq_iff_wording] at hab ⊢
    exact hab.symm
  trans := by
    intro a b c hab hbc
    rw [beq_iff_wording] at hab hbc ⊢
    exact hab.trans hbc

instance : ComparedBy (Option α) (Option.map wording) where
  beq_iff a b := by
    cases a <;> cases b <;> simp [beq_iff_wording]

instance : ComparedBy (List α) (List.map wording) where
  beq_iff as bs := by
    induction as generalizing bs with
    | nil => cases bs <;> simp
    | cons a as ih => cases bs <;> simp [beq_iff_wording a, ih]

end Containers

/-! ## Tokens, comments and anchors -/

/-- A token without its line. -/
def Token.wording (t : Token) : Token := { t with line := 0 }

@[simp] theorem Token.text_wording (t : Token) : t.wording.text = t.text := rfl

instance : ComparedBy Token Token.wording where
  beq_iff a b := by
    show (a.text == b.text) = true ↔ _
    simp [Token.wording]

/-- A comment without its place. -/
def Comment.wording (c : Comment) : Comment := { c with line := 0, span := {} }

@[simp] theorem Comment.text_wording (c : Comment) : c.wording.text = c.text := rfl

instance : ComparedBy Comment Comment.wording where
  beq_iff a b := by
    show (a.kind == b.kind && a.text == b.text) = true ↔ _
    simp [Comment.wording]

/-- An anchor without its place and those of its comments. -/
def Anchor.wording (a : Anchor) : Anchor where
  line := 0
  span := {}
  comments := a.comments.map Comment.wording

instance : ComparedBy Anchor Anchor.wording where
  beq_iff a b := by
    show (a.comments == b.comments) = true ↔ _
    simp [Anchor.wording, beq_iff_wording]

/-! ## Literals -/

def Integer.wording (i : Integer) : Integer :=
  { i with value := i.value.wording, typeName := i.typeName.map Token.wording }

instance : ComparedBy Integer Integer.wording where
  beq_iff a b := by cases a; cases b; simp [reduceBEq, beq_iff_wording, Integer.wording]

def Real.wording (r : Real) : Real where
  value := r.value.wording
  typeName := r.typeName.map Token.wording

instance : ComparedBy Real Real.wording where
  beq_iff a b := by cases a; cases b; simp [reduceBEq, beq_iff_wording, Real.wording]

def BitString.wording (b : BitString) : BitString :=
  { b with typeName := b.typeName.wording, value := b.value.wording }

instance : ComparedBy BitString BitString.wording where
  beq_iff a b := by cases a; cases b; simp [reduceBEq, beq_iff_wording, BitString.wording]

def Duration.wording (d : Duration) : Duration where
  days := d.days.map Token.wording
  hours := d.hours.map Token.wording
  minutes := d.minutes.map Token.wording
  seconds := d.seconds.map Token.wording
  milliseconds := d.milliseconds.map Token.wording

instance : ComparedBy Duration Duration.wording where
  beq_iff a b := by cases a; cases b; simp [reduceBEq, beq_iff_wording, Duration.wording]

def TimeOfDay.wording (t : TimeOfDay) : TimeOfDay where
  hour := t.hour.wording
  minute := t.minute.wording
  second := t.second.wording

instance : ComparedBy TimeOfDay TimeOfDay.wording where
  beq_iff a b := by cases a; cases b; simp [reduceBEq, beq_iff_wording, TimeOfDay.wording]

def Date.wording (d : Date) : Date where
  year := d.year.wording
  month := d.month.wording
  day := d.day.wording

instance : ComparedBy Date Date.wording where
  beq_iff a b := by cases a; cases b; simp [reduceBEq, beq_iff_wording, Date.wording]

def DateTime.wording (d : DateTime) : DateTime where
  date := d.date.wording
  time := d.time.wording

instance : ComparedBy DateTime DateTime.wording where
  beq_iff a b := by cases a; cases b; simp [reduceBEq, beq_iff_wording, DateTime.wording]

def StringLiteral.wording (s : StringLiteral) : StringLiteral := ⟨s.value.wording⟩

instance : ComparedBy StringLiteral StringLiteral.wording where
  beq_iff a b := by cases a; cases b; simp [reduceBEq, beq_iff_wording, StringLiteral.wording]

def Literal.wording : Literal → Literal
  | .integer v => .integer v.wording
  | .real v => .real v.wording
  | .bitString v => .bitString v.wording
  | .boolean v => .boolean v
  | .duration v => .duration v.wording
  | .timeOfDay v => .timeOfDay v.wording
  | .date v => .date v.wording
  | .dateTime v => .dateTime v.wording
  | .string v => .string v.wording

instance : ComparedBy Literal Literal.wording where
  beq_iff a b := by
    cases a <;> cases b <;> simp [reduceBEq, beq_iff_wording, Literal.wording]

/-! ## Expressions -/

def SymbolicVariable.wording (v : SymbolicVariable) : SymbolicVariable :=
  { v with name := v.name.wording }

instance : ComparedBy SymbolicVariable SymbolicVariable.wording where
  beq_iff a b := by cases a; cases b; simp [reduceBEq, beq_iff_wording, SymbolicVariable.wording]

def DirectVariable.wording (v : DirectVariable) : DirectVariable :=
  { v with location := v.location.wording, bits := v.bits.map Token.wording }

instance : ComparedBy DirectVariable DirectVariable.wording where
  beq_iff a b := by cases a; cases b; simp [reduceBEq, beq_iff_wording, DirectVariable.wording]

mutual

/-- An expression without the lines of its tokens. -/
def Expression.wording : Expression → Expression
  | .literal v => .literal v.wording
  | .reference v => .reference v.wording
  | .enumerated v => .enumerated v.wording
  | .unary op e => .unary op.wording e.wording
  | .binary a op b => .binary a.wording op.wording b.wording
  | .parenthesized e => .parenthesized e.wording
  | .call c => .call c.wording
termination_by structural e => e

def Variable.wording : Variable → Variable
  | .symbolic v => .symbolic v.wording
  | .multiElement v ss => .multiElement v.wording (Selector.wordingAll ss)
  | .direct v => .direct v.wording
termination_by structural v => v

def Selector.wording : Selector → Selector
  | .subscript es d => .subscript (Expression.wordingAll es) d
  | .field a d => .field a.wording d
termination_by structural s => s

def EnumeratedValue.wording : EnumeratedValue → EnumeratedValue
  | ⟨t, a, v⟩ => ⟨t.map Token.wording, a.wording, Expression.wordingOption v⟩
termination_by structural v => v

def Parameter.wording : Parameter → Parameter
  | .input a e => .input (a.map Token.wording) e.wording
  | .output i a v => .output i a.wording (Variable.wordingOption v)
termination_by structural p => p

def Call.wording : Call → Call
  | ⟨f, ps⟩ => ⟨f.wording, Parameter.wordingAll ps⟩
termination_by structural c => c

def Expression.wordingAll : List Expression → List Expression
  | [] => []
  | e :: es => e.wording :: Expression.wordingAll es
termination_by structural es => es

def Selector.wordingAll : List Selector → List Selector
  | [] => []
  | s :: ss => s.wording :: Selector.wordingAll ss
termination_by structural ss => ss

def Parameter.wordingAll : List Parameter → List Parameter
  | [] => []
  | p :: ps => p.wording :: Parameter.wordingAll ps
termination_by structural ps => ps

def Expression.wordingOption : Option Expression → Option Expression
  | none => none
  | some e => some e.wording
termination_by structural o => o

def Variable.wordingOption : Option Variable → Option Variable
  | none => none
  | some v => some v.wording
termination_by structural o => o

end

@[simp] theorem Expression.wordingOption_eq (o : Option Expression) :
    Expression.wordingOption o = o.map Expression.wording := by
  cases o <;> rfl

mutual

theorem Expression.beq_iff (a b : Expression) : a.beq b = true ↔ a.wording = b.wording := by
  cases a with
  | literal v =>
      cases b <;> simp [Expression.beq, Expression.wording, beq_iff_wording]
  | reference v =>
      cases b <;> simp [Expression.beq, Expression.wording, Variable.beq_iff v]
  | enumerated v =>
      cases b <;> simp [Expression.beq, Expression.wording, EnumeratedValue.beq_iff v]
  | unary op e =>
      cases b <;> simp [Expression.beq, Expression.wording, beq_iff_wording op,
        Expression.beq_iff e]
  | binary l op r =>
      cases b <;> simp [Expression.beq, Expression.wording, beq_iff_wording op,
        Expression.beq_iff l, Expression.beq_iff r, and_assoc]
  | parenthesized e =>
      cases b <;> simp [Expression.beq, Expression.wording, Expression.beq_iff e]
  | call c => cases b <;> simp [Expression.beq, Expression.wording, Call.beq_iff c]

theorem Variable.beq_iff (v w : Variable) : v.beq w = true ↔ v.wording = w.wording := by
  cases v with
  | symbolic v =>
      cases w <;> simp [Variable.beq, Variable.wording, beq_iff_wording]
  | multiElement v ss =>
      cases w <;> simp [Variable.beq, Variable.wording, beq_iff_wording,
        Selector.beqAll_iff ss]
  | direct v =>
      cases w <;> simp [Variable.beq, Variable.wording, beq_iff_wording]

theorem Selector.beq_iff (s t : Selector) : s.beq t = true ↔ s.wording = t.wording := by
  cases s with
  | subscript es d =>
      cases t <;> simp [Selector.beq, Selector.wording, Expression.beqAll_iff es]
  | field a d => cases t <;> simp [Selector.beq, Selector.wording, beq_iff_wording]

theorem EnumeratedValue.beq_iff (v w : EnumeratedValue) :
    v.beq w = true ↔ v.wording = w.wording := by
  obtain ⟨t, a, e⟩ := v
  obtain ⟨u, b, f⟩ := w
  simp [EnumeratedValue.beq, EnumeratedValue.wording, beq_iff_wording,
    Expression.beqOption_iff e, and_assoc]

theorem Parameter.beq_iff (p q : Parameter) : p.beq q = true ↔ p.wording = q.wording := by
  cases p with
  | input a e =>
      cases q <;> simp [Parameter.beq, Parameter.wording, beq_iff_wording,
        Expression.beq_iff e]
  | output i a v =>
      cases q <;> simp [Parameter.beq, Parameter.wording, beq_iff_wording,
        Variable.beqOption_iff v, and_assoc]

theorem Call.beq_iff (c d : Call) : c.beq d = true ↔ c.wording = d.wording := by
  obtain ⟨f, ps⟩ := c
  obtain ⟨g, qs⟩ := d
  simp [Call.beq, Call.wording, Variable.beq_iff f, Parameter.beqAll_iff ps]

theorem Expression.beqAll_iff (es fs : List Expression) :
    Expression.beqAll es fs = true ↔ Expression.wordingAll es = Expression.wordingAll fs := by
  cases es with
  | nil => cases fs <;> simp [Expression.beqAll, Expression.wordingAll]
  | cons e es =>
      cases fs <;> simp [Expression.beqAll, Expression.wordingAll, Expression.beq_iff e,
        Expression.beqAll_iff es]

theorem Selector.beqAll_iff (ss ts : List Selector) :
    Selector.beqAll ss ts = true ↔ Selector.wordingAll ss = Selector.wordingAll ts := by
  cases ss with
  | nil => cases ts <;> simp [Selector.beqAll, Selector.wordingAll]
  | cons s ss =>
      cases ts <;> simp [Selector.beqAll, Selector.wordingAll, Selector.beq_iff s,
        Selector.beqAll_iff ss]

theorem Parameter.beqAll_iff (ps qs : List Parameter) :
    Parameter.beqAll ps qs = true ↔ Parameter.wordingAll ps = Parameter.wordingAll qs := by
  cases ps with
  | nil => cases qs <;> simp [Parameter.beqAll, Parameter.wordingAll]
  | cons p ps =>
      cases qs <;> simp [Parameter.beqAll, Parameter.wordingAll, Parameter.beq_iff p,
        Parameter.beqAll_iff ps]

theorem Expression.beqOption_iff (o p : Option Expression) :
    Expression.beqOption o p = true ↔
      Expression.wordingOption o = Expression.wordingOption p := by
  cases o with
  | none => cases p <;> simp [Expression.beqOption, Expression.wordingOption]
  | some e =>
      cases p <;> simp [Expression.beqOption, Expression.wordingOption,
        Expression.beq_iff e]

theorem Variable.beqOption_iff (o p : Option Variable) :
    Variable.beqOption o p = true ↔ Variable.wordingOption o = Variable.wordingOption p := by
  cases o with
  | none => cases p <;> simp [Variable.beqOption, Variable.wordingOption]
  | some v =>
      cases p <;> simp [Variable.beqOption, Variable.wordingOption, Variable.beq_iff v]

end

instance : ComparedBy Expression Expression.wording := ⟨Expression.beq_iff⟩
instance : ComparedBy Variable Variable.wording := ⟨Variable.beq_iff⟩
instance : ComparedBy EnumeratedValue EnumeratedValue.wording := ⟨EnumeratedValue.beq_iff⟩
instance : ComparedBy Call Call.wording := ⟨Call.beq_iff⟩

end StructuredText
