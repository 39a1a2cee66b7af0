import StructuredText.Formatting
import StructuredText.Proofs.Text.Indentation

/-!
# Where string literals are written

The text of a tree holds the string literals of the tree, in document order. Blocks and bodies are
indented after they were written, line by line and without regard to literals, so a literal that has
a line feed inside is shifted by as many levels as it stands deep. A literal of one line is written
as it is.

* `SourceFile.strings` — the string literals of a file, each with the number of levels it is deep.
* `SourceFile.holds_render` — the text of a file holds them.
* `holds_format` — so does a formatted text, and the literals of one line are those of the source.
-/

namespace StructuredText

open Text (Piece Holds)

/-! ## Expressions -/

def Literal.strings : Literal → List Piece
  | .string v => [{ text := v.value.text }]
  | _ => []

mutual

/-- The string literals of an expression, in document order. -/
def Expression.strings : Expression → List Piece
  | .literal v => v.strings
  | .reference v => v.strings
  | .enumerated v => v.strings
  | .unary _ e => e.strings
  | .binary a _ b => a.strings ++ b.strings
  | .parenthesized e => e.strings
  | .call c => c.strings

def Variable.strings : Variable → List Piece
  | .symbolic _ => []
  | .multiElement _ ss => Selector.stringsAll ss
  | .direct _ => []

def Selector.strings : Selector → List Piece
  | .subscript es _ => Expression.stringsAll es
  | .field _ _ => []

def EnumeratedValue.strings : EnumeratedValue → List Piece
  | ⟨_, _, v⟩ => Expression.stringsOption v

def Parameter.strings : Parameter → List Piece
  | .input _ e => e.strings
  | .output _ _ v => Variable.stringsOption v

def Call.strings : Call → List Piece
  | ⟨f, ps⟩ => f.strings ++ Parameter.stringsAll ps

def Expression.stringsAll : List Expression → List Piece
  | [] => []
  | e :: es => e.strings ++ Expression.stringsAll es

def Selector.stringsAll : List Selector → List Piece
  | [] => []
  | s :: ss => s.strings ++ Selector.stringsAll ss

def Parameter.stringsAll : List Parameter → List Piece
  | [] => []
  | p :: ps => p.strings ++ Parameter.stringsAll ps

def Expression.stringsOption : Option Expression → List Piece
  | some e => e.strings
  | none => []

def Variable.stringsOption : Option Variable → List Piece
  | some v => v.strings
  | none => []

end

/-- Of the literals only a string holds one, which is all of its text. -/
theorem Literal.holds_render (v : Literal) : Holds v.strings v.render := by
  cases v with
  | string v => exact .self _
  | _ => exact .done _

mutual

/-- The text of an expression holds its strings, from left to right. -/
theorem Expression.holds_render (e : Expression) : Holds e.strings e.render := by
  cases e with
  | literal v => exact v.holds_render
  | reference v => exact v.holds_render
  | enumerated v => exact v.holds_render
  | unary op e => exact e.holds_render.before _
  | binary a op b =>
      have hleft := ((a.holds_render.after " ".toList).after op.text).after " ".toList
      exact hleft.append b.holds_render
  | parenthesized e => exact (e.holds_render.before _).after _
  | call c => exact c.holds_render

/-- In the text of a variable strings stand in its subscripts only. -/
theorem Variable.holds_render (v : Variable) : Holds v.strings v.render := by
  cases v with
  | symbolic v => exact .done _
  | multiElement v ss => exact (Selector.holds_renderAll ss).before _
  | direct v => exact .done _

theorem Selector.holds_render (s : Selector) : Holds s.strings s.render := by
  cases s with
  | subscript es d => exact (((Expression.holds_renderAll _ es).before _).after _).after _
  | field a d => exact .done _

theorem EnumeratedValue.holds_render (v : EnumeratedValue) : Holds v.strings v.render := by
  obtain ⟨t, a, v⟩ := v
  exact (Expression.holds_renderValue v).before _

/-- The name of a parameter stands in front of the value that may hold strings. -/
theorem Parameter.holds_render (p : Parameter) : Holds p.strings p.render := by
  cases p with
  | input a e =>
      cases a with
      | none => exact e.holds_render
      | some a => exact e.holds_render.before _
  | output i a v => exact (Variable.holds_renderTarget v).before _

theorem Call.holds_render (c : Call) : Holds c.strings c.render := by
  obtain ⟨f, ps⟩ := c
  exact ((f.holds_render.after _).append (Parameter.holds_renderAll _ ps)).after _

/-- Between neighbours stands a separator, which holds no string. -/
theorem Expression.holds_renderAll (sep : Text) (es : List Expression) :
    Holds (Expression.stringsAll es) (Text.joinWith sep (Expression.renderAll es)) := by
  cases es with
  | nil => exact .done _
  | cons e es => exact e.holds_render.joinWith_cons (Expression.holds_renderAll sep es)

theorem Selector.holds_renderAll (ss : List Selector) :
    Holds (Selector.stringsAll ss) (Selector.renderAll ss) := by
  cases ss with
  | nil => exact .done _
  | cons s ss => exact s.holds_render.append (Selector.holds_renderAll ss)

theorem Parameter.holds_renderAll (sep : Text) (ps : List Parameter) :
    Holds (Parameter.stringsAll ps) (Text.joinWith sep (Parameter.renderAll ps)) := by
  cases ps with
  | nil => exact .done _
  | cons p ps => exact p.holds_render.joinWith_cons (Parameter.holds_renderAll sep ps)

/-- A value that is left out is written as nothing. -/
theorem Expression.holds_renderValue (e : Option Expression) :
    Holds (Expression.stringsOption e) (Expression.renderValue e) := by
  cases e with
  | none => exact .done _
  | some e => exact e.holds_render.before _

theorem Variable.holds_renderTarget (v : Option Variable) :
    Holds (Variable.stringsOption v) (Variable.renderTarget v) := by
  cases v with
  | none => exact .done _
  | some v => exact v.holds_render.before _

end

/-! ## Types and first values -/

def Subrange.strings : Subrange → List Piece
  | .full => []
  | .limits low high => low.strings ++ high.strings

def EnumeratedType.strings (t : EnumeratedType) : List Piece :=
  t.values.flatMap EnumeratedValue.strings

mutual

def ArrayType.strings : ArrayType → List Piece
  | ⟨ds, t⟩ => ds.flatMap Subrange.strings ++ t.strings

def TypeSpecification.strings : TypeSpecification → List Piece
  | .data _ => []
  | .string _ => []
  | .array t => t.strings
  | .subrange t => t.range.strings
  | .enumerated t => t.strings

end

mutual

/-- The string literals of a first value, in document order. -/
def Initializer.strings : Initializer → List Piece
  | .expression e => e.strings
  | .array a => a.strings
  | .struct s => s.strings

def ArrayInitialization.strings : ArrayInitialization → List Piece
  | ⟨es⟩ => ArrayInitialElement.stringsAll es

def ArrayInitialElement.strings : ArrayInitialElement → List Piece
  | .single v => v.strings
  | .repeated _ v => Initializer.stringsOption v

def StructureInitialization.strings : StructureInitialization → List Piece
  | ⟨es⟩ => StructureElementInitialization.stringsAll es

def StructureElementInitialization.strings : StructureElementInitialization → List Piece
  | ⟨_, v⟩ => v.strings

def Initializer.stringsOption : Option Initializer → List Piece
  | some v => v.strings
  | none => []

def ArrayInitialElement.stringsAll : List ArrayInitialElement → List Piece
  | [] => []
  | e :: es => e.strings ++ ArrayInitialElement.stringsAll es

def StructureElementInitialization.stringsAll : List StructureElementInitialization → List Piece
  | [] => []
  | e :: es => e.strings ++ StructureElementInitialization.stringsAll es

end

def SpecInit.strings : SpecInit → List Piece
  | .simple _ v => Expression.stringsOption v
  | .subrange _ t v => t.range.strings ++ Expression.stringsOption v
  | .enumerated _ t v => t.strings ++ Expression.stringsOption v
  | .array _ t v => t.strings ++ v.elim [] ArrayInitialization.strings
  | .string _ v => v.elim [] fun s => [{ text := s.value.text }]
  | .struct v => v.value.strings

theorem Subrange.holds_render (r : Subrange) : Holds r.strings r.render := by
  cases r with
  | full => exact .done _
  | limits low high => exact (low.holds_render.after _).append high.holds_render

theorem SubrangeType.holds_render (t : SubrangeType) : Holds t.range.strings t.render :=
  (t.range.holds_render.before _).after _

theorem EnumeratedType.holds_render (t : EnumeratedType) : Holds t.strings t.render :=
  (((Holds.joinWith_map _ EnumeratedValue.holds_render t.values).before _).after _).after _

mutual

/-- The bounds of an array are written in front of the type of its elements. -/
theorem ArrayType.holds_render (t : ArrayType) : Holds t.strings t.render := by
  obtain ⟨ds, t⟩ := t
  exact (((Holds.joinWith_map _ Subrange.holds_render ds).before _).after _).append t.holds_render

theorem TypeSpecification.holds_render (t : TypeSpecification) : Holds t.strings t.render := by
  cases t with
  | data t => exact .done _
  | string t => exact .done _
  | array t => exact t.holds_render
  | subrange t => exact t.holds_render
  | enumerated t => exact t.holds_render

end

mutual

/-- A first value holds the strings of the values it is made of, however deep they are nested. -/
theorem Initializer.holds_render (v : Initializer) : Holds v.strings v.render := by
  cases v with
  | expression e => exact e.holds_render
  | array a => exact a.holds_render
  | struct s => exact s.holds_render

theorem ArrayInitialization.holds_render (a : ArrayInitialization) :
    Holds a.strings a.render := by
  obtain ⟨es⟩ := a
  exact ((ArrayInitialElement.holds_renderAll _ es).before _).after _

theorem ArrayInitialElement.holds_render (e : ArrayInitialElement) :
    Holds e.strings e.render := by
  cases e with
  | single v => exact v.holds_render
  | repeated n v => exact ((Initializer.holds_renderOption v).before _).after _

theorem StructureInitialization.holds_render (s : StructureInitialization) :
    Holds s.strings s.render := by
  obtain ⟨es⟩ := s
  exact ((StructureElementInitialization.holds_renderAll _ es).before _).after _

theorem StructureElementInitialization.holds_render (e : StructureElementInitialization) :
    Holds e.strings e.render := by
  obtain ⟨name, v⟩ := e
  cases name with
  | none => exact v.holds_render
  | some a => exact v.holds_render.before _

theorem Initializer.holds_renderOption (v : Option Initializer) :
    Holds (Initializer.stringsOption v) (Initializer.renderOption v) := by
  cases v with
  | none => exact .done _
  | some v => exact v.holds_render

theorem ArrayInitialElement.holds_renderAll (sep : Text) (es : List ArrayInitialElement) :
    Holds (ArrayInitialElement.stringsAll es)
      (Text.joinWith sep (ArrayInitialElement.renderAll es)) := by
  cases es with
  | nil => exact .done _
  | cons e es => exact e.holds_render.joinWith_cons (ArrayInitialElement.holds_renderAll sep es)

theorem StructureElementInitialization.holds_renderAll (sep : Text)
    (es : List StructureElementInitialization) :
    Holds (StructureElementInitialization.stringsAll es)
      (Text.joinWith sep (StructureElementInitialization.renderAll es)) := by
  cases es with
  | nil => exact .done _
  | cons e es =>
      exact e.holds_render.joinWith_cons (StructureElementInitialization.holds_renderAll sep es)

end

/-- A type with a first value is written in this order. -/
theorem SpecInit.holds_render (i : SpecInit) : Holds i.strings i.render := by
  cases i with
  | simple t v => exact (Expression.holds_renderValue v).before _
  | subrange i t v =>
      exact (t.holds_render.before _).append (Expression.holds_renderValue v)
  | enumerated i t v =>
      exact (t.holds_render.before _).append (Expression.holds_renderValue v)
  | array i t v =>
      exact (t.holds_render.before _).append (.optional (fun a => a.holds_render.before _) v)
  | string t v => exact (Holds.optional (fun s => (Holds.self s.value.text).before _) v).before _
  | struct v => exact v.value.holds_render.before _

/-! ## Declarations -/

def VariableDeclaration.strings : VariableDeclaration → List Piece
  | .init _ i => i.strings
  | .edge _ _ => []
  | .fbInstance _ _ i => i.strings
  | .invocation _ c => c.strings

def GlobalDeclaration.strings (d : GlobalDeclaration) : List Piece :=
  match d.init with
  | .spec i => i.strings
  | .invocation c => c.strings

def LocatedDeclaration.strings (d : LocatedDeclaration) : List Piece := d.init.strings

def ExternalDeclaration.strings (d : ExternalDeclaration) : List Piece := d.type.strings

def AccessDeclaration.strings (d : AccessDeclaration) : List Piece := d.place.strings

/-- The string literals of a block, whose declarations stand one level inside it. -/
def Block.strings {α : Type} (strings : α → List Piece) (b : Block α) : List Piece :=
  b.items.flatMap fun item => (strings item.body).map Piece.deeper

def DeclarationBlock.strings : DeclarationBlock → List Piece
  | .plain _ b => b.strings VariableDeclaration.strings
  | .located b => b.strings LocatedDeclaration.strings
  | .global b => b.strings GlobalDeclaration.strings
  | .external b => b.strings ExternalDeclaration.strings
  | .access b => b.strings AccessDeclaration.strings

theorem VariableDeclaration.holds_render (d : VariableDeclaration) :
    Holds d.strings d.render := by
  cases d with
  | init vs i => exact i.holds_render.before _
  | edge vs e => exact .done _
  | fbInstance ns t i => exact i.holds_render.before _
  | invocation ns c => exact c.holds_render.before _

/-- A call of a function block takes the place of a type with a first value. -/
theorem GlobalDeclaration.holds_render (d : GlobalDeclaration) : Holds d.strings d.render := by
  obtain ⟨names, init⟩ := d
  cases init with
  | spec i => exact i.holds_render.before _
  | invocation c => exact c.holds_render.before _

theorem LocatedDeclaration.holds_render (d : LocatedDeclaration) : Holds d.strings d.render :=
  d.init.holds_render.before _

theorem ExternalDeclaration.holds_render (d : ExternalDeclaration) : Holds d.strings d.render :=
  d.type.holds_render.before _

theorem AccessDeclaration.holds_render (d : AccessDeclaration) : Holds d.strings d.render :=
  (((d.place.holds_render.before _).after _).after _).after _

/-- What stands below the comments of an anchor keeps its literals. -/
theorem Anchor.holds_above (a : Anchor) {ps : List Piece} {t : Text} (h : Holds ps t) :
    Holds ps (a.above t) := by
  refine Holds.lines_before _ ?_
  cases t with
  | nil => exact h
  | cons c t => exact h.line

/-- The comments above an entry are in front of all its strings. -/
theorem Anchored.holds_render {α : Type} {strings : α → List Piece} {render : α → Text}
    (h : ∀ x, Holds (strings x) (render x)) (x : Anchored α) :
    Holds (strings x.body) (x.render render) :=
  x.anchor.holds_above (h x.body)

/-- The entries of a block stand one level inside it. -/
theorem Block.holds_render {α : Type} {strings : α → List Piece} {render : α → Text}
    (h : ∀ x, Holds (strings x) (render x)) (keyword : Text) (b : Block α) :
    Holds (b.strings strings) (b.render render keyword) := by
  have hitems := Holds.joinWith_map ['\n']
    (fun item => ((Anchored.holds_render h item).after ";".toList).indent) b.items
  exact b.anchor.holds_above ((hitems.lines_before _).lines_after _)

/-- So they do in a block of any kind. -/
theorem DeclarationBlock.holds_render (b : DeclarationBlock) : Holds b.strings b.render := by
  cases b with
  | plain k b => exact b.holds_render VariableDeclaration.holds_render _
  | located b => exact b.holds_render LocatedDeclaration.holds_render _
  | global b => exact b.holds_render GlobalDeclaration.holds_render _
  | external b => exact b.holds_render ExternalDeclaration.holds_render _
  | access b => exact b.holds_render AccessDeclaration.holds_render _

/-! ## Type declarations -/

def Member.strings (m : Member) : List Piece := m.init.strings

/-- The string literals of a type; the members of a structure stand one level inside it. -/
def TypeDefinition.strings : TypeDefinition → List Piece
  | .spec init => init.strings
  | .struct _ members => members.flatMap fun m => m.body.strings.map Piece.deeper

def TypeDeclaration.strings (t : TypeDeclaration) : List Piece := t.definition.strings

/-- The string literals of a block of types. A declaration that shares the line of the keyword is
not indented. -/
def TypeBlock.strings (b : TypeBlock) : List Piece :=
  let spread := b.items.flatMap fun t => t.strings.map Piece.deeper
  match b.items with
  | [t] => if t.anchor.comments.isEmpty then t.strings else spread
  | _ => spread

theorem Member.holds_render (m : Member) : Holds m.strings m.render := m.init.holds_render.before _

/-- The members of a structure stand one level inside it. -/
theorem TypeDeclaration.holds_render (t : TypeDeclaration) : Holds t.strings t.render := by
  obtain ⟨anchor, name, base, definition⟩ := t
  refine anchor.holds_above ?_
  cases definition with
  | spec init => exact init.holds_render.before _
  | struct indirection members =>
      have hmembers := Holds.joinWith_map ['\n']
        (fun m => ((Anchored.holds_render Member.holds_render m).after ";".toList).indent) members
      exact (hmembers.lines_before _).lines_after _

/-- A semicolon behind the type holds no string. -/
theorem TypeDeclaration.holds_terminated (t : TypeDeclaration) : Holds t.strings t.terminated := by
  rw [TypeDeclaration.terminated]
  split
  · exact t.holds_render
  · exact t.holds_render.after _

/-- The declarations of a block of types stand one level inside it. -/
theorem TypeBlock.holds_render (b : TypeBlock) : Holds b.strings b.render := by
  obtain ⟨anchor, items⟩ := b
  have hitems := Holds.joinWith_map ['\n']
    (fun t => (TypeDeclaration.holds_terminated t).indent) items
  have hspread := (hitems.lines_before [("TYPE" : Text)]).lines_after [("END_TYPE" : Text)]
  refine anchor.holds_above ?_
  rcases items with _ | ⟨t, _ | ⟨u, items⟩⟩
  · exact hspread
  · by_cases ht : t.anchor.comments.isEmpty
    · simp only [TypeBlock.strings, if_pos ht]
      exact (t.holds_terminated.before _).after _
    · simp only [TypeBlock.strings, if_neg ht]
      exact hspread
  · exact hspread

/-! ## Statements -/

def SimpleStatement.strings : SimpleStatement → List Piece
  | .assignment vs e => vs.flatMap Variable.strings ++ e.strings
  | .targeted _ v e => v.strings ++ e.strings
  | .methodCall v => v.strings
  | .invocation c => c.strings
  | .noOp v => v.strings
  | .jump _ => []

def CaseLabel.strings : CaseLabel → List Piece
  | .value e => e.strings
  | .range r => r.strings

mutual

/-- The string literals of a statement, in document order. The statements in it stand one level
inside it; those of a case, two levels. -/
def Statement.strings : Statement → List Piece
  | .simple _ s => s.strings
  | .ifThen _ c ss es o =>
    c.strings ++ (Statement.stringsAll ss).map Piece.deeper ++ ElseIf.stringsAll es ++
      Else.stringsOption o
  | .caseOf _ e cs o =>
    e.strings ++ (Case.stringsAll cs).map Piece.deeper ++ Else.stringsOption o
  | .forTo _ _ e f s ss =>
    e.strings ++ f.strings ++ s.elim [] Expression.strings ++
      (Statement.stringsAll ss).map Piece.deeper
  | .whileDo _ c ss => c.strings ++ (Statement.stringsAll ss).map Piece.deeper
  | .repeatUntil _ ss c => (Statement.stringsAll ss).map Piece.deeper ++ c.strings

def Statement.stringsAll : List Statement → List Piece
  | [] => []
  | s :: ss => s.strings ++ Statement.stringsAll ss

def ElseIf.strings : ElseIf → List Piece
  | ⟨_, c, ss⟩ => c.strings ++ (Statement.stringsAll ss).map Piece.deeper

def Else.strings : Else → List Piece
  | ⟨_, ss⟩ => (Statement.stringsAll ss).map Piece.deeper

def Case.strings : Case → List Piece
  | ⟨_, ls, ss⟩ => ls.flatMap CaseLabel.strings ++ (Statement.stringsAll ss).map Piece.deeper

def ElseIf.stringsAll : List ElseIf → List Piece
  | [] => []
  | e :: es => e.strings ++ ElseIf.stringsAll es

def Else.stringsOption : Option Else → List Piece
  | none => []
  | some e => e.strings

def Case.stringsAll : List Case → List Piece
  | [] => []
  | c :: cs => c.strings ++ Case.stringsAll cs

end

/-- A statement of one line holds the strings of its variables before those of its values. -/
theorem SimpleStatement.holds_render (s : SimpleStatement) : Holds s.strings s.render := by
  cases s with
  | assignment vs e =>
      have htargets := (Holds.joinWith_map " := " Variable.holds_render vs).after " := ".toList
      exact (htargets.append e.holds_render).after _
  | targeted op v e =>
      have htarget := ((v.holds_render.after " ".toList).after op.render).after " ".toList
      exact (htarget.append e.holds_render).after _
  | methodCall v => exact v.holds_render.after _
  | invocation c => exact c.holds_render.after _
  | noOp v => exact v.holds_render.after _
  | jump j => exact .done _

theorem CaseLabel.holds_render (l : CaseLabel) : Holds l.strings l.render := by
  cases l with
  | value e => exact e.holds_render
  | range r => exact r.holds_render

/-- A body stands one level in. -/
theorem holds_bodyLines {ps : List Piece} {body : Text} (h : Holds ps body) :
    Holds (ps.map Piece.deeper) (Text.joinLines (bodyLines body)) := by
  cases body with
  | nil => exact h.indent
  | cons c body => exact h.indent.line

mutual

/-- The text of a statement holds its strings. Those of the bodies inside it are one level deeper
than the statement. -/
theorem Statement.holds_render (s : Statement) : Holds s.strings s.render := by
  -- The pieces stand in the order in which the statement is written: what its head says, its
  -- bodies, its end.
  cases s with
  | simple a s => exact a.holds_above s.holds_render
  | ifThen a c ss es o =>
      have hhead := ((c.holds_render.before "IF ".toList).after " THEN".toList).line
      have hbody := hhead.lines_append (holds_bodyLines (Statement.holds_renderAll ss))
      have hclauses := (hbody.lines_append (ElseIf.holds_renderAll es)).lines_append
        (Else.holds_renderOption o)
      exact a.holds_above (hclauses.lines_after _)
  | caseOf a e cs o =>
      have hhead := ((e.holds_render.before "CASE ".toList).after " OF".toList).line
      have hcases := hhead.lines_append (Case.holds_renderAll cs)
      exact a.holds_above ((hcases.lines_append (Else.holds_renderOption o)).lines_after _)
  | forTo a v e f s ss =>
      have hfirst := e.holds_render.before ("FOR ".toList ++ v.render ++ " := ".toList)
      have hlimits := (hfirst.after " TO ".toList).append f.holds_render
      have hstep := Holds.optional (fun s => (Expression.holds_render s).before " BY ".toList) s
      have hhead := ((hlimits.append hstep).after " DO".toList).line
      have hbody := hhead.lines_append (holds_bodyLines (Statement.holds_renderAll ss))
      exact a.holds_above (hbody.lines_after _)
  | whileDo a c ss =>
      have hhead := ((c.holds_render.before "WHILE ".toList).after " DO".toList).line
      have hbody := hhead.lines_append (holds_bodyLines (Statement.holds_renderAll ss))
      exact a.holds_above (hbody.lines_after _)
  | repeatUntil a ss c =>
      have hbody := (holds_bodyLines (Statement.holds_renderAll ss)).lines_before
        [("REPEAT" : Text)]
      have huntil := (c.holds_render.before "UNTIL ".toList).line.lines_after
        [("END_REPEAT" : Text)]
      exact a.holds_above (hbody.lines_append huntil)

/-- Statements are written in their order, each on lines of its own. -/
theorem Statement.holds_renderAll (ss : List Statement) :
    Holds (Statement.stringsAll ss) (Statement.renderAll ss) := by
  match ss with
  | [] => exact .done _
  | [s] => simpa [Statement.stringsAll, Statement.renderAll] using s.holds_render
  | s :: t :: ss =>
      exact (s.holds_render.after "\n".toList).append (Statement.holds_renderAll (t :: ss))

theorem ElseIf.holds_render (e : ElseIf) : Holds e.strings e.render := by
  obtain ⟨a, c, ss⟩ := e
  have hhead := ((c.holds_render.before "ELSIF ".toList).after " THEN".toList).line
  have hbody := hhead.lines_append (holds_bodyLines (Statement.holds_renderAll ss))
  exact a.holds_above hbody

theorem Else.holds_render (e : Else) : Holds e.strings e.render := by
  obtain ⟨a, ss⟩ := e
  exact a.holds_above ((holds_bodyLines (Statement.holds_renderAll ss)).lines_before _)

theorem Case.holds_render (c : Case) : Holds c.strings c.render := by
  obtain ⟨a, ls, ss⟩ := c
  have hlabels := Holds.joinWith_map ", " CaseLabel.holds_render ls
  have hhead := (hlabels.after ":".toList).line
  have hbody := hhead.lines_append (holds_bodyLines (Statement.holds_renderAll ss))
  exact a.holds_above hbody

theorem ElseIf.holds_renderAll (es : List ElseIf) :
    Holds (ElseIf.stringsAll es) (Text.joinLines (ElseIf.renderAll es)) := by
  cases es with
  | nil => exact .done _
  | cons e es => exact e.holds_render.joinWith_cons (ElseIf.holds_renderAll es)

theorem Else.holds_renderOption (o : Option Else) :
    Holds (Else.stringsOption o) (Text.joinLines (Else.renderOption o)) := by
  cases o with
  | none => exact .done _
  | some e => exact e.holds_render.line

/-- The cases stand one level inside their statement. -/
theorem Case.holds_renderAll (cs : List Case) :
    Holds ((Case.stringsAll cs).map Piece.deeper) (Text.joinLines (Case.renderAll cs)) := by
  cases cs with
  | nil => exact .done _
  | cons c cs =>
      rw [Case.stringsAll, List.map_append]
      exact c.holds_render.indent.joinWith_cons (Case.holds_renderAll cs)

end

/-! ## Files -/

def Body.strings (b : Body) : List Piece := Statement.stringsAll b.statements

/-- The string literals in the type of what a unit returns. -/
def UnitKind.strings (k : UnitKind) : List Piece := k.returnType?.elim [] TypeSpecification.strings

/-- The string literals of a unit, whose blocks and body stand one level inside it. -/
def ProgramUnit.strings (u : ProgramUnit) : List Piece :=
  u.kind.strings ++ u.declarations.flatMap (fun b => b.strings.map Piece.deeper) ++
    (u.body.elim [] Body.strings).map Piece.deeper

def Action.strings (a : Action) : List Piece := (a.body.elim [] Body.strings).map Piece.deeper

/-- The string literals of an item. A construct that is kept as written has no parts. -/
def Item.strings : Item → List Piece
  | .types b => b.strings
  | .unit u => u.strings
  | .action a => a.strings
  | .globals b => b.strings GlobalDeclaration.strings
  | .verbatim _ => []

/-- The string literals of a file in document order, each with the number of levels it is deep. -/
def SourceFile.strings (f : SourceFile) : List Piece := f.items.flatMap Item.strings

/-- The comments above a body are in front of all its strings. -/
theorem Body.holds_render (b : Body) : Holds b.strings b.render :=
  b.anchor.holds_above (Statement.holds_renderAll b.statements)

/-- The type of what a unit returns is written in its first line. -/
theorem holds_returnMark (t : Option TypeSpecification) :
    Holds (t.elim [] TypeSpecification.strings) (returnMark t) :=
  .optional (fun t => t.holds_render.before _) t

/-- Only the type of what a unit returns can hold strings in its first line. -/
theorem UnitKind.holds_heading (k : UnitKind) (name : Token) :
    Holds k.strings (k.heading name) := by
  cases k with
  | function t => exact (holds_returnMark t).before _
  | functionBlock a e is => exact .done _
  | program => exact .done _
  | method access t => exact (holds_returnMark t).before _

/-- A unit holds the strings of its first line and, one level deeper, those of its blocks and its
body. -/
theorem holds_renderUnit {ps : List Piece} {heading : Text} (anchor : Anchor)
    (h : Holds ps heading) (blocks : List DeclarationBlock) (body : Option Body) (ending : Text) :
    Holds
      (ps ++ blocks.flatMap (fun b => b.strings.map Piece.deeper) ++
        (body.elim [] Body.strings).map Piece.deeper)
      (renderUnit anchor heading blocks body ending) := by
  have hblocks := Holds.joinWith_map ['\n']
    (fun b => (DeclarationBlock.holds_render b).indent) blocks
  have hbody := holds_bodyLines (Holds.optional Body.holds_render body)
  have hparts := (h.line.lines_append hblocks).lines_append hbody
  exact anchor.holds_above (hparts.lines_after _)

theorem ProgramUnit.holds_render (u : ProgramUnit) : Holds u.strings u.render :=
  holds_renderUnit u.anchor (u.kind.holds_heading u.name) u.declarations u.body _

theorem Action.holds_render (a : Action) : Holds a.strings a.render :=
  holds_renderUnit a.anchor (.done _) [] a.body _

/-- What is kept as written is no part of the tree, and its strings are not counted. -/
theorem Item.holds_render (i : Item) : Holds i.strings i.render := by
  cases i with
  | types b => exact b.holds_render
  | unit u => exact u.holds_render
  | action a => exact a.holds_render
  | globals b => exact DeclarationBlock.holds_render (.global b)
  | verbatim v => exact .done _

/-- The text of a file holds the string literals of the file, in document order: each with as many
levels of indentation behind its line feeds as it is deep. -/
theorem SourceFile.holds_render (f : SourceFile) : Holds f.strings f.render :=
  .joinWith_map _ Item.holds_render f.items

/-- A literal in a declaration, and one over two lines in a call inside an `IF`. -/
example : (SourceFile.parse {}
    "PROGRAM P VAR s : STRING := 'a'; END_VAR IF x THEN f('b\nc'); END_IF END_PROGRAM".toList
    "p.st").toOption.map (fun f => f.strings.map fun p => (p.depth, p.shown)) =
      some [(2, "'a'".toList), (2, "'b\n        c'".toList)] := by
  decide +kernel

/-- Formatting writes the string literals of the source in document order, and those of one line as
they are. -/
theorem holds_format {source settingsText t : Text} {filename : String}
    (h : format source settingsText filename = .done t) :
    ∃ settings f, Settings.read settingsText = .ok settings ∧
      SourceFile.parse settings source filename = .ok f ∧ Holds f.strings t ∧
      ((∀ p ∈ f.strings, '\n' ∉ p.text) → Holds (f.strings.map Piece.unshifted) t) := by
  cases hs : Settings.read settingsText with
  | error e => simp [format, hs, bind, Except.bind] at h
  | ok settings =>
      cases hf : SourceFile.parse settings source filename with
      | error e => simp [format, hs, hf, bind, Except.bind] at h
      | ok f =>
          obtain rfl : f.render = t := by simpa [format, hs, hf, bind, Except.bind] using h
          exact ⟨settings, f, rfl, hf, f.holds_render, f.holds_render.unshifted⟩

/-- A literal in a declaration, and one in a call inside an `IF`. -/
def nestedStrings : Text :=
  "PROGRAM P VAR s : STRING := 'a'; END_VAR IF x THEN f('b'); END_IF END_PROGRAM".toList

/-- Both literals stand in the formatted text, in this order, as they were written. -/
theorem holds_format_nestedStrings :
    ∃ t, format nestedStrings [] "p.st" = .done t ∧
      Holds [{ text := "'a'".toList }, { text := "'b'".toList }] t := by
  -- That it is formatted and which strings it has are two evaluations.
  have hdone : (format nestedStrings [] "p.st" matches .done _) = true := by decide +kernel
  have hstrings : ((Settings.read []).toOption.bind fun settings =>
      (SourceFile.parse settings nestedStrings "p.st").toOption.map fun f =>
        f.strings.map Piece.text) = some ["'a'".toList, "'b'".toList] := by
    decide +kernel
  cases hformat : format nestedStrings [] "p.st" with
  | failed e =>
      rw [hformat] at hdone
      cases hdone
  | done t =>
      obtain ⟨settings, f, hsettings, hf, -, honeLine⟩ := holds_format hformat
      rw [hsettings, Except.toOption, Option.bind_some, hf, Except.toOption] at hstrings
      have htexts : f.strings.map Piece.text = ["'a'".toList, "'b'".toList] :=
        Option.some.inj hstrings
      have hunshifted : f.strings.map Piece.unshifted =
          [{ text := "'a'".toList }, { text := "'b'".toList }] := by
        have h := congrArg (List.map fun u => ({ text := u } : Piece)) htexts
        rwa [List.map_map] at h
      have hholds := honeLine fun p hp => by
        have hmem : p.text ∈ f.strings.map Piece.text := List.mem_map_of_mem hp
        rw [htexts] at hmem
        revert hmem
        generalize p.text = u
        simp only [List.mem_cons, List.not_mem_nil, or_false]
        rintro (rfl | rfl) <;> decide
      exact ⟨t, rfl, hunshifted ▸ hholds⟩

end StructuredText
