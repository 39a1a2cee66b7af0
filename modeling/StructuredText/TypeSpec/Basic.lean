import StructuredText.Expression.Basic

/-!
# Type specifications

What may stand after the colon of a declaration: a type, and a first value for it. Array types nest
in themselves, and so do the first values of arrays and structures.

* `TypeSpecification` — a type; `TypeSpecification.typeName?` is the name it comes down to.
* `Initializer` — a first value.
* `SpecInit` — a type with an optional first value of the right kind.
-/

namespace StructuredText

/-! ## Types -/

/-- How a variable refers to a value of its type instead of holding one. -/
inductive Indirection where
  | pointer | reference | refTo
  deriving DecidableEq, Repr

/-- `INT`, `POINTER TO ST_Data`: a type by its name. -/
structure DataType where
  indirection : Option Indirection
  typeName : Token
  deriving BEq

/-- `STRING`, `WSTRING(80)`, `STRING[Len]`; the length is kept with its brackets. -/
structure StringType where
  name : Token
  length : Option Token
  deriving BEq

/-- Whether the characters of a string type are wide. -/
def StringType.isWide (s : StringType) : Bool := s.name.is "WSTRING"

/-- `1..10`, or `*` for a range left open. -/
inductive Subrange where
  | full
  | limits (low high : Expression)
  deriving BEq

/-- `INT (0..100)` -/
structure SubrangeType where
  typeName : Token
  range : Subrange
  deriving BEq

/-- `(Idle, Busy := 5) DINT` -/
structure EnumeratedType where
  values : List EnumeratedValue
  baseType : Option Token
  deriving BEq

mutual

/-- `ARRAY[0..9, 1..2] OF INT` -/
inductive ArrayType where
  | mk (dimensions : List Subrange) (elementType : TypeSpecification)

/-- A type, without a first value. -/
inductive TypeSpecification where
  | data (type : DataType)
  | string (type : StringType)
  | array (type : ArrayType)
  | subrange (type : SubrangeType)
  | enumerated (type : EnumeratedType)

end

mutual

def ArrayType.beq : ArrayType → ArrayType → Bool
  | ⟨ds, t⟩, ⟨es, u⟩ => ds == es && t.beq u
termination_by structural a => a

def TypeSpecification.beq : TypeSpecification → TypeSpecification → Bool
  | .data a, .data b => a == b
  | .string a, .string b => a == b
  | .array a, .array b => a.beq b
  | .subrange a, .subrange b => a == b
  | .enumerated a, .enumerated b => a == b
  | _, _ => false
termination_by structural a => a

end

instance : BEq ArrayType := ⟨ArrayType.beq⟩
instance : BEq TypeSpecification := ⟨TypeSpecification.beq⟩

mutual

/-- The name of the type of the innermost elements. -/
def ArrayType.typeName? : ArrayType → Option Token
  | ⟨_, t⟩ => t.typeName?

/-- The name a type comes down to; an enumeration without a base type has none. -/
def TypeSpecification.typeName? : TypeSpecification → Option Token
  | .data t => some t.typeName
  | .string t => some t.name
  | .array t => t.typeName?
  | .subrange t => some t.typeName
  | .enumerated t => t.baseType

end

/-! ## First values -/

mutual

/-- What stands right of `:=` in a declaration. -/
inductive Initializer where
  | expression (value : Expression)
  | array (value : ArrayInitialization)
  | struct (value : StructureInitialization)

/-- `[1, 2, 3(0)]` -/
inductive ArrayInitialization where
  | mk (elements : List ArrayInitialElement)

/-- One element of an array, or a number of equal ones: `3(0)`, or `3()` for three defaults. -/
inductive ArrayInitialElement where
  | single (value : Initializer)
  | repeated (count : Integer) (element : Option Initializer)

/-- `(a := 1, b := [1, 2])` -/
inductive StructureInitialization where
  | mk (elements : List StructureElementInitialization)

/-- `name := value`, or a value alone. -/
inductive StructureElementInitialization where
  | mk (name : Option Token) (value : Initializer)

end

mutual

def Initializer.beq : Initializer → Initializer → Bool
  | .expression a, .expression b => a == b
  | .array a, .array b => a.beq b
  | .struct a, .struct b => a.beq b
  | _, _ => false
termination_by structural a => a

def ArrayInitialization.beq : ArrayInitialization → ArrayInitialization → Bool
  | ⟨as⟩, ⟨bs⟩ => ArrayInitialElement.beqAll as bs
termination_by structural a => a

def ArrayInitialElement.beq : ArrayInitialElement → ArrayInitialElement → Bool
  | .single a, .single b => a.beq b
  | .repeated n a, .repeated m b => n == m && Initializer.beqOption a b
  | _, _ => false
termination_by structural a => a

def StructureInitialization.beq : StructureInitialization → StructureInitialization → Bool
  | ⟨as⟩, ⟨bs⟩ => StructureElementInitialization.beqAll as bs
termination_by structural a => a

def StructureElementInitialization.beq :
    StructureElementInitialization → StructureElementInitialization → Bool
  | ⟨n, a⟩, ⟨m, b⟩ => n == m && a.beq b
termination_by structural a => a

def Initializer.beqOption : Option Initializer → Option Initializer → Bool
  | none, none => true
  | some a, some b => a.beq b
  | _, _ => false
termination_by structural a => a

def ArrayInitialElement.beqAll : List ArrayInitialElement → List ArrayInitialElement → Bool
  | [], [] => true
  | a :: as, b :: bs => a.beq b && ArrayInitialElement.beqAll as bs
  | _, _ => false
termination_by structural as => as

def StructureElementInitialization.beqAll :
    List StructureElementInitialization → List StructureElementInitialization → Bool
  | [], [] => true
  | a :: as, b :: bs => a.beq b && StructureElementInitialization.beqAll as bs
  | _, _ => false
termination_by structural as => as

end

instance : BEq Initializer := ⟨Initializer.beq⟩
instance : BEq ArrayInitialization := ⟨ArrayInitialization.beq⟩
instance : BEq ArrayInitialElement := ⟨ArrayInitialElement.beq⟩
instance : BEq StructureInitialization := ⟨StructureInitialization.beq⟩
instance : BEq StructureElementInitialization := ⟨StructureElementInitialization.beq⟩

/-- `ST_Point := (x := 1, y := 2)` -/
structure InitializedStructure where
  typeName : Token
  value : StructureInitialization
  deriving BEq

/-! ## Types with first values -/

/-- A type and its optional first value. -/
inductive SpecInit where
  | simple (type : DataType) (value : Option Expression)
  | subrange (indirection : Option Indirection) (type : SubrangeType) (value : Option Expression)
  | enumerated (indirection : Option Indirection) (type : EnumeratedType)
      (value : Option Expression)
  | array (indirection : Option Indirection) (type : ArrayType)
      (value : Option ArrayInitialization)
  | string (type : StringType) (value : Option StringLiteral)
  | struct (value : InitializedStructure)
  deriving BEq

/-- The name the type comes down to. -/
def SpecInit.typeName? : SpecInit → Option Token
  | .simple t _ => some t.typeName
  | .subrange _ t _ => some t.typeName
  | .enumerated _ t _ => t.baseType
  | .array _ t _ => t.typeName?
  | .string t _ => some t.name
  | .struct v => some v.typeName

end StructuredText
