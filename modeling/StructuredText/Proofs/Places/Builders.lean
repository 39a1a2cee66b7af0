import StructuredText.Build.Table
import StructuredText.Proofs.Places.Children

/-!
# No builder looks at places

Every builder of the table makes of the children without their places what it makes of the children,
without its places.

* `Build.Oblivious` — what that means for one builder.
* `Build.oblivious_of_builder` — all builders.
-/

namespace StructuredText.Build

open Grammar (Rule)
open Builder

/-- Of the children without places, the builder makes what it makes of the children, without its
places. -/
def Oblivious (b : Builder Element) : Prop := Follows Element.unplaced b b

variable {α : Type}

/-! ## Expressions and literals -/

instance {what : String} {value? : Text → Option α} {t : Token} :
    Steady (letterOf what value? t) where
  follows := by
    rw [letterOf]
    split
    · exact .pure rfl
    · exact follows_fail

/-- Which children are split off depends on their rules, not on their places. -/
theorem splitTokens_unplaced (r : Rule) (es : List Element) :
    splitTokens r (es.map Element.unplaced) =
      ((splitTokens r es).1, (splitTokens r es).2.map Element.unplaced) := by
  induction es with
  | nil => rfl
  | cons e es ih =>
      -- only a token can be split off
      cases e with
      | token r' t =>
          show splitTokens r (.token r' t :: es.map Element.unplaced) = _
          rw [splitTokens, splitTokens, ih]
          split <;> rfl
      | _ => rfl

instance {r : Rule} : Steady (takeTokens r) where
  follows := by
    intro c ts c' hgives
    have hrun (c : Children) : (takeTokens r).Gives c (splitTokens r c.rest).1
        { c with rest := (splitTokens r c.rest).2 } := rfl
    obtain ⟨rfl, rfl⟩ := hgives.unique (hrun c)
    have hrun' := hrun c.unplaced
    have hrest : c.unplaced.rest = c.rest.map Element.unplaced := rfl
    rw [hrest, splitTokens_unplaced] at hrun'
    exact hrun'

/-- As many children are left without their places. -/
theorem isEmpty_unplaced (c : Children) : c.unplaced.rest.isEmpty = c.rest.isEmpty :=
  List.isEmpty_map

/-- Operators and operands are taken in the same order, whatever their places are. -/
theorem chainOnto_follows (left : Expression) (bound : List Element) :
    Follows id (chainOnto left bound) (chainOnto left (bound.map Element.unplaced)) := by
  -- the bound counts the steps, and the operand on the left grows with them
  induction bound generalizing left with
  | nil =>
      refine follows_get.bind fun c => ?_
      rw [isEmpty_unplaced]
      split <;> exact .pure rfl
  | cons _ bound ih =>
      refine follows_get.bind fun c => ?_
      rw [isEmpty_unplaced]
      split
      · exact .pure rfl
      · exact .after fun op => .after fun right => ih (.binary left op right)

/-- Whether a chain is a single operand depends on the number of its children. -/
theorem binaryChain_oblivious : Oblivious binaryChain := by
  refine follows_get.bind fun c => ?_
  obtain ⟨rule, line, span, received, rest⟩ := c
  -- the number of children decides how they are built
  match rest with
  | [_] => exact follows_single
  | [] => exact .after fun left => (chainOnto_follows left []).bind fun _ => .pure rfl
  | e :: f :: es =>
      exact .after fun left => (chainOnto_follows left (e :: f :: es)).bind fun _ => .pure rfl

/-- Whether there is an operator depends on the rule of the first child. -/
theorem unaryExpression_oblivious : Oblivious unaryExpression := by
  refine .after fun op => ?_
  cases op with
  | none => exact follows_single
  | some op => exact .after fun _ => .after fun _ => .pure rfl

instance : Steady callOf :=
  inferInstanceAs (Steady do
    let callee ← take Variable
    let parameters ← takeWhile Parameter
    finish
    pure (⟨callee, parameters⟩ : Call))

instance : Steady takeTime :=
  inferInstanceAs (Steady do
    let hour ← token .dayHour
    let minute ← token .dayMinute
    let second ← token .daySecond
    pure (⟨hour, minute, second⟩ : TimeOfDay))

instance : Steady takeDate :=
  inferInstanceAs (Steady do
    let year ← token .year
    let month ← token .month
    let day ← token .day
    pure (⟨year, month, day⟩ : Date))

/-- A part of a duration is added by its unit and its number. -/
theorem addPart_follows (d : Duration) (part : RawNode Element) :
    Follows id (addPart d part) (addPart d part.unplaced) := by
  have hrule : part.unplaced.rule = part.rule := rfl
  rw [addPart, addPart, part.token?_unplaced, hrule]
  cases part.token? with
  | none => exact follows_fail
  | some number =>
      dsimp only
      cases setPart? d number part.rule with
      | none => exact follows_fail
      | some d => exact .pure rfl

/-- So are all of them, one after the other. -/
theorem addParts_follows (d : Duration) (parts : List (RawNode Element)) :
    Follows id (parts.foldlM addPart d) ((parts.map RawNode.unplaced).foldlM addPart d) := by
  induction parts generalizing d with
  | nil => exact .pure rfl
  | cons part parts ih =>
      rw [List.map_cons, List.foldlM_cons, List.foldlM_cons]
      exact (addPart_follows d part).bind ih

/-- A duration is put together of the units and numbers of its parts. -/
theorem duration_oblivious : Oblivious duration := by
  refine Placed.unplaces.takeWhile.bind fun parts => follows_get.bind fun c => ?_
  rw [isEmpty_unplaced, List.isEmpty_map]
  have hrest : Follows Element.unplaced
      (do
        let d ← parts.foldlM addPart {}
        pure (.literal (.duration d)))
      (do
        let d ← (parts.map Placed.unplaced).foldlM addPart {}
        pure (.literal (.duration d))) :=
    (addParts_follows {} parts).bind fun _ => .pure rfl
  -- a duration without parts is refused in both
  split
  · exact (follows_fail (u := id)).bind fun _ => hrest
  · exact hrest

/-! ## Types and declarations -/

instance : Steady arrayElement where
  follows := by
    refine .after fun o => ?_
    cases o with
    | none => exact .after fun _ => .pure rfl
    | some e => exact .pure rfl

/-- The elements of an array are taken up to the end, one in each step. -/
theorem arrayElements_follows (bound : List Element) :
    Follows id (arrayElements bound) (arrayElements (bound.map Element.unplaced)) := by
  induction bound with
  | nil =>
      refine follows_get.bind fun c => ?_
      rw [isEmpty_unplaced]
      split <;> exact .pure rfl
  | cons _ bound ih =>
      refine follows_get.bind fun c => ?_
      rw [isEmpty_unplaced]
      split
      · exact .pure rfl
      · exact .after fun e => ih.bind fun _ => .pure rfl

theorem arrayInitialization_oblivious : Oblivious arrayInitialization :=
  follows_get.bind fun c => (arrayElements_follows c.rest).bind fun _ => .after fun _ => .pure rfl

/-- A list of names goes by the rule of its node, which has no place. -/
theorem nameList_oblivious : Oblivious nameList :=
  .after fun _ => .after fun _ => .after fun _ => follows_get.bind fun _ => .pure rfl

instance {name : Token} : Steady (globalAddress name) where
  follows := by
    refine .after fun o => ?_
    cases o with
    | none => exact .after fun _ => .pure rfl
    | some location => exact .pure rfl

instance : Steady globalInit where
  follows := by
    refine .after fun o => ?_
    cases o with
    | none => exact .after fun _ => .pure rfl
    | some call => exact .pure rfl

/-- The anchor of a block loses its place, and so do those of its entries. -/
theorem blockOf_follows [OfElement (Anchored α)]
    (h : Unplaces (Anchored.unplaced : Anchored α → Anchored α)) :
    Follows Block.unplaced (blockOf α) (blockOf α) :=
  follows_anchor.bind fun _ => .after fun _ => h.takeWhile.bind fun _ => .after fun _ => .pure rfl

theorem structureTypeDeclaration_oblivious : Oblivious structureTypeDeclaration :=
  follows_anchor.bind fun _ => .after fun _ => .after fun _ => .after fun _ =>
    Placed.unplaces.takeWhile.bind fun _ => .after fun _ => .pure rfl

theorem namedType_oblivious (what : String) (fits : SpecInit → Bool) :
    Oblivious (namedType what fits) := by
  refine follows_anchor.bind fun _ => .after fun _ => .after fun _ => .after fun init => ?_
  split
  · exact .after fun _ => .after fun _ => .pure rfl
  · exact .after fun _ => .pure rfl

theorem dataTypeDeclaration_oblivious : Oblivious dataTypeDeclaration := by
  refine follows_anchor.bind fun _ => Placed.unplaces.takeWhile.bind fun ts => ?_
  have hts : Follows (List.map TypeDeclaration.unplaced) (nonEmpty "type declaration" ts)
      (nonEmpty "type declaration" (ts.map TypeDeclaration.unplaced)) := by
    rw [nonEmpty, nonEmpty, List.isEmpty_map]
    split
    · exact follows_fail
    · exact .pure rfl
  exact hts.bind fun _ => .after fun _ => .pure rfl

/-! ## Statements -/

/-- The statements of a body lose their places one by one. -/
theorem takeBody_follows : Follows (List.map Statement.unplaced) takeBody takeBody := by
  refine (Placed.unplaces (α := List Statement)).takeIf.bind fun o => .pure ?_
  cases o <;> rfl

/-- A simple statement is its anchor and something without places. -/
theorem simpleOf_oblivious (statement : Builder SimpleStatement) [Steady statement] :
    Oblivious (simpleOf statement) :=
  follows_anchor.bind fun _ => .after fun _ => .after fun _ => .pure rfl

theorem elseIfClause_oblivious : Oblivious elseIfClause :=
  follows_anchor.bind fun _ => .after fun _ => takeBody_follows.bind fun _ => .after fun _ =>
    .pure rfl

theorem elseClause_oblivious : Oblivious elseClause :=
  follows_anchor.bind fun _ => takeBody_follows.bind fun _ => .after fun _ => .pure rfl

theorem ifStatement_oblivious : Oblivious ifStatement :=
  follows_anchor.bind fun _ => Placed.unplaces.takeLastIf.bind fun _ => .after fun _ =>
    takeBody_follows.bind fun _ => Placed.unplaces.takeWhile.bind fun _ => .after fun _ =>
      .pure (congrArg Element.statement (Statement.unplaced_ifThen ..))

/-- A label is a value or a range, neither of which has a place. -/
theorem caseLabels_follows (es : List Element) :
    Follows id (es.mapM caseLabel) ((es.map Element.unplaced).mapM caseLabel) := by
  induction es with
  | nil => exact .pure rfl
  | cons e es ih =>
      have hlabel : Follows id (caseLabel e) (caseLabel e.unplaced) := by
        rw [caseLabel, caseLabel, Still.ofElement?_unplaced]
        cases (ofElement? e : Option CaseLabel) with
        | none => exact follows_fail
        | some label => exact .pure rfl
      rw [List.map_cons, List.mapM_cons, List.mapM_cons]
      exact hlabel.bind fun _ => ih.bind fun _ => .pure rfl

theorem caseElement_oblivious : Oblivious caseElement := by
  refine follows_anchor.bind fun a => Placed.unplaces.take.bind fun list => ?_
  -- The labels are read off a raw node, which has a place of its own.
  have hrest : Follows Element.unplaced
      (do
        let labels ← list.children.mapM caseLabel
        let body ← takeBody
        finish
        pure (.case ⟨a, labels, body⟩))
      (do
        let labels ← (list.children.map Element.unplaced).mapM caseLabel
        let body ← takeBody
        finish
        pure (.case ⟨a.unplaced, labels, body⟩)) :=
    (caseLabels_follows list.children).bind fun _ => takeBody_follows.bind fun _ =>
      .after fun _ => .pure rfl
  have hrule : (Placed.unplaced list).rule = list.rule := rfl
  rw [hrule]
  split
  · exact (follows_fail (u := id)).bind fun _ => hrest
  · exact hrest

theorem caseStatement_oblivious : Oblivious caseStatement :=
  follows_anchor.bind fun _ => Placed.unplaces.takeLastIf.bind fun _ => .after fun _ =>
    Placed.unplaces.takeWhile.bind fun _ => .after fun _ =>
      .pure (congrArg Element.statement (Statement.unplaced_caseOf ..))

theorem forStatement_oblivious : Oblivious forStatement :=
  follows_anchor.bind fun _ => .after fun _ => .after fun _ => .after fun _ => .after fun _ =>
    takeBody_follows.bind fun _ => .after fun _ =>
      .pure (congrArg Element.statement (Statement.unplaced_forTo ..))

theorem whileStatement_oblivious : Oblivious whileStatement :=
  follows_anchor.bind fun _ => .after fun _ => takeBody_follows.bind fun _ => .after fun _ =>
    .pure (congrArg Element.statement (Statement.unplaced_whileDo ..))

theorem repeatStatement_oblivious : Oblivious repeatStatement :=
  follows_anchor.bind fun _ => takeBody_follows.bind fun _ => .after fun _ => .after fun _ =>
    .pure (congrArg Element.statement (Statement.unplaced_repeatUntil ..))

theorem statementList_oblivious : Oblivious statementList :=
  .after fun _ => Placed.unplaces.takeWhile.bind fun _ => .after fun _ => .pure rfl

/-! ## Units and files -/

theorem functionBlockBody_oblivious : Oblivious functionBlockBody :=
  follows_anchor.bind fun _ => Placed.unplaces.take.bind fun _ => .after fun _ => .pure rfl

/-- A body loses its own place and those of its statements. -/
theorem takeUnitBody_follows : Follows (Option.map Body.unplaced) takeUnitBody takeUnitBody := by
  refine (Placed.unplaces (α := Body)).takeIf.bind fun o => .pure ?_
  cases o with
  | none => rfl
  | some b =>
      rw [Option.filter_some, Option.map_some, Option.filter_some]
      have hempty : (Placed.unplaced b).statements.isEmpty = b.statements.isEmpty :=
        List.isEmpty_map
      rw [hempty]
      split <;> rfl

instance {access : Flags AccessSpecifier} {t : Token} : Steady (addSpecifier access t) where
  follows := by
    rw [addSpecifier]
    split
    · exact .pure rfl
    · exact follows_fail

instance {access : Flags AccessSpecifier} {ts : List Token} :
    Steady (ts.foldlM addSpecifier access) where
  follows := by
    induction ts generalizing access with
    | nil => exact .pure rfl
    | cons t ts ih =>
        rw [List.foldlM_cons]
        exact .after fun _ => ih

/-- The first line of a unit has no place. -/
theorem unitOf_oblivious (heading : Builder (UnitKind × Token)) [Steady heading] :
    Oblivious (unitOf heading) :=
  follows_anchor.bind fun _ => .after fun _ => Placed.unplaces.takeWhile.bind fun _ =>
    takeUnitBody_follows.bind fun _ => .after fun _ => .pure rfl

theorem actionOf_oblivious (kind : Builder ActionKind) [Steady kind] :
    Oblivious (actionOf kind) :=
  follows_anchor.bind fun _ => .after fun _ => takeUnitBody_follows.bind fun _ => .after fun _ =>
    .pure rfl

theorem iecSource_oblivious : Oblivious iecSource :=
  Placed.unplaces.takeWhile.bind fun _ => .after fun _ => .pure rfl

/-! ## The table -/

/-- No builder looks at places. -/
theorem oblivious_of_builder {r : Rule} {b : Builder Element} (hb : builder? r = some b) :
    Oblivious b := by
  cases r
  case expression | xorExpression | andExpression | comparisonExpression | equalityExpression
      | addExpression | expressionTerm | powerExpression =>
    cases hb
    exact binaryChain_oblivious
  case unaryExpression =>
    cases hb
    exact unaryExpression_oblivious
  case arrayInitialElement =>
    cases hb
    exact follows_single
  case duration =>
    cases hb
    exact duration_oblivious
  case arrayInitialization =>
    cases hb
    exact arrayInitialization_oblivious
  case implementsClause | fbDeclNameList | globalVarList =>
    cases hb
    exact nameList_oblivious
  case varDeclarations | tempVarDecls | varInstDeclaration | inputDeclarations | outputDeclarations
      | inputOutputDeclarations | locatedVarDeclarations | globalVarDeclarations
      | externalVarDeclarations | programAccessDecls =>
    cases hb
    exact (blockOf_follows Placed.unplaces).bind fun _ => .pure rfl
  case structureTypeDeclaration =>
    cases hb
    exact structureTypeDeclaration_oblivious
  case arrayTypeDeclaration | stringTypeDeclaration | subrangeTypeDeclaration
      | enumeratedTypeDeclaration | initializedStructureTypeDeclaration | simpleTypeDeclaration =>
    cases hb
    exact namedType_oblivious _ _
  case dataTypeDeclaration =>
    cases hb
    exact dataTypeDeclaration_oblivious
  case assignmentStatement | setStatement | resetStatement | referenceAssignmentStatement
      | exitStatement | continueStatement | returnStatement | methodStatement
      | fbInvocationStatement | noOpStatement =>
    cases hb
    exact simpleOf_oblivious _
  case elseIfClause =>
    cases hb
    exact elseIfClause_oblivious
  case elseClause =>
    cases hb
    exact elseClause_oblivious
  case ifStatement =>
    cases hb
    exact ifStatement_oblivious
  case caseElement =>
    cases hb
    exact caseElement_oblivious
  case caseStatement =>
    cases hb
    exact caseStatement_oblivious
  case forStatement =>
    cases hb
    exact forStatement_oblivious
  case whileStatement =>
    cases hb
    exact whileStatement_oblivious
  case repeatStatement =>
    cases hb
    exact repeatStatement_oblivious
  case statementList =>
    cases hb
    exact statementList_oblivious
  case functionBlockBody =>
    cases hb
    exact functionBlockBody_oblivious
  case functionBlockTypeDeclaration | functionDeclaration | programDeclaration
      | functionBlockMethodDeclaration =>
    cases hb
    exact unitOf_oblivious _
  case action | entryAction | exitAction =>
    cases hb
    exact actionOf_oblivious _
  case iecSource =>
    cases hb
    exact iecSource_oblivious
  -- the other rules have no builder, or one that takes children without places
  all_goals first | (cases hb; done) | skip
  all_goals
    cases hb
    first
    | refine .after fun _ => ?_
    | refine follows_anchor.bind fun _ => ?_
    repeat'
      first
      | with_reducible refine .after fun _ => ?_
      | with_reducible refine .pure ?_
        rfl
      | with_reducible exact follows_fail
      | split
      | dsimp only

end StructuredText.Build
