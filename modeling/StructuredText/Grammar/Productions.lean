import StructuredText.Grammar.Expr

/-!
# The grammar

What each rule matches. A rule is one of three kinds: a token is spelled by a pattern and leaves a
node without children; a node has the nodes of the rules called inside as its children; a silent
rule leaves no node of its own, only those of the rules called inside.

Keywords are tokens whose boundary is checked. Alternatives that could stop short of their
terminator look ahead for it, because a choice that was made is not reconsidered.
-/

namespace StructuredText.Grammar

/-- The right-hand side of a rule and what it leaves behind. -/
inductive Production where
  | token (p : Pattern)
  | node (e : Expr)
  | silent (e : Expr)

open StructuredText.Grammar.Expr Rule Keyword
open Pattern (word only plus)

/-- An expression followed by a semicolon, which is left unread. -/
def terminated (e : Expr) : Expr := spaced [e, ahead ";"]

/-- A type declaration followed by a semicolon or by the end of the declarations, left unread. -/
def typeEnded (e : Expr) : Expr := spaced [e, typeDeclarationEnd]

/-- One level of binary operators: operands joined by the operator of the level. -/
def chain (operand operator : Rule) : Expr := spaced [operand, many (spaced [operator, operand])]

/-- A block of declarations: its keyword, attributes if it may have any, and its entries. -/
def block (opening : Keyword) (attributes : Bool) (entries : Expr) : Production :=
  .node (spaced ([(opening : Expr)] ++ (if attributes then [many variableAttribute] else []) ++
    [entries, END_VAR]))

/-- Declarations, each ended by a semicolon. -/
def entriesOf (declaration : Rule) : Expr := many (spaced [declaration, ";"])

/-- A call: a variable and its parameters in parentheses. -/
def callOf (parameters : Expr) : Production :=
  .node (spaced [multiElementVariable, "(", parameters, ")"])

/-- A statement that begins with a variable and an operator. -/
def targeted (operator : Text) : Production :=
  .node (spaced [anyVariable, word operator, expression, ";"])

/-- A statement of one keyword. -/
def jump (k : Keyword) : Production := .node (spaced [k, ";"])

/-- The production of a rule. -/
def Rule.production : Rule → Production
  | endOfInput => .token .ended
  | whitespace => .silent Lexicon.blank
  | comment => .silent Lexicon.comment
  | identChar => .silent Lexicon.identChar
  | keyword k => .token (.seq (word k.spelling) Lexicon.boundary)
  -- identifiers
  | reserved =>
    .silent (spaced [Pattern.oneOf (Lexicon.reservedWords.map fun (w : String) => word w),
      Lexicon.boundary])
  | identifier => .token Lexicon.identifier
  | typeName => .token Lexicon.typeName
  -- integers
  | digits => .silent (spaced [Lexicon.digit, many (spaced [opt "_", Lexicon.digit])])
  | integerValue => .token Lexicon.integerValue
  | decimalDigits => .token Lexicon.digits
  | binaryDigits => .token (Lexicon.grouped Lexicon.binaryDigit)
  | octalDigits => .token (Lexicon.grouped Lexicon.octalDigit)
  | hexDigits => .token (Lexicon.grouped Lexicon.hexDigit)
  | integerTypeName =>
    .token (.oneOf [word "ULINT", word "UDINT", word "UINT", word "USINT", word "LINT",
      word "DINT", word "SINT", word "INT"])
  | binaryInteger => .node (glued ["2#", binaryDigits])
  | octalInteger => .node (glued ["8#", octalDigits])
  | hexInteger => .node (glued ["16#", hexDigits])
  | signedInteger => .node integerValue
  | integerLiteral =>
    .node (glued [opt (glued [integerTypeName, "#"]),
      oneOf [binaryInteger, octalInteger, hexInteger, signedInteger]])
  -- other literals
  | realTypeName => .token (.oneOf [word "LREAL", word "REAL"])
  | exponent => .silent (spaced [word "E", opt Lexicon.sign, digits])
  | realValue => .token Lexicon.realValue
  | realLiteral => .node (glued [opt (glued [realTypeName, "#"]), realValue])
  | bitStringTypeName =>
    .token (.oneOf [word "LWORD", word "DWORD", word "WORD", word "BYTE"])
  | binaryBitStringLiteral => .node (glued [bitStringTypeName, "#", "2#", binaryDigits])
  | octalBitStringLiteral => .node (glued [bitStringTypeName, "#", "8#", octalDigits])
  | hexBitStringLiteral => .node (glued [bitStringTypeName, "#", "16#", hexDigits])
  | bitStringLiteral => .node (glued [bitStringTypeName, "#", decimalDigits])
  | bitStringConstant =>
    .silent (oneOf [binaryBitStringLiteral, octalBitStringLiteral, hexBitStringLiteral,
      bitStringLiteral])
  | trueValue => .token Lexicon.trueValue
  | falseValue => .token Lexicon.falseValue
  | durationNumber => .token Lexicon.decimal
  | days => .node (glued [durationNumber, word "D"])
  | hours => .node (glued [durationNumber, word "H"])
  | minutes => .node (glued [durationNumber, word "M", Pattern.notAhead (word "S")])
  | seconds => .node (glued [durationNumber, word "S"])
  | milliseconds => .node (glued [durationNumber, word "MS"])
  | duration =>
    .node (glued [Pattern.oneOf [word "TIME", word "T"], "#", ahead Lexicon.digit,
      opt days, opt hours, opt minutes, opt seconds, opt milliseconds])
  | dayHour => .token Lexicon.twoDigits
  | dayMinute => .token Lexicon.twoDigits
  | daySecond => .token (.seq Lexicon.twoDigits (.opt (.seq "." (plus Lexicon.digit))))
  | year => .token (.all [Lexicon.digit, Lexicon.digit, Lexicon.digit, Lexicon.digit])
  | month => .token Lexicon.twoDigits
  | day => .token Lexicon.twoDigits
  | timeOfDay =>
    .node (glued [Pattern.oneOf [word "TIME_OF_DAY", word "TOD"], "#",
      dayHour, ":", dayMinute, ":", daySecond])
  | date =>
    .node (glued [Pattern.oneOf [word "DATE", word "D"], "#", year, "-", month, "-", day])
  | dateAndTime =>
    .node (glued [Pattern.oneOf [word "DATE_AND_TIME", word "DT"], "#",
      year, "-", month, "-", day, "-", dayHour, ":", dayMinute, ":", daySecond])
  | stringLiteral => .token Lexicon.stringLiteral
  | constant =>
    .silent (oneOf [dateAndTime, date, timeOfDay, duration, realLiteral, bitStringConstant,
      integerLiteral, stringLiteral, trueValue, falseValue])
  -- variables
  | deref => .token "^"
  | locationPrefix => .token (.oneOf [word "I", word "Q", word "M"])
  | sizePrefix => .token (.oneOf [word "X", word "B", word "W", word "D", word "L"])
  | directLocation => .token (plus Lexicon.digit)
  | directBit => .token (plus Lexicon.digit)
  | directVariable =>
    .node (glued ["%", locationPrefix, opt sizePrefix, directLocation,
      star (glued [".", directBit])])
  | incompleteAddress => .token (.all ["%", .oneOf [word "I", word "Q", word "M"], "*"])
  | incompleteLocation => .node (spaced [AT, incompleteAddress])
  | location => .node (spaced [AT, directVariable])
  | variableName => .node (spaced [identifier, opt deref])
  | fieldIndex => .token (plus Lexicon.digit)
  | fieldSelector => .node (glued [opt deref, ".", oneOf [identifier, fieldIndex]])
  | subscriptList => .node (spaced ["[", commaList expression, "]", opt deref])
  | multiElementVariable => .node (spaced [variableName, many (oneOf [subscriptList, fieldSelector])])
  | anyVariable => .silent (oneOf [directVariable, multiElementVariable])
  -- operators
  | orOperator => .token (.seq (.oneOf [word "OR_ELSE", word "OR"]) Lexicon.boundary)
  | xorOperator => .token (.seq (word "XOR") Lexicon.boundary)
  | andOperator =>
    .token (.oneOf [.seq (.oneOf [word "AND_THEN", word "AND"]) Lexicon.boundary, "&"])
  | equalsOperator => .token (.oneOf ["<>", .seq "=" (.notAhead ">")])
  | compareOperator => .token (.oneOf ["<=", ">=", .seq "<" (.notAhead ">"), ">"])
  | addOperator => .token Lexicon.sign
  | multiplyOperator =>
    .token (.oneOf [.seq "*" (.notAhead "*"), "/", .seq (word "MOD") Lexicon.boundary])
  | powerOperator => .token "**"
  | unaryOperator => .token (.oneOf ["-", "+", .seq (word "NOT") Lexicon.boundary])
  -- expressions, from the loosest operators to the tightest
  | expression => .node (chain xorExpression orOperator)
  | xorExpression => .node (chain andExpression xorOperator)
  | andExpression => .node (chain comparisonExpression andOperator)
  | comparisonExpression => .node (chain equalityExpression equalsOperator)
  | equalityExpression => .node (chain addExpression compareOperator)
  | addExpression => .node (chain expressionTerm addOperator)
  | expressionTerm => .node (chain powerExpression multiplyOperator)
  | powerExpression => .node (chain unaryExpression powerOperator)
  | unaryExpression => .node (spaced [opt unaryOperator, primaryExpression])
  | primaryExpression =>
    .silent (oneOf [parenthesizedExpression, constant, qualifiedEnumeratedValue, functionCall,
      anyVariable])
  | parenthesizedExpression => .node (spaced ["(", expression, ")"])
  | qualifiedEnumeratedValue => .node (glued [typeName, "#", identifier])
  | outputInverter => .token (.seq (word "NOT") Lexicon.boundary)
  | paramAssignment => .node (spaced [opt (spaced [identifier, ":="]), expression])
  | outputParameterAssignment =>
    .node (spaced [opt outputInverter, identifier, "=>", opt anyVariable])
  | parameter => .silent (oneOf [outputParameterAssignment, paramAssignment])
  | parameterList => .silent (commaList parameter)
  | functionCall => callOf (opt parameterList)
  | fbInvocation => callOf (opt parameterList)
  -- types and initial values
  | indirectionType => .token Lexicon.indirection
  | nonGenericTypeName => .node (spaced [opt indirectionType, typeName])
  | stringType => .token (.seq (.oneOf [word "WSTRING", word "STRING"]) Lexicon.boundary)
  | stringLength => .token Lexicon.stringLength
  | stringTypeSpecification => .node (spaced [stringType, opt stringLength])
  | stringSpecInit =>
    .node (spaced [stringTypeSpecification, opt (spaced [":=", stringLiteral])])
  | fullSubrange => .token "*"
  | subrange => .node (spaced [expression, "..", expression])
  | arraySubrange => .silent (oneOf [subrange, fullSubrange])
  | arraySpecification =>
    .node (spaced [ARRAY, "[", commaList arraySubrange, "]", OF, arrayElementType])
  | arrayElementType =>
    .silent (oneOf [arraySpecification, stringTypeSpecification, nonGenericTypeName])
  | arrayInitialElement =>
    .node (oneOf [structureInitialization, arrayInitialization, expression])
  | arrayInitialElementCount =>
    .node (spaced [integerLiteral, "(", opt arrayInitialElement, ")"])
  | arrayInitialization =>
    .node (spaced ["[", commaList (oneOf [arrayInitialElementCount, arrayInitialElement]), "]"])
  | arraySpecInit =>
    .node (spaced [opt indirectionType, arraySpecification,
      opt (spaced [":=", arrayInitialization])])
  | subrangeSpecification => .node (spaced [typeName, "(", subrange, ")"])
  | subrangeSpecInit =>
    .node (spaced [opt indirectionType, subrangeSpecification, opt (spaced [":=", expression])])
  | enumeratedValue =>
    .node (spaced [opt (spaced [typeName, "#"]), identifier, opt (spaced [":=", expression])])
  | enumeratedSpecification =>
    .node (spaced ["(", commaList enumeratedValue, ")", opt typeName])
  | enumeratedSpecInit =>
    .node (spaced [opt indirectionType, enumeratedSpecification, opt (spaced [":=", expression])])
  | simpleSpecInit =>
    .node (spaced [opt indirectionType, typeName, opt (spaced [":=", expression])])
  | structureElementInitialization =>
    .node (spaced [opt (spaced [identifier, ":="]),
      oneOf [arrayInitialization, structureInitialization, expression]])
  | structureInitialization =>
    .node (spaced ["(", commaList structureElementInitialization, ")"])
  | initializedStructure => .node (spaced [typeName, ":=", structureInitialization])
  | locatedVarSpecInit =>
    .silent (oneOf [terminated arraySpecInit, terminated stringSpecInit,
      terminated initializedStructure, terminated subrangeSpecInit, terminated enumeratedSpecInit,
      terminated simpleSpecInit])
  -- type declarations
  | extendsClause => .node (spaced [EXTENDS, typeName])
  | implementsClause => .node (spaced [IMPLEMENTS, commaList typeName])
  | structureElementDeclaration =>
    .node (spaced [identifier, opt incompleteLocation, ":", locatedVarSpecInit])
  | structureTypeDeclaration =>
    .node (spaced [identifier, opt extendsClause, ":", opt indirectionType, STRUCT,
      entriesOf structureElementDeclaration, END_STRUCT])
  | arrayTypeDeclaration => .node (spaced [identifier, ":", arraySpecInit])
  | stringTypeDeclaration => .node (spaced [identifier, ":", stringSpecInit])
  | subrangeTypeDeclaration => .node (spaced [identifier, ":", subrangeSpecInit])
  | enumeratedTypeDeclaration => .node (spaced [identifier, ":", enumeratedSpecInit])
  | initializedStructureTypeDeclaration =>
    .node (spaced [identifier, opt extendsClause, ":", initializedStructure])
  | simpleTypeDeclaration => .node (spaced [identifier, opt extendsClause, ":", simpleSpecInit])
  | typeDeclarationEnd => .silent (ahead (oneOf [";", END_TYPE]))
  | typeDeclaration =>
    .silent (oneOf [structureTypeDeclaration, typeEnded arrayTypeDeclaration,
      typeEnded stringTypeDeclaration, typeEnded subrangeTypeDeclaration,
      typeEnded enumeratedTypeDeclaration, typeEnded initializedStructureTypeDeclaration,
      typeEnded simpleTypeDeclaration])
  | dataTypeDeclaration =>
    .node (spaced [TYPE, many1 (spaced [typeDeclaration, opt ";"]), END_TYPE, opt ";"])
  -- variable declarations
  | var1 => .node (spaced [identifier, opt incompleteLocation])
  | var1List => .node (commaList var1)
  | fbDeclNameList => .node (commaList identifier)
  | var1InitDecl =>
    .node (spaced [var1List, ":", oneOf [subrangeSpecInit, enumeratedSpecInit, simpleSpecInit]])
  | arrayVarInitDecl => .node (spaced [var1List, ":", arraySpecInit])
  | stringVarDeclaration => .node (spaced [var1List, ":", stringSpecInit])
  | fbNameDecl => .node (spaced [fbDeclNameList, ":", typeName, ":=", structureInitialization])
  | fbInvocationDecl => .node (spaced [fbDeclNameList, ":", fbInvocation])
  | edge => .token (.seq (.oneOf [word "R_EDGE", word "F_EDGE"]) Lexicon.boundary)
  | edgeDeclaration => .node (spaced [var1List, ":", word "BOOL", edge])
  | varInitDecl =>
    .silent (oneOf [terminated stringVarDeclaration, terminated arrayVarInitDecl,
      terminated fbInvocationDecl, terminated var1InitDecl, terminated fbNameDecl])
  | inputDeclaration => .silent (oneOf [terminated edgeDeclaration, varInitDecl])
  | variableAttribute =>
    .token (.seq (.oneOf [word "CONSTANT", word "RETAIN", word "NON_RETAIN", word "PERSISTENT"])
      Lexicon.boundary)
  | varDeclarations => block VAR true (entriesOf varInitDecl)
  | locatedVarDecl => .node (spaced [opt identifier, location, ":", locatedVarSpecInit])
  | locatedVarDeclarations => block VAR true (many1 (spaced [locatedVarDecl, ";"]))
  | tempVarDecls => block VAR_TEMP false (entriesOf varInitDecl)
  | varInstDeclaration => block VAR_INST false (entriesOf varInitDecl)
  | inputDeclarations => block VAR_INPUT true (entriesOf inputDeclaration)
  | outputDeclarations => block VAR_OUTPUT true (entriesOf varInitDecl)
  | inputOutputDeclarations => block VAR_IN_OUT true (entriesOf varInitDecl)
  | externalSpec =>
    .silent (oneOf [terminated arraySpecification, terminated subrangeSpecification,
      terminated enumeratedSpecification, terminated stringTypeSpecification,
      terminated nonGenericTypeName])
  | externalDeclaration => .node (spaced [identifier, ":", externalSpec])
  | externalVarDeclarations => block VAR_EXTERNAL true (entriesOf externalDeclaration)
  | accessDirection =>
    .token (.seq (.oneOf [word "READ_WRITE", word "READ_ONLY"]) Lexicon.boundary)
  | programAccessDecl =>
    .node (spaced [identifier, ":", anyVariable, ":", nonGenericTypeName, opt accessDirection])
  | programAccessDecls => block VAR_ACCESS false (entriesOf programAccessDecl)
  | globalVarList => .node (commaList identifier)
  | globalVarSpec =>
    .node (oneOf [spaced [identifier, oneOf [location, incompleteLocation]], globalVarList])
  | globalVarInit => .silent (oneOf [terminated fbInvocation, locatedVarSpecInit])
  | globalVarDecl => .node (spaced [globalVarSpec, ":", globalVarInit])
  | globalVarDeclarations => block VAR_GLOBAL true (entriesOf globalVarDecl)
  | varDeclarationBlock =>
    .silent (oneOf [varDeclarations, locatedVarDeclarations, tempVarDecls, varInstDeclaration,
      inputDeclarations, outputDeclarations, inputOutputDeclarations, externalVarDeclarations,
      programAccessDecls, globalVarDeclarations])
  -- statements
  | assignmentStatement =>
    .node (spaced [anyVariable, ":=", many (spaced [anyVariable, ":="]), expression, ";"])
  | setStatement => targeted "S="
  | resetStatement => targeted "R="
  | referenceAssignmentStatement => targeted "REF="
  | elseIfClause => .node (spaced [ELSIF, expression, THEN, opt statementList])
  | elseClause => .node (spaced [ELSE, opt statementList])
  | ifStatement =>
    .node (spaced [IF, expression, THEN, opt statementList, many elseIfClause, opt elseClause,
      END_IF, opt ";"])
  | caseList =>
    .node (commaList (oneOf [subrange, expression]))
  | caseElement => .node (spaced [caseList, ":", opt statementList])
  | caseStatement =>
    .node (spaced [CASE, expression, OF, many caseElement, opt elseClause, END_CASE, opt ";"])
  | forStatement =>
    .node (spaced [FOR, variableName, ":=", expression, TO, expression,
      opt (spaced [BY, expression]), DO, opt statementList, END_FOR, opt ";"])
  | whileStatement => .node (spaced [WHILE, expression, DO, opt statementList, END_WHILE, opt ";"])
  | repeatStatement =>
    .node (spaced [REPEAT, opt statementList, UNTIL, expression, END_REPEAT, opt ";"])
  | exitStatement => jump EXIT
  | continueStatement => jump CONTINUE
  | returnStatement => jump RETURN
  | methodStatement => .node (spaced [multiElementVariable, "(", ")", ";"])
  | fbInvocationStatement => .node (spaced [fbInvocation, ";"])
  | noOpStatement => .node (spaced [anyVariable, ";"])
  | emptyStatement => .silent ";"
  | statement =>
    .silent (oneOf [emptyStatement, assignmentStatement, setStatement, resetStatement,
      referenceAssignmentStatement, ifStatement, caseStatement, forStatement, whileStatement,
      repeatStatement, exitStatement, continueStatement, returnStatement, methodStatement,
      fbInvocationStatement, noOpStatement])
  | statementList => .node (many1 statement)
  -- units
  | functionBlockBody => .node statementList
  | abstractQualifier => .token (.seq (word "ABSTRACT") Lexicon.boundary)
  | functionBlockTypeDeclaration =>
    .node (spaced [FUNCTION_BLOCK, opt abstractQualifier, identifier, opt extendsClause,
      opt implementsClause, many varDeclarationBlock, opt functionBlockBody, END_FUNCTION_BLOCK,
      opt ";"])
  | returnType =>
    .silent (oneOf [arraySpecification, stringTypeSpecification, nonGenericTypeName])
  | functionDeclaration =>
    .node (spaced [FUNCTION, identifier, opt (spaced [":", returnType]), many varDeclarationBlock,
      opt functionBlockBody, END_FUNCTION, opt ";"])
  | programDeclaration =>
    .node (spaced [PROGRAM, identifier, many varDeclarationBlock, opt functionBlockBody,
      END_PROGRAM, opt ";"])
  | accessSpecifier =>
    .token (.seq (.oneOf [word "PUBLIC", word "PRIVATE", word "PROTECTED", word "INTERNAL",
      word "ABSTRACT", word "FINAL"]) Lexicon.boundary)
  | methodAccess => .node (many1 accessSpecifier)
  | functionBlockMethodDeclaration =>
    .node (spaced [METHOD, opt methodAccess, identifier, opt (spaced [":", returnType]),
      many varDeclarationBlock, opt functionBlockBody, END_METHOD, opt ";"])
  | action =>
    .node (spaced [ACTION, identifier, opt ":", opt functionBlockBody, END_ACTION, opt ";"])
  | entryAction => .node (spaced [ENTRY_ACTION, opt functionBlockBody, END_ACTION, opt ";"])
  | exitAction => .node (spaced [EXIT_ACTION, opt functionBlockBody, END_ACTION, opt ";"])
  | interfaceDeclaration =>
    .node (spaced [INTERFACE, identifier,
      opt (spaced [EXTENDS, commaList typeName]),
      many functionBlockMethodDeclaration, END_INTERFACE, opt ";"])
  | sourceItem =>
    .silent (oneOf [dataTypeDeclaration, functionBlockTypeDeclaration, functionDeclaration,
      programDeclaration, functionBlockMethodDeclaration, action, entryAction, exitAction,
      interfaceDeclaration, globalVarDeclarations])
  -- a whole file; the blanks in front are skipped as between any two parts
  | iecSource => .node (spaced [nothing, many sourceItem, endOfInput])

end StructuredText.Grammar
