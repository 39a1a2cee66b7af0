import StructuredText.Build.Literals
import StructuredText.Build.Expressions
import StructuredText.Build.Types
import StructuredText.Build.Declarations
import StructuredText.Build.Statements
import StructuredText.Build.Units

/-!
# The builder of each rule

Rules without a builder are keywords, tokens, silent rules, the parts of a duration, the labels of a
case and interfaces.
-/

namespace StructuredText.Build

/-- The builder of a rule, if it has one. -/
def builder? : Grammar.Rule → Option (Builder Element)
  -- literals
  | .binaryInteger => some (integerOf .binaryDigits .binary)
  | .octalInteger => some (integerOf .octalDigits .octal)
  | .hexInteger => some (integerOf .hexDigits .hexadecimal)
  | .signedInteger => some (integerOf .integerValue .decimal)
  | .integerLiteral => some integerLiteral
  | .realLiteral => some realLiteral
  | .binaryBitStringLiteral => some (bitStringOf .binaryDigits .binary)
  | .octalBitStringLiteral => some (bitStringOf .octalDigits .octal)
  | .hexBitStringLiteral => some (bitStringOf .hexDigits .hexadecimal)
  | .bitStringLiteral => some (bitStringOf .decimalDigits .decimal)
  | .trueValue => some (booleanOf .trueValue true)
  | .falseValue => some (booleanOf .falseValue false)
  | .duration => some duration
  | .timeOfDay => some timeOfDay
  | .date => some date
  | .dateAndTime => some dateAndTime
  | .stringLiteral => some stringLiteral
  -- variables
  | .variableName => some variableName
  | .fieldSelector => some fieldSelector
  | .subscriptList => some subscriptList
  | .multiElementVariable => some multiElementVariable
  | .directVariable => some directVariable
  | .location => some location
  | .incompleteLocation => some incompleteLocation
  -- expressions
  | .expression | .xorExpression | .andExpression | .comparisonExpression | .equalityExpression
  | .addExpression | .expressionTerm | .powerExpression => some binaryChain
  | .unaryExpression => some unaryExpression
  | .parenthesizedExpression => some parenthesizedExpression
  | .qualifiedEnumeratedValue => some qualifiedEnumeratedValue
  | .paramAssignment => some paramAssignment
  | .outputParameterAssignment => some outputParameterAssignment
  | .functionCall => some functionCall
  | .fbInvocation => some fbInvocation
  -- types and first values
  | .indirectionType => some indirectionType
  | .nonGenericTypeName => some nonGenericTypeName
  | .stringTypeSpecification => some stringTypeSpecification
  | .stringSpecInit => some stringSpecInit
  | .fullSubrange => some fullSubrange
  | .subrange => some subrange
  | .arraySpecification => some arraySpecification
  | .arrayInitialElement => some Builder.single
  | .arrayInitialElementCount => some arrayInitialElementCount
  | .arrayInitialization => some arrayInitialization
  | .arraySpecInit => some arraySpecInit
  | .subrangeSpecification => some subrangeSpecification
  | .subrangeSpecInit => some subrangeSpecInit
  | .enumeratedValue => some enumeratedValue
  | .enumeratedSpecification => some enumeratedSpecification
  | .enumeratedSpecInit => some enumeratedSpecInit
  | .simpleSpecInit => some simpleSpecInit
  | .structureElementInitialization => some structureElementInitialization
  | .structureInitialization => some structureInitialization
  | .initializedStructure => some initializedStructure
  -- declarations
  | .extendsClause => some extendsClause
  | .implementsClause | .fbDeclNameList | .globalVarList => some nameList
  | .var1 => some var1
  | .var1List => some var1List
  | .var1InitDecl | .arrayVarInitDecl | .stringVarDeclaration => some initDeclaration
  | .edge => some edge
  | .edgeDeclaration => some edgeDeclaration
  | .fbNameDecl => some fbNameDecl
  | .fbInvocationDecl => some fbInvocationDecl
  | .variableAttribute => some variableAttribute
  | .varDeclarations => some (plainBlock .var)
  | .tempVarDecls => some (plainBlock .temp)
  | .varInstDeclaration => some (plainBlock .inst)
  | .inputDeclarations => some (plainBlock .input)
  | .outputDeclarations => some (plainBlock .output)
  | .inputOutputDeclarations => some (plainBlock .inOut)
  | .locatedVarDecl => some locatedVarDecl
  | .locatedVarDeclarations => some locatedBlock
  | .externalDeclaration => some externalDeclaration
  | .externalVarDeclarations => some externalBlock
  | .accessDirection => some accessDirection
  | .programAccessDecl => some programAccessDecl
  | .programAccessDecls => some accessBlock
  | .globalVarSpec => some globalVarSpec
  | .globalVarDecl => some globalVarDecl
  | .globalVarDeclarations => some globalBlock
  -- type declarations
  | .structureElementDeclaration => some structureElementDeclaration
  | .structureTypeDeclaration => some structureTypeDeclaration
  | .arrayTypeDeclaration => some arrayTypeDeclaration
  | .stringTypeDeclaration => some stringTypeDeclaration
  | .subrangeTypeDeclaration => some subrangeTypeDeclaration
  | .enumeratedTypeDeclaration => some enumeratedTypeDeclaration
  | .initializedStructureTypeDeclaration => some initializedStructureTypeDeclaration
  | .simpleTypeDeclaration => some simpleTypeDeclaration
  | .dataTypeDeclaration => some dataTypeDeclaration
  -- statements
  | .assignmentStatement => some assignmentStatement
  | .setStatement => some (targetedStatement .set)
  | .resetStatement => some (targetedStatement .reset)
  | .referenceAssignmentStatement => some (targetedStatement .refer)
  | .elseIfClause => some elseIfClause
  | .elseClause => some elseClause
  | .ifStatement => some ifStatement
  | .caseElement => some caseElement
  | .caseStatement => some caseStatement
  | .forStatement => some forStatement
  | .whileStatement => some whileStatement
  | .repeatStatement => some repeatStatement
  | .exitStatement => some (jumpStatement .exit)
  | .continueStatement => some (jumpStatement .continue)
  | .returnStatement => some (jumpStatement .return)
  | .methodStatement => some methodStatement
  | .fbInvocationStatement => some fbInvocationStatement
  | .noOpStatement => some noOpStatement
  | .statementList => some statementList
  -- units
  | .functionBlockBody => some functionBlockBody
  | .functionBlockTypeDeclaration => some functionBlockTypeDeclaration
  | .functionDeclaration => some functionDeclaration
  | .programDeclaration => some programDeclaration
  | .methodAccess => some methodAccess
  | .functionBlockMethodDeclaration => some functionBlockMethodDeclaration
  | .action => some (actionOf do pure (.named (← Builder.token .identifier)))
  | .entryAction => some (actionOf (pure .entry))
  | .exitAction => some (actionOf (pure .exit))
  | .iecSource => some iecSource
  | _ => none

end StructuredText.Build
