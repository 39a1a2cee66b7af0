import StructuredText.Text.Basic

/-!
# Rules

The names of the grammar: the keywords, and the rules that are written with them. Every rule has the
name under which it is reported, and the rules stand in the order in which a report lists them.

* `Keyword.spelling` — how a keyword is written, which is also its name as a rule.
* `Rule.name`, `Rule.ofName?` — from a rule to its reported name and back.
* `Rule.inOrder` — all rules in the order of the grammar.
-/

namespace StructuredText.Grammar

/-- The words that mark structure, named as they are spelled. -/
inductive Keyword where
  | FUNCTION_BLOCK | END_FUNCTION_BLOCK | FUNCTION | END_FUNCTION | PROGRAM | END_PROGRAM | METHOD
  | END_METHOD | ACTION | ENTRY_ACTION | EXIT_ACTION | END_ACTION | INTERFACE | END_INTERFACE | TYPE
  | END_TYPE | STRUCT | END_STRUCT | ARRAY | OF | VAR | VAR_INPUT | VAR_OUTPUT | VAR_IN_OUT
  | VAR_TEMP | VAR_INST | VAR_GLOBAL | VAR_EXTERNAL | VAR_ACCESS | END_VAR | AT | EXTENDS
  | IMPLEMENTS | IF | THEN | ELSIF | ELSE | END_IF | CASE | END_CASE | FOR | TO | BY | DO | END_FOR
  | WHILE | END_WHILE | REPEAT | UNTIL | END_REPEAT | EXIT | CONTINUE | RETURN
  deriving DecidableEq, Repr

/-- The rules of the grammar. -/
inductive Rule where
  | endOfInput | whitespace | comment | identChar | keyword (word : Keyword)
  -- identifiers
  | reserved | identifier | typeName
  -- literals
  | digits | integerValue | decimalDigits | binaryDigits | octalDigits | hexDigits | integerTypeName
  | binaryInteger | octalInteger | hexInteger | signedInteger | integerLiteral | realTypeName
  | exponent | realValue | realLiteral | bitStringTypeName | binaryBitStringLiteral
  | octalBitStringLiteral | hexBitStringLiteral | bitStringLiteral | bitStringConstant | trueValue
  | falseValue | durationNumber | days | hours | minutes | seconds | milliseconds | duration
  | dayHour | dayMinute | daySecond | year | month | day | timeOfDay | date | dateAndTime
  | stringLiteral | constant
  -- variables
  | deref | locationPrefix | sizePrefix | directLocation | directBit | directVariable
  | incompleteAddress | incompleteLocation | location | variableName | fieldIndex | fieldSelector
  | subscriptList | multiElementVariable | anyVariable
  -- operators and expressions
  | orOperator | xorOperator | andOperator | equalsOperator | compareOperator | addOperator
  | multiplyOperator | powerOperator | unaryOperator | expression | xorExpression | andExpression
  | comparisonExpression | equalityExpression | addExpression | expressionTerm | powerExpression
  | unaryExpression | primaryExpression | parenthesizedExpression | qualifiedEnumeratedValue
  | outputInverter | paramAssignment | outputParameterAssignment | parameter | parameterList
  | functionCall | fbInvocation
  -- types and initial values
  | indirectionType | nonGenericTypeName | stringType | stringLength | stringTypeSpecification
  | stringSpecInit | fullSubrange | subrange | arraySubrange | arraySpecification | arrayElementType
  | arrayInitialElement | arrayInitialElementCount | arrayInitialization | arraySpecInit
  | subrangeSpecification | subrangeSpecInit | enumeratedValue | enumeratedSpecification
  | enumeratedSpecInit | simpleSpecInit | structureElementInitialization | structureInitialization
  | initializedStructure | locatedVarSpecInit
  -- type declarations
  | extendsClause | implementsClause | structureElementDeclaration | structureTypeDeclaration
  | arrayTypeDeclaration | stringTypeDeclaration | subrangeTypeDeclaration
  | enumeratedTypeDeclaration | initializedStructureTypeDeclaration | simpleTypeDeclaration
  | typeDeclarationEnd | typeDeclaration | dataTypeDeclaration
  -- variable declarations
  | var1 | var1List | fbDeclNameList | var1InitDecl | arrayVarInitDecl | stringVarDeclaration
  | fbNameDecl | fbInvocationDecl | edge | edgeDeclaration | varInitDecl | inputDeclaration
  | variableAttribute | varDeclarations | locatedVarDecl | locatedVarDeclarations | tempVarDecls
  | varInstDeclaration | inputDeclarations | outputDeclarations | inputOutputDeclarations
  | externalSpec | externalDeclaration | externalVarDeclarations | accessDirection
  | programAccessDecl | programAccessDecls | globalVarList | globalVarSpec | globalVarInit
  | globalVarDecl | globalVarDeclarations | varDeclarationBlock
  -- statements
  | assignmentStatement | setStatement | resetStatement | referenceAssignmentStatement
  | elseIfClause | elseClause | ifStatement | caseList | caseElement | caseStatement | forStatement
  | whileStatement | repeatStatement | exitStatement | continueStatement | returnStatement
  | methodStatement | fbInvocationStatement | noOpStatement | emptyStatement | statement
  | statementList
  -- units
  | functionBlockBody | abstractQualifier | functionBlockTypeDeclaration | returnType
  | functionDeclaration | programDeclaration | accessSpecifier | methodAccess
  | functionBlockMethodDeclaration | action | entryAction | exitAction | interfaceDeclaration
  | sourceItem | iecSource
  deriving DecidableEq, Repr

namespace Keyword

/-- All keywords, in the order of the grammar. -/
def inOrder : List Keyword :=
  [.FUNCTION_BLOCK, .END_FUNCTION_BLOCK, .FUNCTION, .END_FUNCTION, .PROGRAM, .END_PROGRAM, .METHOD,
   .END_METHOD, .ACTION, .ENTRY_ACTION, .EXIT_ACTION, .END_ACTION, .INTERFACE, .END_INTERFACE,
   .TYPE, .END_TYPE, .STRUCT, .END_STRUCT, .ARRAY, .OF, .VAR, .VAR_INPUT, .VAR_OUTPUT, .VAR_IN_OUT,
   .VAR_TEMP, .VAR_INST, .VAR_GLOBAL, .VAR_EXTERNAL, .VAR_ACCESS, .END_VAR, .AT, .EXTENDS,
   .IMPLEMENTS, .IF, .THEN, .ELSIF, .ELSE, .END_IF, .CASE, .END_CASE, .FOR, .TO, .BY, .DO, .END_FOR,
   .WHILE, .END_WHILE, .REPEAT, .UNTIL, .END_REPEAT, .EXIT, .CONTINUE, .RETURN]

/-- How the keyword is written. -/
def spelling : Keyword → String
  | .FUNCTION_BLOCK => "FUNCTION_BLOCK" | .END_FUNCTION_BLOCK => "END_FUNCTION_BLOCK"
  | .FUNCTION => "FUNCTION" | .END_FUNCTION => "END_FUNCTION" | .PROGRAM => "PROGRAM"
  | .END_PROGRAM => "END_PROGRAM" | .METHOD => "METHOD" | .END_METHOD => "END_METHOD"
  | .ACTION => "ACTION" | .ENTRY_ACTION => "ENTRY_ACTION" | .EXIT_ACTION => "EXIT_ACTION"
  | .END_ACTION => "END_ACTION" | .INTERFACE => "INTERFACE" | .END_INTERFACE => "END_INTERFACE"
  | .TYPE => "TYPE" | .END_TYPE => "END_TYPE" | .STRUCT => "STRUCT" | .END_STRUCT => "END_STRUCT"
  | .ARRAY => "ARRAY" | .OF => "OF" | .VAR => "VAR" | .VAR_INPUT => "VAR_INPUT"
  | .VAR_OUTPUT => "VAR_OUTPUT" | .VAR_IN_OUT => "VAR_IN_OUT" | .VAR_TEMP => "VAR_TEMP"
  | .VAR_INST => "VAR_INST" | .VAR_GLOBAL => "VAR_GLOBAL" | .VAR_EXTERNAL => "VAR_EXTERNAL"
  | .VAR_ACCESS => "VAR_ACCESS" | .END_VAR => "END_VAR" | .AT => "AT" | .EXTENDS => "EXTENDS"
  | .IMPLEMENTS => "IMPLEMENTS" | .IF => "IF" | .THEN => "THEN" | .ELSIF => "ELSIF"
  | .ELSE => "ELSE" | .END_IF => "END_IF" | .CASE => "CASE" | .END_CASE => "END_CASE"
  | .FOR => "FOR" | .TO => "TO" | .BY => "BY" | .DO => "DO" | .END_FOR => "END_FOR"
  | .WHILE => "WHILE" | .END_WHILE => "END_WHILE" | .REPEAT => "REPEAT" | .UNTIL => "UNTIL"
  | .END_REPEAT => "END_REPEAT" | .EXIT => "EXIT" | .CONTINUE => "CONTINUE" | .RETURN => "RETURN"

end Keyword

namespace Rule

/-- The name under which a rule is reported. -/
def name : Rule → String
  | .endOfInput => "EOI" | .whitespace => "WHITESPACE" | .comment => "COMMENT"
  | .identChar => "ident_char" | .keyword word => word.spelling
  | .reserved => "reserved" | .identifier => "identifier" | .typeName => "type_name"
  | .digits => "digits" | .integerValue => "integer_value" | .decimalDigits => "decimal_digits"
  | .binaryDigits => "binary_digits" | .octalDigits => "octal_digits" | .hexDigits => "hex_digits"
  | .integerTypeName => "integer_type_name" | .binaryInteger => "binary_integer"
  | .octalInteger => "octal_integer" | .hexInteger => "hex_integer"
  | .signedInteger => "signed_integer" | .integerLiteral => "integer_literal"
  | .realTypeName => "real_type_name" | .exponent => "exponent" | .realValue => "real_value"
  | .realLiteral => "real_literal" | .bitStringTypeName => "bit_string_type_name"
  | .binaryBitStringLiteral => "binary_bit_string_literal"
  | .octalBitStringLiteral => "octal_bit_string_literal"
  | .hexBitStringLiteral => "hex_bit_string_literal" | .bitStringLiteral => "bit_string_literal"
  | .bitStringConstant => "bit_string_constant" | .trueValue => "true_value"
  | .falseValue => "false_value" | .durationNumber => "duration_number" | .days => "days"
  | .hours => "hours" | .minutes => "minutes" | .seconds => "seconds"
  | .milliseconds => "milliseconds" | .duration => "duration" | .dayHour => "day_hour"
  | .dayMinute => "day_minute" | .daySecond => "day_second" | .year => "year" | .month => "month"
  | .day => "day" | .timeOfDay => "time_of_day" | .date => "date" | .dateAndTime => "date_and_time"
  | .stringLiteral => "string_literal" | .constant => "constant" | .deref => "deref"
  | .locationPrefix => "location_prefix" | .sizePrefix => "size_prefix"
  | .directLocation => "direct_location" | .directBit => "direct_bit"
  | .directVariable => "direct_variable" | .incompleteAddress => "incomplete_address"
  | .incompleteLocation => "incomplete_location" | .location => "location"
  | .variableName => "variable_name" | .fieldIndex => "field_index"
  | .fieldSelector => "field_selector" | .subscriptList => "subscript_list"
  | .multiElementVariable => "multi_element_variable" | .anyVariable => "variable"
  | .orOperator => "or_operator" | .xorOperator => "xor_operator" | .andOperator => "and_operator"
  | .equalsOperator => "equals_operator" | .compareOperator => "compare_operator"
  | .addOperator => "add_operator" | .multiplyOperator => "multiply_operator"
  | .powerOperator => "power_operator" | .unaryOperator => "unary_operator"
  | .expression => "expression" | .xorExpression => "xor_expression"
  | .andExpression => "and_expression" | .comparisonExpression => "comparison_expression"
  | .equalityExpression => "equality_expression" | .addExpression => "add_expression"
  | .expressionTerm => "expression_term" | .powerExpression => "power_expression"
  | .unaryExpression => "unary_expression" | .primaryExpression => "primary_expression"
  | .parenthesizedExpression => "parenthesized_expression"
  | .qualifiedEnumeratedValue => "qualified_enumerated_value" | .outputInverter => "output_inverter"
  | .paramAssignment => "param_assignment"
  | .outputParameterAssignment => "output_parameter_assignment" | .parameter => "parameter"
  | .parameterList => "parameter_list" | .functionCall => "function_call"
  | .fbInvocation => "fb_invocation" | .indirectionType => "indirection_type"
  | .nonGenericTypeName => "non_generic_type_name" | .stringType => "string_type"
  | .stringLength => "string_length" | .stringTypeSpecification => "string_type_specification"
  | .stringSpecInit => "string_spec_init" | .fullSubrange => "full_subrange"
  | .subrange => "subrange" | .arraySubrange => "array_subrange"
  | .arraySpecification => "array_specification" | .arrayElementType => "array_element_type"
  | .arrayInitialElement => "array_initial_element"
  | .arrayInitialElementCount => "array_initial_element_count"
  | .arrayInitialization => "array_initialization" | .arraySpecInit => "array_spec_init"
  | .subrangeSpecification => "subrange_specification" | .subrangeSpecInit => "subrange_spec_init"
  | .enumeratedValue => "enumerated_value" | .enumeratedSpecification => "enumerated_specification"
  | .enumeratedSpecInit => "enumerated_spec_init" | .simpleSpecInit => "simple_spec_init"
  | .structureElementInitialization => "structure_element_initialization"
  | .structureInitialization => "structure_initialization"
  | .initializedStructure => "initialized_structure"
  | .locatedVarSpecInit => "located_var_spec_init" | .extendsClause => "extends"
  | .implementsClause => "implements"
  | .structureElementDeclaration => "structure_element_declaration"
  | .structureTypeDeclaration => "structure_type_declaration"
  | .arrayTypeDeclaration => "array_type_declaration"
  | .stringTypeDeclaration => "string_type_declaration"
  | .subrangeTypeDeclaration => "subrange_type_declaration"
  | .enumeratedTypeDeclaration => "enumerated_type_declaration"
  | .initializedStructureTypeDeclaration => "initialized_structure_type_declaration"
  | .simpleTypeDeclaration => "simple_type_declaration"
  | .typeDeclarationEnd => "type_declaration_end" | .typeDeclaration => "type_declaration"
  | .dataTypeDeclaration => "data_type_declaration" | .var1 => "var1" | .var1List => "var1_list"
  | .fbDeclNameList => "fb_decl_name_list" | .var1InitDecl => "var1_init_decl"
  | .arrayVarInitDecl => "array_var_init_decl" | .stringVarDeclaration => "string_var_declaration"
  | .fbNameDecl => "fb_name_decl" | .fbInvocationDecl => "fb_invocation_decl" | .edge => "edge"
  | .edgeDeclaration => "edge_declaration" | .varInitDecl => "var_init_decl"
  | .inputDeclaration => "input_declaration" | .variableAttribute => "variable_attribute"
  | .varDeclarations => "var_declarations" | .locatedVarDecl => "located_var_decl"
  | .locatedVarDeclarations => "located_var_declarations" | .tempVarDecls => "temp_var_decls"
  | .varInstDeclaration => "var_inst_declaration" | .inputDeclarations => "input_declarations"
  | .outputDeclarations => "output_declarations"
  | .inputOutputDeclarations => "input_output_declarations" | .externalSpec => "external_spec"
  | .externalDeclaration => "external_declaration"
  | .externalVarDeclarations => "external_var_declarations" | .accessDirection => "access_direction"
  | .programAccessDecl => "program_access_decl" | .programAccessDecls => "program_access_decls"
  | .globalVarList => "global_var_list" | .globalVarSpec => "global_var_spec"
  | .globalVarInit => "global_var_init" | .globalVarDecl => "global_var_decl"
  | .globalVarDeclarations => "global_var_declarations"
  | .varDeclarationBlock => "var_declaration_block" | .assignmentStatement => "assignment_statement"
  | .setStatement => "set_statement" | .resetStatement => "reset_statement"
  | .referenceAssignmentStatement => "reference_assignment_statement"
  | .elseIfClause => "else_if_clause" | .elseClause => "else_clause"
  | .ifStatement => "if_statement" | .caseList => "case_list" | .caseElement => "case_element"
  | .caseStatement => "case_statement" | .forStatement => "for_statement"
  | .whileStatement => "while_statement" | .repeatStatement => "repeat_statement"
  | .exitStatement => "exit_statement" | .continueStatement => "continue_statement"
  | .returnStatement => "return_statement" | .methodStatement => "method_statement"
  | .fbInvocationStatement => "fb_invocation_statement" | .noOpStatement => "no_op_statement"
  | .emptyStatement => "empty_statement" | .statement => "statement"
  | .statementList => "statement_list" | .functionBlockBody => "function_block_body"
  | .abstractQualifier => "abstract_qualifier"
  | .functionBlockTypeDeclaration => "function_block_type_declaration"
  | .returnType => "return_type" | .functionDeclaration => "function_declaration"
  | .programDeclaration => "program_declaration" | .accessSpecifier => "access_specifier"
  | .methodAccess => "method_access"
  | .functionBlockMethodDeclaration => "function_block_method_declaration" | .action => "action"
  | .entryAction => "entry_action" | .exitAction => "exit_action"
  | .interfaceDeclaration => "interface_declaration" | .sourceItem => "source_item"
  | .iecSource => "iec_source"

/-- All rules, in the order of the grammar. -/
def inOrder : List Rule :=
  [.endOfInput, .whitespace, .comment, .identChar] ++ Keyword.inOrder.map .keyword ++
  ([.reserved, .identifier, .typeName, .digits, .integerValue, .decimalDigits, .binaryDigits,
   .octalDigits, .hexDigits, .integerTypeName, .binaryInteger, .octalInteger, .hexInteger,
   .signedInteger, .integerLiteral, .realTypeName, .exponent, .realValue, .realLiteral,
   .bitStringTypeName, .binaryBitStringLiteral, .octalBitStringLiteral, .hexBitStringLiteral,
   .bitStringLiteral, .bitStringConstant, .trueValue, .falseValue, .durationNumber, .days, .hours,
   .minutes, .seconds, .milliseconds, .duration, .dayHour, .dayMinute, .daySecond, .year, .month,
   .day, .timeOfDay, .date, .dateAndTime, .stringLiteral, .constant, .deref, .locationPrefix,
   .sizePrefix, .directLocation, .directBit, .directVariable, .incompleteAddress,
   .incompleteLocation, .location, .variableName, .fieldIndex, .fieldSelector, .subscriptList,
   .multiElementVariable, .anyVariable, .orOperator, .xorOperator, .andOperator, .equalsOperator,
   .compareOperator, .addOperator, .multiplyOperator, .powerOperator, .unaryOperator, .expression,
   .xorExpression, .andExpression, .comparisonExpression, .equalityExpression, .addExpression,
   .expressionTerm, .powerExpression, .unaryExpression, .primaryExpression,
   .parenthesizedExpression, .qualifiedEnumeratedValue, .outputInverter, .paramAssignment,
   .outputParameterAssignment, .parameter, .parameterList, .functionCall, .fbInvocation,
   .indirectionType, .nonGenericTypeName, .stringType, .stringLength, .stringTypeSpecification,
   .stringSpecInit, .fullSubrange, .subrange, .arraySubrange, .arraySpecification,
   .arrayElementType, .arrayInitialElement, .arrayInitialElementCount, .arrayInitialization,
   .arraySpecInit, .subrangeSpecification, .subrangeSpecInit, .enumeratedValue,
   .enumeratedSpecification, .enumeratedSpecInit, .simpleSpecInit, .structureElementInitialization,
   .structureInitialization, .initializedStructure, .locatedVarSpecInit, .extendsClause,
   .implementsClause, .structureElementDeclaration, .structureTypeDeclaration,
   .arrayTypeDeclaration, .stringTypeDeclaration, .subrangeTypeDeclaration,
   .enumeratedTypeDeclaration, .initializedStructureTypeDeclaration, .simpleTypeDeclaration,
   .typeDeclarationEnd, .typeDeclaration, .dataTypeDeclaration, .var1, .var1List, .fbDeclNameList,
   .var1InitDecl, .arrayVarInitDecl, .stringVarDeclaration, .fbNameDecl, .fbInvocationDecl, .edge,
   .edgeDeclaration, .varInitDecl, .inputDeclaration, .variableAttribute, .varDeclarations,
   .locatedVarDecl, .locatedVarDeclarations, .tempVarDecls, .varInstDeclaration, .inputDeclarations,
   .outputDeclarations, .inputOutputDeclarations, .externalSpec, .externalDeclaration,
   .externalVarDeclarations, .accessDirection, .programAccessDecl, .programAccessDecls,
   .globalVarList, .globalVarSpec, .globalVarInit, .globalVarDecl, .globalVarDeclarations,
   .varDeclarationBlock, .assignmentStatement, .setStatement, .resetStatement,
   .referenceAssignmentStatement, .elseIfClause, .elseClause, .ifStatement, .caseList, .caseElement,
   .caseStatement, .forStatement, .whileStatement, .repeatStatement, .exitStatement,
   .continueStatement, .returnStatement, .methodStatement, .fbInvocationStatement, .noOpStatement,
   .emptyStatement, .statement, .statementList, .functionBlockBody, .abstractQualifier,
   .functionBlockTypeDeclaration, .returnType, .functionDeclaration, .programDeclaration,
   .accessSpecifier, .methodAccess, .functionBlockMethodDeclaration, .action, .entryAction,
   .exitAction, .interfaceDeclaration, .sourceItem, .iecSource] : List Rule)

/-- The rule with a given name. -/
def ofName? (name : String) : Option Rule := inOrder.find? (·.name == name)

/-- Rules that only mark structure: what they match never reaches the tree. -/
def isKeyword : Rule → Bool
  | .endOfInput | .keyword _ => true
  | _ => false

end Rule

end StructuredText.Grammar
