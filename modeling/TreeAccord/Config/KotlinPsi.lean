import TreeAccord.Config.Concordance

/-!
# The Kotlin settings

The built-in settings: trees of the ANTLR Kotlin grammar, or of the tree-sitter grammar where its
names differ, against PSI dumps of the Kotlin compiler.
-/

namespace TreeAccord.KotlinPsi

def equivalentRules : List RulePair := [
    ⟨"KotlinFile", "KtFile*"⟩,
    ⟨"SourceFile", "KtFile*"⟩,
    ⟨"FileAnnotation", "ANNOTATION"⟩,
    ⟨"PackageHeader", "PACKAGE_DIRECTIVE"⟩,
    ⟨"ImportDirective", "IMPORT_LIST"⟩,
    ⟨"ImportList", "IMPORT_LIST"⟩,
    ⟨"ImportHeader", "IMPORT_DIRECTIVE"⟩,
    ⟨"ImportAlias", "IMPORT_ALIAS"⟩,
    ⟨"TypeAlias", "TYPEALIAS"⟩,
    ⟨"ClassDeclaration", "CLASS"⟩,
    ⟨"InterfaceDeclaration", "INTERFACE"⟩,
    ⟨"PrimaryConstructor", "PRIMARY_CONSTRUCTOR"⟩,
    ⟨"ClassParameters", "VALUE_PARAMETER_LIST"⟩,
    ⟨"ClassParameter", "VALUE_PARAMETER"⟩,
    ⟨"DelegationSpecifiers", "SUPER_TYPE_LIST"⟩,
    ⟨"ConstructorInvocation", "SUPER_TYPE_CALL_ENTRY"⟩,
    ⟨"ExplicitDelegation", "DELEGATED_SUPER_TYPE_ENTRY"⟩,
    ⟨"ClassBody", "CLASS_BODY"⟩,
    ⟨"AnonymousInitializer", "CLASS_INITIALIZER"⟩,
    ⟨"EnumClassBody", "CLASS_BODY"⟩,
    ⟨"EnumEntry", "ENUM_ENTRY"⟩,
    ⟨"FunctionDeclaration", "FUN"⟩,
    ⟨"FunctionValueParameters", "VALUE_PARAMETER_LIST"⟩,
    ⟨"FunctionValueParameter", "VALUE_PARAMETER"⟩,
    ⟨"Parameter", "VALUE_PARAMETER"⟩,
    ⟨"ObjectDeclaration", "OBJECT_DECLARATION"⟩,
    ⟨"CompanionObject", "OBJECT_DECLARATION"⟩,
    ⟨"PropertyDeclaration", "PROPERTY"⟩,
    ⟨"MultiVariableDeclaration", "DESTRUCTURING_DECLARATION"⟩,
    ⟨"VariableDeclaration", "DESTRUCTURING_DECLARATION_ENTRY"⟩,
    ⟨"Getter", "PROPERTY_ACCESSOR"⟩,
    ⟨"Setter", "PROPERTY_ACCESSOR"⟩,
    ⟨"TypeParameters", "TYPE_PARAMETER_LIST"⟩,
    ⟨"TypeParameter", "TYPE_PARAMETER"⟩,
    ⟨"NullableType", "NULLABLE_TYPE"⟩,
    ⟨"Type", "TYPE_REFERENCE"⟩,
    ⟨"TypeReference", "TYPE_REFERENCE"⟩,
    ⟨"UserType", "USER_TYPE"⟩,
    ⟨"FunctionType", "FUNCTION_TYPE"⟩,
    ⟨"FunctionTypeParameters", "VALUE_PARAMETER_LIST"⟩,
    ⟨"TypeConstraint", "TYPE_CONSTRAINT"⟩,
    ⟨"Block", "BLOCK"⟩,
    ⟨"Statements", "BLOCK"⟩,
    ⟨"Assignment", "BINARY_EXPRESSION"⟩,
    ⟨"Disjunction", "BINARY_EXPRESSION"⟩,
    ⟨"Conjunction", "BINARY_EXPRESSION"⟩,
    ⟨"Equality", "BINARY_EXPRESSION"⟩,
    ⟨"Comparison", "BINARY_EXPRESSION"⟩,
    ⟨"InfixOperation", "IS_EXPRESSION"⟩,
    ⟨"InfixOperation", "BINARY_EXPRESSION"⟩,
    ⟨"ElvisExpression", "BINARY_EXPRESSION"⟩,
    ⟨"InfixFunctionCall", "BINARY_EXPRESSION"⟩,
    ⟨"RangeExpression", "BINARY_EXPRESSION"⟩,
    ⟨"AdditiveExpression", "BINARY_EXPRESSION"⟩,
    ⟨"MultiplicativeExpression", "BINARY_EXPRESSION"⟩,
    ⟨"AsExpression", "BINARY_WITH_TYPE"⟩,
    ⟨"PrefixUnaryExpression", "PREFIX_EXPRESSION"⟩,
    ⟨"PostfixUnaryExpression", "POSTFIX_EXPRESSION"⟩,
    ⟨"CallExpression", "CALL_EXPRESSION"⟩,
    ⟨"DotQualifiedExpression", "DOT_QUALIFIED_EXPRESSION"⟩,
    ⟨"DotQualifiedExpression", "SAFE_ACCESS_EXPRESSION"⟩,
    ⟨"IndexingExpression", "ARRAY_ACCESS_EXPRESSION"⟩,
    ⟨"ArrayAccess", "INDICES"⟩,
    ⟨"ValueArguments", "VALUE_ARGUMENT_LIST"⟩,
    ⟨"TypeArguments", "TYPE_ARGUMENT_LIST"⟩,
    ⟨"TypeProjection", "TYPE_PROJECTION"⟩,
    ⟨"ValueArgument", "VALUE_ARGUMENT"⟩,
    ⟨"ParenthesizedExpression", "PARENTHESIZED"⟩,
    ⟨"LineStringLiteral", "STRING_TEMPLATE"⟩,
    ⟨"MultiLineStringLiteral", "STRING_TEMPLATE"⟩,
    ⟨"FunctionLiteral", "FUNCTION_LITERAL"⟩,
    ⟨"LambdaLiteral", "FUNCTION_LITERAL"⟩,
    ⟨"LambdaParameters", "VALUE_PARAMETER_LIST"⟩,
    ⟨"LambdaParameter", "VALUE_PARAMETER"⟩,
    ⟨"ObjectLiteral", "OBJECT_DECLARATION"⟩,
    ⟨"SuperExpression", "SUPER_EXPRESSION"⟩,
    ⟨"IfExpression", "IF"⟩,
    ⟨"WhenExpression", "WHEN"⟩,
    ⟨"WhenEntry", "WHEN_ENTRY"⟩,
    ⟨"ForExpression", "FOR"⟩,
    ⟨"ForStatement", "FOR"⟩,
    ⟨"JumpExpression", "THROW"⟩,
    ⟨"JumpExpression", "RETURN"⟩,
    ⟨"JumpExpression", "BREAK"⟩,
    ⟨"JumpExpression", "CONTINUE"⟩,
    ⟨"CallableReference", "CALLABLE_REFERENCE_EXPRESSION"⟩,
    ⟨"ModifierList", "MODIFIER_LIST"⟩,
    ⟨"Annotation", "ANNOTATION_ENTRY"⟩,
    ⟨"AnnotationList", "ANNOTATION"⟩,
    ⟨"UnescapedAnnotation", "ANNOTATION_ENTRY"⟩]

/-- Pairs whose shapes are too far apart for a look inside. -/
def incomparableRules : List RulePair := [
    ⟨"PostfixUnaryExpression", "DOT_QUALIFIED_EXPRESSION"⟩,
    ⟨"PostfixUnaryExpression", "SAFE_ACCESS_EXPRESSION"⟩,
    ⟨"PostfixUnaryExpression", "CALL_EXPRESSION"⟩,
    ⟨"PostfixUnaryExpression", "ARRAY_ACCESS_EXPRESSION"⟩,
    ⟨"Identifier", "DOT_QUALIFIED_EXPRESSION"⟩]

/-- How trees of the grammar are read. -/
def grammar : SideSettings where
  irrelevantRules :=
    ["<empty list>", "ModifierList", "Modifiers", "LineComment", "MultilineComment"]
  irrelevantRuleFragments := ["Semi"]
  irrelevantTexts := ["\r\n", "\n", ";", "<EOF>"]
  irrelevantTokenKinds := ["NL", "SEMICOLON", "EOF"]
  emptyBlockRules := ["Statements"]
  wrappers := [
    ⟨"VariableDeclaration", some "MultiVariableDeclaration"⟩,
    ⟨"Parameter", some "FunctionTypeParameters"⟩,
    ⟨"FunctionBody", none⟩,
    ⟨"TypeConstraints", none⟩,
    ⟨"EnumEntries", none⟩,
    ⟨"MemberAccessOperator", none⟩,
    ⟨"AsExpressionTail", none⟩,
    ⟨"SimpleUserType", none⟩,
    ⟨"ParenthesizedType", none⟩]
  splitTokens := ["?::"]
  splitSigils := ["@"]
  fusedPairs := [⟨"?", "."⟩]

/-- How PSI dumps are read. -/
def psi : SideSettings where
  irrelevantRules := ["PsiWhiteSpace", "PsiComment", "KDoc", "MODIFIER_LIST"]
  irrelevantTokenKinds := ["SEMICOLON"]
  emptyBlockRules := ["BLOCK"]
  alwaysListRules := ["KDoc"]

def settings : Settings where
  equivalentRules := equivalentRules
  incomparableRules := incomparableRules
  candidate := grammar
  reference := psi

def concordance : Concordance := .ofSettings settings

end TreeAccord.KotlinPsi
