/-!
# The built-in fixtures

The names of the compiler's PSI test files that the Kotlin grammar parses without errors.
-/

namespace TreeAccord.Cli

def kotlinFixtures : List String :=
  ["AnonymousInitializer", "BabySteps", "ByClauses", "CallWithManyClosures",
    "CommentsBindingInLambda", "CommentsBindingInStatementBlock", "destructuringInLambdas",
    "DocCommentAfterFileAnnotations", "DocCommentForFirstDeclaration",
    "DocCommentOnPackageDirectiveLine", "DocCommentsBinding", "DoubleColonWhitespaces",
    "DynamicReceiver", "DynamicTypes", "EmptyFile", "EnumCommas",
    "EnumEntrySemicolonInlineMember", "EnumEntrySemicolonMember", "EnumIn", "EnumInline", "Enums",
    "EnumShortCommas", "EnumShortWithOverload", "EOLsInComments", "ExtensionsWithQNReceiver",
    "FloatingPointLiteral", "FunctionLiterals", "FunctionTypes", "IfWithPropery", "Imports",
    "ImportSoftKW", "Inner", "Interface", "LineCommentAfterFileAnnotations",
    "LineCommentForFirstDeclaration", "LineCommentsInBlock", "LongPackageName",
    "ModifierAsSelector", "NamedClassObject", "NestedComments", "NewLinesValidOperations",
    "NotIsAndNotIn", "ObjectLiteralAsStatement", "PropertyInvokes", "QuotedIdentifiers",
    "SemicolonAfterIf", "TraitConstructor", "TypeAlias", "TypeConstraints"]

end TreeAccord.Cli
