import AdaSyntax.Datum.Basic
import AdaSyntax.Diagnostic.Basic
import AdaSyntax.Diagnostic.Context
import AdaSyntax.Parser.Program
import AdaSyntax.Scope.Region
import AdaSyntax.Tree.Payload

/-! Types whose values are written as single words. -/

namespace AdaSyntax

class Worded (α : Type) where
  words : List (String × α)

instance {α : Type} [Worded α] [DecidableEq α] : ToDatum α where
  toDatum value :=
    match Worded.words.find? (·.2 = value) with
    | some (word, _) => .text word
    | none => .null

instance {α : Type} [Worded α] : OfDatum α where
  ofDatum?
    | .text word => Worded.words.lookup word
    | _ => none

instance : Worded TokenKind where
  words :=
    [("WHITESPACE", .whitespace), ("COMMENT", .comment), ("IDENT", .identifier),
      ("INTEGER_LITERAL", .integerLiteral), ("REAL_LITERAL", .realLiteral),
      ("CHAR_LITERAL", .characterLiteral), ("STRING_LITERAL", .stringLiteral),
      ("AMP", .ampersand), ("TICK", .tick), ("L_PAREN", .leftParen), ("R_PAREN", .rightParen),
      ("STAR", .star), ("PLUS", .plus), ("COMMA", .comma), ("MINUS", .minus), ("DOT", .dot),
      ("SLASH", .slash), ("COLON", .colon), ("SEMICOLON", .semicolon), ("LT", .less),
      ("EQ", .equal), ("GT", .greater), ("BAR", .bar), ("FAT_ARROW", .arrow),
      ("DOT_DOT", .doubleDot), ("STAR_STAR", .doubleStar), ("COLON_EQ", .assign),
      ("SLASH_EQ", .notEqual), ("GT_EQ", .greaterEqual), ("LT_EQ", .lessEqual),
      ("LT_LT", .leftLabel), ("GT_GT", .rightLabel), ("BOX", .box), ("ABORT_KW", .kwAbort),
      ("ABS_KW", .kwAbs), ("ACCEPT_KW", .kwAccept), ("ACCESS_KW", .kwAccess), ("ALL_KW", .kwAll),
      ("AND_KW", .kwAnd), ("ARRAY_KW", .kwArray), ("AT_KW", .kwAt), ("BEGIN_KW", .kwBegin),
      ("BODY_KW", .kwBody), ("CASE_KW", .kwCase), ("CONSTANT_KW", .kwConstant),
      ("DECLARE_KW", .kwDeclare), ("DELAY_KW", .kwDelay), ("DELTA_KW", .kwDelta),
      ("DIGITS_KW", .kwDigits), ("DO_KW", .kwDo), ("ELSE_KW", .kwElse), ("ELSIF_KW", .kwElsif),
      ("END_KW", .kwEnd), ("ENTRY_KW", .kwEntry), ("EXCEPTION_KW", .kwException),
      ("EXIT_KW", .kwExit), ("FOR_KW", .kwFor), ("FUNCTION_KW", .kwFunction),
      ("GENERIC_KW", .kwGeneric), ("GOTO_KW", .kwGoto), ("IF_KW", .kwIf), ("IN_KW", .kwIn),
      ("IS_KW", .kwIs), ("LIMITED_KW", .kwLimited), ("LOOP_KW", .kwLoop), ("MOD_KW", .kwMod),
      ("NEW_KW", .kwNew), ("NOT_KW", .kwNot), ("NULL_KW", .kwNull), ("OF_KW", .kwOf),
      ("OR_KW", .kwOr), ("OTHERS_KW", .kwOthers), ("OUT_KW", .kwOut), ("PACKAGE_KW", .kwPackage),
      ("PRAGMA_KW", .kwPragma), ("PRIVATE_KW", .kwPrivate), ("PROCEDURE_KW", .kwProcedure),
      ("RAISE_KW", .kwRaise), ("RANGE_KW", .kwRange), ("RECORD_KW", .kwRecord),
      ("REM_KW", .kwRem), ("RENAMES_KW", .kwRenames), ("RETURN_KW", .kwReturn),
      ("REVERSE_KW", .kwReverse), ("SELECT_KW", .kwSelect), ("SEPARATE_KW", .kwSeparate),
      ("SUBTYPE_KW", .kwSubtype), ("TASK_KW", .kwTask), ("TERMINATE_KW", .kwTerminate),
      ("THEN_KW", .kwThen), ("TYPE_KW", .kwType), ("USE_KW", .kwUse), ("WHEN_KW", .kwWhen),
      ("WHILE_KW", .kwWhile), ("WITH_KW", .kwWith), ("XOR_KW", .kwXor), ("ERROR", .error),
      ("EOF", .endOfFile)]

instance : Worded Code where
  words :=
    [Code.invalidCharacter, .unterminatedString, .malformedIdentifier, .invalidNumber,
      .noCompilationUnit, .trailingText, .endMismatch, .unrecognizedDeclaration,
      .duplicateDeclaration, .unrecognizedComponent, .undeclaredTypeMark, .notAType,
      .mixedOperators, .notAPackage, .unrecognizedStatement, .exitOutsideLoop, .exitNotEnclosing,
      .endOfInput, .nestingTooDeep, .internalError].map fun code => (code.text, code)

instance : Worded Severity where
  words := [("Error", .error), ("Warning", .warning), ("Hint", .hint)]

instance : Worded Context where
  words :=
    [("Compilation", .compilation), ("PackageSpecification", .packageSpecification),
      ("DeclarativePart", .declarativePart), ("GenericFormalPart", .genericFormalPart),
      ("ComponentList", .componentList), ("StatementSequence", .statementSequence)]

instance : Worded SymbolKind where
  words :=
    [("Type", .type), ("Subtype", .subtype), ("IncompleteType", .incompleteType),
      ("PrivateType", .privateType), ("Object", .object), ("Constant", .constant),
      ("DeferredConstant", .deferredConstant), ("NamedNumber", .namedNumber),
      ("Parameter", .parameter), ("LoopParameter", .loopParameter), ("Component", .component),
      ("Discriminant", .discriminant), ("Exception", .exception),
      ("EnumerationLiteral", .enumerationLiteral), ("Procedure", .procedure),
      ("Function", .function), ("Package", .package), ("GenericPackage", .genericPackage),
      ("GenericProcedure", .genericProcedure), ("GenericFunction", .genericFunction),
      ("Label", .label), ("Unit", .unit), ("Unresolved", .unresolved)]

instance : Worded RegionKind where
  words :=
    [("Library", .library), ("Context", .context), ("Package", .package),
      ("PackageBody", .packageBody), ("Subprogram", .subprogram), ("Block", .block),
      ("Loop", .loop), ("TypeDeclaration", .typeDeclaration),
      ("DiscriminantPart", .discriminantPart), ("Record", .record),
      ("GenericFormal", .genericFormal)]

instance : Worded ImportKind where
  words := [("Use", .use), ("Body", .body)]

instance : Worded Rule where
  words :=
    [("ObjectDeclaration", .objectDeclaration), ("NumberDeclaration", .numberDeclaration),
      ("RenamingDeclaration", .renamingDeclaration),
      ("ExceptionDeclaration", .exceptionDeclaration), ("TypeDeclaration", .typeDeclaration),
      ("SubtypeDeclaration", .subtypeDeclaration),
      ("GenericInstantiation", .genericInstantiation), ("BodyStub", .bodyStub),
      ("SubprogramDeclaration", .subprogramDeclaration), ("SubprogramBody", .subprogramBody),
      ("PackageBody", .packageBody), ("PackageDeclaration", .packageDeclaration),
      ("GenericDeclaration", .genericDeclaration), ("UseClause", .useClause),
      ("Pragma", .pragma), ("ComponentDeclaration", .componentDeclaration),
      ("UnconstrainedArray", .unconstrainedArray), ("ConstrainedArray", .constrainedArray),
      ("IndexConstraint", .indexConstraint), ("DiscriminantConstraint", .discriminantConstraint),
      ("FormalObject", .formalObject), ("FormalType", .formalType),
      ("FormalSubprogram", .formalSubprogram), ("Statement", .statement),
      ("Assignment", .assignment), ("ProcedureCall", .procedureCall), ("Name", .name),
      ("Expression", .expression), ("SubtypeIndication", .subtypeIndication),
      ("DiscreteRange", .discreteRange), ("Range", .range), ("CompilationUnit", .compilationUnit)]

instance : Worded BinaryOp where
  words :=
    [("And", .and), ("AndThen", .andThen), ("Or", .or), ("OrElse", .orElse), ("Xor", .xor),
      ("Eq", .eq), ("Ne", .ne), ("Lt", .lt), ("Le", .le), ("Gt", .gt), ("Ge", .ge), ("Add", .add),
      ("Sub", .sub), ("Concat", .concat), ("Mul", .mul), ("Div", .div), ("Mod", .mod),
      ("Rem", .rem), ("Pow", .pow)]

instance : Worded UnaryOp where
  words := [("Plus", .plus), ("Minus", .minus), ("Abs", .abs), ("Not", .not)]

instance : Worded LiteralKind where
  words :=
    [("Integer", .integer), ("Real", .real), ("Character", .character), ("String", .string),
      ("Null", .null)]

instance : Worded SelectedForm where
  words := [("Expanded", .expanded), ("Component", .component)]

instance : Worded ApplyForm where
  words :=
    [("TypeConversion", .typeConversion), ("Call", .call), ("IndexedComponent", .indexedComponent),
      ("Unresolved", .unresolved)]

instance : Worded Mode where
  words := [("In", .input), ("Out", .output), ("InOut", .inOut)]

instance : Worded SubprogramKind where
  words := [("Procedure", .procedure), ("Function", .function)]

instance : Worded GenericKind where
  words := [("Package", .package), ("Procedure", .procedure), ("Function", .function)]

end AdaSyntax
