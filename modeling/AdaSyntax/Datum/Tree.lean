import AdaSyntax.Datum.Symbol
import AdaSyntax.Tree.Check
import AdaSyntax.Tree.Walk

/-! Nodes as data: the category of a node, then its form, then its fields. -/

namespace AdaSyntax

/-! Compilation level -/

instance : ToDatum (UnitPart Range) where
  toDatum
    | .compilation units library => .case "Compilation" [("units", units), ("library", library)]
    | .compilationUnit context unit =>
      .case "CompilationUnit" [("context", context), ("unit", unit)]
    | .withClause units => .case "WithClause" [("units", units)]
    | .subunit parent body => .case "Subunit" [("parent", parent), ("body", body)]

instance : OfDatum (UnitPart Range) where
  ofDatum? datum := do
    match ← datum.case? with
    | ("Compilation", v) => return .compilation (← v.field "units") (← v.field "library")
    | ("CompilationUnit", v) => return .compilationUnit (← v.field "context") (← v.field "unit")
    | ("WithClause", v) => return .withClause (← v.field "units")
    | ("Subunit", v) => return .subunit (← v.field "parent") (← v.field "body")
    | _ => none

/-! Declarations -/

instance : ToDatum Renaming where
  toDatum
    | .object indication => .case "Object" [("subtype", indication)]
    | .exception => "Exception"
    | .package => "Package"
    | .subprogram spec => .case "Subprogram" [("spec", spec)]

instance : OfDatum Renaming where
  ofDatum? datum := do
    match ← datum.case? with
    | ("Object", v) => return .object (← v.field "subtype")
    | ("Exception", _) => return .exception
    | ("Package", _) => return .package
    | ("Subprogram", v) => return .subprogram (← v.field "spec")
    | _ => none

instance : ToDatum FormalTypeDef where
  toDatum
    | .privateType isLimited => .case "Private" [("limited", isLimited)]
    | .discrete => "Discrete"
    | .integer => "Integer"
    | .float => "Float"
    | .fixed => "Fixed"
    | .array definition => .wrap "Array" definition
    | .access definition => .wrap "Access" definition

instance : OfDatum FormalTypeDef where
  ofDatum? datum := do
    match ← datum.case? with
    | ("Private", v) => return .privateType (← v.field "limited")
    | ("Discrete", _) => return .discrete
    | ("Integer", _) => return .integer
    | ("Float", _) => return .float
    | ("Fixed", _) => return .fixed
    | ("Array", v) => return .array (← ofDatum? v)
    | ("Access", v) => return .access (← ofDatum? v)
    | _ => none

instance : ToDatum FormalDefault where
  toDatum
    | .none => "None"
    | .box => "Box"
    | .name target => .wrap "Name" target

instance : OfDatum FormalDefault where
  ofDatum? datum := do
    match ← datum.case? with
    | ("None", _) => return .none
    | ("Box", _) => return .box
    | ("Name", v) => return .name (← ofDatum? v)
    | _ => none

instance : ToDatum (Stub Range) where
  toDatum
    | .package name => .wrap "Package" name
    | .subprogram spec => .wrap "Subprogram" spec

instance : OfDatum (Stub Range) where
  ofDatum? datum := do
    match ← datum.case? with
    | ("Package", v) => return .package (← ofDatum? v)
    | ("Subprogram", v) => return .subprogram (← ofDatum? v)
    | _ => none

instance : ToDatum (Decl Range) where
  toDatum
    | .object names isConstant indication initial =>
      .case "Object" [("names", names), ("constant", isConstant), ("subtype", indication),
        ("init", initial)]
    | .number names value => .case "Number" [("names", names), ("value", value)]
    | .type name discriminants definition =>
      .case "Type" [("name", name), ("discriminants", discriminants), ("definition", definition)]
    | .incompleteType name discriminants =>
      .case "IncompleteType" [("name", name), ("discriminants", discriminants)]
    | .privateType name discriminants isLimited =>
      .case "PrivateType" [("name", name), ("discriminants", discriminants), ("limited", isLimited)]
    | .subtype name indication => .case "Subtype" [("name", name), ("indication", indication)]
    | .exception names => .case "Exception" [("names", names)]
    | .renames name kind renamed =>
      .case "Renaming" [("name", name), ("kind", kind), ("renamed", renamed)]
    | .subprogramSpec kind name parameters result =>
      .case "SubprogramSpec" [("kind", kind), ("name", name), ("params", parameters),
        ("result", result)]
    | .parameter names mode mark initial =>
      .case "Parameter" [("names", names), ("mode", mode), ("subtype", mark), ("default", initial)]
    | .discriminant names mark initial =>
      .case "Discriminant" [("names", names), ("subtype", mark), ("default", initial)]
    | .component names indication initial =>
      .case "Component" [("names", names), ("subtype", indication), ("default", initial)]
    | .subprogramDecl spec => .case "SubprogramDecl" [("spec", spec)]
    | .subprogramBody spec declarations body endName =>
      .case "SubprogramBody" [("spec", spec), ("decls", declarations), ("body", body),
        ("end_name", endName)]
    | .packageDecl name visible hidden endName =>
      .case "PackageDecl" [("name", name), ("visible", visible), ("private", hidden),
        ("end_name", endName)]
    | .packageBody name declarations body endName =>
      .case "PackageBody" [("name", name), ("decls", declarations), ("body", body),
        ("end_name", endName)]
    | .generic formals unit => .case "GenericDecl" [("formals", formals), ("unit", unit)]
    | .formalObject names mode mark initial =>
      .case "FormalObject" [("names", names), ("mode", mode), ("subtype", mark),
        ("default", initial)]
    | .formalType name discriminants definition =>
      .case "FormalType" [("name", name), ("discriminants", discriminants),
        ("definition", definition)]
    | .formalSubprogram spec default =>
      .case "FormalSubprogram" [("spec", spec), ("default", default)]
    | .instantiation kind name template actuals =>
      .case "Instantiation" [("kind", kind), ("name", name), ("generic", template),
        ("actuals", actuals)]
    | .bodyStub stub => .case "BodyStub" [("kind", stub)]
    | .useClause packages => .case "UseClause" [("packages", packages)]
    | .pragma name arguments => .case "Pragma" [("name", name), ("args", arguments)]

instance : OfDatum (Decl Range) where
  ofDatum? datum := do
    match ← datum.case? with
    | ("Object", v) =>
      return .object (← v.field "names") (← v.field "constant") (← v.field "subtype")
        (← v.field "init")
    | ("Number", v) => return .number (← v.field "names") (← v.field "value")
    | ("Type", v) =>
      return .type (← v.field "name") (← v.field "discriminants") (← v.field "definition")
    | ("IncompleteType", v) =>
      return .incompleteType (← v.field "name") (← v.field "discriminants")
    | ("PrivateType", v) =>
      return .privateType (← v.field "name") (← v.field "discriminants") (← v.field "limited")
    | ("Subtype", v) => return .subtype (← v.field "name") (← v.field "indication")
    | ("Exception", v) => return .exception (← v.field "names")
    | ("Renaming", v) =>
      return .renames (← v.field "name") (← v.field "kind") (← v.field "renamed")
    | ("SubprogramSpec", v) =>
      return .subprogramSpec (← v.field "kind") (← v.field "name") (← v.field "params")
        (← v.field "result")
    | ("Parameter", v) =>
      return .parameter (← v.field "names") (← v.field "mode") (← v.field "subtype")
        (← v.field "default")
    | ("Discriminant", v) =>
      return .discriminant (← v.field "names") (← v.field "subtype") (← v.field "default")
    | ("Component", v) =>
      return .component (← v.field "names") (← v.field "subtype") (← v.field "default")
    | ("SubprogramDecl", v) => return .subprogramDecl (← v.field "spec")
    | ("SubprogramBody", v) =>
      return .subprogramBody (← v.field "spec") (← v.field "decls") (← v.field "body")
        (← v.field "end_name")
    | ("PackageDecl", v) =>
      return .packageDecl (← v.field "name") (← v.field "visible") (← v.field "private")
        (← v.field "end_name")
    | ("PackageBody", v) =>
      return .packageBody (← v.field "name") (← v.field "decls") (← v.field "body")
        (← v.field "end_name")
    | ("GenericDecl", v) => return .generic (← v.field "formals") (← v.field "unit")
    | ("FormalObject", v) =>
      return .formalObject (← v.field "names") (← v.field "mode") (← v.field "subtype")
        (← v.field "default")
    | ("FormalType", v) =>
      return .formalType (← v.field "name") (← v.field "discriminants") (← v.field "definition")
    | ("FormalSubprogram", v) => return .formalSubprogram (← v.field "spec") (← v.field "default")
    | ("Instantiation", v) =>
      return .instantiation (← v.field "kind") (← v.field "name") (← v.field "generic")
        (← v.field "actuals")
    | ("BodyStub", v) => return .bodyStub (← v.field "kind")
    | ("UseClause", v) => return .useClause (← v.field "packages")
    | ("Pragma", v) => return .pragma (← v.field "name") (← v.field "args")
    | _ => none

/-! Types -/

instance : ToDatum (TypeDef Range) where
  toDatum
    | .enumeration literals => .case "Enumeration" [("literals", literals)]
    | .integer bounds => .case "Integer" [("range", bounds)]
    | .float digits bounds => .case "Float" [("digits", digits), ("range", bounds)]
    | .fixed delta bounds => .case "Fixed" [("delta", delta), ("range", bounds)]
    | .unconstrainedArray indexes element =>
      .case "UnconstrainedArray" [("indexes", indexes), ("component", element)]
    | .constrainedArray indexes element =>
      .case "ConstrainedArray" [("indexes", indexes), ("component", element)]
    | .record components tail => .case "Record" [("components", components), ("variant", tail)]
    | .variantPart discriminant variants =>
      .case "VariantPart" [("discriminant", discriminant), ("variants", variants)]
    | .variant choices components tail =>
      .case "Variant" [("choices", choices), ("components", components), ("variant", tail)]
    | .access designated => .case "Access" [("designated", designated)]
    | .derived parent => .case "Derived" [("parent", parent)]
    | .indexSubtype mark => .case "IndexSubtype" [("mark", mark)]
    | .subtypeIndication mark constraint =>
      .case "SubtypeIndication" [("mark", mark), ("constraint", constraint)]
    | .rangeConstraint bounds => .case "RangeConstraint" [("range", bounds)]
    | .indexConstraint ranges => .case "IndexConstraint" [("ranges", ranges)]
    | .discriminantConstraint associations =>
      .case "DiscriminantConstraint" [("associations", associations)]
    | .floatingConstraint digits bounds =>
      .case "FloatingConstraint" [("digits", digits), ("range", bounds)]
    | .fixedConstraint delta bounds =>
      .case "FixedConstraint" [("delta", delta), ("range", bounds)]
    | .range low high => .case "Range" [("low", low), ("high", high)]

instance : OfDatum (TypeDef Range) where
  ofDatum? datum := do
    match ← datum.case? with
    | ("Enumeration", v) => return .enumeration (← v.field "literals")
    | ("Integer", v) => return .integer (← v.field "range")
    | ("Float", v) => return .float (← v.field "digits") (← v.field "range")
    | ("Fixed", v) => return .fixed (← v.field "delta") (← v.field "range")
    | ("UnconstrainedArray", v) =>
      return .unconstrainedArray (← v.field "indexes") (← v.field "component")
    | ("ConstrainedArray", v) =>
      return .constrainedArray (← v.field "indexes") (← v.field "component")
    | ("Record", v) => return .record (← v.field "components") (← v.field "variant")
    | ("VariantPart", v) => return .variantPart (← v.field "discriminant") (← v.field "variants")
    | ("Variant", v) =>
      return .variant (← v.field "choices") (← v.field "components") (← v.field "variant")
    | ("Access", v) => return .access (← v.field "designated")
    | ("Derived", v) => return .derived (← v.field "parent")
    | ("IndexSubtype", v) => return .indexSubtype (← v.field "mark")
    | ("SubtypeIndication", v) =>
      return .subtypeIndication (← v.field "mark") (← v.field "constraint")
    | ("RangeConstraint", v) => return .rangeConstraint (← v.field "range")
    | ("IndexConstraint", v) => return .indexConstraint (← v.field "ranges")
    | ("DiscriminantConstraint", v) => return .discriminantConstraint (← v.field "associations")
    | ("FloatingConstraint", v) =>
      return .floatingConstraint (← v.field "digits") (← v.field "range")
    | ("FixedConstraint", v) => return .fixedConstraint (← v.field "delta") (← v.field "range")
    | ("Range", v) => return .range (← v.field "low") (← v.field "high")
    | _ => none

/-! Expressions and names -/

instance : ToDatum Expr where
  toDatum
    | .binary op left right => .case "Binary" [("op", op), ("lhs", left), ("rhs", right)]
    | .unary op operand => .case "Unary" [("op", op), ("operand", operand)]
    | .literal kind text => .case "Literal" [("kind", kind), ("text", text)]
    | .membership operand negated target =>
      .case "Membership" [("operand", operand), ("negated", negated), ("target", target)]
    | .aggregate components => .case "Aggregate" [("components", components)]
    | .association choices value => .case "Association" [("choices", choices), ("value", value)]
    | .others => "Others"
    | .qualified mark operand => .case "Qualified" [("mark", mark), ("operand", operand)]
    | .allocator operand => .case "Allocator" [("operand", operand)]
    | .parenthesized inner => .case "Parenthesized" [("inner", inner)]

instance : OfDatum Expr where
  ofDatum? datum := do
    match ← datum.case? with
    | ("Binary", v) => return .binary (← v.field "op") (← v.field "lhs") (← v.field "rhs")
    | ("Unary", v) => return .unary (← v.field "op") (← v.field "operand")
    | ("Literal", v) => return .literal (← v.field "kind") (← v.field "text")
    | ("Membership", v) =>
      return .membership (← v.field "operand") (← v.field "negated") (← v.field "target")
    | ("Aggregate", v) => return .aggregate (← v.field "components")
    | ("Association", v) => return .association (← v.field "choices") (← v.field "value")
    | ("Others", _) => return .others
    | ("Qualified", v) => return .qualified (← v.field "mark") (← v.field "operand")
    | ("Allocator", v) => return .allocator (← v.field "operand")
    | ("Parenthesized", v) => return .parenthesized (← v.field "inner")
    | _ => none

instance : ToDatum NameUse where
  toDatum
    | .identifier name symbol kind =>
      .case "Identifier" [("name", name), ("symbol", symbol), ("class", kind)]
    | .selected base selector form symbol kind =>
      .case "Selected" [("prefix", base), ("selector", selector), ("form", form),
        ("symbol", symbol), ("class", kind)]
    | .dereference base => .case "Dereference" [("prefix", base)]
    | .apply base arguments form =>
      .case "Apply" [("prefix", base), ("args", arguments), ("form", form)]
    | .slice base range => .case "Slice" [("prefix", base), ("range", range)]
    | .attributeOf base designator arguments =>
      .case "Attribute" [("prefix", base), ("attribute", designator), ("args", arguments)]

instance : OfDatum NameUse where
  ofDatum? datum := do
    match ← datum.case? with
    | ("Identifier", v) =>
      return .identifier (← v.field "name") (← v.field "symbol") (← v.field "class")
    | ("Selected", v) =>
      return .selected (← v.field "prefix") (← v.field "selector") (← v.field "form")
        (← v.field "symbol") (← v.field "class")
    | ("Dereference", v) => return .dereference (← v.field "prefix")
    | ("Apply", v) =>
      return .apply (← v.field "prefix") (← v.field "args") (← v.field "form")
    | ("Slice", v) => return .slice (← v.field "prefix") (← v.field "range")
    | ("Attribute", v) =>
      return .attributeOf (← v.field "prefix") (← v.field "attribute") (← v.field "args")
    | _ => none

/-! Statements -/

instance : ToDatum (LoopScheme Range) where
  toDatum
    | .plain => "Plain"
    | .whileLoop condition => .wrap "While" condition
    | .forLoop parameter reverse range =>
      .case "For" [("param", parameter), ("reverse", reverse), ("range", range)]

instance : OfDatum (LoopScheme Range) where
  ofDatum? datum := do
    match ← datum.case? with
    | ("Plain", _) => return .plain
    | ("While", v) => return .whileLoop (← ofDatum? v)
    | ("For", v) =>
      return .forLoop (← v.field "param") (← v.field "reverse") (← v.field "range")
    | _ => none

instance : ToDatum (Stmt Range) where
  toDatum
    | .null => "Null"
    | .assignment target value => .case "Assignment" [("target", target), ("value", value)]
    | .call name => .case "Call" [("name", name)]
    | .ifStatement branches elseStatements =>
      .case "If" [("branches", branches), ("else_statements", elseStatements)]
    | .conditional condition statements =>
      .case "Conditional" [("condition", condition), ("statements", statements)]
    | .caseStatement selector alternatives =>
      .case "Case" [("selector", selector), ("alternatives", alternatives)]
    | .caseAlternative choices statements =>
      .case "CaseAlternative" [("choices", choices), ("statements", statements)]
    | .loop label scheme statements endName =>
      .case "Loop" [("label", label), ("scheme", scheme), ("statements", statements),
        ("end_name", endName)]
    | .exit target condition => .case "Exit" [("target", target), ("condition", condition)]
    | .returnStatement value => .case "Return" [("value", value)]
    | .raise exception => .case "Raise" [("exception", exception)]
    | .goto target => .case "Goto" [("target", target)]
    | .block label declarations body endName =>
      .case "Block" [("label", label), ("decls", declarations), ("body", body),
        ("end_name", endName)]
    | .handled statements handlers =>
      .case "Handled" [("statements", statements), ("handlers", handlers)]
    | .handler choices statements =>
      .case "Handler" [("choices", choices), ("statements", statements)]
    | .labeled labels statement => .case "Labeled" [("labels", labels), ("statement", statement)]

instance : OfDatum (Stmt Range) where
  ofDatum? datum := do
    match ← datum.case? with
    | ("Null", _) => return .null
    | ("Assignment", v) => return .assignment (← v.field "target") (← v.field "value")
    | ("Call", v) => return .call (← v.field "name")
    | ("If", v) => return .ifStatement (← v.field "branches") (← v.field "else_statements")
    | ("Conditional", v) =>
      return .conditional (← v.field "condition") (← v.field "statements")
    | ("Case", v) => return .caseStatement (← v.field "selector") (← v.field "alternatives")
    | ("CaseAlternative", v) =>
      return .caseAlternative (← v.field "choices") (← v.field "statements")
    | ("Loop", v) =>
      return .loop (← v.field "label") (← v.field "scheme") (← v.field "statements")
        (← v.field "end_name")
    | ("Exit", v) => return .exit (← v.field "target") (← v.field "condition")
    | ("Return", v) => return .returnStatement (← v.field "value")
    | ("Raise", v) => return .raise (← v.field "exception")
    | ("Goto", v) => return .goto (← v.field "target")
    | ("Block", v) =>
      return .block (← v.field "label") (← v.field "decls") (← v.field "body")
        (← v.field "end_name")
    | ("Handled", v) => return .handled (← v.field "statements") (← v.field "handlers")
    | ("Handler", v) => return .handler (← v.field "choices") (← v.field "statements")
    | ("Labeled", v) => return .labeled (← v.field "labels") (← v.field "statement")
    | _ => none

/-! Nodes -/

instance : ToDatum (Payload Range) where
  toDatum
    | .placeholder => "Placeholder"
    | .unit part => .wrap "Unit" part
    | .decl part => .wrap "Decl" part
    | .type part => .wrap "Type" part
    | .expr part => .wrap "Expr" part
    | .name part => .wrap "Name" part
    | .stmt part => .wrap "Stmt" part

instance : OfDatum (Payload Range) where
  ofDatum? datum := do
    match ← datum.case? with
    | ("Placeholder", _) => return .placeholder
    | ("Unit", v) => return .unit (← ofDatum? v)
    | ("Decl", v) => return .decl (← ofDatum? v)
    | ("Type", v) => return .type (← ofDatum? v)
    | ("Expr", v) => return .expr (← ofDatum? v)
    | ("Name", v) => return .name (← ofDatum? v)
    | ("Stmt", v) => return .stmt (← ofDatum? v)
    | _ => none

instance : ToDatum Node where
  toDatum node := .record [("range", node.range), ("kind", node.payload)]

def Node.summary (node : Node) : Datum :=
  .list [node.payload.label, node.range.start, node.range.stop, node.payload.children]

instance : ToDatum TreeViolation := ⟨(·.message)⟩

end AdaSyntax
