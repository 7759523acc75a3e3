import AdaSyntax.Compilation

/-!
Parsing a fragment of a text by a single rule, in a package region of its own. Text behind the fragment
is no error, but is noted.
-/

namespace AdaSyntax

structure Fragment where
  rule : Rule
  tree : Tree
  root : Option NodeId
  diagnostics : List Diagnostic
  fatal : Option Fatal
  /-- Whether the fragment is the whole text. -/
  fullyConsumed : Bool
  symbols : SymbolTable

namespace Fragment

def errors (fragment : Fragment) : List Diagnostic := fragment.diagnostics.filter (·.isError)

def isOk (fragment : Fragment) : Bool :=
  fragment.root.isSome && fragment.fatal.isNone && fragment.fullyConsumed &&
    fragment.errors.isEmpty

def ofReply (rule : Rule) (lexical : List Diagnostic) (reply : Reply NodeId) (parser : Parser) :
    Fragment :=
  { rule, tree := parser.tree, root := reply.value?, fatal := reply.fatal?
    diagnostics := lexical ++ parser.diagnostics, fullyConsumed := parser.cursor.atEnd
    symbols := parser.symbols }

def ofSource (rule : Rule) (source : String) (options : Options) : Fragment :=
  let parser := Parser.new (.ofSource source) options
  let parser := { parser with symbols := parser.symbols.openRegion .package none }
  let (reply, parser) := parser.attempt (Program.rule rule).execute
  ofReply rule (Token.defects (Token.significant source)) reply parser

def furthestMismatch (rule : Rule) (source : String) (options : Options) : Option Mismatch :=
  ((Parser.new (.ofSource source) options).attempt (Program.rule rule).execute).2.furthest

end Fragment

end AdaSyntax
