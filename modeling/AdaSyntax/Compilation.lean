import AdaSyntax.Grammar.Production
import AdaSyntax.Token.Stream

/-!
Parsing a compilation, that is, any number of compilation units up to the end of the text. Either the
whole text is accepted, and there is a tree, or there are diagnostics only.
-/

namespace AdaSyntax

structure Compilation where
  tree : Tree
  root : NodeId
  symbols : SymbolTable
  /-- The symbols of the library region that the text declared. -/
  library : List SymbolId
  diagnostics : List Diagnostic

def Compilation.hasErrors (compilation : Compilation) : Bool :=
  compilation.diagnostics.any (·.isError)

structure Rejection where
  diagnostics : List Diagnostic
  /-- What ended the parse at once, if anything did. -/
  fatal : Option Fatal

def Rejection.message (rejection : Rejection) : String :=
  "parse failed with " ++ toString rejection.diagnostics.length ++ " diagnostic(s)"

namespace Parser

def diagnostics (parser : Parser) : List Diagnostic := parser.log.records.toList

def complete (parser : Parser) (lexical : List Diagnostic) (units : List NodeId) : Compilation :=
  let library := parser.symbols.librarySymbols
  let (root, parser) := parser.addNode 0 (.unit (.compilation units library))
  { tree := parser.tree, root, symbols := parser.symbols, library
    diagnostics := lexical ++ parser.diagnostics }

def reject (parser : Parser) (lexical : List Diagnostic) (units : List NodeId) : Rejection :=
  let code : Code := if units.isEmpty then .noCompilationUnit else .trailingText
  let parser := parser.reportUnrecognized .compilation code parser.position
  { diagnostics := lexical ++ parser.diagnostics, fatal := none }

def abort (parser : Parser) (lexical : List Diagnostic) (fatal : Fatal) : Rejection :=
  { diagnostics := lexical ++ parser.diagnostics ++ [fatal.diagnostic], fatal := some fatal }

def compile (parser : Parser) (lexical : List Diagnostic) : Except Rejection Compilation :=
  match Grammar.compilationUnits.execute parser with
  | (.matched (units, true), parser) => .ok (parser.complete lexical units)
  | (.matched (units, false), parser) => .error (parser.reject lexical units)
  | (.fatal error, parser) => .error (parser.abort lexical error)
  | (.mismatch, parser) | (.exhausted, parser) => .error (parser.reject lexical [])

end Parser

namespace Compilation

def ofTokens (tokens : List Token) (lexical : List Diagnostic) (options : Options) :
    Except Rejection Compilation :=
  match Cursor.ofTokens tokens.toArray with
  | .ok cursor => (Parser.new cursor options).compile lexical
  | .error fatal => .error ⟨lexical ++ [fatal.diagnostic], some fatal⟩

def ofSource (source : String) (options : Options) : Except Rejection Compilation :=
  (Parser.new (.ofSource source) options).compile (Token.defects (Token.significant source))

def ofSources (sources : List String) (options : Options) :
    List (Except Rejection Compilation) :=
  sources.map (ofSource · options)

end Compilation

end AdaSyntax
