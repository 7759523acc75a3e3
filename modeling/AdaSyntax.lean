import AdaSyntax.Fragment
import AdaSyntax.Session.Run
import AdaSyntax.Text.LineIndex
import AdaSyntax.Tree.Check
import AdaSyntax.Tree.Printer
import AdaSyntax.Datum.Basic
import AdaSyntax.Datum.Diagnostic
import AdaSyntax.Datum.Symbol
import AdaSyntax.Datum.Tree
import AdaSyntax.Proofs.Scope.Journal
import AdaSyntax.Proofs.Scope.Change
import AdaSyntax.Proofs.Scope.Rollback
import AdaSyntax.Proofs.Scope.Growth
import AdaSyntax.Proofs.Scope.Filed
import AdaSyntax.Proofs.Scope.Closed
import AdaSyntax.Proofs.Scope.Loops
import AdaSyntax.Proofs.Scope.Renumber
import AdaSyntax.Proofs.Scope.Unplaced
import AdaSyntax.Proofs.Token.Order
import AdaSyntax.Proofs.Tree.Row
import AdaSyntax.Proofs.Tree.Growth
import AdaSyntax.Proofs.Tree.Piece
import AdaSyntax.Proofs.Tree.Cast
import AdaSyntax.Proofs.Tree.Exits
import AdaSyntax.Proofs.Tree.Forest
import AdaSyntax.Proofs.Tree.Recursion
import AdaSyntax.Proofs.Tree.Soundness
import AdaSyntax.Proofs.Tree.Nesting
import AdaSyntax.Proofs.Parser.Backtrack
import AdaSyntax.Proofs.Parser.Yield
import AdaSyntax.Proofs.Parser.Course
import AdaSyntax.Proofs.Parser.Built
import AdaSyntax.Proofs.Parser.Silent
import AdaSyntax.Proofs.Parser.Linked
import AdaSyntax.Proofs.Parser.Checked
import AdaSyntax.Proofs.Parser.Looped
import AdaSyntax.Proofs.Parser.Owned
import AdaSyntax.Proofs.Parser.Draft
import AdaSyntax.Proofs.Parser.Steps
import AdaSyntax.Proofs.Parser.Enters
import AdaSyntax.Proofs.Grammar.Basic
import AdaSyntax.Proofs.Grammar.Designator
import AdaSyntax.Proofs.Grammar.Expression
import AdaSyntax.Proofs.Grammar.Subtype
import AdaSyntax.Proofs.Grammar.Declaration
import AdaSyntax.Proofs.Grammar.Statement
import AdaSyntax.Proofs.Grammar.Package
import AdaSyntax.Proofs.Grammar.Production
import AdaSyntax.Proofs.Parser.Kept
import AdaSyntax.Proofs.Parser.Reachable
import AdaSyntax.Proofs.Parser.Since
import AdaSyntax.Proofs.Parser.Mirror
import AdaSyntax.Proofs.Parser.Recovery
import AdaSyntax.Proofs.Parser.Disguise
import AdaSyntax.Proofs.Parser.Blind
import AdaSyntax.Proofs.Parser.Continues
import AdaSyntax.Proofs.Grammar.Effects
import AdaSyntax.Proofs.Grammar.Choice
import AdaSyntax.Proofs.Discipline.Basic
import AdaSyntax.Proofs.Parser.Closed
import AdaSyntax.Proofs.Discipline.Gives
import AdaSyntax.Proofs.Discipline.Vocabulary
import AdaSyntax.Proofs.Discipline.Expression
import AdaSyntax.Proofs.Discipline.Type
import AdaSyntax.Proofs.Discipline.Declaration
import AdaSyntax.Proofs.Discipline.Statement
import AdaSyntax.Proofs.Discipline.Production
import AdaSyntax.Proofs.Discipline.Adequacy
import AdaSyntax.Proofs.Discipline.Budget
import AdaSyntax.Proofs.Compilation
import AdaSyntax.Proofs.References
import AdaSyntax.Proofs.Marks
import AdaSyntax.Proofs.Exits
import AdaSyntax.Proofs.Progress
import AdaSyntax.Proofs.Depth
import AdaSyntax.Proofs.Discipline.Intact
import AdaSyntax.Proofs.Discipline.Safety
import AdaSyntax.Proofs.Discipline.Survival
import AdaSyntax.Proofs.Discipline.Throughout
import AdaSyntax.Proofs.Integrity
import AdaSyntax.Proofs.DepthLimit
import AdaSyntax.Proofs.Parser.Unplaced
import AdaSyntax.Proofs.Layout
import AdaSyntax.Proofs.Parser.Finds
import AdaSyntax.Proofs.Grammar.Unit
import AdaSyntax.Proofs.Grammar.ContextClause
import AdaSyntax.Proofs.Library
import AdaSyntax.Proofs.Token.ReservedWord
import AdaSyntax.Proofs.Token.Lexeme
import AdaSyntax.Proofs.Token.Word
import AdaSyntax.Proofs.Token.Restart
import AdaSyntax.Proofs.Token.Lossless
import AdaSyntax.Proofs.Token.Beside
import AdaSyntax.Proofs.Sight.Basic
import AdaSyntax.Proofs.Sight.Vocabulary
import AdaSyntax.Proofs.Sight.Expression
import AdaSyntax.Proofs.Sight.Declaration
import AdaSyntax.Proofs.Sight.Production
import AdaSyntax.Proofs.Parser.Tandem
import AdaSyntax.Proofs.Parser.Twin
import AdaSyntax.Proofs.Warnings
import AdaSyntax.Proofs.Barrier
import AdaSyntax.Proofs.Sight.Seal
import AdaSyntax.Proofs.Boundary
import AdaSyntax.Proofs.Parser.Upcoming
import AdaSyntax.Proofs.Parser.Succeeds
import AdaSyntax.Proofs.Parser.Spells
import AdaSyntax.Proofs.Formula.Basic
import AdaSyntax.Proofs.Formula.Tokens
import AdaSyntax.Proofs.Formula.Parse
import AdaSyntax.Proofs.Formula.Relation
import AdaSyntax.Proofs.Formula.Primary
import AdaSyntax.Proofs.Formula.Echo
import AdaSyntax.Proofs.Formula.Retrace
import AdaSyntax.Proofs.Formula.Operators
import AdaSyntax.Proofs.Formula.Inversion
import AdaSyntax.Proofs.Lookahead
import AdaSyntax.Proofs.Parser.Balance
import AdaSyntax.Proofs.Group
import AdaSyntax.Proofs.Scope.WellFormed
import AdaSyntax.Proofs.Scope.Publication
import AdaSyntax.Proofs.Scope.Contents
import AdaSyntax.Proofs.Scope.Places
import AdaSyntax.Proofs.Scope.Stack
import AdaSyntax.Proofs.Scope.Visibility
import AdaSyntax.Proofs.Scope.Interior
import AdaSyntax.Proofs.Scope.Views
import AdaSyntax.Proofs.Scope.Secrecy
import AdaSyntax.Proofs.Moment.Basic
import AdaSyntax.Proofs.Moment.Vocabulary
import AdaSyntax.Proofs.Moment.Expression
import AdaSyntax.Proofs.Moment.Declaration
import AdaSyntax.Proofs.Moment.Unit
import AdaSyntax.Proofs.Moment.Compilation
import AdaSyntax.Proofs.Synonym
import AdaSyntax.Proofs.Specification
import AdaSyntax.Proofs.WithClause
import AdaSyntax.Proofs.RecoveredList
import AdaSyntax.Proofs.FurthestMismatch
import AdaSyntax.Proofs.Completion
import AdaSyntax.Proofs.LineIndex
import AdaSyntax.Proofs.Parser.Restore
import AdaSyntax.Proofs.Name
import AdaSyntax.Proofs.Token.Line
import AdaSyntax.Proofs.Copied.Basic
import AdaSyntax.Proofs.Copied.Run
import AdaSyntax.Proofs.Copied.Expression
import AdaSyntax.Proofs.Copied.Production
import AdaSyntax.Proofs.Tree.Printing
import AdaSyntax.Proofs.Printing
