import SolarFront.Check.Conversion
import SolarFront.Check.Decl
import SolarFront.Check.Expr
import SolarFront.Check.Layout
import SolarFront.Check.Module
import SolarFront.Check.Operation
import SolarFront.Check.Place
import SolarFront.Check.State
import SolarFront.Check.Stmt
import SolarFront.Compilation
import SolarFront.Diagnostic.Basic
import SolarFront.Diagnostic.Code
import SolarFront.Diagnostic.Queue
import SolarFront.Report.Compile
import SolarFront.Report.Diagnostic
import SolarFront.Report.Parse
import SolarFront.Report.Scope
import SolarFront.Report.Token
import SolarFront.Report.Tree
import SolarFront.Report.Value
import SolarFront.Syntax.Operator
import SolarFront.Syntax.Parse.Basic
import SolarFront.Syntax.Parse.Grammar
import SolarFront.Syntax.Parse.Module
import SolarFront.Syntax.Token
import SolarFront.Syntax.Token.Error
import SolarFront.Syntax.Token.Escape
import SolarFront.Syntax.Token.Lex
import SolarFront.Syntax.Token.Number
import SolarFront.Syntax.Token.Scan
import SolarFront.Syntax.Tree
import SolarFront.Text.LineTable
import SolarFront.Text.Span
import SolarFront.Text.Unicode
import SolarFront.Typing.Equivalence
import SolarFront.Typing.Labels
import SolarFront.Typing.Layout
import SolarFront.Typing.Scope
import SolarFront.Typing.Type
import SolarFront.Word.Fold
import SolarFront.Word.Width
import SolarFront.Proofs.Check.Growth
import SolarFront.Proofs.Check.LayoutSound
import SolarFront.Proofs.Check.Sound
import SolarFront.Proofs.Check.LayoutEngine
import SolarFront.Proofs.Check.Rules
import SolarFront.Proofs.Check.Typing
import SolarFront.Proofs.Check.Passes
import SolarFront.Proofs.Check.Folding
import SolarFront.Proofs.Check.Jumps
import SolarFront.Proofs.Check.Suppression
import SolarFront.Proofs.Typing.Interning
import SolarFront.Proofs.Syntax.Subexprs
import SolarFront.Proofs.Check.FoldFrame
import SolarFront.Proofs.Check.FoldRules
import SolarFront.Proofs.Check.FoldSteps
import SolarFront.Proofs.Check.FoldTypes
import SolarFront.Proofs.Check.FoldExprs
import SolarFront.Proofs.Check.FoldDecls
import SolarFront.Proofs.Check.FoldStmts
import SolarFront.Proofs.Check.FoldPasses
import SolarFront.Proofs.Typing.Bisimulation
import SolarFront.Proofs.Typing.ScopeRuns
import SolarFront.Proofs.Syntax.Run
import SolarFront.Proofs.Syntax.Derivation
import SolarFront.Proofs.Syntax.LexSpans
import SolarFront.Proofs.Diagnostic.Collect
import SolarFront.Proofs.Syntax.Progress
import SolarFront.Proofs.Syntax.Fuel
import SolarFront.Proofs.Syntax.FuelExpr
import SolarFront.Proofs.Syntax.FuelStmt
import SolarFront.Proofs.Syntax.Termination
import SolarFront.Proofs.Syntax.Size
import SolarFront.Proofs.Check.BudgetFrame
import SolarFront.Proofs.Check.BudgetTyping
import SolarFront.Proofs.Check.BudgetPasses
import SolarFront.Proofs.Syntax.Numbering
import SolarFront.Proofs.Word.TwosComplement
import SolarFront.Proofs.Typing.Redeclaration
import SolarFront.Proofs.Syntax.EscapeGrammar
import SolarFront.Proofs.Typing.Packing
import SolarFront.Proofs.Syntax.SpanTree
import SolarFront.Proofs.Syntax.SpanRuns
import SolarFront.Proofs.Syntax.SpanExprs
import SolarFront.Proofs.Syntax.SpanStmts
import SolarFront.Proofs.Syntax.ParsedSpans
import SolarFront.Proofs.Syntax.IntLiterals
import SolarFront.Proofs.Check.SizeofStars
import SolarFront.Proofs.Check.FitFrame
import SolarFront.Proofs.Check.Initializers
import SolarFront.Proofs.Text.LineColumns
import SolarFront.Proofs.Syntax.Descriptions
import SolarFront.Proofs.Check.Members
import SolarFront.Proofs.Check.MembersPasses
import SolarFront.Proofs.Syntax.NestingDepth
import SolarFront.Proofs.Typing.Spelling
import SolarFront.Proofs.Typing.SpellingParse
