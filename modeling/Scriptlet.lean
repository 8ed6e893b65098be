import Scriptlet.Engine
import Scriptlet.Error
import Scriptlet.Eval.Expr
import Scriptlet.Eval.Machine
import Scriptlet.Eval.Operator
import Scriptlet.Eval.Sink
import Scriptlet.Eval.Stmt
import Scriptlet.Expr
import Scriptlet.Expr.Display
import Scriptlet.Expr.Operator
import Scriptlet.Grammar.Access
import Scriptlet.Grammar.Inner
import Scriptlet.Grammar.Nesting
import Scriptlet.Grammar.Operand
import Scriptlet.Grammar.Operation
import Scriptlet.Grammar.State
import Scriptlet.Grammar.Statement
import Scriptlet.Grammar.Template
import Scriptlet.Host
import Scriptlet.Main
import Scriptlet.Number.Arithmetic
import Scriptlet.Number.Binary64
import Scriptlet.Number.Decimal
import Scriptlet.Number.Digits
import Scriptlet.Number.Format
import Scriptlet.Number.Shortest
import Scriptlet.Object
import Scriptlet.Object.Dict
import Scriptlet.Object.Key
import Scriptlet.Object.Sparse
import Scriptlet.Proofs.Discipline
import Scriptlet.Proofs.Discipline.Evaluation
import Scriptlet.Proofs.Discipline.Tracking
import Scriptlet.Proofs.Footing
import Scriptlet.Proofs.Grouping
import Scriptlet.Proofs.Nodes
import Scriptlet.Proofs.Positions
import Scriptlet.Proofs.Precedence
import Scriptlet.Proofs.Precedence.Completeness
import Scriptlet.Proofs.Precedence.Soundness
import Scriptlet.Proofs.Recursion
import Scriptlet.Proofs.Simulation
import Scriptlet.Proofs.Simulation.Expressions
import Scriptlet.Proofs.Simulation.Statements
import Scriptlet.Proofs.Simulation.Templates
import Scriptlet.Proofs.Simulation.Texts
import Scriptlet.Proofs.Soundness
import Scriptlet.Proofs.Spelling
import Scriptlet.Proofs.Termination
import Scriptlet.Proofs.TokenRun
import Scriptlet.Proofs.WellFormed
import Scriptlet.Report
import Scriptlet.Store
import Scriptlet.Store.Display
import Scriptlet.Store.Equality
import Scriptlet.Store.Property
import Scriptlet.Store.Reference
import Scriptlet.Store.Scope
import Scriptlet.Text.Class
import Scriptlet.Text.Class.Alphabetic
import Scriptlet.Text.Class.Extender
import Scriptlet.Text.Class.Numeric
import Scriptlet.Text.Class.Unprintable
import Scriptlet.Text.Cursor
import Scriptlet.Text.Position
import Scriptlet.Text.Quoted
import Scriptlet.Text.Ranges
import Scriptlet.Text.Trie
import Scriptlet.Text.Utf8
import Scriptlet.Token
import Scriptlet.Token.Keyword
import Scriptlet.Token.Scan
import Scriptlet.Token.Symbol
import Scriptlet.Value
import Scriptlet.Proofs.Canonical
import Scriptlet.Proofs.Story
import Scriptlet.Proofs.CallLimit
import Scriptlet.Proofs.Refusal
import Scriptlet.Proofs.Reachability
import Scriptlet.Proofs.Watch
import Scriptlet.Proofs.History
import Scriptlet.Proofs.Offsets
import Scriptlet.Proofs.Spacing
import Scriptlet.Proofs.Tiling
import Scriptlet.Proofs.Keys
import Scriptlet.Proofs.Layout
import Scriptlet.Proofs.Joining
import Scriptlet.Proofs.Joining.Expressions
import Scriptlet.Proofs.Joining.Statements
import Scriptlet.Proofs.Concatenation
import Scriptlet.Proofs.Equality
import Scriptlet.Proofs.Chaining
import Scriptlet.Proofs.Resolution
import Scriptlet.Proofs.Scopes
import Scriptlet.Proofs.CompoundAssignment
import Scriptlet.Proofs.Rendering
import Scriptlet.Proofs.Recoding
import Scriptlet.Proofs.Parentheses
import Scriptlet.Proofs.Parentheses.Evaluation
import Scriptlet.Proofs.OrderedMap
import Scriptlet.Proofs.Handles
import Scriptlet.Proofs.NearestBinding
import Scriptlet.Proofs.CallDepth
import Scriptlet.Proofs.Course
import Scriptlet.Proofs.Course.Expressions
import Scriptlet.Proofs.Course.Statements
import Scriptlet.Proofs.Unrolling
import Scriptlet.Proofs.Spans
import Scriptlet.Proofs.Guard
import Scriptlet.Proofs.Balance
import Scriptlet.Proofs.SpanNesting
import Scriptlet.Proofs.Progress
import Scriptlet.Proofs.TemplateText
import Scriptlet.Proofs.Attachment
import Scriptlet.Proofs.Attachment.Expressions
import Scriptlet.Proofs.Attachment.Statements
import Scriptlet.Proofs.Attachment.Readers
import Scriptlet.Proofs.Holes
import Scriptlet.Proofs.Literals
import Scriptlet.Proofs.Literals.Arrays
import Scriptlet.Proofs.Literals.Objects
import Scriptlet.Proofs.Numbers.Rounding
import Scriptlet.Proofs.Numbers.Values
import Scriptlet.Proofs.Numbers.Exact
import Scriptlet.Proofs.Numbers.Texts
import Scriptlet.Proofs.Numbers.Shortest
import Scriptlet.Proofs.NumberKeys
import Scriptlet.Proofs.NumberTexts
import Scriptlet.Proofs.Words
import Scriptlet.Proofs.LongestMatch
import Scriptlet.Proofs.CursorZipper
import Scriptlet.Proofs.OperatorCursor
import Scriptlet.Proofs.LineColumn
