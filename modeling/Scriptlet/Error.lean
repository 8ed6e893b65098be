import Scriptlet.Text.Quoted
import Scriptlet.Token

/-!
# Errors

Every way in which a script can fail, as a cause, and the wording of each cause.
-/

namespace Scriptlet

/-- Why a text is no sequence of tokens. -/
inductive LexicalFault where
  | unterminatedString
  | unterminatedTemplate
  | unterminatedComment
  | unrecognizedCharacter (char : Char)
  | incompleteOperator (text : String)
  | invalidNumber
  deriving Repr, DecidableEq

/-- What the grammar asks for at a token. -/
inductive Expected where
  | token (kind : Kind)
  | word (text : String)
  | expression
  | literal
  | binaryOperator
  | access
  | assignmentTarget
  | propertyName
  | switchClause
  | catchOrFinally
  deriving Repr, DecidableEq

/-- What the language knows but does not carry out. -/
inductive Feature where
  | regularExpressions
  | newExpressions
  | instanceofOperator
  | awaitExpressions
  | generatorFunctions
  | importDeclaration
  | exportDeclaration
  | doWhileStatement
  | whileStatement
  | forStatement
  | forInStatement
  | forOfStatement
  | continueStatement
  | breakStatement
  | withStatement
  | labelledStatement
  | throwStatement
  | switchStatement
  | yieldStatement
  | tryStatement
  | debuggerStatement
  deriving Repr, DecidableEq

/-- Why a value does not fit. Types are named as in `Value.typeName`. -/
inductive TypeFault where
  | notNumeric (type : String)
  | cannotRead (type key : String)
  | cannotSet (type key : String)
  | cannotDelete (type key : String)
  | cannotSearch (type key : String)
  | notFunction (callee type : String)
  | notIterable (type : String)
  | spreadTooLong (length : Nat)
  | invalidTarget (expression : String)
  | unnamedDeclaration
  deriving Repr, DecidableEq

/-- Why a script cannot be run or stopped running. -/
inductive Error where
  | lexical (fault : LexicalFault) (position : Nat)
  | unexpected (expected : Expected) (found : String) (position : Nat)
  | unbound (name : String)
  | type (fault : TypeFault)
  | unimplemented (feature : Feature)
  | tooDeep (limit : Nat)
  | output (reason : String)
  | overflow
  deriving Repr, DecidableEq

/-! ## Wording -/

def LexicalFault.message : LexicalFault → String
  | .unterminatedString => "unterminated string literal"
  | .unterminatedTemplate => "unterminated template literal"
  | .unterminatedComment => "unterminated block comment"
  | .unrecognizedCharacter char => "unrecognized character " ++ Text.quotedChar char
  | .incompleteOperator text => "incomplete operator " ++ Text.quoted text
  | .invalidNumber => "invalid number literal"

def Expected.message : Expected → String
  | .token kind => kind.description
  | .word text => "'" ++ text ++ "'"
  | .expression => "expression"
  | .literal => "literal"
  | .binaryOperator => "binary operator"
  | .access => "'(', '.' or '['"
  | .assignmentTarget => "assignment target"
  | .propertyName => "property name"
  | .switchClause => "'case', 'default' or '\x7d'"
  | .catchOrFinally => "'catch' or 'finally'"

def Feature.message : Feature → String
  | .regularExpressions => "regular expression literals"
  | .newExpressions => "new expressions"
  | .instanceofOperator => "instanceof operator"
  | .awaitExpressions => "await expressions"
  | .generatorFunctions => "generator functions"
  | .importDeclaration => "import declaration"
  | .exportDeclaration => "export declaration"
  | .doWhileStatement => "do-while statement"
  | .whileStatement => "while statement"
  | .forStatement => "for statement"
  | .forInStatement => "for-in statement"
  | .forOfStatement => "for-of statement"
  | .continueStatement => "continue statement"
  | .breakStatement => "break statement"
  | .withStatement => "with statement"
  | .labelledStatement => "labelled statement"
  | .throwStatement => "throw statement"
  | .switchStatement => "switch statement"
  | .yieldStatement => "yield statement"
  | .tryStatement => "try statement"
  | .debuggerStatement => "debugger statement"

def TypeFault.message : TypeFault → String
  | .notNumeric type => "cannot convert " ++ type ++ " to number"
  | .cannotRead type key =>
    "cannot read properties of " ++ type ++ " (reading '" ++ key ++ "')"
  | .cannotSet type key =>
    "cannot set properties of " ++ type ++ " (setting '" ++ key ++ "')"
  | .cannotDelete type key =>
    "cannot delete properties of " ++ type ++ " (deleting '" ++ key ++ "')"
  | .cannotSearch type key =>
    "cannot use 'in' operator to search for '" ++ key ++ "' in " ++ type
  | .notFunction callee type => callee ++ " is not a function (found " ++ type ++ ")"
  | .notIterable type => type ++ " is not iterable"
  | .spreadTooLong length => "cannot spread an array of length " ++ toString length
  | .invalidTarget expression => "invalid assignment target " ++ expression
  | .unnamedDeclaration => "function declaration without name"

namespace Error

/-- The byte offset of an error that was found before anything ran. -/
def position? : Error → Option Nat
  | .lexical _ position => some position
  | .unexpected _ _ position => some position
  | _ => none

/-- Whether an error says that the tree itself is malformed. -/
def isInternal : Error → Bool
  | .type (.invalidTarget _) | .type .unnamedDeclaration => true
  | _ => false

/-- Whether an error can arise while a well-formed tree is evaluated. -/
structure Arises (error : Error) : Prop where
  position : error.position? = none
  wellFormed : error.isInternal = false

/-- The text of an error. -/
def message : Error → String
  | .lexical fault position =>
    "lexical error: " ++ fault.message ++ " at position " ++ toString position
  | .unexpected expected found position =>
    "syntax error: expected " ++ expected.message ++ ", found " ++ found ++
      " at position " ++ toString position
  | .unbound name => "reference error: " ++ name ++ " is not defined"
  | .type fault => "type error: " ++ fault.message
  | .unimplemented feature => "not implemented: " ++ feature.message
  | .tooDeep limit => "maximum depth of " ++ toString limit ++ " exceeded"
  | .output reason => "output error: " ++ reason
  | .overflow => "attempt to add with overflow"

end Error
end Scriptlet
