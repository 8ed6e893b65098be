import Scriptlet.Token.Keyword
import Scriptlet.Token.Symbol

/-!
# Tokens

A token has a kind, a text and a span of bytes. The kind alone decides what can begin at
the token.
-/

namespace Scriptlet

/-- What a token is. -/
inductive Kind where
  | number
  | string
  | boolean
  | null
  | template
  | identifier
  | keyword (word : Keyword)
  | symbol (mark : Symbol)
  | eof
  deriving Repr, DecidableEq

namespace Kind

/-- The kind of a word that is no plain identifier. -/
def reserved? (word : String) : Option Kind :=
  if word == "true" || word == "false" then some .boolean
  else if word == "null" then some .null
  else (Keyword.ofSpelling? word).map .keyword

/-- The kind of a word. -/
def ofWord (word : String) : Kind :=
  (reserved? word).getD .identifier

/-- The text of a token that is always written the same way. -/
def spelling? : Kind → Option String
  | .keyword word => some word.spelling
  | .symbol mark => some mark.spelling
  | _ => none

/-- The kind in an error message. -/
def description : Kind → String
  | .number => "number literal"
  | .string => "string literal"
  | .boolean => "boolean literal"
  | .null => "null"
  | .template => "template literal"
  | .identifier => "identifier"
  | .keyword word => "'" ++ word.spelling ++ "'"
  | .symbol mark => "'" ++ mark.spelling ++ "'"
  | .eof => "end of input"

/-- Whether the token is written like an identifier, so that it can name a property. -/
def isWord : Kind → Bool
  | .identifier | .boolean | .null | .keyword _ => true
  | _ => false

/-- Whether an expression can begin with the token. -/
def beginsExpr : Kind → Bool
  | .number | .string | .boolean | .null | .template | .identifier => true
  | .keyword .function | .keyword .new | .keyword .delete | .keyword .void
  | .keyword .typeof | .keyword .await | .keyword .this => true
  | .symbol .plusPlus | .symbol .minusMinus | .symbol .plus | .symbol .minus
  | .symbol .tilde | .symbol .bang | .symbol .openParen | .symbol .openBracket
  | .symbol .openBrace => true
  | _ => false

/-- Whether a statement can begin with the token. -/
def beginsStmt (kind : Kind) : Bool :=
  kind.beginsExpr ||
    match kind with
    | .keyword .var | .keyword .let_ | .keyword .const | .keyword .import_
    | .keyword .export_ | .keyword .if_ | .keyword .do_ | .keyword .while_
    | .keyword .for_ | .keyword .continue_ | .keyword .break_ | .keyword .return_
    | .keyword .yield | .keyword .with_ | .keyword .switch | .keyword .throw
    | .keyword .try_ | .keyword .debugger | .symbol .semicolon => true
    | _ => false

end Kind

/-- A piece of a script. -/
structure Token where
  kind : Kind
  /-- The text of the token, for strings and templates without their quotes. -/
  lexeme : String
  /-- Byte offset of the first character. -/
  start : Nat
  /-- Byte offset after the last character. -/
  stop : Nat
  /-- Whether a line break stands between the token and the one before it. -/
  newlineBefore : Bool
  deriving Repr, DecidableEq

/-- The token in an error message. -/
def Token.description (token : Token) : String :=
  match token.kind with
  | .eof => "end of input"
  | .string => "string \"" ++ token.lexeme ++ "\""
  | .template => "template literal"
  | _ => "'" ++ token.lexeme ++ "'"

/-- The end of the input at a byte offset. -/
def Token.endAt (offset : Nat) (newlineBefore : Bool) : Token :=
  ⟨.eof, "", offset, offset, newlineBefore⟩

end Scriptlet
