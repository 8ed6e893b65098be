import Scriptlet.Error
import Scriptlet.Text.Utf8

/-!
# Scanning

A text becomes a list of tokens that ends with the end of the input. A piece that is no
token gives an error in its place, and scanning goes on after it, so that a reader of the
list decides how much an error spoils.

* `skipGap` passes over white space and comments;
* `scanToken` reads the token that begins with a character;
* `scanNext` does one after the other, and `scanAll` repeats it to the end.
-/

namespace Scriptlet
namespace Scan

/-! ## White space and comments -/

/-- What `skipGap` is inside of. -/
inductive Layer where
  | blank
  | line
  /-- Before the asterisk that opens a block comment. -/
  | opening (start : Nat)
  /-- Inside a block comment; `star` if the character before was an asterisk. -/
  | block (start : Nat) (star : Bool)
  deriving Repr, DecidableEq

/-- What comes after white space and comments. -/
inductive Gap where
  /-- A character that begins a token, if any does. -/
  | token (newline : Bool) (position : Nat) (char : Char) (rest : List Char)
  /-- The end of the text. -/
  | stop (newline : Bool) (position : Nat)
  /-- The end of the text inside the block comment that begins at `start`. -/
  | unterminated (start : Nat) (position : Nat)
  deriving Repr, DecidableEq

/-- Passes over white space and comments. `newline` tells whether a line break was passed,
`position` is the byte offset of the text. -/
def skipGap : Layer → Bool → Nat → List Char → Gap
  | .blank, newline, position, [] => .stop newline position
  | .line, newline, position, [] => .stop newline position
  | .opening start, _, position, [] => .unterminated start position
  | .block start _, _, position, [] => .unterminated start position
  | .blank, newline, position, char :: rest =>
    if Text.isWhiteSpace char then
      skipGap .blank (newline || char == '\n') (position + char.utf8Size) rest
    else if char == '/' && rest.head? == some '/' then
      skipGap .line newline (position + 1) rest
    else if char == '/' && rest.head? == some '*' then
      skipGap (.opening position) newline (position + 1) rest
    else
      .token newline position char rest
  | .line, newline, position, char :: rest =>
    if char == '\n' then skipGap .blank true (position + 1) rest
    else skipGap .line newline (position + char.utf8Size) rest
  | .opening start, newline, position, _ :: rest =>
    skipGap (.block start false) newline (position + 1) rest
  | .block start star, newline, position, char :: rest =>
    if star && char == '/' then skipGap .blank newline (position + 1) rest
    else
      skipGap (.block start (char == '*')) (newline || char == '\n')
        (position + char.utf8Size) rest

/-! ## Tokens -/

/-- One piece of a text: a token or an error, and the text after it with its byte
offset. -/
structure Scanned where
  item : Except Error Token
  rest : List Char
  position : Nat

/-- Whether an identifier can begin with the character. -/
def beginsWord (char : Char) : Bool :=
  Text.isAlphabetic char || char == '_' || char == '$'

/-- Whether an identifier can go on with the character. -/
def continuesWord (char : Char) : Bool :=
  Text.isAlphanumeric char || char == '_' || char == '$'

/-- A token that is written as `lexeme`, between quotes that take `quotes` bytes. -/
def accept (newline : Bool) (start : Nat) (kind : Kind) (lexeme : List Char) (quotes : Nat)
    (rest : List Char) : Scanned :=
  let stop := start + Text.byteLength lexeme + quotes
  ⟨.ok ⟨kind, String.ofList lexeme, start, stop, newline⟩, rest, stop⟩

/-- An error at `start`; scanning goes on at `rest`, after `consumed`. -/
def refuse (start : Nat) (fault : LexicalFault) (consumed rest : List Char) : Scanned :=
  ⟨.error (.lexical fault start), rest, start + Text.byteLength consumed⟩

/-- Digits, and a point with digits after it. A point without digits is not part of the
number. -/
def splitNumber (text : List Char) : List Char × List Char :=
  let whole := text.takeWhile Text.isDigit
  match text.dropWhile Text.isDigit with
  | '.' :: digit :: rest =>
    if Text.isDigit digit then
      (whole ++ '.' :: (digit :: rest).takeWhile Text.isDigit,
        (digit :: rest).dropWhile Text.isDigit)
    else
      (whole, '.' :: digit :: rest)
  | rest => (whole, rest)

/-- The rest of a string that began with `quote`. It ends at the next such quote, which
must stand on the same line. -/
def scanString (newline : Bool) (start : Nat) (quote : Char) (text : List Char) : Scanned :=
  let inside := fun char => char != quote && char != '\n'
  let body := text.takeWhile inside
  match text.dropWhile inside with
  | [] => refuse start .unterminatedString (quote :: body) []
  | char :: rest =>
    if char == quote then accept newline start .string body 2 rest
    else refuse start .unterminatedString (quote :: body ++ [char]) rest

/-- The rest of a template. It ends at the next backtick. -/
def scanTemplate (newline : Bool) (start : Nat) (text : List Char) : Scanned :=
  let body := text.takeWhile (· != '`')
  match text.dropWhile (· != '`') with
  | [] => refuse start .unterminatedTemplate ('`' :: body) []
  | _ :: rest => accept newline start .template body 2 rest

/-- The longest operator that a text begins with, which is not empty. The tree has each
operator under its spelling. A text that no operator begins with is refused up to where it
stops being the beginning of one. -/
def scanOperator {α : Type} (trie : Text.Trie α) (spelling : α → String) (kind : α → Kind)
    (newline : Bool) (start : Nat) (char : Char) (text : List Char) : Scanned :=
  match trie.longest? (char :: text) with
  | some (operator, rest) =>
    accept newline start (kind operator) (spelling operator).toList 0 rest
  | none =>
    match trie.walk (char :: text) with
    | ([], _) => refuse start (.unrecognizedCharacter char) [char] text
    | (walked, rest) =>
      refuse start (.incompleteOperator (String.ofList walked)) walked rest

/-- The longest symbol that a text begins with. -/
def scanSymbol (newline : Bool) (start : Nat) (char : Char) (text : List Char) : Scanned :=
  scanOperator Symbol.trie Symbol.spelling .symbol newline start char text

/-- The token that begins with `char`. -/
def scanToken (newline : Bool) (start : Nat) (char : Char) (text : List Char) : Scanned :=
  if beginsWord char then
    let word := char :: text.takeWhile continuesWord
    accept newline start (.ofWord (String.ofList word)) word 0 (text.dropWhile continuesWord)
  else if Text.isDigit char then
    let (number, rest) := splitNumber (char :: text)
    accept newline start .number number 0 rest
  else if char == '"' || char == '\'' then
    scanString newline start char text
  else if char == '`' then
    scanTemplate newline start text
  else
    scanSymbol newline start char text

/-! ## Whole texts -/

/-- The next piece of a text that begins at byte offset `position`. -/
def scanNext (position : Nat) (text : List Char) : Scanned :=
  match skipGap .blank false position text with
  | .stop newline stop => ⟨.ok (.endAt stop newline), [], stop⟩
  | .unterminated start stop => ⟨.error (.lexical .unterminatedComment start), [], stop⟩
  | .token newline start char rest => scanToken newline start char rest

/-- Whether a piece is the end of the input. -/
def isEnd : Except Error Token → Bool
  | .ok token => token.kind == .eof
  | .error _ => false

/-- The pieces of a text, at most `count` of them, up to the end of the input. -/
def scanUpTo : Nat → Nat → List Char → List (Except Error Token)
  | 0, _, _ => []
  | count + 1, position, text =>
    let scanned := scanNext position text
    if isEnd scanned.item then [scanned.item]
    else scanned.item :: scanUpTo count scanned.position scanned.rest

/-- The pieces of a text whose first character is at byte offset `base`. Each but the end
takes up a character. -/
def scanAll (base : Nat) (text : List Char) : List (Except Error Token) :=
  scanUpTo (text.length + 1) base text

/-- The tokens before the first error, and that error. -/
def untilError : List (Except Error Token) → List Token × Option Error
  | [] => ([], none)
  | .error error :: _ => ([], some error)
  | .ok token :: rest =>
    let (tokens, error) := untilError rest
    (token :: tokens, error)

end Scan
end Scriptlet
