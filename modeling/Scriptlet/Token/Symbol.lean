import Scriptlet.Text.Trie

/-!
# Operators and punctuation

The symbols of the language and the table that they are scanned with.
-/

namespace Scriptlet

/-- An operator or a punctuation mark. -/
inductive Symbol where
  | openBracket
  | closeBracket
  | openParen
  | closeParen
  | openBrace
  | closeBrace
  | semicolon
  | comma
  | colon
  | hash
  | tilde
  | dot
  | ellipsis
  | question
  | questionDot
  | questionQuestion
  | questionQuestionEquals
  | equals
  | equalsEquals
  | equalsEqualsEquals
  | arrow
  | plus
  | plusPlus
  | plusEquals
  | minus
  | minusMinus
  | minusEquals
  | bang
  | bangEquals
  | bangEqualsEquals
  | asterisk
  | asteriskEquals
  | asteriskAsterisk
  | asteriskAsteriskEquals
  | slash
  | slashEquals
  | percent
  | percentEquals
  | greaterThan
  | greaterThanEquals
  | shiftRight
  | shiftRightEquals
  | unsignedShiftRight
  | unsignedShiftRightEquals
  | lessThan
  | lessThanEquals
  | shiftLeft
  | shiftLeftEquals
  | ampersand
  | ampersandAmpersand
  | ampersandEquals
  | caret
  | caretEquals
  | pipe
  | pipePipe
  | pipeEquals
  deriving Repr, DecidableEq

namespace Symbol

/-- Every symbol. -/
def all : List Symbol :=
  [.openBracket, .closeBracket, .openParen, .closeParen, .openBrace, .closeBrace,
   .semicolon, .comma, .colon, .hash, .tilde, .dot, .ellipsis, .question, .questionDot,
   .questionQuestion, .questionQuestionEquals, .equals, .equalsEquals,
   .equalsEqualsEquals, .arrow, .plus, .plusPlus, .plusEquals, .minus, .minusMinus,
   .minusEquals, .bang, .bangEquals, .bangEqualsEquals, .asterisk, .asteriskEquals,
   .asteriskAsterisk, .asteriskAsteriskEquals, .slash, .slashEquals, .percent,
   .percentEquals, .greaterThan, .greaterThanEquals, .shiftRight, .shiftRightEquals,
   .unsignedShiftRight, .unsignedShiftRightEquals, .lessThan, .lessThanEquals,
   .shiftLeft, .shiftLeftEquals, .ampersand, .ampersandAmpersand, .ampersandEquals,
   .caret, .caretEquals, .pipe, .pipePipe, .pipeEquals]

/-- How the symbol is written. -/
def spelling : Symbol → String
  | .openBracket => "["
  | .closeBracket => "]"
  | .openParen => "("
  | .closeParen => ")"
  | .openBrace => "\x7b"
  | .closeBrace => "\x7d"
  | .semicolon => ";"
  | .comma => ","
  | .colon => ":"
  | .hash => "#"
  | .tilde => "~"
  | .dot => "."
  | .ellipsis => "..."
  | .question => "?"
  | .questionDot => "?."
  | .questionQuestion => "??"
  | .questionQuestionEquals => "??="
  | .equals => "="
  | .equalsEquals => "=="
  | .equalsEqualsEquals => "==="
  | .arrow => "=>"
  | .plus => "+"
  | .plusPlus => "++"
  | .plusEquals => "+="
  | .minus => "-"
  | .minusMinus => "--"
  | .minusEquals => "-="
  | .bang => "!"
  | .bangEquals => "!="
  | .bangEqualsEquals => "!=="
  | .asterisk => "*"
  | .asteriskEquals => "*="
  | .asteriskAsterisk => "**"
  | .asteriskAsteriskEquals => "**="
  | .slash => "/"
  | .slashEquals => "/="
  | .percent => "%"
  | .percentEquals => "%="
  | .greaterThan => ">"
  | .greaterThanEquals => ">="
  | .shiftRight => ">>"
  | .shiftRightEquals => ">>="
  | .unsignedShiftRight => ">>>"
  | .unsignedShiftRightEquals => ">>>="
  | .lessThan => "<"
  | .lessThanEquals => "<="
  | .shiftLeft => "<<"
  | .shiftLeftEquals => "<<="
  | .ampersand => "&"
  | .ampersandAmpersand => "&&"
  | .ampersandEquals => "&="
  | .caret => "^"
  | .caretEquals => "^="
  | .pipe => "|"
  | .pipePipe => "||"
  | .pipeEquals => "|="

/-- Every symbol with its spelling. -/
def table : List (String × Symbol) :=
  all.map fun symbol => (symbol.spelling, symbol)

/-- The spellings of all symbols. -/
def trie : Text.Trie Symbol :=
  .ofTable table

end Symbol
end Scriptlet
