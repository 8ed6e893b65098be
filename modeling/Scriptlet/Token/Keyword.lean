/-!
# Keywords

The reserved words of the language. The words `true`, `false` and `null` are literals and
not among them; `of`, `as` and `from` are plain identifiers.
-/

namespace Scriptlet

/-- A reserved word. -/
inductive Keyword where
  | await
  | break_
  | case
  | catch_
  | class_
  | const
  | continue_
  | debugger
  | default
  | delete
  | do_
  | else_
  | enum
  | export_
  | extends_
  | finally_
  | for_
  | function
  | if_
  | import_
  | in_
  | instanceof
  | let_
  | new
  | return_
  | super
  | switch
  | this
  | throw
  | try_
  | typeof
  | var
  | void
  | while_
  | with_
  | yield
  deriving Repr, DecidableEq

namespace Keyword

/-- Every reserved word. -/
def all : List Keyword :=
  [.await, .break_, .case, .catch_, .class_, .const, .continue_, .debugger, .default,
   .delete, .do_, .else_, .enum, .export_, .extends_, .finally_, .for_, .function, .if_,
   .import_, .in_, .instanceof, .let_, .new, .return_, .super, .switch, .this, .throw,
   .try_, .typeof, .var, .void, .while_, .with_, .yield]

/-- How the word is written. -/
def spelling : Keyword → String
  | .await => "await"
  | .break_ => "break"
  | .case => "case"
  | .catch_ => "catch"
  | .class_ => "class"
  | .const => "const"
  | .continue_ => "continue"
  | .debugger => "debugger"
  | .default => "default"
  | .delete => "delete"
  | .do_ => "do"
  | .else_ => "else"
  | .enum => "enum"
  | .export_ => "export"
  | .extends_ => "extends"
  | .finally_ => "finally"
  | .for_ => "for"
  | .function => "function"
  | .if_ => "if"
  | .import_ => "import"
  | .in_ => "in"
  | .instanceof => "instanceof"
  | .let_ => "let"
  | .new => "new"
  | .return_ => "return"
  | .super => "super"
  | .switch => "switch"
  | .this => "this"
  | .throw => "throw"
  | .try_ => "try"
  | .typeof => "typeof"
  | .var => "var"
  | .void => "void"
  | .while_ => "while"
  | .with_ => "with"
  | .yield => "yield"

/-- The reserved word that is written like this. -/
def ofSpelling? (text : String) : Option Keyword :=
  all.find? (·.spelling == text)

end Keyword
end Scriptlet
