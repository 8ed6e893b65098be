import Scriptlet.Expr
import Scriptlet.Grammar.State

/-!
# Templates

The text of a template is split at its spans. A span begins with a dollar sign and an
opening brace and ends at the next closing brace, whatever stands between them.
-/

namespace Scriptlet
namespace Grammar

/-- The text before the first span and the text after its opening brace. -/
def splitOpening : List Char → Option (List Char × List Char)
  | [] => none
  | char :: rest =>
    if char = '$' && rest.head? = some '\x7b' then some ([], rest.tail)
    else (splitOpening rest).map fun (before, after) => (char :: before, after)

/-- The plain text up to the first span, and the spans of a text that begins at byte
offset `position`. `expr` reads the source of a span; at most `count` spans are read. -/
def readSpans (expr : Nat → List Char → Except Error Expr) :
    Nat → Nat → List Char → Except Error (List Char × List Span)
  | 0, _, text => .ok (text, [])
  | count + 1, position, text =>
    match splitOpening text with
    | none => .ok (text, [])
    | some (before, after) =>
      let start := position + Text.byteLength before + 2
      let source := after.takeWhile (· != '\x7d')
      let stop := start + Text.byteLength source
      match after.dropWhile (· != '\x7d') with
      | [] =>
        .error (.unexpected (.token (.symbol .closeBrace)) "end of template literal"
          (position + Text.byteLength text))
      | _ :: rest =>
        if source.all Text.isWhiteSpace then
          .error (.unexpected .expression "'\x7d'" stop)
        else
          match expr start source with
          | .error error => .error error
          | .ok value =>
            match readSpans expr count (stop + 1) rest with
            | .error error => .error error
            | .ok (next, spans) =>
              .ok (before, ⟨String.ofList source, value, String.ofList next⟩ :: spans)

/-- The expression of a template token. Each span takes up a character, and the text
begins after a backtick. -/
def template (expr : Nat → List Char → Except Error Expr) (token : Token) :
    Except Error Expr :=
  let text := token.lexeme.toList
  match readSpans expr text.length (token.start + 1) text with
  | .error error => .error error
  | .ok (head, spans) => .ok (.template (String.ofList head) spans)

end Grammar
end Scriptlet
