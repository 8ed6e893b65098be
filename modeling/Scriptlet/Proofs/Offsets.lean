import Scriptlet.Proofs.Lexemes
import Scriptlet.Proofs.Simulation.Texts

/-!
# Texts at other offsets

A text that begins at another byte offset is scanned into the same pieces and read as the
same trees. Only offsets change, and each of them by as much as the beginning of the text.

* `scanAll_shift`: the pieces of a text move with its beginning;
* `shifted_template`: so do the errors inside of templates, whose spans are read as texts
  of their own;
* `reading_shifts`: so do all results of a reader, whatever it starts one after another.
-/

namespace Scriptlet

/-- The token of a text that begins `amount` bytes later. -/
def Token.shift (amount : Nat) (token : Token) : Token :=
  { token with start := token.start + amount, stop := token.stop + amount }

/-- The error of a text that begins `amount` bytes later. -/
def Error.shift (amount : Nat) : Error → Error
  | .lexical fault position => .lexical fault (position + amount)
  | .unexpected expected found position => .unexpected expected found (position + amount)
  | error => error

theorem Error.shift_unimplemented (amount : Nat) (feature : Feature) :
    (Error.unimplemented feature).shift amount = .unimplemented feature :=
  rfl

/-! ## Scanning -/

namespace Scan

/-- The piece of a text that begins `amount` bytes later. -/
def shiftItem (amount : Nat) : Except Error Token → Except Error Token
  | .ok token => .ok (token.shift amount)
  | .error error => .error (error.shift amount)

def Layer.shift (amount : Nat) : Layer → Layer
  | .opening start => .opening (start + amount)
  | .block start star => .block (start + amount) star
  | layer => layer

def Gap.shift (amount : Nat) : Gap → Gap
  | .token newline position char rest => .token newline (position + amount) char rest
  | .stop newline position => .stop newline (position + amount)
  | .unterminated start position => .unterminated (start + amount) (position + amount)

def Scanned.shift (amount : Nat) (scanned : Scanned) : Scanned :=
  ⟨shiftItem amount scanned.item, scanned.rest, scanned.position + amount⟩

theorem skipGap_shift (amount : Nat) (layer : Layer) (newline : Bool) (position : Nat)
    (text : List Char) :
    skipGap (layer.shift amount) newline (position + amount) text =
      (skipGap layer newline position text).shift amount := by
  induction text generalizing layer newline position with
  | nil => cases layer <;> rfl
  | cons char rest ih =>
    have later (size : Nat) : position + amount + size = position + size + amount := by omega
    cases layer with
    | blank =>
      simp only [Layer.shift, skipGap, later]
      split
      · exact ih .blank _ _
      · split
        · exact ih .line _ _
        · split
          · exact ih (.opening position) _ _
          · rfl
    | line =>
      simp only [Layer.shift, skipGap, later]
      split
      · exact ih .blank _ _
      · exact ih .line _ _
    | opening start =>
      simp only [Layer.shift, skipGap, later]
      exact ih (.block start false) _ _
    | block start star =>
      simp only [Layer.shift, skipGap, later]
      split
      · exact ih .blank _ _
      · exact ih (.block start _) _ _

theorem Scanned.token_shift (amount : Nat) (newline : Bool) (start : Nat)
    (written rest : List Char) (kind : Kind) (lexeme : List Char) :
    Scanned.token newline (start + amount) written rest kind lexeme =
      (Scanned.token newline start written rest kind lexeme).shift amount := by
  have stop : start + amount + Text.byteLength written =
      start + Text.byteLength written + amount := by omega
  simp only [Scanned.token, Scanned.shift, shiftItem, Token.shift, stop]

theorem refuse_shift (amount start : Nat) (fault : LexicalFault) (consumed rest : List Char) :
    refuse (start + amount) fault consumed rest =
      (refuse start fault consumed rest).shift amount := by
  have stop : start + amount + Text.byteLength consumed =
      start + Text.byteLength consumed + amount := by omega
  simp only [refuse, Scanned.shift, shiftItem, Error.shift, stop]

theorem scanToken_shift (amount : Nat) (newline : Bool) (start : Nat) (char : Char)
    (text : List Char) :
    scanToken newline (start + amount) char text =
      (scanToken newline start char text).shift amount := by
  rcases lexes_or_stuck char text with ⟨tail, rest, kind, lexeme, rfl, lexes⟩ | stuck
  · have scanned := lexes.scanToken (List.cons_append).symm newline
    rw [scanned, scanned]
    exact Scanned.token_shift ..
  · obtain ⟨fault, consumed, rest, -, refused⟩ := stuck
    rw [refused, refused]
    exact refuse_shift ..

theorem scanNext_shift (amount position : Nat) (text : List Char) :
    scanNext (position + amount) text = (scanNext position text).shift amount := by
  have gap := skipGap_shift amount .blank false position text
  simp only [Layer.shift] at gap
  simp only [scanNext, gap]
  cases skipGap .blank false position text with
  | token newline start char rest => exact scanToken_shift amount newline start char rest
  | stop newline stop => rfl
  | unterminated start stop => rfl

theorem isEnd_shiftItem (amount : Nat) (item : Except Error Token) :
    isEnd (shiftItem amount item) = isEnd item := by
  cases item <;> rfl

theorem scanUpTo_shift (amount count position : Nat) (text : List Char) :
    scanUpTo count (position + amount) text =
      (scanUpTo count position text).map (shiftItem amount) := by
  induction count generalizing position text with
  | zero => rfl
  | succ count ih =>
    rw [scanUpTo, scanUpTo, scanNext_shift]
    simp only [Scanned.shift, isEnd_shiftItem]
    split
    · rfl
    · rw [ih, List.map_cons]

/-- The pieces of a text move with its beginning. -/
theorem scanAll_shift (amount base : Nat) (text : List Char) :
    scanAll (base + amount) text = (scanAll base text).map (shiftItem amount) :=
  scanUpTo_shift amount _ base text

end Scan

/-! ## Reading -/

namespace Grammar

/-- The relation between the parses of a text and those of the same text `amount` bytes
later. -/
def Simulation.shifted (amount : Nat) : Simulation where
  token a b := b = a.shift amount ∧
    (a.kind = .number → (Number.Decimal.read? a.lexeme.toList).isSome)
  error e f := f = e.shift amount
  kind same := (congrArg Token.kind same.1).symm
  lexeme same := (congrArg Token.lexeme same.1).symm
  newlineBefore same := (congrArg Token.newlineBefore same.1).symm
  number same := same.2
  endAt := by
    rintro a _ ⟨rfl, _⟩
    exact ⟨rfl, nofun⟩
  unexpected := by
    rintro a _ expected ⟨rfl, _⟩ _
    rfl
  unimplemented feature := (Error.shift_unimplemented amount feature).symm

/-- The relation between the errors of a text at two offsets that are `amount` apart. -/
def Placing.shifted (amount : Nat) : Placing where
  offsets p q := q = p + amount
  error _ _ _ e f := f = e.shift amount
  later := by
    rintro p _ rfl size
    exact Nat.add_right_comm p amount size
  within related _ := related
  unexpected := by
    rintro p _ expected rfl _ found before _
    simp only [Error.shift, Nat.add_right_comm]

namespace Simulation

/-- The first token of a text, and all that follow, move with its beginning. -/
theorem shifted_starts (amount base : Nat) (text : List Char) :
    Sides (shifted amount).States (shifted amount).error (State.ofText base text)
      (State.ofText (base + amount) text) := by
  refine sides_ofText ?_ ⟨rfl, nofun⟩
  rw [Scan.scanAll_shift]
  refine List.forall₂_map_right_iff.mpr (List.forall₂_same.mpr fun item member => ?_)
  have known := Scan.scanUpTo_from member
  cases item with
  | ok token => exact .ok ⟨rfl, Token.From.number known⟩
  | error error => exact .error rfl

/-- Errors inside of a template move with the template. -/
theorem shifted_template (amount limit : Nat) {a b : Token} (token : (shifted amount).token a b)
    (_ : a.kind = .template) :
    Sides (Agreed Expr.WellFormed) (shifted amount).error (template (spanExpr limit) a)
      (template (spanExpr limit) b) := by
  refine (Placing.shifted amount).sides_template ?_ ((shifted amount).lexeme token) ?_
  · rintro p _ rfl source
    have starts := shifted_starts amount p source
    exact sides_spanExpr rfl starts
  · obtain ⟨rfl, _⟩ := token
    exact Nat.add_right_comm a.start amount 1

end Simulation

/-- What a reader gets who starts parses one after another, each where the one before it
stopped, whether that one succeeded or failed. -/
def Entry.session (limit : Nat) : List Entry → State → List (Except Error Tree)
  | [], _ => []
  | entry :: later, state =>
    match entry.run limit state with
    | .error error after => .error error :: session limit later after
    | .ok tree after => .ok tree :: session limit later after

/-- The results of a reader of a text whose first character is at byte offset `base`; there
are none if the text has no first token. -/
def readings (limit : Nat) (entries : List Entry) (base : Nat) (text : List Char) :
    Except Error (List (Except Error Tree)) :=
  (State.ofText base text).map (Entry.session limit entries)

/-- The results of a reader move with the text. -/
theorem session_shift {amount : Nat} {s t : State} (limit : Nat) (entries : List Entry)
    (states : (Simulation.shifted amount).States s t) :
    Entry.session limit entries t =
      (Entry.session limit entries s).map (Except.mapError (Error.shift amount)) := by
  induction entries generalizing s t with
  | nil => rfl
  | cons entry later ih =>
    have runs : (Simulation.shifted amount).Runs (Agreed Tree.WellFormed) (entry.run limit)
        (entry.run limit) := entry.runs_of rfl (Simulation.shifted_template amount limit)
    have ends := runs s t states trivial
    rw [Entry.session, Entry.session]
    generalize entry.run limit s = left, entry.run limit t = right at ends ⊢
    cases ends with
    | ok related after =>
      obtain ⟨rfl, _⟩ := related
      simp only [List.map_cons, ih after]
      rfl
    | error related after =>
      obtain rfl := related
      simp only [List.map_cons, ih after]
      rfl

/-- A text that begins at offset `base` is scanned into the same tokens and read as the same
trees as one that begins at offset zero. Spans of tokens and positions of errors are larger
by `base`, also inside of templates and in parses that follow a failed one. -/
theorem reading_shifts (base : Nat) (text : List Char) :
    Scan.scanAll base text = (Scan.scanAll 0 text).map (Scan.shiftItem base) ∧
      ∀ (limit : Nat) (entries : List Entry),
        readings limit entries base text =
          ((readings limit entries 0 text).map
            (List.map (Except.mapError (Error.shift base)))).mapError (Error.shift base) := by
  constructor
  · simpa using Scan.scanAll_shift base 0 text
  · intro limit entries
    have starts := Simulation.shifted_starts base 0 text
    rw [Nat.zero_add] at starts
    unfold readings
    generalize State.ofText 0 text = left, State.ofText base text = right at starts
    cases starts with
    | ok states => exact congrArg Except.ok (session_shift limit entries states)
    | error related => exact congrArg Except.error related

end Grammar
end Scriptlet
