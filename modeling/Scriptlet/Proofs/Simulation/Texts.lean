import Scriptlet.Proofs.Simulation.Templates

/-!
# Reading a text

What is known of a parse from the text that it reads: every token that it stands before is
one of that text, every error is at a place of that text, and every tree is well-formed.
This holds of every parse that a reader can start, at the beginning of the text and after
any others, failed ones included.
-/

namespace Scriptlet

open Text (byteLength Boundary)

/-- What is known of an error of reading: it is at a place of the text, if it has one, and
it is none of those that only a malformed token would bring about. -/
def Error.FromText (base : Nat) (text : List Char) : Error → Prop
  | .lexical fault position => (Error.lexical fault position).FromScan base text
  | .unexpected expected _ position => expected.arises = true ∧ Boundary base text position
  | .unimplemented _ | .tooDeep _ => True
  | _ => False

theorem Error.FromScan.fromText {base : Nat} {text : List Char} {error : Error}
    (known : error.FromScan base text) : error.FromText base text := by
  cases error with
  | lexical fault position => exact known
  | _ => cases known

theorem Error.FromText.within {base : Nat} {before text : List Char} {error : Error}
    (known : error.FromText (base + byteLength before) text) (after : List Char) :
    error.FromText base (before ++ text ++ after) := by
  cases error with
  | lexical fault position => exact ⟨known.1, known.2.1, known.2.2.within⟩
  | unexpected expected found position => exact ⟨known.1, known.2.within⟩
  | _ => exact known

namespace Grammar

/-- The relation of the parses of a text to themselves. -/
def Simulation.ofText (base : Nat) (text : List Char) : Simulation where
  token := Agreed (Token.From base text)
  error := Agreed (Error.FromText base text)
  kind same := congrArg Token.kind same.1
  lexeme same := congrArg Token.lexeme same.1
  newlineBefore same := congrArg Token.newlineBefore same.1
  number same := same.2.number
  endAt := by
    rintro a _ ⟨rfl, known⟩
    exact ⟨rfl, known.stop, known.stop, nofun, nofun, nofun⟩
  unexpected := by
    rintro a _ expected ⟨rfl, known⟩ arises
    exact ⟨rfl, arises, known.start⟩
  unimplemented _ := ⟨rfl, trivial⟩

/-- The relation of the errors of a text, wherever it begins, to themselves. -/
def Placing.same : Placing where
  offsets := Eq
  error p _ text := Agreed (Error.FromText p text)
  later same size := congrArg (· + size) same
  within known after := ⟨known.1, known.2.within after⟩
  unexpected := by
    rintro p _ expected rfl arises found before after
    exact ⟨rfl, arises, before, after, rfl, rfl⟩

namespace Simulation

variable {base : Nat} {text : List Char}

/-- The first token of a text, and all that follow, are tokens of the text. -/
theorem ofText_starts (base : Nat) (text : List Char) :
    Sides (ofText base text).States (ofText base text).error (State.ofText base text)
      (State.ofText base text) := by
  have start := Boundary.atStart base text
  refine sides_ofText (List.forall₂_same.mpr fun item member => ?_)
    ⟨rfl, start, start, nofun, nofun, nofun⟩
  have known := Scan.scanUpTo_from member
  cases item with
  | ok token => exact .ok ⟨rfl, known⟩
  | error error => exact .error ⟨rfl, Error.FromScan.fromText known⟩

theorem ofText_tooDeep (limit : Nat) :
    (ofText base text).error (.tooDeep limit) (.tooDeep limit) :=
  ⟨rfl, trivial⟩

theorem ofText_spanExpr (limit base : Nat) (source : List Char) :
    Sides (Agreed Expr.WellFormed) (Agreed (Error.FromText base source))
      (spanExpr limit base source) (spanExpr limit base source) :=
  sides_spanExpr (ofText_tooDeep limit) (ofText_starts base source)

/-- The text of a template begins after a backtick. -/
theorem ofText_template (limit : Nat) {a b : Token} (token : (ofText base text).token a b)
    (isTemplate : a.kind = .template) :
    Sides (Agreed Expr.WellFormed) (ofText base text).error (template (spanExpr limit) a)
      (template (spanExpr limit) b) := by
  obtain ⟨rfl, known⟩ := token
  have sides : Sides (Agreed Expr.WellFormed)
      (Agreed (Error.FromText (a.start + 1) a.lexeme.toList)) (template (spanExpr limit) a)
      (template (spanExpr limit) a) := by
    refine Placing.same.sides_template ?_ rfl rfl
    rintro p _ rfl source
    exact ofText_spanExpr limit p source
  obtain ⟨before, after, rfl, start⟩ := known.template isTemplate
  generalize template (spanExpr limit) a = result at sides ⊢
  cases sides with
  | ok related => exact .ok related
  | error related =>
    -- The text of the template lies between two backticks of the whole text.
    have tick : a.start + 1 = base + byteLength (before ++ ['`']) := by
      rw [Text.byteLength_append, start, Nat.add_assoc]
      rfl
    rw [tick] at related
    have wide := related.2.within ('`' :: after)
    exact .error ⟨related.1, by simpa using wide⟩

/-- A parse of the full grammar, from what it does at every level. -/
theorem ofText_parsing (limit : Nat) {α : Type} {good : α → Prop} {parse : Inner → Parse α}
    (runs : ∀ {inner inner'}, (ofText base text).Inners inner inner' →
      (ofText base text).Runs (Agreed good) (parse inner) (parse inner')) :
    (ofText base text).Runs (Agreed good) (parsing limit parse) (parsing limit parse) :=
  runs_entering (ofText_tooDeep limit) (ofText_template limit) runs

end Simulation

/-! ## Parses of a reader -/

/-- What a reader gets. -/
inductive Tree where
  | expr (expr : Expr)
  | stmts (stmts : List Stmt)

/-- Whether every node of a tree is well-formed. -/
def Tree.WellFormed : Tree → Prop
  | .expr root => root.WellFormed
  | .stmts body => everyStmt Node.WellFormed body

/-- The parses that a reader can start. -/
inductive Entry where
  | expr (least : Nat)
  | sequence
  | stmt
  | stmts
  | block
  | program
  deriving Repr, DecidableEq

/-- Carries out a parse. -/
def Entry.run (limit : Nat) : Entry → Parse Tree
  | .expr least => do return .expr (← parseExpr least limit)
  | .sequence => do return .expr (← parseSequence limit)
  | .stmt => do return .stmts [← parseStmt limit]
  | .stmts => do return .stmts (← parseStmts limit)
  | .block => do return .stmts (← parseBlock limit)
  | .program => do return .stmts (← parseProgram limit).body

/-- The states of a reader: before the first token of a text, and after any of its parses,
whether they succeed or fail. -/
inductive Reached (base : Nat) (text : List Char) : State → Prop where
  | start {state : State} (starts : State.ofText base text = .ok state) : Reached base text state
  | after {state state' : State} {limit : Nat} {entry : Entry} {tree : Tree}
    (reached : Reached base text state) (runs : entry.run limit state = .ok tree state') :
    Reached base text state'
  | afterError {state state' : State} {limit : Nat} {entry : Entry} {error : Error}
    (reached : Reached base text state) (runs : entry.run limit state = .error error state') :
    Reached base text state'

variable {base : Nat} {text : List Char} {state : State}

open Simulation in
/-- Every parse of a reader takes the same well-formed trees from related tokens, if
templates have such trees. -/
theorem Entry.runs_of {sim : Simulation} {limit : Nat}
    (deep : sim.error (.tooDeep limit) (.tooDeep limit))
    (templates : ∀ {a b}, sim.token a b → a.kind = .template →
      Sides (Agreed Expr.WellFormed) sim.error (template (spanExpr limit) a)
        (template (spanExpr limit) b)) (entry : Entry) :
    sim.Runs (Agreed Tree.WellFormed) (entry.run limit) (entry.run limit) := by
  have parsing {α : Type} {good : α → Prop} {parse : Inner → Parse α}
      (runs : ∀ {inner inner'}, sim.Inners inner inner' →
        sim.Runs (Agreed good) (parse inner) (parse inner')) :
      sim.Runs (Agreed good) (parsing limit parse) (parsing limit parse) :=
    runs_entering deep templates runs
  cases entry with
  | expr least =>
    exact (parsing fun inners => inners.expr least).with fun _ holds => runs_pure ⟨rfl, holds⟩
  | sequence => exact (parsing runs_sequence).with fun _ holds => runs_pure ⟨rfl, holds⟩
  | stmt =>
    exact (parsing fun inners => inners.stmt).with
      fun _ holds => runs_pure ⟨rfl, holds, trivial⟩
  | stmts => exact (parsing runs_stmtList).with fun _ holds => runs_pure ⟨rfl, holds⟩
  | block => exact (parsing runs_block).with fun _ holds => runs_pure ⟨rfl, holds⟩
  | program => exact (parsing runs_program).with fun _ holds => runs_pure ⟨rfl, holds⟩

/-- Every parse of a reader takes well-formed trees from the tokens of a text. -/
theorem Entry.runs (limit : Nat) (entry : Entry) :
    (Simulation.ofText base text).Runs (Agreed Tree.WellFormed) (entry.run limit)
      (entry.run limit) :=
  entry.runs_of (Simulation.ofText_tooDeep limit) (Simulation.ofText_template limit)

/-- Where the parses of a reader can fail before the first of them. -/
theorem fromText_of_ofText {error : Error} (fails : State.ofText base text = .error error) :
    error.FromText base text := by
  have starts := Simulation.ofText_starts base text
  rw [fails] at starts
  cases starts with
  | error related => exact related.2

namespace Reached

/-- A reader always stands before a token of its text. -/
theorem states (reached : Reached base text state) :
    (Simulation.ofText base text).States state state := by
  induction reached with
  | start starts =>
    have sides := Simulation.ofText_starts base text
    rw [starts] at sides
    cases sides with
    | ok states => exact states
  | @after state _ limit entry _ _ runs ih =>
    have ends := entry.runs limit state state ih trivial
    rw [runs] at ends
    cases ends with
    | ok _ states => exact states
  | @afterError state _ limit entry _ _ runs ih =>
    have ends := entry.runs limit state state ih trivial
    rw [runs] at ends
    cases ends with
    | error _ states => exact states

variable {state' : State} {limit : Nat} {entry : Entry}

theorem wellFormed {tree : Tree} (reached : Reached base text state)
    (runs : entry.run limit state = .ok tree state') : tree.WellFormed := by
  have ends := entry.runs limit state state reached.states trivial
  rw [runs] at ends
  cases ends with
  | ok related _ => exact related.2

theorem fromText {error : Error} (reached : Reached base text state)
    (runs : entry.run limit state = .error error state') : error.FromText base text := by
  have ends := entry.runs limit state state reached.states trivial
  rw [runs] at ends
  cases ends with
  | error related _ => exact related.2

end Reached
end Grammar

/-- A whole script is well-formed, or the error is one of its text. -/
theorem Program.parse_sides (code : String) (limit : Nat) :
    Grammar.Sides (Grammar.Agreed fun script => everyStmt Node.WellFormed script.body)
      (Grammar.Agreed (Error.FromText 0 code.toList)) (Program.parse code limit)
      (Program.parse code limit) := by
  have starts := Grammar.Simulation.ofText_starts 0 code.toList
  unfold Program.parse
  generalize Grammar.State.ofText 0 code.toList = begun at starts
  cases starts with
  | error related => exact .error related
  | ok states =>
    exact (Grammar.Simulation.ofText_parsing limit Grammar.Simulation.runs_program _ _ states
      trivial).outcome

open Grammar in
/-- A script that is read is read from the first token of its text. -/
theorem Program.run_of_parse {code : String} {limit : Nat} {script : Program}
    (read : Program.parse code limit = .ok script) :
    ∃ state after, State.ofText 0 code.toList = .ok state ∧
      Entry.program.run limit state = .ok (.stmts script.body) after := by
  unfold Program.parse at read
  split at read
  · cases read
  · next state starts =>
    cases runs : parseProgram limit state with
    | error error after => simp [runs, outcome] at read
    | ok program after =>
      simp only [runs, outcome, Except.ok.injEq] at read
      subst read
      refine ⟨state, after, starts, ?_⟩
      show EStateM.bind (parseProgram limit) _ state = _
      rw [EStateM.bind, runs]
      rfl

end Scriptlet
