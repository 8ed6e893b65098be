import Scriptlet.Proofs.Joining.Statements

/-!
# Scripts one after another

Two scripts can be written into one text, with a semicolon on a line of its own between them.
The text has the tokens of the one, the semicolon and the tokens of the other, and it is read
as the statements of the one and those of the other. If the last statement of the first script
does not take the semicolon, there is an empty statement between them.

* `Scans.before`, `Scans.afterBreak`: scanning two texts one after another;
* `Program.parse_eq_ok_iff`: the scripts that are read, by their tokens and statements;
* `reads_join`: reading the tokens of the first script, the semicolon, and those of the second;
* `scripts_concatenate`: reading the two texts as one.
-/

namespace Scriptlet

open Text (byteLength)

/-! ## Scanning -/

namespace Scan

/-- The last token of a text is the end, and no other is. -/
theorem Scans.ends {position : Nat} {text : List Char} {tokens : List Token}
    (scans : Scans position text tokens) :
    ∃ earlier stop, tokens = earlier ++ [stop] ∧ stop.kind = .eof ∧
      ∀ token ∈ earlier, token.kind ≠ .eof := by
  induction scans with
  | stop _ => exact ⟨[], _, rfl, rfl, nofun⟩
  | token _ lexes _ _ ih =>
    obtain ⟨earlier, stop, rfl, isEnd, inside⟩ := ih
    refine ⟨_ :: earlier, stop, rfl, isEnd, ?_⟩
    exact List.forall_mem_cons.mpr ⟨lexes.kind_ne_eof, inside⟩

theorem Scans.closed {position : Nat} {text : List Char} {tokens : List Token} {stop : Token}
    (scans : Scans position text (tokens ++ [stop])) :
    stop.kind = .eof ∧ ∀ token ∈ tokens, token.kind ≠ .eof := by
  obtain ⟨earlier, last, same, isEnd, inside⟩ := scans.ends
  obtain ⟨rfl, rest⟩ := List.append_inj' same rfl
  cases rest
  exact ⟨isEnd, inside⟩

theorem Scans.ne_nil {position : Nat} {text : List Char} {tokens : List Token}
    (scans : Scans position text tokens) : tokens ≠ [] := by
  cases scans <;> nofun

/-- A text that is followed by a line break and a token keeps its own tokens. -/
theorem Scans.before {position : Nat} {text written rest lexeme : List Char}
    {tokens later : List Token} {kind : Kind} (scans : Scans position text tokens)
    (lexes : Lexes written rest kind lexeme) (opens : ¬OpensComment (written ++ rest))
    (more : Scans (position + byteLength text + 1 + byteLength written) rest later) :
    ∃ start stop, Scans position (text ++ '\n' :: (written ++ rest))
      (tokens.dropLast ++ ⟨kind, String.ofList lexeme, start, stop, true⟩ :: later) := by
  have size : '\n'.utf8Size = 1 := rfl
  induction scans with
  | @stop position text trails =>
    have place : position + byteLength (text ++ ['\n']) = position + byteLength text + 1 := by
      simp only [Text.byteLength_append, Text.byteLength_cons, Text.byteLength_nil, size]
      omega
    have breaks : decide ('\n' ∈ text ++ ['\n']) = true := by simp
    rw [← place] at more
    -- the line break also ends a comment at the end of the text
    have scans := Scans.token trails.broken lexes opens more
    rw [breaks, List.append_assoc] at scans
    exact ⟨_, _, scans⟩
  | @token position gap written' rest' lexeme' kind' tokens spacing lexes' opens' scans ih =>
    have place : position + byteLength (gap ++ (written' ++ rest')) =
        position + byteLength gap + byteLength written' + byteLength rest' := by
      simp only [Text.byteLength_append]
      omega
    rw [place] at more
    obtain ⟨start, stop, scans'⟩ := ih more
    -- the token ends where it did, as the line break belongs to no token
    have noComment : ¬OpensComment (written' ++ (rest' ++ '\n' :: (written ++ rest))) := by
      rw [← List.append_assoc]
      exact fun comment => opens' (comment.of_space newline_isSpace)
    have first := Scans.token spacing (lexes'.append newline_isSpace _) noComment scans'
    refine ⟨start, stop, ?_⟩
    rw [List.dropLast_cons_of_ne_nil scans.ne_nil]
    simpa only [List.append_assoc, List.cons_append] using first

/-- A text after a line break has the same tokens, of which the first is known to come after a
line break. -/
theorem Scans.afterBreak {position : Nat} {text : List Char} {tokens : List Token}
    (scans : Scans (position + 1) text tokens) :
    Scans position ('\n' :: text)
      (tokens.modifyHead fun first => { first with newlineBefore := true }) := by
  have size : '\n'.utf8Size = 1 := rfl
  have place (gap : List Char) : position + 1 + byteLength gap =
      position + byteLength ('\n' :: gap) := by
    rw [Text.byteLength_cons, size]
    omega
  have breaks (gap : List Char) : decide ('\n' ∈ '\n' :: gap) = true := by simp
  cases scans with
  | stop trails =>
    obtain ⟨gap, rest, rfl, spacing, ends⟩ := trails
    have trails : Trailing ('\n' :: (gap ++ rest)) :=
      ⟨'\n' :: gap, rest, rfl, .space newline_isSpace spacing, ends⟩
    have scans : Scans position _ _ := .stop trails
    rw [breaks, ← place] at scans
    exact scans
  | @token _ gap written rest lexeme kind tokens spacing lexes opens more =>
    rw [place] at more
    have scans := Scans.token (.space newline_isSpace spacing) lexes opens more
    rw [breaks, ← place] at scans
    exact scans

/-- The tokens of a text that begins `amount` bytes later, after a line break. -/
def restarted (amount : Nat) (tokens : List Token) : List Token :=
  (tokens.map (Token.shift amount)).modifyHead fun first => { first with newlineBefore := true }

/-- The tokens of a text move with its beginning. -/
theorem Scans.shift {position : Nat} {text : List Char} {tokens : List Token}
    (scans : Scans position text tokens) (amount : Nat) :
    Scans (position + amount) text (tokens.map (Token.shift amount)) := by
  refine scans_iff.mpr ?_
  rw [scanAll_shift, scans_iff.mp scans, List.map_map, List.map_map]
  rfl

theorem Scans.restart {text : List Char} {tokens : List Token} (scans : Scans 0 text tokens)
    (position : Nat) : Scans position ('\n' :: text) (restarted (position + 1) tokens) := by
  have shifted := scans.shift (position + 1)
  rw [Nat.zero_add] at shifted
  exact shifted.afterBreak

/-- Two texts with a semicolon between them have the tokens of both, and the semicolon. -/
theorem Scans.join {text text' : List Char} {tokens tokens' : List Token} {stop : Token}
    (scans : Scans 0 text (tokens ++ [stop])) (scans' : Scans 0 text' tokens') :
    ∃ mark amount, mark.kind = .symbol .semicolon ∧
      Scans 0 (text ++ '\n' :: ';' :: '\n' :: text')
        (tokens ++ mark :: restarted amount tokens') := by
  have lexes : Lexes [';'] ('\n' :: text') (.symbol .semicolon) [';'] := by
    have spelled : Symbol.semicolon.spelling.toList = [';'] := by decide +kernel
    have single : Lexes _ [] (.symbol .semicolon) _ := .symbol (by decide +kernel)
    rw [spelled] at single
    exact single.append newline_isSpace text'
  have noComment : ¬OpensComment (';' :: '\n' :: text') := fun opens => by
    cases opens.1
  obtain ⟨start, stop, joined⟩ := scans.before lexes noComment (scans'.restart _)
  rw [List.dropLast_concat] at joined
  exact ⟨_, _, rfl, joined⟩

end Scan

/-! ## Reading up to the end -/

namespace Grammar

variable {inner : Inner}

/-- The outermost level of the grammar. -/
def outermost (limit : Nat) : Inner :=
  levels limit (template (spanExpr limit)) limit

/-- The outermost level reads the same of two texts that go on in different ways. -/
theorem inners_outermost (joint : Joint) (limit : Nat) : joint.Inners (outermost limit) := by
  refine Joint.inners_levels limit (fun {a b expr} lexeme read => ?_) limit
  have sides := Simulation.alike_template limit lexeme
  rw [read] at sides
  generalize template (spanExpr limit) b = found at sides ⊢
  cases sides with
  | ok agreed => rw [← agreed.1]

/-- Statements up to the end are a list. -/
theorem Reads.toEnd {s s' : State} {stmts : List Stmt} (reads : Reads inner s stmts s')
    (ended : s'.ahead.Ended) : Grammar.stmtList inner s = .ok stmts s' := by
  have isEnd : s'.current.kind = .eof := ended.kind
  refine reads.stmtList ?_
  rw [isEnd]
  rfl

namespace Joint

/-- The joint of two texts that end at the same place. -/
def atEnd (stop : Token) (isEnd : stop.kind = .eof) : Joint :=
  ⟨stop, [], .inl isEnd⟩

/-- Before the same token, or both at the end. -/
def Abreast (joint : Joint) (s t : Ahead) : Prop :=
  joint.First s t ∨ s.Ended ∧ t.Ended

theorem Abreast.any {joint : Joint} {s t : Ahead} (abreast : joint.Abreast s t) :
    joint.Any s t :=
  abreast.imp_right And.left

theorem Far.abreast {stop : Token} {isEnd : stop.kind = .eof} {s t : Ahead}
    (far : (atEnd stop isEnd).Far s t) : (atEnd stop isEnd).Abreast s t := by
  rcases far with (inside | edge) | past
  · exact .inl inside.toFirst
  · refine .inr ⟨edge.ended, ?_⟩
    rw [edge.mark]
    exact ⟨isEnd, rfl⟩
  · have semicolon : stop.kind = .symbol .semicolon := past.semicolon
    rw [isEnd] at semicolon
    cases semicolon

/-- The pieces of a text, and those of one that goes on. -/
theorem upcoming_of_alike (joint : Joint) {tokens tokens' : List Token} {stop : Token}
    (alikes : List.Forall₂ Token.Alike tokens tokens')
    (inside : ∀ token ∈ tokens, token.kind ≠ .eof) (isEnd : stop.kind = .eof) :
    joint.Upcoming ((tokens ++ [stop]).map .ok)
      (tokens'.map .ok ++ .ok joint.mark :: joint.after) := by
  induction alikes with
  | nil => exact .stop isEnd
  | cons alike _ ih =>
    obtain ⟨isToken, later⟩ := List.forall_mem_cons.mp inside
    exact .token alike isToken (ih later)

/-- The pieces of a text up to an error are those of the text itself. -/
theorem upcoming_self {stop : Token} (isEnd : stop.kind = .eof) {items : List (Except Error Token)}
    (inside : ∀ token, .ok token ∈ items → token.kind ≠ .eof) :
    (atEnd stop isEnd).Upcoming (items ++ [.ok stop]) (items ++ [.ok stop]) := by
  induction items with
  | nil => exact .stop isEnd
  | cons item items ih =>
    have later := ih fun token member => inside token (List.mem_cons_of_mem item member)
    cases item with
    | error error => exact .error
    | ok token => exact .token ⟨rfl, rfl, rfl⟩ (inside token List.mem_cons_self) later

end Joint

/-- Statements up to the end are read in both texts, if both end there. -/
theorem reads_abreast {stop : Token} {isEnd : stop.kind = .eof} {s t s' : State}
    {stmts : List Stmt} (inners : (Joint.atEnd stop isEnd).Inners inner)
    (stands : (Joint.atEnd stop isEnd).Abreast s.ahead t.ahead) (level : Level s t)
    (ran : stmtList inner s = .ok stmts s') (ended : s'.current.kind = .eof) :
    ∃ t', Reads inner t stmts t' ∧ t'.ahead.Ended ∧ Took false t t' := by
  obtain ⟨t', reads, -, stands, -, -, took⟩ := reads_of_stmtList inners
    (fun _ _ => Joint.Abreast.any) (fun _ _ => Joint.Far.abreast) stands level ran
  rcases stands with first | ⟨-, ended'⟩
  · exact absurd ended first.isToken
  · exact ⟨t', reads, ended', took⟩

/-- Statements up to the end are read as well if the text goes on there, up to the joint or
past the semicolon. -/
theorem reads_to_joint {joint : Joint} {s t s' : State} {stmts : List Stmt}
    (inners : joint.Inners inner) (stands : joint.Near s.ahead t.ahead) (level : Level s t)
    (ran : stmtList inner s = .ok stmts s') (ended : s'.current.kind = .eof) :
    ∃ t', Reads inner t stmts t' ∧ Level t t' ∧
      (joint.Edge s'.ahead t'.ahead ∨ joint.Past s'.ahead t'.ahead) := by
  obtain ⟨t', reads, -, far, -, -, took⟩ :=
    reads_of_stmtList inners (fun _ _ => Joint.Far.any) (fun _ _ => id) stands.far level ran
  refine ⟨t', reads, took.level, ?_⟩
  rcases far with (inside | edge) | past
  · exact absurd ended inside.isToken
  · exact .inl edge
  · exact .inr past

/-- A semicolon alone is an empty statement. -/
theorem stmt_semicolon {limit : Nat} {state : State} {next : Token}
    {later : List (Except Error Token)} (positive : 0 < limit)
    (isSemicolon : state.current.kind = .symbol .semicolon)
    (after : state.upcoming = .ok next :: later) :
    (outermost limit).stmt state =
      .ok .empty { state with current := next, upcoming := later } := by
  obtain ⟨room, rfl⟩ := Nat.exists_eq_succ_of_ne_zero (Nat.ne_of_gt positive)
  obtain ⟨⟨kind, lexeme, start, stop, newlineBefore⟩, upcoming, depth, allowIn⟩ := state
  obtain rfl : kind = .symbol .semicolon := isSemicolon
  obtain rfl : upcoming = .ok next :: later := after
  rfl

/-- From the joint or past the semicolon, a parse comes to the text behind the semicolon, with at
most one empty statement in between. -/
theorem reads_past {joint : Joint} {limit : Nat} {s t : State} (positive : 0 < limit)
    (isSemicolon : joint.mark.kind = .symbol .semicolon)
    (stands : joint.Edge s.ahead t.ahead ∨ joint.Past s.ahead t.ahead) :
    ∃ between t', (between = [] ∨ between = [.empty]) ∧ Reads (outermost limit) t between t' ∧
      Level t t' ∧ joint.after = .ok t'.current :: t'.upcoming := by
  rcases stands with edge | past
  · -- the last statement was complete without the semicolon, which is a statement of its own
    have current : t.current = joint.mark := congrArg Ahead.current edge.mark
    have upcoming : t.upcoming = joint.after := congrArg Ahead.upcoming edge.mark
    rcases joint.closes with isEnd | ⟨-, next, later, after, -⟩
    · rw [isSemicolon] at isEnd
      cases isEnd
    · rw [← current] at isSemicolon
      rw [after] at upcoming
      have begins : t.current.kind.beginsStmt = true := by rw [isSemicolon]; rfl
      have read := stmt_semicolon positive isSemicolon upcoming
      refine ⟨[.empty], _, .inr rfl, .cons begins read ?_ .nil, ⟨rfl, rfl⟩, after⟩
      simp [upcoming]
  · exact ⟨[], t, .inl rfl, .nil, ⟨rfl, rfl⟩, past.after⟩

/-! ## Scripts -/

theorem outcome_eq_ok_iff {α : Type} {result : EStateM.Result Error State α} {value : α} :
    outcome result = .ok value ↔ ∃ final, result = .ok value final := by
  cases result <;> simp [outcome]

/-- The first token of a text, if it has one, and the pieces that follow it. -/
theorem ofText_abreast {base : Nat} {text : List Char} {state : State}
    (started : State.ofText base text = .ok state) :
    Scan.scanAll base text = .ok state.current :: state.upcoming ∧ state.depth = 0 ∧
      ∃ stop isEnd, (Joint.atEnd stop isEnd).Abreast state.ahead state.ahead := by
  obtain ⟨items, stop, scanned, isEnd, inside⟩ := Scan.scanAll_eq base text
  unfold State.ofText at started
  rw [scanned] at started ⊢
  match items, inside with
  | [], _ =>
    cases started
    exact ⟨rfl, rfl, stop, isEnd, .inr ⟨⟨isEnd, rfl⟩, ⟨isEnd, rfl⟩⟩⟩
  | .error error :: items, _ => cases started
  | .ok token :: items, inside =>
    cases started
    have pieces := Joint.upcoming_self isEnd fun token member =>
      inside token (List.mem_cons_of_mem _ member)
    exact ⟨rfl, rfl, stop, isEnd, .inl ⟨rfl, rfl, inside token List.mem_cons_self, pieces⟩⟩

theorem parseProgram_eq {limit : Nat} {state : State} (outside : state.depth = 0) :
    parseProgram limit state = program (outermost limit) state := by
  change program (levels limit (template (spanExpr limit)) (limit - state.depth)) state = _
  rw [outside]
  rfl

theorem program_eq_ok_iff {state final : State} {script : Program} :
    program inner state = .ok script final ↔
      ∃ after token, stmtList inner state = .ok script.body after ∧
        expect .eof after = .ok token final := by
  constructor
  · intro read
    obtain ⟨body, after, listed, more⟩ := bind_eq_ok_iff.mp read
    obtain ⟨token, last, taken, ended⟩ := bind_eq_ok_iff.mp more
    obtain ⟨rfl, rfl⟩ := pure_eq_ok_iff.mp ended
    exact ⟨after, token, listed, taken⟩
  · rintro ⟨after, token, read, taken⟩
    exact bind_eq_ok_iff.mpr ⟨_, after, read, bind_eq_ok_iff.mpr ⟨token, final, taken, rfl⟩⟩

end Grammar

open Grammar in
/-- A script is read exactly if its text is scanned without error and its tokens are read as
statements up to the end. -/
theorem Program.parse_eq_ok_iff {text : String} {limit : Nat} {script : Program} :
    Program.parse text limit = .ok script ↔
      ∃ tokens stop final, Scan.Scans 0 text.toList (tokens ++ [stop]) ∧
        Reads (outermost limit) (State.over stop 0 tokens) script.body final ∧
        final.ahead.Ended := by
  unfold Program.parse
  constructor
  · intro read
    cases started : State.ofText 0 text.toList with
    | error error => simp [started] at read
    | ok state =>
      rw [started] at read
      obtain ⟨last, read⟩ := outcome_eq_ok_iff.mp read
      obtain ⟨scanned, outside, stop, isEnd, stands⟩ := ofText_abreast started
      rw [parseProgram_eq outside] at read
      obtain ⟨after, token, listed, taken⟩ := program_eq_ok_iff.mp read
      obtain ⟨final, reads, ended, -, tokens, same, -⟩ := reads_abreast
        (inners_outermost _ limit) stands ⟨rfl, rfl⟩ listed (expect_eq_ok_iff.mp taken).1
      -- all pieces up to the end have been taken, so there is no error among them
      have none : final.upcoming = [] := ended.upcoming
      rw [same, none, List.append_nil, ← List.map_cons] at scanned
      have scans := Scan.scans_iff.mpr scanned
      obtain ⟨earlier, stop, split, -⟩ := scans.ends
      rw [split] at scans
      obtain rfl : state = State.over stop 0 earlier :=
        Except.ok.inj (started.symm.trans (ofText_eq_over (Scan.scans_iff.mp scans)))
      exact ⟨earlier, stop, final, scans, reads, ended⟩
  · rintro ⟨tokens, stop, final, scans, reads, ended⟩
    rw [ofText_eq_over (Scan.scans_iff.mp scans)]
    have isEnd : final.current.kind = .eof := ended.kind
    have none : final.upcoming = [] := ended.upcoming
    have taken : expect .eof final =
        .ok final.current { final with current := .endAt final.current.stop false } := by
      refine expect_eq_ok_iff.mpr ⟨isEnd, ?_⟩
      rw [advance, none]
    have read := program_eq_ok_iff.mpr ⟨final, final.current, reads.toEnd ended, taken⟩
    rw [← parseProgram_eq (over_depth tokens)] at read
    exact outcome_eq_ok_iff.mpr ⟨_, read⟩

namespace Grammar

/-- The joint of a text and a semicolon before another one, which stands before `state`. -/
def Joint.before (mark : Token) (isSemicolon : mark.kind = .symbol .semicolon) (state : State)
    (other : state.current.kind ≠ .keyword .else_) : Joint :=
  ⟨mark, .ok state.current :: state.upcoming, .inr ⟨isSemicolon, _, _, rfl, other⟩⟩

theorem over_pieces {stop : Token} {depth : Nat} (tokens : List Token) :
    .ok (State.over stop depth tokens).current :: (State.over stop depth tokens).upcoming =
      (tokens ++ [stop]).map Except.ok := by
  cases tokens <;> rfl

theorem level_over {stop stop' : Token} {depth : Nat} (tokens tokens' : List Token) :
    Level (State.over stop depth tokens) (State.over stop' depth tokens') := by
  cases tokens <;> cases tokens' <;> exact ⟨rfl, rfl⟩

/-- A text beside one that goes on with a semicolon and other tokens. -/
theorem Joint.near_over {mark stop stop' : Token} {tokens later : List Token}
    (isSemicolon : mark.kind = .symbol .semicolon)
    (other : (State.over stop' 0 later).current.kind ≠ .keyword .else_) (isEnd : stop.kind = .eof)
    (inside : ∀ token ∈ tokens, token.kind ≠ .eof) :
    (Joint.before mark isSemicolon _ other).Near (State.over stop 0 tokens).ahead
      (State.over stop' 0 (tokens ++ mark :: later)).ahead := by
  have after : (Joint.before mark isSemicolon _ other).after = (later ++ [stop']).map .ok :=
    over_pieces later
  cases tokens with
  | nil => exact .inr ⟨⟨isEnd, rfl⟩, by rw [after]; rfl⟩
  | cons token tokens =>
    obtain ⟨isToken, inside⟩ := List.forall_mem_cons.mp inside
    have alikes : List.Forall₂ Token.Alike tokens tokens :=
      List.forall₂_same.mpr fun _ _ => ⟨rfl, rfl, rfl⟩
    refine .inl ⟨⟨rfl, rfl, isToken, ?_⟩, rfl⟩
    change Upcoming _ _ (((tokens ++ mark :: later) ++ [stop']).map .ok)
    rw [List.append_assoc, List.map_append, List.cons_append, List.map_cons, ← after]
    exact upcoming_of_alike _ alikes inside isEnd

/-- A text beside the same text at another place, after a line break. -/
theorem abreast_restarted {tokens : List Token} {stop : Token} (isEnd : stop.kind = .eof)
    (inside : ∀ token ∈ tokens, token.kind ≠ .eof) (amount : Nat) :
    ∃ tokens' stop' isEnd', Scan.restarted amount (tokens ++ [stop]) = tokens' ++ [stop'] ∧
      (Joint.atEnd stop' isEnd').Abreast (State.over stop 0 tokens).ahead
        (State.over stop' 0 tokens').ahead := by
  cases tokens with
  | nil =>
    exact ⟨[], { stop.shift amount with newlineBefore := true }, isEnd, rfl,
      .inr ⟨⟨isEnd, rfl⟩, ⟨isEnd, rfl⟩⟩⟩
  | cons token tokens =>
    obtain ⟨isToken, inside⟩ := List.forall_mem_cons.mp inside
    have alikes : List.Forall₂ Token.Alike tokens (tokens.map (Token.shift amount)) :=
      List.forall₂_map_right_iff.mpr (List.forall₂_same.mpr fun _ _ => ⟨rfl, rfl, rfl⟩)
    refine ⟨{ token.shift amount with newlineBefore := true } :: tokens.map (Token.shift amount),
      stop.shift amount, isEnd, by simp [Scan.restarted], .inl ⟨rfl, rfl, isToken, ?_⟩⟩
    change Joint.Upcoming _ _ ((tokens.map (Token.shift amount) ++ [stop.shift amount]).map .ok)
    rw [List.map_append]
    exact Joint.upcoming_of_alike _ alikes inside isEnd

/-- No script begins with `else`. -/
theorem Reads.ne_else {inner : Inner} {s s' : State} {stmts : List Stmt}
    (reads : Reads inner s stmts s') (ended : s'.ahead.Ended) :
    s.current.kind ≠ .keyword .else_ := by
  intro is
  cases reads with
  | nil =>
    have isEnd : s.current.kind = .eof := ended.kind
    rw [is] at isEnd
    cases isEnd
  | cons begins _ _ _ =>
    rw [is] at begins
    cases begins

/-- The statements of two scripts, read from the tokens of both with a semicolon between them. -/
theorem reads_join {limit : Nat} {mark stop stop' last : Token} {tokens tokens' later : List Token}
    {isLast : last.kind = .eof} {body body' : List Stmt} {final final' : State}
    (positive : 0 < limit) (isSemicolon : mark.kind = .symbol .semicolon) (isEnd : stop.kind = .eof)
    (inside : ∀ token ∈ tokens, token.kind ≠ .eof)
    (reads : Reads (outermost limit) (State.over stop 0 tokens) body final)
    (ended : final.ahead.Ended)
    (abreast : (Joint.atEnd last isLast).Abreast (State.over stop' 0 tokens').ahead
      (State.over last 0 later).ahead)
    (reads' : Reads (outermost limit) (State.over stop' 0 tokens') body' final')
    (ended' : final'.ahead.Ended) :
    ∃ between joined, (between = [] ∨ between = [.empty]) ∧
      Reads (outermost limit) (State.over last 0 (tokens ++ mark :: later))
        (body ++ between ++ body') joined ∧ joined.ahead.Ended := by
  have other : (State.over last 0 later).current.kind ≠ .keyword .else_ := by
    rcases abreast with first | ⟨-, isOver⟩
    · exact first.kind ▸ reads'.ne_else ended'
    · have isEnd : (State.over last 0 later).current.kind = .eof := isOver.kind
      rw [isEnd]
      nofun
  have near := Joint.near_over isSemicolon other isEnd inside
  obtain ⟨s, first, level, stands⟩ := reads_to_joint (inners_outermost _ limit) near
    (level_over _ _) (reads.toEnd ended) ended.kind
  obtain ⟨between, t, isBetween, middle, level', after⟩ := reads_past positive isSemicolon stands
  -- behind the semicolon, the second script is read as if it stood alone
  have same : (State.over last 0 later).ahead = t.ahead := by
    obtain ⟨current, upcoming⟩ := List.cons.inj after
    exact congrArg₂ Ahead.mk (Except.ok.inj current) upcoming
  have outside : Level (State.over stop' 0 tokens') t :=
    ((level_over tokens' (tokens ++ mark :: later)).trans level).trans level'
  rw [same] at abreast
  obtain ⟨joined, rest, isOver, -⟩ := reads_abreast (inners_outermost _ limit) abreast outside
    (reads'.toEnd ended') ended'.kind
  exact ⟨between, joined, isBetween, (first.append middle).append rest, isOver⟩

end Grammar

open Grammar in
/-- Two scripts that are read can be joined with a semicolon on a line of its own. The text is
read as the statements of the one and those of the other, with at most one empty statement
between them. -/
theorem scripts_concatenate {limit : Nat} {code code' : String} {script script' : Program}
    (positive : 0 < limit) (read : Program.parse code limit = .ok script)
    (read' : Program.parse code' limit = .ok script') :
    ∃ between, (between = [] ∨ between = [Stmt.empty]) ∧
      Program.parse (code ++ "\n;\n" ++ code') limit =
        .ok ⟨script.body ++ between ++ script'.body⟩ := by
  obtain ⟨tokens, stop, final, scans, reads, ended⟩ := Program.parse_eq_ok_iff.mp read
  obtain ⟨tokens', stop', final', scans', reads', ended'⟩ := Program.parse_eq_ok_iff.mp read'
  obtain ⟨isEnd, inside⟩ := scans.closed
  obtain ⟨isEnd', inside'⟩ := scans'.closed
  obtain ⟨mark, amount, isSemicolon, scanned⟩ := scans.join scans'
  obtain ⟨later, last, isLast, same, abreast⟩ := abreast_restarted isEnd' inside' amount
  obtain ⟨between, joined, isBetween, reads, ended⟩ :=
    reads_join positive isSemicolon isEnd inside reads ended abreast reads' ended'
  refine ⟨between, isBetween, Program.parse_eq_ok_iff.mpr ⟨_, last, joined, ?_, reads, ended⟩⟩
  have text : (code ++ "\n;\n" ++ code').toList =
      code.toList ++ '\n' :: ';' :: '\n' :: code'.toList := by simp
  rw [text, List.append_assoc, List.cons_append, ← same]
  exact scanned

/-- A branch with a comment behind it, and a sign that would be an operator elsewhere. -/
theorem branch_and_sign_concatenate :
    ∃ script script' between, Program.parse "if (a) b // c" = .ok script ∧
      Program.parse "-`d`" = .ok script' ∧ (between = [] ∨ between = [Stmt.empty]) ∧
      Program.parse ("if (a) b // c" ++ "\n;\n" ++ "-`d`") =
        .ok ⟨script.body ++ between ++ script'.body⟩ := by
  have reads (code : String) (succeeds : (Program.parse code).isOk = true) :
      ∃ script, Program.parse code = .ok script := by
    cases read : Program.parse code with
    | ok script => exact ⟨script, rfl⟩
    | error error =>
      rw [read] at succeeds
      cases succeeds
  obtain ⟨script, read⟩ := reads "if (a) b // c" (by decide +kernel)
  obtain ⟨script', read'⟩ := reads "-`d`" (by decide +kernel)
  obtain ⟨between, isBetween, joined⟩ := scripts_concatenate (by decide) read read'
  exact ⟨script, script', between, read, read', isBetween, joined⟩

end Scriptlet
