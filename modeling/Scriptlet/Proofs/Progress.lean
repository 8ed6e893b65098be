import Scriptlet.Proofs.Spans

/-!
# Parses get on

What a parse takes from a text is never given back, and what it repeats takes a token in every
round. So every parse ends with a tree or an error, at the end of the text or before it, and
wherever it stands.

* `State.OnText`: a state whose pieces ahead are the last pieces of a text;
* `Entry.Progress`: what a parse of a reader does with the pieces ahead;
* `Cycle` lists the loops of the grammar, and `Repeats` says how a loop goes that may go on as
  long as it likes; `repeats_of_cycle` shows that each loop of the grammar goes this way;
* `spans_settle`: the spans of a template are found one after another in ever shorter texts;
* `parsing_halts` puts this together with the recursion of the grammar.
-/

namespace Scriptlet

/-! ## States over a text -/

/-- In what is left of a scanned text, the end of the input is the last piece and no other. -/
theorem Scan.isEnd_iff_of_suffix {base : Nat} {text : List Char} {item : Except Error Token}
    {rest : List (Except Error Token)} (within : item :: rest <:+ scanAll base text) :
    isEnd item = true ↔ rest = [] := by
  obtain ⟨items, stop, scanned, isStop, inside⟩ := scanAll_eq base text
  obtain ⟨before, same⟩ := within
  rw [scanned] at same
  rcases List.eq_nil_or_concat rest with rfl | ⟨more, last, rfl⟩
  · obtain ⟨-, last⟩ := List.append_inj' same rfl
    obtain rfl : item = .ok stop := by simpa using last
    simp [isEnd, isStop]
  · have split : (before ++ item :: more) ++ [last] = items ++ [.ok stop] := by simpa using same
    obtain ⟨rfl, -⟩ := List.append_inj' split rfl
    simp only [List.concat_eq_append, List.append_eq_nil_iff, List.cons_ne_nil, and_false,
      iff_false]
    intro isLast
    cases item with
    | error error => cases isLast
    | ok token => exact inside token (by simp) (by simpa [isEnd] using isLast)

namespace Grammar

variable {α : Type} {base : Nat} {text : List Char}

/-- A state of a parse of a text: the last pieces of the text are ahead, and the current token
is the end of the input if there are none. -/
structure State.OnText (base : Nat) (text : List Char) (state : State) : Prop where
  upcoming : state.upcoming <:+ Scan.scanAll base text
  ends : state.current.kind = .eof ↔ state.upcoming = []

/-- What is left of a text is counted by the pieces ahead. -/
theorem State.OnText.left_eq {state : State} (onText : state.OnText base text) :
    state.left = if state.upcoming = [] then 0 else state.upcoming.length + 1 := by
  simp only [State.left, onText.ends]
  split
  · next none => simp [none]
  · rfl

/-- A token that is taken is one of the text: the end of the input is not taken. -/
theorem Moved.shorter {before after : State} (moved : Moved true before after)
    (onText : before.OnText base text) (onText' : after.OnText base text) :
    before.current.kind ≠ .eof ∧ after.upcoming.length < before.upcoming.length := by
  have less := moved.left
  rw [onText.left_eq, onText'.left_eq] at less
  rw [Ne, onText.ends]
  rcases Decidable.em (before.upcoming = []) with none | some
  · simp [none] at less
  · refine ⟨some, ?_⟩
    have positive := List.length_pos_iff.mpr some
    rw [if_neg some] at less
    split at less
    · next none => simpa [none] using positive
    · simp only [Bool.toNat_true] at less
      omega

/-- Terms for the states over a text. -/
def Terms.onText (base : Nat) (text : List Char) (bound : Nat) : Terms where
  ahead current upcoming :=
    upcoming <:+ Scan.scanAll base text ∧ (current.kind = .eof ↔ upcoming = [])
  take := by
    rintro current next upcoming ⟨within, -⟩
    refine ⟨(List.suffix_cons _ _).trans within, ?_⟩
    simpa [Scan.isEnd] using Scan.isEnd_iff_of_suffix within
  skip := by
    rintro current error upcoming ⟨within, ends⟩
    have more : upcoming ≠ [] := fun none => by
      cases (Scan.isEnd_iff_of_suffix within).mpr none
    refine ⟨(List.suffix_cons _ _).trans within, ?_⟩
    simpa [more] using ends
  stay _ := ⟨List.nil_suffix, iff_of_true rfl rfl⟩
  depth _ := True
  givesUp _ := False
  node _ := True
  expr _ := trivial
  stmt _ := trivial
  bound := bound
  early _ := True

theorem State.OnText.stands {state : State} (onText : state.OnText base text) :
    (Terms.onText base text state.left).Stands false state :=
  ⟨⟨onText.upcoming, onText.ends⟩, trivial, Nat.le_refl _⟩

/-! ## Parses of a reader -/

/-- What a parse of a reader does with the pieces ahead, whether it finds a tree or not: it takes
them one after another, and at least one for an expression, a statement or a block. -/
inductive Entry.Progress (base : Nat) (text : List Char) (state : State) (entry : Entry) :
    EStateM.Result Error State Tree → Prop where
  | ok {tree : Tree} {after : State} (onText : after.OnText base text)
    (upcoming : after.upcoming <:+ state.upcoming)
    (taken : entry.takes = true →
      state.current.kind ≠ .eof ∧ after.upcoming.length < state.upcoming.length) :
    Progress base text state entry (.ok tree after)
  | error {error : Error} {after : State} (onText : after.OnText base text)
    (upcoming : after.upcoming <:+ state.upcoming) :
    Progress base text state entry (.error error after)

theorem Entry.run_progress (limit : Nat) (entry : Entry) {state : State}
    (onText : state.OnText base text) : entry.Progress base text state (entry.run limit state) := by
  have ends := entry.ends_run limit onText.stands (fun _ => trivial)
    fun _ _ => .refl (fun _ => trivial) _
  generalize entry.run limit state = result at ends ⊢
  cases ends with
  | @ok tree after _ moved ahead =>
    have onText' : after.OnText base text := ⟨ahead.1, ahead.2⟩
    refine .ok onText' moved.upcoming fun takes => ?_
    rw [takes] at moved
    exact moved.shorter onText onText'
  | error stopped ahead => exact .error ⟨ahead.1, ahead.2⟩ stopped.upcoming
  | gaveUp gives _ _ => exact gives.elim

/-- A reader of a text is always in a state over it. -/
theorem Reached.onText {state : State} (reached : Reached base text state) :
    state.OnText base text := by
  induction reached with
  | start starts =>
    unfold State.ofText at starts
    split at starts
    · cases starts
      exact ⟨List.nil_suffix, iff_of_true rfl rfl⟩
    · next token upcoming scanned =>
      cases starts
      have within : .ok token :: upcoming <:+ Scan.scanAll base text := scanned ▸ List.suffix_rfl
      refine ⟨(List.suffix_cons _ _).trans within, ?_⟩
      simpa [Scan.isEnd] using Scan.isEnd_iff_of_suffix within
    · cases starts
  | @after state _ limit entry _ _ runs ih =>
    have progress := entry.run_progress limit ih
    rw [runs] at progress
    cases progress with
    | ok onText => exact onText
  | @afterError state _ limit entry _ _ runs ih =>
    have progress := entry.run_progress limit ih
    rw [runs] at progress
    cases progress with
    | error onText => exact onText

/-! ## Loops -/

/-- The loops of the grammar: statements, lists with commas, lists up to a closing token, the
clauses of a switch, and the suffixes of expressions and of the callee of `new`. -/
inductive Cycle (inner : Inner) : {α : Type} → (α → Parse (Step α)) → Prop where
  | stmts : Cycle inner (stmtStep inner)
  | members : Cycle inner (separatedStep (inner.expr 0))
  | arguments : Cycle inner (separatedStep (argument inner))
  | params : Cycle inner (separatedStep expectIdentifier)
  | declarations : Cycle inner (separatedStep (declaration inner))
  | elements : Cycle inner (closedStep .closeBracket (element inner))
  | properties : Cycle inner (closedStep .closeBrace (property inner))
  | names : Cycle inner (closedStep .closeBrace importName)
  | clauses : Cycle inner (switchStep inner)
  | suffixes (least : Nat) : Cycle inner (suffix inner least)
  | accesses : Cycle inner (newAccess inner)

/-- How a loop goes that may go on as long as it likes: rounds that take a token each, and a
last one that is done or fails. -/
inductive Repeats (step : α → Parse (Step α)) :
    α → State → EStateM.Result Error State α → Prop where
  | done {value result : α} {state after : State}
    (ended : step value state = .ok (.done result) after) :
    Repeats step value state (.ok result after)
  | error {value : α} {error : Error} {state after : State}
    (failed : step value state = .error error after) :
    Repeats step value state (.error error after)
  | again {value next : α} {state after : State} {result : EStateM.Result Error State α}
    (round : Round step (value, state) (next, after)) (rest : Repeats step next after result) :
    Repeats step value state result

/-- A round of every loop takes a token if the loop goes on. -/
theorem Cycle.follows {terms : Terms} {inner : Inner} {step : α → Parse (Step α)}
    (cycle : Cycle inner step) (inners : terms.Inners inner inner)
    (every : ∀ part, terms.early part) (all : ∀ part, terms.node part) (value : α) :
    terms.Follows false Step.goesOn (fun _ => True) (step value) (step value) := by
  have exprs {expr : Expr} : expr.Every terms.node := expr.every_of_forall all
  -- A list takes a token in every round, whether it goes on or not.
  have listed {β : Type} {holds : Step β → Prop} {x : Parse (Step β)}
      (follows : terms.Follows false (fun found => found.goesOn || true) holds x x) :
      terms.Follows false Step.goesOn (fun _ => True) x x :=
    follows.weaken (fun found => by simpa using found.goesOn.toNat_le) fun _ _ => trivial
  have plain {β : Type} {holds : Step β → Prop} {x : Parse (Step β)}
      (follows : terms.Follows false Step.goesOn holds x x) :
      terms.Follows false Step.goesOn (fun _ => True) x x :=
    follows.weaken (fun _ => Nat.le_refl _) fun _ _ => trivial
  cases cycle with
  | stmts =>
    exact plain (Terms.follows_stmtStep inners (.inr (every _))
      fun stmt _ => stmt.every_of_forall all)
  | members => exact listed (Terms.follows_separatedStep (inners.expr 0 (.inr (every _)))
      fun _ _ => exprs)
  | arguments => exact listed (Terms.follows_separatedStep
      (Terms.follows_argument inners (.inr (every _))) fun _ _ => exprs)
  | params => exact listed (Terms.follows_separatedStep Terms.follows_expectIdentifier
      fun _ _ => trivial)
  | declarations => exact listed (Terms.follows_separatedStep (Terms.follows_declaration inners)
      ((everyDeclaration_iff _).mp (everyDeclaration_of_forall all value)))
  | elements => exact listed (Terms.follows_closedStep _
      (Terms.follows_element inners (.inr (every _)))
      ((everyElement_iff _).mp (everyElement_of_forall all value)))
  | properties => exact listed (Terms.follows_closedStep _ (Terms.follows_property inners)
      ((everyProperty_iff _).mp (everyProperty_of_forall all value)))
  | names => exact listed (Terms.follows_closedStep _ Terms.follows_importName
      fun _ _ => trivial)
  | clauses => exact plain (Terms.follows_switchStep inners
      ((everyCase_iff _).mp (everyCase_of_forall all value)))
  | suffixes least => exact plain (Terms.follows_suffix inners least exprs)
  | accesses => exact plain (Terms.follows_newAccess inners exprs)

/-- The bound of a loop matters only if the loop goes on. -/
theorem repeats_of_again {step : α → Parse (Step α)} {ahead : List (Except Error Token)}
    {value : α} {state : State}
    (again : ∀ next after, step value state = .ok (.again next) after →
      Repeats step value state (repeatOver step ahead value state)) :
    Repeats step value state (repeatOver step ahead value state) := by
  cases found : step value state with
  | error error after =>
    rw [repeatOver_error found]
    exact .error found
  | ok outcome after =>
    cases outcome with
    | again next => exact again next after found
    | done result =>
      rw [repeatOver_done found]
      exact .done found

/-- A loop whose rounds take a token each is not cut short by the number of tokens ahead. -/
theorem repeats_loop {step : α → Parse (Step α)}
    (round : ∀ {value next : α} {state after : State}, state.OnText base text →
      step value state = .ok (.again next) after →
      after.OnText base text ∧ after.upcoming.length < state.upcoming.length)
    (value : α) {state : State} (onText : state.OnText base text) :
    Repeats step value state (loop step value state) := by
  suffices bounded : ∀ (ahead : List (Except Error Token)) (value : α) (state : State),
      state.OnText base text → state.upcoming.length ≤ ahead.length →
      Repeats step value state (repeatOver step ahead value state) from
    bounded state.upcoming value state onText (Nat.le_refl _)
  -- Every round that goes on takes a piece, so the bound stays as long as what is ahead.
  intro ahead
  induction ahead with
  | nil =>
    -- With nothing ahead no round goes on.
    intro value state onText short
    refine repeats_of_again fun next after found => ?_
    have less := (round onText found).2
    simp only [List.length_nil] at short
    omega
  | cons piece ahead ih =>
    intro value state onText short
    refine repeats_of_again fun next after found => ?_
    obtain ⟨onText', less⟩ := round onText found
    rw [repeatOver_again found]
    refine .again ⟨found, less⟩ (ih next after onText' ?_)
    simp only [List.length_cons] at short
    omega

theorem repeats_of_cycle {limit room : Nat} {template : Token → Except Error Expr}
    {step : α → Parse (Step α)} (cycle : Cycle (levels limit template room) step) (value : α)
    {state : State} (onText : state.OnText base text) :
    Repeats step value state (loop step value state) := by
  refine repeats_loop (fun {value next state after} onText found => ?_) value onText
  have inners : (Terms.onText base text state.left).Inners (levels limit template room)
      (levels limit template room) :=
    Terms.inners_levels room (fun _ => trivial) fun _ _ => .refl (fun _ => trivial) _
  have ends := (cycle.follows inners (fun _ => trivial) (fun _ => trivial) value).ends
    onText.stands
  rw [found] at ends
  cases ends with
  | ok _ moved ahead =>
    have onText' : after.OnText base text := ⟨ahead.1, ahead.2⟩
    exact ⟨onText', (moved.shorter onText onText').2⟩

/-! ## Spans -/

/-- The body of reading the spans of a text, with the rest of the text left open. -/
def spansRecursion (expr : Nat → List Char → Except Error Expr)
    (spans : Nat → List Char → Except Error (List Char × List Span)) :
    Nat → List Char → Except Error (List Char × List Span) := fun position text =>
  match splitOpening text with
  | none => .ok (text, [])
  | some (before, after) =>
    let start := position + Text.byteLength before + 2
    let source := after.takeWhile (· != '\x7d')
    let stop := start + Text.byteLength source
    match after.dropWhile (· != '\x7d') with
    | [] =>
      .error (.unexpected (.token (.symbol .closeBrace)) "end of template literal"
        (position + Text.byteLength text))
    | _ :: rest =>
      if source.all Text.isWhiteSpace then
        .error (.unexpected .expression "'\x7d'" stop)
      else
        match expr start source with
        | .error error => .error error
        | .ok value =>
          match spans (stop + 1) rest with
          | .error error => .error error
          | .ok (next, found) =>
            .ok (before, ⟨String.ofList source, value, String.ofList next⟩ :: found)

/-- What is left after a span is shorter than the text before it. -/
theorem spansRecursion_congr {expr : Nat → List Char → Except Error Expr}
    {spans spans' : Nat → List Char → Except Error (List Char × List Span)} {text : List Char}
    (same : ∀ position rest, rest.length < text.length → spans position rest = spans' position rest)
    (position : Nat) :
    spansRecursion expr spans position text = spansRecursion expr spans' position text := by
  unfold spansRecursion
  split
  · rfl
  next before after found =>
    obtain rfl := splitOpening_eq_some found
    dsimp only
    split
    · rfl
    next closing rest dropped =>
      obtain ⟨split, -⟩ := Scan.split_dropWhile dropped
      have shorter : rest.length < (before ++ '$' :: '\x7b' :: after).length := by
        have := congrArg List.length split
        simp only [List.length_append, List.length_cons] at this ⊢
        omega
      rw [same _ rest shorter]

theorem readSpans_eq_iterate (expr : Nat → List Char → Except Error Expr) (count : Nat) :
    readSpans expr count = (spansRecursion expr)^[count] (readSpans expr 0) := by
  induction count with
  | zero => rfl
  | succ count ih =>
    rw [Function.iterate_succ_apply', ← ih]
    rfl

/-- More rounds than characters change nothing. -/
theorem readSpans_succ {expr : Nat → List Char → Except Error Expr} {count : Nat}
    {text : List Char} (enough : text.length ≤ count) (position : Nat) :
    readSpans expr (count + 1) position text = readSpans expr count position text := by
  induction count generalizing text position with
  | zero =>
    obtain rfl := List.length_eq_zero_iff.mp (Nat.le_zero.mp enough)
    rfl
  | succ count ih =>
    show spansRecursion expr (readSpans expr (count + 1)) position text =
      spansRecursion expr (readSpans expr count) position text
    exact spansRecursion_congr (fun place rest shorter => ih (by omega) place) position

/-- The spans of a template are read as by a recursion that ends with the text. -/
theorem spans_settle (expr : Nat → List Char → Except Error Expr) :
    Settles (fun (i : Nat × List Char) spans => spans i.1 i.2) (fun i => i.2.length)
      (spansRecursion expr) fun position text => readSpans expr text.length position text := by
  have descends : Descends (fun (i : Nat × List Char)
      (spans : Nat → List Char → Except Error (List Char × List Span)) => spans i.1 i.2)
      (fun i => i.2.length) (fun _ _ => True) (spansRecursion expr) := by
    constructor
    case ext =>
      intro spans spans' same
      funext position text
      exact same (position, text)
    case step =>
      intro spans spans' i smaller
      exact ⟨spansRecursion_congr (fun position rest shorter =>
        (smaller (position, rest) shorter).1) i.1, trivial⟩
  refine descends.settles (readSpans expr 0) ?_
  rintro ⟨position, text⟩
  rw [← readSpans_eq_iterate]
  exact (readSpans_succ (Nat.le_refl _) position).symm

/-! ## Reading -/

/-- From every state over a text, every parse ends with a tree or an error after taking pieces of
the text that were ahead, and in a state over the text again; a statement, an expression or a
block takes at least one and is none at the end of the input. Every state that a reader comes to
is over the text. Each loop goes as if nothing bounded it, with a token taken in every round; the
spans of a template and the recursion of the grammar end, too. -/
theorem parsing_halts (base limit : Nat) (text : List Char) :
    (∀ state : State, Reached base text state → state.OnText base text) ∧
      (∀ state : State, state.OnText base text → ∀ entry : Entry,
        entry.Progress base text state (entry.run limit state)) ∧
      (∀ (room : Nat) (template : Token → Except Error Expr) (α : Type)
        (step : α → Parse (Step α)), Cycle (levels limit template room) step →
        ∀ (value : α) (state : State), state.OnText base text →
          Repeats step value state (loop step value state)) ∧
      (∀ expr : Nat → List Char → Except Error Expr,
        Settles (fun (i : Nat × List Char) spans => spans i.1 i.2) (fun i => i.2.length)
          (spansRecursion expr) fun position text => readSpans expr text.length position text) ∧
      (∀ template : Token → Except Error Expr,
        Settles Question.answer Question.measure (Inner.level (within (some limit)) template)
          (unrolled (some limit) template)) ∧
      ∀ entry : Entry, entry.run limit =
        entry.body (unrolled (some limit) (template (spanExpr limit))) := by
  refine ⟨fun _ reached => reached.onText, fun _ onText entry => entry.run_progress limit onText,
    fun _ _ _ _ cycle value _ onText => repeats_of_cycle cycle value onText, spans_settle,
    unrolled_settles _, fun entry => ?_⟩
  rw [Entry.run_eq]
  exact entering_eq_unrolled (uniform_entry entry) limit _

/-- A reader before an array: an expression gets on from there, and so does the loop over the
elements, although it begins at a token that it does not accept. -/
theorem array_halts :
    ∃ state, Reached 3 "[a,,b.c]".toList state ∧ state.OnText 3 "[a,,b.c]".toList ∧
      (Entry.expr 0).Progress 3 "[a,,b.c]".toList state ((Entry.expr 0).run 9 state) ∧
      Repeats (closedStep .closeBracket (element (levels 9 noTemplate 9))) [] state
        (loop (closedStep .closeBracket (element (levels 9 noTemplate 9))) [] state) := by
  have begins : (State.ofText 3 "[a,,b.c]".toList).isOk = true := by decide +kernel
  cases starts : State.ofText 3 "[a,,b.c]".toList with
  | error error =>
    rw [starts] at begins
    cases begins
  | ok state =>
    have reached := Reached.start starts
    have onText := (parsing_halts 3 9 "[a,,b.c]".toList).1 state reached
    exact ⟨state, reached, onText, (parsing_halts 3 9 _).2.1 state onText (.expr 0),
      (parsing_halts 3 9 _).2.2.1 9 noTemplate _ _ .elements [] state onText⟩

end Grammar
end Scriptlet
