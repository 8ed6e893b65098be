import Scriptlet.Proofs.Spans

/-!
# Parses restore their state

A parse that succeeds leaves every level that it entered, and whether `in` is an operator is as
before. A parse that fails restores the setting of `in` too, but the levels that were open where
it failed stay open: it never leaves more levels than it entered. So there is always a level to
leave, for one parse and for any number of parses one after another.

* `Restores` says what is left of a state;
* `leaving` checks every time a level is left that there is one;
* `parsing_restores`: every parse of a reader restores its state, and no check ever fails.
-/

namespace Scriptlet
namespace Grammar

variable {α : Type} {terms : Terms} {template template' : Token → Except Error Expr}

/-- What a parse leaves of the nesting and of the setting of `in`. -/
def Restores (state : State) : EStateM.Result Error State α → Prop
  | .ok _ after => after.depth = state.depth ∧ after.allowIn = state.allowIn
  | .error _ after => state.depth ≤ after.depth ∧ after.allowIn = state.allowIn

/-! ## Checked levels -/

/-- Runs a parse one level further in, and fails with `fault` if there is no level to leave
afterwards. -/
def leaving (fault : Error) (parse : Parse α) : Parse α := fun state =>
  match parse { state with depth := state.depth + 1 } with
  | .ok value after =>
    if after.depth = 0 then .error fault after
    else .ok value { after with depth := after.depth - 1 }
  | .error error after => .error error after

/-- The levels of the grammar, with a check whenever one is left. -/
def checkedLevels (fault : Error) (limit : Nat) (template : Token → Except Error Expr) :
    Nat → Inner
  | 0 => levels limit template 0
  | room + 1 => (checkedLevels fault limit template room).level (leaving fault) template

/-- Runs a parse with checked levels, as many as the nesting of the state leaves. -/
def checkedEntering (fault : Error) (limit : Nat) (template : Token → Except Error Expr)
    (parse : Inner → Parse α) : Parse α := fun state =>
  parse (checkedLevels fault limit template (limit - state.depth)) state

/-- A parse that a reader can start, with checked levels inside and outside of spans. -/
def Entry.checked (fault : Error) (limit : Nat) (entry : Entry) : Parse Tree :=
  checkedEntering fault limit
    (Grammar.template (reading (checkedEntering fault limit noTemplate wholeSequence)))
    fun inner => entry.body inner

namespace Terms

/-- The level that was entered is there to be left. -/
theorem follows_leaving {late : Bool} {took : α → Bool} {good : α → Prop} {x y : Parse α}
    (fault : Error) (follows : terms.deeper.Follows late took good x y) :
    terms.Follows late took good (leaving fault x) (nested y) := by
  intro state stands holds
  have ends := follows { state with depth := state.depth + 1 }
    ⟨stands.ahead, ⟨_, stands.depth, rfl⟩, stands.left⟩ holds
  have nests := follows_nested follows state stands holds
  unfold leaving
  unfold nested at nests ⊢
  generalize x { state with depth := state.depth + 1 } = left,
    y { state with depth := state.depth + 1 } = right at ends nests ⊢
  cases ends with
  | @ok value after _ moved _ =>
    -- What the parse entered further in it has left again, so its own level is still open.
    have entered : after.depth ≠ 0 := by
      rw [moved.depth]
      exact Nat.succ_ne_zero _
    simpa only [if_neg entered] using nests
  | error => exact nests
  | gaveUp => exact nests

theorem inners_checked {fault : Error} {limit : Nat} (room : Nat) (all : ∀ part, terms.early part)
    (templates : ∀ {token}, terms.Knows token → token.kind = .template →
      Gives terms.givesUp (Expr.Every terms.node) (template token) (template' token)) :
    terms.Inners (checkedLevels fault limit template room) (levels limit template' room) := by
  induction room generalizing terms with
  | zero => exact inners_levels 0 all templates
  | succ room ih => exact Inners.level all (follows_leaving fault) templates (ih all templates)

end Terms

/-- No check ever fails. -/
theorem checkedEntering_eq {parse : Inner → Parse α} (uniform : Uniform parse) (fault : Error)
    (limit : Nat) (template : Token → Except Error Expr) :
    checkedEntering fault limit template parse = entering limit template parse := by
  funext state
  have inners : (Terms.counting state.left fun _ => True).Inners
      (checkedLevels fault limit template (limit - state.depth))
      (levels limit template (limit - state.depth)) :=
    Terms.inners_checked _ (fun _ => trivial) fun _ _ => .refl (fun _ => trivial) _
  obtain ⟨good, follows⟩ := uniform inners fun _ => trivial
  exact (follows.ends ⟨trivial, trivial, Nat.le_refl _⟩).eq fun _ => id

theorem Entry.checked_eq (fault : Error) (limit : Nat) (entry : Entry) :
    entry.checked fault limit = entry.run limit := by
  unfold Entry.checked
  rw [checkedEntering_eq (uniform_entry entry), checkedEntering_eq uniform_wholeSequence,
    Entry.run_eq]
  rfl

/-! ## Parses of a reader -/

theorem Terms.Ends.restores {bound : Nat} {early : Part → Prop} {took : α → Bool}
    {good : α → Prop} {state : State} {left right : EStateM.Result Error State α}
    (ends : (counting bound early).Ends took good state left right) : Restores state left := by
  cases ends with
  | ok _ moved _ => exact ⟨moved.depth, moved.allowIn⟩
  | error stopped _ => exact ⟨stopped.depth, stopped.allowIn⟩
  | gaveUp gives _ _ => exact gives.elim

theorem Entry.run_restores (limit : Nat) (entry : Entry) (state : State) :
    Restores state (entry.run limit state) := by
  have stands : (Terms.counting state.left fun _ => True).Stands false state :=
    ⟨trivial, trivial, Nat.le_refl _⟩
  have ends := entry.ends_run limit stands (fun _ => trivial)
    fun _ _ => .refl (fun _ => trivial) _
  exact ends.restores

/-- The state in which a parse ends, whether it succeeds or fails. -/
def endState : EStateM.Result Error State α → State
  | .ok _ state | .error _ state => state

theorem Restores.endState {state : State} {result : EStateM.Result Error State α}
    (restores : Restores state result) :
    state.depth ≤ (endState result).depth ∧ (Grammar.endState result).allowIn = state.allowIn := by
  cases result with
  | ok value after => exact ⟨Nat.le_of_eq restores.1.symm, restores.2⟩
  | error error after => exact restores

/-- How parses end that are started one after another, each where the one before it stopped,
whether that one succeeded or failed. -/
def trace (run : Entry → Parse Tree) :
    List Entry → State → List (EStateM.Result Error State Tree)
  | [], _ => []
  | entry :: later, state => run entry state :: trace run later (endState (run entry state))

/-- However many parses follow each other, none leaves a level that was open before them. -/
theorem trace_restores {limit : Nat} {entries : List Entry} {state : State}
    {result : EStateM.Result Error State Tree}
    (member : result ∈ trace (Entry.run limit) entries state) :
    state.depth ≤ (endState result).depth ∧ (endState result).allowIn = state.allowIn := by
  induction entries generalizing state with
  | nil => cases member
  | cons entry later ih =>
    have first := (entry.run_restores limit state).endState
    rcases List.mem_cons.mp member with rfl | member
    · exact first
    · have rest := ih member
      exact ⟨Nat.le_trans first.1 rest.1, rest.2.trans first.2⟩

/-- From every state, every parse restores the setting of `in`, and the nesting too if it
succeeds; if it fails, the nesting is no less than before. No sequence of parses, failed ones
included, ever comes to leave a level where there is none: a check for that, inside and outside
of spans, changes nothing. -/
theorem parsing_restores (limit : Nat) (fault : Error) (state : State) :
    (∀ entry : Entry, Restores state (entry.run limit state)) ∧
      ∀ entries : List Entry,
        trace (Entry.checked fault limit) entries state = trace (Entry.run limit) entries state ∧
          ∀ result ∈ trace (Entry.run limit) entries state,
            state.depth ≤ (endState result).depth ∧ (endState result).allowIn = state.allowIn := by
  refine ⟨fun entry => entry.run_restores limit state, fun entries => ⟨?_, ?_⟩⟩
  · have same : Entry.checked fault limit = Entry.run limit :=
      funext fun entry => entry.checked_eq fault limit
    rw [same]
  · exact fun result member => trace_restores member

/-- A reader before a parenthesis that is never closed, where `in` is no operator. -/
def openGroup : State :=
  ⟨⟨.symbol .openParen, "(", 0, 1, false⟩, [.ok (.endAt 1 false)], 0, false⟩

/-- Three levels stay open after the first parse, and a fourth after the second one. -/
theorem openGroup_restores :
    (endState (Entry.stmt.run 9 openGroup)).depth = 3 ∧
      ∃ result ∈ trace (Entry.run 9) [.stmt, .sequence] openGroup,
        (endState result).depth = 4 ∧ (endState result).allowIn = false := by
  have member : Entry.sequence.run 9 (endState (Entry.stmt.run 9 openGroup)) ∈
      trace (Entry.run 9) [.stmt, .sequence] openGroup :=
    List.mem_cons_of_mem _ List.mem_cons_self
  refine ⟨by decide +kernel, _, member, by decide +kernel, ?_⟩
  exact (((parsing_restores 9 (.tooDeep 0) openGroup).2 [.stmt, .sequence]).2 _ member).2

end Grammar
end Scriptlet
