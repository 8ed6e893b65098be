import Scriptlet.Engine
import Scriptlet.Proofs.Discipline.Tracking
import Scriptlet.Proofs.Simulation.Texts

/-!
# What the grammar promises to evaluation

Reading and evaluation have branches for what should never happen: a token that was cut
off, an operator that is none, an assignment to something that is no target, a declaration
without a name. No text leads there. The grammar makes well-formed trees only, a store that
holds functions with well-formed bodies keeps holding such functions, and the evaluation of
well-formed trees in such a store ends without any of these errors.
-/

namespace Scriptlet

open Eval Grammar

/-- Whether an error reports what no script should lead to. -/
def Error.isDead : Error → Bool
  | .lexical .invalidNumber _ | .lexical (.incompleteOperator _) _ => true
  | .unexpected expected _ _ => !expected.arises
  | error => error.isInternal

theorem Error.FromText.not_dead {base : Nat} {text : List Char} {error : Error}
    (known : error.FromText base text) : error.isDead = false := by
  cases error with
  | lexical fault position =>
    obtain ⟨number, operator, -⟩ := known
    cases fault with
    | invalidNumber => exact absurd rfl number
    | incompleteOperator text => exact absurd rfl (operator text)
    | _ => rfl
  | unexpected expected found position => exact congrArg (!·) known.1
  | type fault => cases known
  | _ => rfl

theorem Error.Arises.not_dead {error : Error} (arises : error.Arises) : error.isDead = false := by
  cases error with
  | lexical fault position => cases arises.position
  | unexpected expected found position => cases arises.position
  | _ => exact arises.wellFormed

/-! ## Engines -/

namespace Regime

variable {regime : Regime} {engine : Engine} {footing : Footing}

/-- A run on an engine keeps its store to the regime. -/
theorem perform_ends {α : Type} {openCalls : Nat} {post : Footing → α → Prop} {run : Eval α}
    (ends : regime.Ends openCalls .all post (run engine.machine)) :
    regime.store .all (engine.perform run).2.machine.store ∧
      ∀ error, (engine.perform run).1 = .error error → regime.raises error := by
  unfold Engine.perform
  cases result : run engine.machine with
  | ok value machine =>
    rw [result] at ends
    obtain ⟨after, grows, stands, -⟩ := ends
    rw [Footing.eq_all grows] at stands
    exact ⟨stands.holds, nofun⟩
  | error error machine =>
    rw [result] at ends
    obtain ⟨raises, after, grows, stands⟩ := ends
    rw [Footing.eq_all grows] at stands
    refine ⟨stands.holds, ?_⟩
    rintro _ ⟨⟩
    exact raises

/-- A script that is read and run either fails to be read or ends as the regime asks. -/
theorem evaluate_ends (regime : Regime) (holds : regime.store .all engine.machine.store)
    {code : String}
    (every : ∀ program, Program.parse code = .ok program → everyStmt regime.node program.body) :
    regime.store .all (engine.evaluate code).2.machine.store ∧
      ∀ error, (engine.evaluate code).1 = .error error →
        Program.parse code = .error error ∨ regime.raises error := by
  unfold Engine.evaluate
  cases read : Program.parse code with
  | error error =>
    refine ⟨holds, ?_⟩
    rintro _ ⟨⟩
    exact .inl rfl
  | ok program =>
    have place : Footing.all.frame Engine.global := trivial
    have ends := regime.runProgram_ends engine.limit ⟨rfl, holds⟩ place (every program read)
    obtain ⟨kept, raises⟩ := perform_ends ends
    exact ⟨kept, fun error fails => .inr (raises error fails)⟩

/-- Well-formed trees, and errors that say nothing of malformed ones. -/
def sound : Regime where
  node := Node.WellFormed
  raises := Error.Arises
  arises := id
  wellFormed := .inl fun node known => by
    cases node with
    | expr expr =>
      cases expr with
      | assign target value => exact known
      | assignWith op target value => exact known.1
      | update op placement target => exact known
      | _ => trivial
    | stmt stmt =>
      cases stmt with
      | function definition => exact known
      | _ => trivial
  store footing store := store.Known Node.WellFormed footing
  invariant := Store.Known.invariant _

end Regime

theorem Engine.initialStore_known (node : Node → Prop) : initialStore.Known node .all := by
  have empty : Store.empty.Known node .all := ⟨nofun, nofun⟩
  have framed : (Store.empty.addFrame none).Known node .all := by
    have grown : (Store.empty.addFrame none).Known node (Footing.all.withFrame _) :=
      empty.addFrame nofun
    rwa [Footing.eq_all (Footing.all.le_withFrame _)] at grown
  have console : (Object.empty.set "log" (.function 0 (.native "log" .log))).Known node .all :=
    Object.Known.empty.set _ trivial
  have stored := framed.addFunction.addObject console
  rw [Footing.eq_all (Footing.all.le_withObject _)] at stored
  have plain : Value.undefined.Known node .all := trivial
  have place : (Value.object 0).Known node .all := trivial
  exact (stored.define _ _ plain).define _ _ place

/-- The engines that only scripts have been run on, and calls of what such scripts may
hold. -/
inductive Engine.Scripted : Engine → Prop where
  | new (limit : Nat) (sink : Sink) : Scripted (new limit sink)
  | evaluate {engine : Engine} (scripted : Scripted engine) (code : String) :
    Scripted (engine.evaluate code).2
  | call {engine : Engine} (scripted : Scripted engine) {function : Function}
    {receiver : Option Value} {arguments : List Value}
    (known : function.Known Node.WellFormed .all)
    (this : ∀ value ∈ receiver, value.Known Node.WellFormed .all)
    (given : ∀ value ∈ arguments, value.Known Node.WellFormed .all) :
    Scripted (engine.call function receiver arguments).2

theorem Program.parse_wellFormed {code : String} {limit : Nat} {program : Program}
    (read : Program.parse code limit = .ok program) : everyStmt Node.WellFormed program.body := by
  have sides := Program.parse_sides code limit
  rw [read] at sides
  cases sides with
  | ok related => exact related.2

theorem Program.fromText_of_parse {code : String} {limit : Nat} {error : Error}
    (fails : Program.parse code limit = .error error) : error.FromText 0 code.toList := by
  have sides := Program.parse_sides code limit
  rw [fails] at sides
  cases sides with
  | error related => exact related.2

/-- The functions in the store of such an engine have well-formed bodies. -/
theorem Engine.Scripted.known {engine : Engine} (scripted : engine.Scripted) :
    engine.machine.store.Known Node.WellFormed .all := by
  induction scripted with
  | new limit sink => exact Engine.initialStore_known Node.WellFormed
  | evaluate scripted code ih =>
    exact (Regime.sound.evaluate_ends ih fun _ read => Program.parse_wellFormed read).1
  | @call engine scripted function receiver arguments known this given ih =>
    exact (Regime.perform_ends
      (Regime.sound.callWithin_ends engine.limit ⟨rfl, ih⟩ known this given)).1

/-- Every tree that is read is well-formed, so neither reading a text nor running a script
that was read ends with an error about what should never happen. -/
theorem reading_is_sound :
    (∀ (base : Nat) (text : List Char) (error : Error),
        .error error ∈ Scan.scanAll base text ∨ State.ofText base text = .error error →
          error.isDead = false) ∧
      (∀ (base : Nat) (text : List Char) (state : State), Reached base text state →
        ∀ (limit : Nat) (entry : Entry),
          (∀ tree after, entry.run limit state = .ok tree after → tree.WellFormed) ∧
            ∀ error after, entry.run limit state = .error error after → error.isDead = false) ∧
      (∀ (code : String) (limit : Nat),
        (∀ program, Program.parse code limit = .ok program →
            everyStmt Node.WellFormed program.body) ∧
          ∀ error, Program.parse code limit = .error error → error.isDead = false) ∧
      (∀ (limit : Nat) (scope : FrameId) (program : Program) (machine : Machine),
        everyStmt Node.WellFormed program.body → machine.store.Known Node.WellFormed .all →
          ∀ error after, runProgram limit scope program machine = .error error after →
            error.isDead = false) ∧
      ∀ engine : Engine, engine.Scripted → ∀ (code : String) (error : Error),
        (engine.evaluate code).1 = .error error → error.isDead = false := by
  refine ⟨fun base text error fails => ?_, fun base text state reached limit entry => ⟨?_, ?_⟩,
    fun code limit => ⟨fun program read => Program.parse_wellFormed read, fun error fails => ?_⟩,
    fun limit scope program machine every known error after fails => ?_,
    fun engine scripted code error fails => ?_⟩
  · rcases fails with member | fails
    · have known : error.FromScan base text := Scan.scanUpTo_from member
      exact known.fromText.not_dead
    · exact (fromText_of_ofText fails).not_dead
  · exact fun tree after runs => reached.wellFormed runs
  · exact fun error after runs => (reached.fromText runs).not_dead
  · exact (Program.fromText_of_parse fails).not_dead
  · have place : Footing.all.frame scope := trivial
    have ends := Regime.sound.runProgram_ends limit ⟨rfl, known⟩ place every
    rw [fails] at ends
    exact ends.1.not_dead
  · have every : ∀ program, Program.parse code = .ok program →
        everyStmt Node.WellFormed program.body := fun _ read => Program.parse_wellFormed read
    obtain ⟨-, raises⟩ := Regime.sound.evaluate_ends scripted.known every
    rcases raises error fails with unread | raised
    · exact (Program.fromText_of_parse unread).not_dead
    · exact raised.not_dead

/-- An assignment of a variable that is not there. -/
def unboundAssignment : Program :=
  ⟨[.expression (.assign (.identifier "a") (.identifier "b"))]⟩

/-- A loop that is read from the middle of a text, an assignment that fails on a new
machine, and a script that fails in a new engine. -/
theorem sample_sound :
    (∃ state tree after, Reached 3 "for (a.b of c) d += 1".toList state ∧
        Entry.stmt.run 9 state = .ok tree after ∧ tree.WellFormed) ∧
      (∃ error after, runProgram 4 Engine.global unboundAssignment
          ⟨Engine.initialStore, .unlimited, 0⟩ = .error error after ∧ error.isDead = false) ∧
      ∃ error, ((Engine.new 4 .unlimited).evaluate "let a = 1; a.b.c").1 = .error error ∧
        error.isDead = false := by
  refine ⟨?_, ?_, ?_⟩
  · have reads : (match State.ofText 3 "for (a.b of c) d += 1".toList with
        | .ok state =>
          match Entry.stmt.run 9 state with
          | .ok _ _ => true
          | .error _ _ => false
        | .error _ => false) = true := by decide +kernel
    cases starts : State.ofText 3 "for (a.b of c) d += 1".toList with
    | error error =>
      rw [starts] at reads
      cases reads
    | ok state =>
      rw [starts] at reads
      cases runs : Entry.stmt.run 9 state with
      | error error after =>
        simp only [runs] at reads
        cases reads
      | ok tree after =>
        have reached := Reached.start starts
        exact ⟨state, tree, after, reached, runs,
          (reading_is_sound.2.1 _ _ _ reached 9 .stmt).1 tree after runs⟩
  · have every : everyStmt Node.WellFormed unboundAssignment.body :=
      ⟨⟨trivial, rfl, trivial, trivial⟩, trivial⟩
    have sound := reading_is_sound.2.2.2.1 4 Engine.global unboundAssignment
      ⟨Engine.initialStore, .unlimited, 0⟩ every (Engine.initialStore_known _)
    exact ⟨_, _, rfl, sound _ _ rfl⟩
  · have fails : (match ((Engine.new 4 .unlimited).evaluate "let a = 1; a.b.c").1 with
        | .ok _ => false
        | .error _ => true) = true := by decide +kernel
    cases result : ((Engine.new 4 .unlimited).evaluate "let a = 1; a.b.c").1 with
    | ok value =>
      rw [result] at fails
      cases fails
    | error error =>
      exact ⟨error, rfl, reading_is_sound.2.2.2.2 _ (.new 4 .unlimited) _ error result⟩

end Scriptlet
