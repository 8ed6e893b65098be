import Scriptlet.Proofs.Discipline.Evaluation

/-!
# Runs as stories

A run asks its sink for nothing but to take a line, and goes on only if the line was taken.
So a run is a story that no sink has a part in: the lines that it writes, each with the store
at that moment, and how it ends. What the run does on a sink is to tell the story up to the
first line that is refused.

Two runs of one script are compared by their stories. The runs may differ in two ways: the
second one may have a higher limit on calls, and a refused line may leave it with another
store.
-/

namespace Scriptlet

open Eval

/-! ## A host with an aftermath -/

namespace Eval

/-- Calls a function, with at most `room` calls inside one another, where what functions of
the host do is up to `native`. -/
def hostedFunction (native : Callback → List Value → Eval Value) (limit : Nat) : Nat → Call
  | 0, _, _, _ => throw (.tooDeep limit)
  | room + 1, function, receiver, arguments =>
    hostedStep native limit (hostedFunction native limit room) function receiver arguments

/-- Runs a script in a scope, where what functions of the host do is up to `native`. -/
def hostedProgram (native : Callback → List Value → Eval Value) (limit : Nat) (scope : FrameId)
    (program : Program) : Eval Value :=
  fun machine =>
    (Completion.value <$>
      runStmts (hostedFunction native limit (callRoom limit machine)) scope program.body) machine

theorem hostedFunction_callNative (limit room : Nat) :
    hostedFunction callNative limit room = callFunction limit room := by
  induction room with
  | zero => rfl
  | succ room ih =>
    funext function receiver arguments
    rw [hostedFunction, ih, hostedStep_callNative]
    rfl

/-- Writes a line of output. Where it is refused, the store becomes what `aftermath` makes of
it. -/
def writeLineLeaving (aftermath : Store → Store) (line : String) : Eval Unit := fun machine =>
  match machine.sink.log line with
  | (some reason, sink) =>
    .error (.output reason) ⟨aftermath machine.store, sink, machine.openCalls⟩
  | (none, sink) => .ok () { machine with sink }

/-- The functions of the host, but where a line is refused, the store becomes what `aftermath`
makes of it. -/
def callNativeLeaving (aftermath : Store → Store) : Callback → List Value → Eval Value :=
  callNativeBy (writeLineLeaving aftermath)

theorem callNativeLeaving_id : callNativeLeaving id = callNative := rfl

end Eval

/-! ## Stories -/

/-- A line of output, and the store when it was written. -/
structure Moment where
  line : String
  store : Store

/-- What a run does, apart from its sink. -/
structure Story (α : Type) where
  moments : List Moment
  result : Except Error α
  /-- The store at the end. -/
  store : Store

namespace Story

variable {α β : Type} {aftermath : Store → Store} {openCalls : Nat} {store : Store}

def lines (story : Story α) : List String :=
  story.moments.map (·.line)

/-! ## Telling a story to a sink -/

/-- How a story ends on a sink that took all its lines. -/
def conclude (story : Story α) (openCalls : Nat) (sink : Sink) :
    EStateM.Result Error Machine α :=
  match story.result with
  | .ok value => .ok value ⟨story.store, sink, openCalls⟩
  | .error error => .error error ⟨story.store, sink, openCalls⟩

/-- Writes the lines of moments and goes on with `next`. Where the sink refuses a line, the
store of that moment becomes what `aftermath` makes of it, and nothing else happens. -/
def follow (aftermath : Store → Store) (openCalls : Nat)
    (next : Sink → EStateM.Result Error Machine α) :
    List Moment → Sink → EStateM.Result Error Machine α
  | [], sink => next sink
  | moment :: rest, sink =>
    match sink.log moment.line with
    | (some reason, sink) => .error (.output reason) ⟨aftermath moment.store, sink, openCalls⟩
    | (none, sink) => follow aftermath openCalls next rest sink

/-- What becomes of a story on a sink. -/
def tell (story : Story α) (aftermath : Store → Store) (openCalls : Nat) (sink : Sink) :
    EStateM.Result Error Machine α :=
  follow aftermath openCalls (story.conclude openCalls) story.moments sink

theorem follow_append (next : Sink → EStateM.Result Error Machine α)
    (first second : List Moment) (sink : Sink) :
    follow aftermath openCalls next (first ++ second) sink =
      follow aftermath openCalls (follow aftermath openCalls next second) first sink := by
  induction first generalizing sink with
  | nil => rfl
  | cons moment rest ih =>
    simp only [List.cons_append, follow]
    split
    · rfl
    · exact ih _

/-- What is done with a result can be done at the end of the story, if it lets the refusal of
a line pass. -/
theorem follow_map {finish : EStateM.Result Error Machine α → EStateM.Result Error Machine β}
    {outside : Nat}
    (passes : ∀ reason store sink, finish (.error (.output reason) ⟨store, sink, openCalls⟩) =
      .error (.output reason) ⟨store, sink, outside⟩)
    (next : Sink → EStateM.Result Error Machine α) (moments : List Moment) (sink : Sink) :
    finish (follow aftermath openCalls next moments sink) =
      follow aftermath outside (fun sink => finish (next sink)) moments sink := by
  induction moments generalizing sink with
  | nil => rfl
  | cons moment rest ih =>
    simp only [follow]
    split
    · exact passes _ _ _
    · exact ih _

/-! ## The story of a computation -/

/-- Whether a computation does what the story says, on every sink. -/
def Tells (story : Story α) (aftermath : Store → Store) (store : Store) (openCalls : Nat)
    (x : Eval α) : Prop :=
  ∀ sink, x ⟨store, sink, openCalls⟩ = story.tell aftermath openCalls sink

/-- A story that goes on with another one. -/
def andThen (story : Story α) (next : Story β) : Story β :=
  ⟨story.moments ++ next.moments, next.result, next.store⟩

/-- A story that breaks off with an error. -/
def broken (story : Story α) (error : Error) : Story β :=
  ⟨story.moments, .error error, story.store⟩

/-- What a computation makes of the result of the one before it. -/
def resume (f : α → Eval β) : EStateM.Result Error Machine α → EStateM.Result Error Machine β
  | .ok value machine => f value machine
  | .error error machine => .error error machine

theorem bind_eq_resume (x : Eval α) (f : α → Eval β) (machine : Machine) :
    (x >>= f) machine = resume f (x machine) := by
  show EStateM.bind x f machine = _
  unfold EStateM.bind
  cases x machine <;> rfl

theorem Tells.bind {story : Story α} {x : Eval α} (tells : story.Tells aftermath store openCalls x)
    (f : α → Eval β) (sink : Sink) :
    (x >>= f) ⟨store, sink, openCalls⟩ =
      follow aftermath openCalls (fun sink => resume f (story.conclude openCalls sink))
        story.moments sink := by
  rw [bind_eq_resume, tells sink]
  exact follow_map (fun _ _ _ => rfl) _ _ _

theorem Tells.andThen {story : Story α} {next : Story β} {x : Eval α} {f : α → Eval β} {value : α}
    (tells : story.Tells aftermath store openCalls x) (ends : story.result = .ok value)
    (goes : next.Tells aftermath story.store openCalls (f value)) :
    (story.andThen next).Tells aftermath store openCalls (x >>= f) := by
  intro sink
  have continued : (fun sink => resume f (story.conclude openCalls sink)) =
      follow aftermath openCalls (next.conclude openCalls) next.moments := by
    funext after
    simp only [conclude, ends, resume]
    exact goes after
  rw [tells.bind, continued, ← follow_append]
  rfl

theorem Tells.broken {story : Story α} {x : Eval α} {error : Error}
    (tells : story.Tells aftermath store openCalls x) (ends : story.result = .error error)
    (f : α → Eval β) : (story.broken error).Tells aftermath store openCalls (x >>= f) := by
  intro sink
  have stopped : (fun sink => resume f (story.conclude openCalls sink)) =
      (story.broken error).conclude openCalls := by
    funext after
    simp only [conclude, ends, resume, Story.broken]
  rw [tells.bind, stopped]
  rfl

/-- The story of a change of the store, which writes nothing. -/
def ofChange (store : Store) : Except Error (α × Store) → Story α
  | .ok (value, changed) => ⟨[], .ok value, changed⟩
  | .error error => ⟨[], .error error, store⟩

theorem tells_attempting (change : Store → Except Error (α × Store)) :
    (ofChange store (change store)).Tells aftermath store openCalls (attempting change) := by
  intro sink
  unfold attempting
  dsimp only
  cases change store <;> rfl

/-- What closing a call makes of the result of its body. -/
def closeCall : EStateM.Result Error Machine α → EStateM.Result Error Machine α
  | .ok value after => .ok value { after with openCalls := after.openCalls - 1 }
  | .error error after => .error error { after with openCalls := after.openCalls - 1 }

/-- The body of a call tells its story with one more open call. -/
theorem Tells.withCall {limit : Nat} {story : Story α} {x : Eval α}
    (tells : story.Tells aftermath store (openCalls + 1) x) (opens : openCalls < limit) :
    story.Tells aftermath store openCalls (withCall limit x) := by
  intro sink
  have closed : (fun sink => closeCall (story.conclude (openCalls + 1) sink)) =
      story.conclude openCalls := by
    funext after
    unfold conclude
    cases story.result <;> rfl
  calc Eval.withCall limit x ⟨store, sink, openCalls⟩
      = closeCall (x ⟨store, sink, openCalls + 1⟩) := by
        unfold Eval.withCall
        rw [if_neg (Nat.not_le.mpr opens)]
        cases x ⟨store, sink, openCalls + 1⟩ <;> rfl
    _ = story.tell aftermath openCalls sink := by
        rw [tells sink]
        unfold tell
        rw [← closed]
        exact follow_map (fun _ _ _ => rfl) _ _ _

theorem tells_withCall_refused {limit : Nat} (full : limit ≤ openCalls) (x : Eval α) :
    (ofChange store (.error (.tooDeep limit)) : Story α).Tells aftermath store openCalls
      (Eval.withCall limit x) := by
  intro sink
  unfold Eval.withCall
  rw [if_pos full]
  rfl

/-! ## Comparing stories -/

/-- Whether a story is the other one, or stops in it because its limit on calls is lower. -/
def CutShort (limit limit' : Nat) (story other : Story α) : Prop :=
  story = other ∨
    limit < limit' ∧ story.result = .error (.tooDeep limit) ∧ story.moments <+: other.moments

/-- What is known at the end of a story that ends with a value. -/
def Ends (footing : Footing) (post : Footing → α → Prop) (story : Story α) : Prop :=
  ∀ value, story.result = .ok value →
    ∃ after, footing ≤ after ∧ Regime.any.store after story.store ∧ post after value

theorem Ends.from {footing after : Footing} {post : Footing → α → Prop} {story : Story α}
    (grows : footing ≤ after) (ends : story.Ends after post) : story.Ends footing post := by
  intro value isValue
  obtain ⟨last, grown, known, holds⟩ := ends value isValue
  exact ⟨last, grows.trans grown, known, holds⟩

/-- Two computations with stories. That of the first is at most cut short, and a refused line
has an aftermath in the second only. -/
def Relates (limit limit' : Nat) (aftermath : Store → Store) (footing : Footing)
    (post : Footing → α → Prop) (x y : Eval α) : Prop :=
  ∀ store openCalls, Regime.any.store footing store →
    ∃ story other : Story α, story.Tells id store openCalls x ∧
      other.Tells aftermath store openCalls y ∧ other.Ends footing post ∧
      story.CutShort limit limit' other

section

variable {limit limit' : Nat} {footing : Footing}

theorem Relates.bind {mid : Footing → α → Prop} {post : Footing → β → Prop} {x y : Eval α}
    {f g : α → Eval β} (first : Relates limit limit' aftermath footing mid x y)
    (next : ∀ after value, footing ≤ after → mid after value →
      Relates limit limit' aftermath after post (f value) (g value)) :
    Relates limit limit' aftermath footing post (x >>= f) (y >>= g) := by
  intro store openCalls holds
  obtain ⟨story, other, tells, tells', ends, cut⟩ := first store openCalls holds
  cases result : other.result with
  | error error =>
    have nothing : (other.broken error : Story β).Ends footing post := nofun
    rcases cut with rfl | ⟨lower, deep, before⟩
    · exact ⟨story.broken error, story.broken error, tells.broken result f,
        tells'.broken result g, nothing, .inl rfl⟩
    · exact ⟨story.broken (.tooDeep limit), other.broken error, tells.broken deep f,
        tells'.broken result g, nothing, .inr ⟨lower, rfl, before⟩⟩
  | ok value =>
    obtain ⟨after, grows, known, found⟩ := ends value result
    obtain ⟨rest, rest', goes, goes', ends', cut'⟩ :=
      next after value grows found other.store openCalls known
    have finished : (other.andThen rest').Ends footing post := Ends.from grows ends'
    rcases cut with rfl | ⟨lower, deep, before⟩
    · refine ⟨story.andThen rest, story.andThen rest', tells.andThen result goes,
        tells'.andThen result goes', finished, ?_⟩
      rcases cut' with rfl | ⟨lower, deep, before⟩
      · exact .inl rfl
      · exact .inr ⟨lower, deep, (List.prefix_append_right_inj _).mpr before⟩
    · -- the first computation has stopped, and the second one only adds moments
      exact ⟨story.broken (.tooDeep limit), other.andThen rest', tells.broken deep f,
        tells'.andThen result goes', finished,
        .inr ⟨lower, rfl, before.trans (List.prefix_append _ _)⟩⟩

theorem Relates.attempts {post : Footing → α → Prop} {change : Store → Except Error (α × Store)}
    (answers : ∀ before, Regime.any.store footing before →
      Answers (fun (value, changed) =>
        ∃ after, footing ≤ after ∧ Regime.any.store after changed ∧ post after value)
        Regime.any.raises (change before)) :
    Relates limit limit' aftermath footing post (attempting change) (attempting change) := by
  intro store openCalls holds
  refine ⟨_, _, tells_attempting change, tells_attempting change, ?_, .inl rfl⟩
  have answer := answers store holds
  cases result : change store with
  | error error => nofun
  | ok pair =>
    rw [result] at answer
    rintro _ ⟨⟩
    exact answer

/-- Where the lower limit refuses a call, the story is cut short before its first line. -/
theorem Relates.withCall (le : limit ≤ limit') {post : Footing → α → Prop} {x y : Eval α}
    (body : Relates limit limit' aftermath footing post x y) :
    Relates limit limit' aftermath footing post (Eval.withCall limit x)
      (Eval.withCall limit' y) := by
  intro store openCalls holds
  obtain ⟨story, other, tells, tells', ends, cut⟩ := body store (openCalls + 1) holds
  by_cases opens : openCalls < limit
  · exact ⟨story, other, tells.withCall opens, tells'.withCall (by omega), ends, cut⟩
  · have refused : (ofChange store (.error (.tooDeep limit))).Tells id store openCalls
        (Eval.withCall limit x) := tells_withCall_refused (by omega) x
    by_cases opens' : openCalls < limit'
    · exact ⟨_, other, refused, tells'.withCall opens', ends,
        .inr ⟨by omega, rfl, List.nil_prefix⟩⟩
    · refine ⟨_, _, refused, tells_withCall_refused (by omega) y, nofun, ?_⟩
      rcases Nat.lt_or_eq_of_le le with lower | rfl
      · exact .inr ⟨lower, rfl, List.nil_prefix⟩
      · exact .inl rfl

/-- The discipline of computations that are compared by their stories. -/
def telling (limit limit' : Nat) (aftermath : Store → Store) : Discipline where
  toRegime := .any
  relates footing post x y := Relates limit limit' aftermath footing post x y
  bind first next := first.bind next
  attempts answers := Relates.attempts answers

/-! ## The story of a run -/

/-- The story of writing a line has the one moment of that line. -/
def ofLine (store : Store) (line : String) : Story Unit :=
  ⟨[⟨line, store⟩], .ok (), store⟩

theorem tells_writeLineLeaving (line : String) :
    (ofLine store line).Tells aftermath store openCalls (writeLineLeaving aftermath line) := by
  intro sink
  simp only [writeLineLeaving, tell, ofLine, follow]
  rcases sink.log line with ⟨_ | reason, after⟩ <;> rfl

theorem relates_writeLine (footing : Footing) (line : String) :
    (telling limit limit' aftermath).relates footing (fun _ _ => True) (writeLine line)
      (writeLineLeaving aftermath line) := by
  intro store openCalls holds
  have plain : (ofLine store line).Tells id store openCalls (writeLine line) :=
    tells_writeLineLeaving line
  refine ⟨_, _, plain, tells_writeLineLeaving line, ?_, .inl rfl⟩
  rintro _ ⟨⟩
  exact ⟨footing, le_rfl, holds, trivial⟩

theorem relates_callNative (footing : Footing) (behaviour : Callback) (arguments : List Value)
    (given : (telling limit limit' aftermath).ValuesKnown footing arguments) :
    (telling limit limit' aftermath).relates footing (Value.Known Regime.any.node)
      (callNative behaviour arguments) (callNativeLeaving aftermath behaviour arguments) :=
  Discipline.relates_callNativeBy relates_writeLine behaviour given

/-- Calls from bodies that are compared by their stories make such calls. -/
theorem calls_hostedStep (le : limit ≤ limit') {call call' : Call}
    (calls : (telling limit limit' aftermath).Calls call call') :
    (telling limit limit' aftermath).Calls (callStep limit call)
      (hostedStep (callNativeLeaving aftermath) limit' call') := by
  rw [← hostedStep_callNative]
  refine Discipline.calls_hostedStep (telling limit limit' aftermath)
    (telling limit limit' aftermath) rfl relates_callNative (fun body => ?_)
    (fun _ : True => calls)
  exact Relates.withCall le (body trivial)

/-- Under one limit, only the aftermath is different. -/
theorem calls_sameLimit (limit : Nat) (aftermath : Store → Store) (room : Nat) :
    (telling limit limit aftermath).Calls (callFunction limit room)
      (hostedFunction (callNativeLeaving aftermath) limit room) := by
  induction room with
  | zero =>
    intro footing function receiver arguments _ _ _
    exact Discipline.keeps_throw trivial
  | succ room ih => exact calls_hostedStep (Nat.le_refl limit) ih

/-- Under a higher limit, and with room for more calls, the story only gets longer. -/
theorem calls_higherLimit (lower : limit < limit') {room room' : Nat} (le : room ≤ room') :
    (telling limit limit' id).Calls (callFunction limit room) (callFunction limit' room') := by
  induction room generalizing room' with
  | zero =>
    intro footing function receiver arguments known this given store openCalls holds
    obtain ⟨-, other, -, tells, ends, -⟩ :=
      calls_sameLimit limit' id room' known this given store openCalls holds
    rw [callNativeLeaving_id, hostedFunction_callNative] at tells
    exact ⟨⟨[], .error (.tooDeep limit), store⟩, other, fun _ => rfl, tells, ends,
      .inr ⟨lower, rfl, List.nil_prefix⟩⟩
  | succ room ih =>
    obtain ⟨room', rfl⟩ : ∃ fewer, room' = fewer + 1 := ⟨room' - 1, by omega⟩
    have calls := calls_hostedStep (Nat.le_of_lt lower) (ih (by omega : room ≤ room'))
    rw [callNativeLeaving_id, hostedStep_callNative] at calls
    exact calls

theorem relates_runStmts {call call' : Call} (calls : (telling limit limit' aftermath).Calls call call')
    (scope : FrameId) (body : List Stmt) (store : Store) (openCalls : Nat) :
    ∃ story other : Story Value,
      story.Tells id store openCalls (Completion.value <$> runStmts call scope body) ∧
      other.Tells aftermath store openCalls (Completion.value <$> runStmts call' scope body) ∧
      story.CutShort limit limit' other := by
  have run : (telling limit limit' aftermath).relates .all (fun _ _ => True)
      (Completion.value <$> runStmts call scope body)
      (Completion.value <$> runStmts call' scope body) := by
    rw [map_eq_pure_bind, map_eq_pure_bind]
    have every := everyStmt_of_forall (fun _ => trivial) body
    exact Discipline.andThen (Discipline.relates_runStmts calls trivial every)
      fun _ _ _ => Discipline.keeps_pure trivial
  obtain ⟨story, other, tells, tells', -, cut⟩ := run store openCalls store.known_all
  exact ⟨story, other, tells, tells', cut⟩

theorem tells_hostedProgram {native : Callback → List Value → Eval Value} {scope : FrameId}
    {program : Program} {story : Story Value}
    (tells : story.Tells aftermath store openCalls (Completion.value <$>
      runStmts (hostedFunction native limit (limit - openCalls + 1)) scope program.body)) :
    story.Tells aftermath store openCalls (hostedProgram native limit scope program) := by
  intro sink
  unfold hostedProgram callRoom
  exact tells sink

theorem tells_runProgram {scope : FrameId} {program : Program} {story : Story Value}
    (tells : story.Tells aftermath store openCalls (Completion.value <$>
      runStmts (callFunction limit (limit - openCalls + 1)) scope program.body)) :
    story.Tells aftermath store openCalls (runProgram limit scope program) := by
  intro sink
  unfold runProgram callRoom
  exact tells sink

/-- A run and the same run with an aftermath tell one story. -/
theorem exists_story (limit : Nat) (aftermath : Store → Store) (scope : FrameId)
    (program : Program) (store : Store) (openCalls : Nat) :
    ∃ story : Story Value,
      story.Tells id store openCalls (runProgram limit scope program) ∧
      story.Tells aftermath store openCalls
        (hostedProgram (callNativeLeaving aftermath) limit scope program) := by
  obtain ⟨story, other, tells, tells', cut⟩ :=
    relates_runStmts (calls_sameLimit limit aftermath (limit - openCalls + 1)) scope program.body
      store openCalls
  rcases cut with rfl | ⟨lower, -⟩
  · exact ⟨story, tells_runProgram tells, tells_hostedProgram tells'⟩
  · exact absurd lower (Nat.lt_irrefl limit)

/-- The story of a run under a lower limit is that under a higher one, at most cut short. -/
theorem exists_cutShort (le : limit ≤ limit') (scope : FrameId) (program : Program) (store : Store)
    (openCalls : Nat) :
    ∃ story other : Story Value,
      story.Tells id store openCalls (runProgram limit scope program) ∧
      other.Tells id store openCalls (runProgram limit' scope program) ∧
      story.CutShort limit limit' other := by
  rcases Nat.lt_or_eq_of_le le with lower | rfl
  · have rooms : limit - openCalls + 1 ≤ limit' - openCalls + 1 := by omega
    obtain ⟨story, other, tells, tells', cut⟩ :=
      relates_runStmts (calls_higherLimit lower rooms) scope program.body store openCalls
    exact ⟨story, other, tells_runProgram tells, tells_runProgram tells', cut⟩
  · obtain ⟨story, tells, -⟩ := exists_story limit id scope program store openCalls
    exact ⟨story, story, tells, tells, .inl rfl⟩

end
end Story
end Scriptlet
