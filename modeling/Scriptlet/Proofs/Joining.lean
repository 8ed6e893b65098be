import Scriptlet.Grammar.Operand
import Scriptlet.Proofs.Layout
import Scriptlet.Proofs.TokenRun

/-!
# Reading on

A parse of a text that ends, beside a parse of a text that goes on with something else there:
with an end of its own, or with a semicolon and another text. What the first parse reads, the
second reads too. Where the first one stands at its end, the second one may have taken the
semicolon as the end of a statement.

* `Joint` says what stands where the first text ends;
* `Inside`, `Edge` and `Past` say where the two parses stand: before the same token, at the end
  and the semicolon, or at the end and behind the semicolon;
* `Carries` says that the second parse reads what the first one reads, and where both stand
  afterwards. It also says that tokens were taken, as loops need it;
* `Strays` allows that the second parse reads too much at the end, which happens in lists of
  statements. They are not closed there, so no parse that needs their end succeeds;
* `loop_carries` is the rule for loops. Every other primitive of the grammar has its own rule.
-/

namespace Scriptlet
namespace Grammar

variable {α β : Type}

/-! ## Where two parses stand -/

/-- The tokens that a parse has before it. -/
structure Ahead where
  current : Token
  upcoming : List (Except Error Token)

/-- The tokens that a parse has before it. -/
def State.ahead (state : State) : Ahead :=
  ⟨state.current, state.upcoming⟩

/-- Whether there are no tokens left. -/
structure Ahead.Ended (ahead : Ahead) : Prop where
  kind : ahead.current.kind = .eof
  upcoming : ahead.upcoming = []

/-- What stands where a text ends: another end, or a semicolon and the pieces of a text that
does not begin with `else`. -/
structure Joint where
  mark : Token
  after : List (Except Error Token)
  closes : mark.kind = .eof ∨ mark.kind = .symbol .semicolon ∧
    ∃ next later, after = .ok next :: later ∧ next.kind ≠ .keyword .else_

namespace Joint

/-- The pieces of a text, and those of one that goes on after them. What follows an error does
not matter: the first text is not read further. -/
inductive Upcoming (joint : Joint) :
    List (Except Error Token) → List (Except Error Token) → Prop where
  | stop {token : Token} (isEnd : token.kind = .eof) :
    Upcoming joint [.ok token] (.ok joint.mark :: joint.after)
  | token {a b : Token} {left right : List (Except Error Token)} (alike : a.Alike b)
    (isToken : a.kind ≠ .eof) (more : Upcoming joint left right) :
    Upcoming joint (.ok a :: left) (.ok b :: right)
  | error {error : Error} {left right : List (Except Error Token)} :
    Upcoming joint (.error error :: left) right

variable (joint : Joint)

/-- Before the same token, but maybe after a line break only in one of the texts. -/
structure First (s t : Ahead) : Prop where
  kind : s.current.kind = t.current.kind
  lexeme : s.current.lexeme = t.current.lexeme
  isToken : s.current.kind ≠ .eof
  upcoming : joint.Upcoming s.upcoming t.upcoming

/-- Before the same token. -/
structure Inside (s t : Ahead) : Prop extends First joint s t where
  newlineBefore : s.current.newlineBefore = t.current.newlineBefore

/-- At the end, and at what stands in its place. -/
structure Edge (s t : Ahead) : Prop where
  ended : s.Ended
  mark : t = ⟨joint.mark, joint.after⟩

/-- At the end, and behind the semicolon. -/
structure Past (s t : Ahead) : Prop where
  ended : s.Ended
  semicolon : joint.mark.kind = .symbol .semicolon
  after : joint.after = .ok t.current :: t.upcoming

/-- Before the same token, or at the end and at what stands in its place. -/
def Near (s t : Ahead) : Prop :=
  joint.Inside s t ∨ joint.Edge s t

/-- Wherever two parses may stand after a statement. -/
def Far (s t : Ahead) : Prop :=
  joint.Near s t ∨ joint.Past s t

/-- Before the same token, or at the end and anywhere. -/
def Any (s t : Ahead) : Prop :=
  joint.First s t ∨ s.Ended

variable {joint} {s t : Ahead}

theorem Near.far (near : joint.Near s t) : joint.Far s t :=
  .inl near

theorem Near.any (near : joint.Near s t) : joint.Any s t :=
  near.imp Inside.toFirst Edge.ended

theorem Far.any (far : joint.Far s t) : joint.Any s t :=
  far.elim Near.any fun past => .inr past.ended

theorem Inside.near (inside : joint.Inside s t) : joint.Near s t :=
  .inl inside

theorem Past.kind_ne (past : joint.Past s t) : t.current.kind ≠ .keyword .else_ := by
  rcases joint.closes with isEnd | ⟨_, next, later, after, noElse⟩
  · rw [past.semicolon] at isEnd
    cases isEnd
  · rw [past.after] at after
    cases after
    exact noElse

theorem Edge.kind (edge : joint.Edge s t) :
    t.current.kind = .eof ∨ t.current.kind = .symbol .semicolon := by
  rw [edge.mark]
  exact joint.closes.imp_right And.left

end Joint

/-! ## What the second parse reads -/

/-- Two parses at the same level. -/
structure Level (s t : State) : Prop where
  depth : s.depth = t.depth
  allowIn : s.allowIn = t.allowIn

theorem Level.trans {first second third : State} (before : Level first second)
    (after : Level second third) : Level first third :=
  ⟨before.depth.trans after.depth, before.allowIn.trans after.allowIn⟩

/-- Whether a parse has come back to its level and has taken tokens, but no errors, from the
pieces ahead; `some` if it has taken at least one. -/
structure Took (some : Bool) (state after : State) : Prop where
  level : Level state after
  pieces : ∃ taken : List Token, state.upcoming = taken.map .ok ++ after.upcoming ∧
    (some = true → taken ≠ [])

theorem Took.none (state : State) : Took false state state :=
  ⟨⟨rfl, rfl⟩, [], rfl, nofun⟩

theorem Took.trans {some some' : Bool} {first second third : State}
    (before : Took some first second) (after : Took some' second third) :
    Took (some || some') first third := by
  obtain ⟨level, taken, same, enough⟩ := before
  obtain ⟨level', taken', same', enough'⟩ := after
  refine ⟨level.trans level', taken ++ taken', ?_, fun either empty => ?_⟩
  · rw [same, same', List.map_append, List.append_assoc]
  · obtain ⟨rfl, rfl⟩ := List.append_eq_nil_iff.mp empty
    rcases Bool.or_eq_true_iff.mp either with is | is
    · exact enough is rfl
    · exact enough' is rfl

theorem Took.always {some : Bool} {state after : State} (took : Took true state after) :
    Took some state after := by
  obtain ⟨level, taken, same, enough⟩ := took
  exact ⟨level, taken, same, fun _ => enough rfl⟩

theorem Took.length_lt {state after : State} (took : Took true state after) :
    after.upcoming.length < state.upcoming.length := by
  obtain ⟨_, taken, same, enough⟩ := took
  have := List.length_pos_iff.mpr (enough rfl)
  simp only [same, List.length_append, List.length_map]
  omega

/-- What was taken in a context, seen from outside. -/
theorem Took.withAllowIn {some allowIn : Bool} {state after : State}
    (took : Took some { state with allowIn } after) :
    Took some state { after with allowIn := state.allowIn } :=
  ⟨⟨took.level.depth, rfl⟩, took.pieces⟩

theorem Took.nested {some : Bool} {state after : State}
    (took : Took some { state with depth := state.depth + 1 } after) :
    Took some state { after with depth := after.depth - 1 } :=
  ⟨⟨congrArg (· - 1) took.level.depth, took.level.allowIn⟩, took.pieces⟩

/-- Whether the second parse reads what the first one reads, from where they stand before to
where they stand afterwards. Both take tokens if `took` holds of what they read. -/
def Carries (starts ends : Ahead → Ahead → Prop) (took : α → Bool) (x y : Parse α) : Prop :=
  ∀ ⦃s t : State⦄ ⦃a : α⦄ ⦃s' : State⦄, starts s.ahead t.ahead → Level s t → x s = .ok a s' →
    ∃ t', y t = .ok a t' ∧ ends s'.ahead t'.ahead ∧ Level s' t' ∧ Took (took a) s s' ∧
      Took (took a) t t'

/-- Reads the same without the need of taking tokens. -/
abbrev Goes (starts ends : Ahead → Ahead → Prop) (x : Parse α) : Prop :=
  Carries starts ends (fun _ => false) x x

/-- Takes at least one token, the same in both texts, and fails where there is none. -/
abbrev Joint.Takes (joint : Joint) (ends : Ahead → Ahead → Prop) (x : Parse α) : Prop :=
  Carries joint.Any ends (fun _ => true) x x

/-- Whether the second parse reads what the first one reads, unless the first comes to the end:
then the second one may have gone astray, if `astray` holds of what was read. -/
def Strays (astray : α → Prop) (starts ends : Ahead → Ahead → Prop) (took : α → Bool)
    (x y : Parse α) : Prop :=
  ∀ ⦃s t : State⦄ ⦃a : α⦄ ⦃s' : State⦄, starts s.ahead t.ahead → Level s t → x s = .ok a s' →
    Took (took a) s s' ∧ (astray a ∧ s'.ahead.Ended ∨
      ∃ t', y t = .ok a t' ∧ ends s'.ahead t'.ahead ∧ Level s' t' ∧ Took (took a) t t')

/-- Fails where there are no tokens left. -/
def Starved (x : Parse α) : Prop :=
  ∀ ⦃s : State⦄ ⦃a : α⦄ ⦃s' : State⦄, s.ahead.Ended → x s ≠ .ok a s'

variable {joint : Joint} {starts ends middle : Ahead → Ahead → Prop} {took : α → Bool}
  {astray : α → Prop} {x y : Parse α}

theorem Carries.toStrays (carries : Carries starts ends took x y) :
    Strays astray starts ends took x y := by
  intro s t a s' stands level ran
  obtain ⟨t', ran', stands, level, left, right⟩ := carries stands level ran
  exact ⟨left, .inr ⟨t', ran', stands, level, right⟩⟩

/-- Where nothing goes astray, the second parse reads what the first one reads. -/
theorem Strays.toCarries (strays : Strays (fun _ => False) starts ends took x y) :
    Carries starts ends took x y := by
  intro s t a s' stands level ran
  obtain ⟨left, lost | ⟨t', ran', stands, level, right⟩⟩ := strays stands level ran
  · exact lost.1.elim
  · exact ⟨t', ran', stands, level, left, right⟩

/-! ## Weakening -/

theorem Strays.mono {starts' ends' : Ahead → Ahead → Prop}
    (strays : Strays astray starts ends took x y) (before : ∀ s t, starts' s t → starts s t)
    (after : ∀ s t, ends s t → ends' s t) : Strays astray starts' ends' took x y := by
  intro s t a s' stands level ran
  obtain ⟨left, lost | ⟨t', ran', stands, rest⟩⟩ := strays (before _ _ stands) level ran
  · exact ⟨left, .inl lost⟩
  · exact ⟨left, .inr ⟨t', ran', after _ _ stands, rest⟩⟩

theorem Carries.mono {starts' ends' : Ahead → Ahead → Prop} (carries : Carries starts ends took x y)
    (before : ∀ s t, starts' s t → starts s t) (after : ∀ s t, ends s t → ends' s t) :
    Carries starts' ends' took x y :=
  (carries.toStrays.mono before after).toCarries

/-- A parse that takes tokens takes them whatever it reads. -/
theorem Carries.always {some : α → Bool} (carries : Carries starts ends (fun _ => true) x y) :
    Carries starts ends some x y := by
  intro s t a s' stands level ran
  obtain ⟨t', ran', ends, level', left, right⟩ := carries stands level ran
  exact ⟨t', ran', ends, level', left.always, right.always⟩

theorem Joint.Takes.first {some : α → Bool} (takes : joint.Takes ends x) :
    Carries joint.First ends some x x :=
  takes.always.mono (fun _ _ => .inl) fun _ _ => id

theorem Joint.Takes.near {some : α → Bool} (takes : joint.Takes ends x) :
    Carries joint.Near ends some x x :=
  takes.always.mono (fun _ _ => Near.any) fun _ _ => id

theorem Joint.Takes.far {some : α → Bool} (takes : joint.Takes ends x) :
    Carries joint.Far ends some x x :=
  takes.always.mono (fun _ _ => Far.any) fun _ _ => id

/-- Nothing can be taken where there is nothing. -/
theorem Joint.Takes.starved (takes : joint.Takes ends x) : Starved x := by
  intro s a s' ended ran
  obtain ⟨_, _, _, _, left, _⟩ := takes (t := s) (.inr ended) ⟨rfl, rfl⟩ ran
  have less := left.length_lt
  have none : s.upcoming = [] := ended.upcoming
  simp [none] at less

theorem Carries.inside (carries : Carries joint.First ends took x y) :
    Carries joint.Inside ends took x y :=
  carries.mono (fun _ _ => Joint.Inside.toFirst) fun _ _ => id

/-- From the two places near the end. -/
theorem Carries.near (inside : Carries joint.Inside ends took x y)
    (edge : Carries joint.Edge ends took x y) : Carries joint.Near ends took x y := by
  rintro s t a s' (stands | stands) level ran
  · exact inside stands level ran
  · exact edge stands level ran

theorem Carries.nearInside (carries : Carries joint.Near ends took x y) :
    Carries joint.Inside ends took x y :=
  carries.mono (fun _ _ => .inl) fun _ _ => id

theorem Carries.nearEdge (carries : Carries joint.Near ends took x y) :
    Carries joint.Edge ends took x y :=
  carries.mono (fun _ _ => .inr) fun _ _ => id

theorem Starved.edge (starved : Starved x) : Carries joint.Edge ends took x y :=
  fun _ _ _ _ edge _ ran => (starved edge.ended ran).elim

/-- A parse that takes a token wherever there is one. -/
theorem Carries.takes (first : Carries joint.First ends (fun _ => true) x x) (starved : Starved x) :
    joint.Takes ends x := by
  rintro s t a s' (stands | ended) level ran
  · exact first stands level ran
  · exact (starved ended ran).elim

/-! ## Sequencing -/

theorem carries_stop {a : α} (none : took a = false) (stays : ∀ s t, starts s t → ends s t) :
    Carries starts ends took (pure a) (pure a) := by
  intro s t b s' stands level ran
  obtain ⟨rfl, rfl⟩ := pure_eq_ok_iff.mp ran
  refine ⟨t, rfl, stays _ _ stands, level, ?_⟩
  rw [none]
  exact ⟨.none s, .none t⟩

theorem carries_pure {a : α} (none : took a = false) :
    Carries starts starts took (pure a) (pure a) :=
  carries_stop none fun _ _ => id

/-- A parse that never succeeds. -/
theorem carries_of_fails (fails : ∀ s a s', x s ≠ .ok a s') : Carries starts ends took x y :=
  fun s _ a s' _ _ ran => (fails s a s' ran).elim

theorem throw_ne_ok {error : Error} (s : State) (a : α) (s' : State) :
    (throw error : Parse α) s ≠ .ok a s' := by
  change EStateM.Result.error error s ≠ _
  simp

theorem unexpected_ne_ok {expected : Expected} (s : State) (a : α) (s' : State) :
    (unexpected expected : Parse α) s ≠ .ok a s' := by
  change EStateM.Result.error _ s ≠ _
  simp

theorem carries_throw {error : Error} : Carries starts ends took (throw error) y :=
  carries_of_fails throw_ne_ok

theorem carries_unexpected {expected : Expected} :
    Carries starts ends took (unexpected expected) y :=
  carries_of_fails unexpected_ne_ok

theorem carries_tooDeep {limit : Nat} : Carries starts ends took (tooDeep limit) y := by
  refine carries_of_fails fun s a s' ran => ?_
  cases ran

/-- Sequencing before a parse that may go astray. -/
theorem Carries.strays {some some' : Bool} {f g : α → Parse β} {astray : β → Prop}
    (first : Carries starts middle (fun _ => some) x y)
    (second : ∀ a, Strays astray middle ends (fun _ => some') (f a) (g a)) :
    Strays astray starts ends (fun _ => some || some') (x >>= f) (y >>= g) := by
  intro s t b s' stands level ran
  obtain ⟨a, s₁, ran, more⟩ := bind_eq_ok_iff.mp ran
  obtain ⟨t₁, ran', stands, level, left, right⟩ := first stands level ran
  obtain ⟨left', lost | ⟨t', more', stands, level, right'⟩⟩ := second a stands level more
  · exact ⟨left.trans left', .inl lost⟩
  · exact ⟨left.trans left', .inr ⟨t', bind_eq_ok_iff.mpr ⟨a, t₁, ran', more'⟩, stands, level,
      right.trans right'⟩⟩

theorem Carries.bind {some : Bool} {f g : α → Parse β}
    (first : Carries starts middle (fun _ => some) x y)
    (second : ∀ a, Carries middle ends (fun _ => false) (f a) (g a)) :
    Carries starts ends (fun _ => some) (x >>= f) (y >>= g) := by
  have carries := (first.strays fun a => (second a).toStrays).toCarries
  simpa only [Bool.or_false] using carries

/-- Sequencing before a parse that takes tokens. -/
theorem Carries.bindTaking {f g : α → Parse β}
    (first : Carries starts middle (fun _ => false) x y)
    (second : ∀ a, Carries middle ends (fun _ => true) (f a) (g a)) :
    Carries starts ends (fun _ => true) (x >>= f) (y >>= g) :=
  (first.strays fun a => (second a).toStrays).toCarries

/-- What follows has to be there, so the first parse was not at its end. -/
theorem Strays.bind {some : Bool} {f g : α → Parse β}
    (first : Strays astray starts middle (fun _ => some) x y) (starved : ∀ a, Starved (f a))
    (second : ∀ a, Carries middle ends (fun _ => false) (f a) (g a)) :
    Carries starts ends (fun _ => some) (x >>= f) (y >>= g) := by
  intro s t b s' stands level ran
  obtain ⟨a, s₁, ran, more⟩ := bind_eq_ok_iff.mp ran
  obtain ⟨left, ⟨_, isEnd⟩ | ⟨t₁, ran', stands, level, right⟩⟩ := first stands level ran
  · exact absurd more (starved a isEnd)
  · obtain ⟨t', more', stands, level, left', right'⟩ := second a stands level more
    refine ⟨t', bind_eq_ok_iff.mpr ⟨a, t₁, ran', more'⟩, stands, level, ?_⟩
    simpa using And.intro (left.trans left') (right.trans right')

theorem Strays.map {some : Bool} {f : α → β} {astray' : β → Prop}
    (strays : Strays astray starts ends (fun _ => some) x y)
    (lost : ∀ a, astray a → astray' (f a)) :
    Strays astray' starts ends (fun _ => some) (x >>= fun a => pure (f a))
      (y >>= fun a => pure (f a)) := by
  intro s t b s' stands level ran
  obtain ⟨a, s₁, read, ended⟩ := bind_eq_ok_iff.mp ran
  obtain ⟨rfl, rfl⟩ := pure_eq_ok_iff.mp ended
  obtain ⟨left, ⟨is, isEnd⟩ | ⟨t', ran', rest⟩⟩ := strays stands level read
  · exact ⟨left, .inl ⟨lost a is, isEnd⟩⟩
  · exact ⟨left, .inr ⟨t', bind_eq_ok_iff.mpr ⟨a, t', ran', rfl⟩, rest⟩⟩

theorem carries_ofExcept {left right : Except Error α}
    (same : ∀ a, left = .ok a → right = .ok a) :
    Carries starts starts (fun _ => false) (ofExcept left) (ofExcept right) := by
  cases left with
  | error error => exact carries_throw
  | ok a =>
    rw [same a rfl]
    exact carries_pure rfl

theorem Starved.bind {f : α → Parse β} (starved : Starved x) : Starved (x >>= f) := by
  intro s b s' ended ran
  obtain ⟨a, s₁, ran, _⟩ := bind_eq_ok_iff.mp ran
  exact starved ended ran

theorem starved_unexpected {expected : Expected} : Starved (unexpected expected : Parse α) :=
  fun s a s' _ => unexpected_ne_ok s a s'

/-! ## Single tokens -/

/-- Looking at a token that both texts have. -/
theorem strays_peekKind {f g : Kind → Parse α} (within : ∀ s t, starts s t → joint.First s t)
    (each : ∀ kind, kind ≠ .eof → Strays astray starts ends took (f kind) (g kind)) :
    Strays astray starts ends took (peekKind >>= f) (peekKind >>= g) := by
  intro s t b s' stands level ran
  have first := within _ _ stands
  have same : s.current.kind = t.current.kind := first.kind
  change f s.current.kind s = _ at ran
  change _ ∧ (_ ∨ ∃ t', g t.current.kind t = _ ∧ _)
  rw [← same]
  exact each _ first.isToken stands level ran

theorem carries_peekKind {f g : Kind → Parse α} (within : ∀ s t, starts s t → joint.First s t)
    (each : ∀ kind, kind ≠ .eof → Carries starts ends took (f kind) (g kind)) :
    Carries starts ends took (peekKind >>= f) (peekKind >>= g) :=
  (strays_peekKind within fun kind isToken => (each kind isToken).toStrays).toCarries

/-- Looking at the end, in a parse that takes a semicolon for one. -/
theorem carries_peekKind_edge {f : Kind → Parse β} {took : β → Bool}
    (same : f (.symbol .semicolon) = f .eof)
    (edge : Carries joint.Edge ends took (f .eof) (f .eof)) :
    Carries joint.Edge ends took (peekKind >>= f) (peekKind >>= f) := by
  intro s t b s' stands level ran
  have isEnd : s.current.kind = .eof := stands.ended.kind
  change f s.current.kind s = _ at ran
  rw [isEnd] at ran
  change ∃ t', f t.current.kind t = _ ∧ _
  rcases stands.kind with (is : t.current.kind = _) | (is : t.current.kind = _)
  · rw [is]
    exact edge stands level ran
  · rw [is, same]
    exact edge stands level ran

/-- Looking at the current token, in a parse that takes a semicolon for an end. -/
theorem carries_peekKind_near {f : Kind → Parse β} {took : β → Bool}
    (each : ∀ kind, kind ≠ .eof → Carries joint.Inside ends took (f kind) (f kind))
    (same : f (.symbol .semicolon) = f .eof)
    (edge : Carries joint.Edge ends took (f .eof) (f .eof)) :
    Carries joint.Near ends took (peekKind >>= f) (peekKind >>= f) :=
  (carries_peekKind (fun _ _ => Joint.Inside.toFirst) each).near (carries_peekKind_edge same edge)

theorem starved_peekKind {f : Kind → Parse β} (starved : Starved (f .eof)) :
    Starved (peekKind >>= f) := by
  intro s b s' ended ran
  have isEnd : s.current.kind = .eof := ended.kind
  change f s.current.kind s = _ at ran
  rw [isEnd] at ran
  exact starved ended ran

/-- Looking at the current token, in a parse that takes it. -/
theorem takes_peekKind {f : Kind → Parse β}
    (each : ∀ kind, kind ≠ .eof → Carries joint.First ends (fun _ => true) (f kind) (f kind))
    (starved : Starved (f .eof)) : joint.Takes ends (peekKind >>= f) :=
  (carries_peekKind (fun _ _ => id) each).takes (starved_peekKind starved)

/-- Looking at a token that both texts have, as a whole. -/
theorem carries_peek {f g : Token → Parse β} {took : β → Bool}
    (each : ∀ a b : Token, a.kind = b.kind → a.lexeme = b.lexeme →
      Carries joint.First ends took (f a) (g b)) :
    Carries joint.First ends took (peek >>= f) (peek >>= g) :=
  fun s t _ _ stands level ran =>
    each s.current t.current stands.kind stands.lexeme stands level ran

theorem carries_peek_inside {f g : Token → Parse β} {took : β → Bool}
    (each : ∀ a b : Token, a.Alike b → Carries joint.Inside ends took (f a) (g b)) :
    Carries joint.Inside ends took (peek >>= f) (peek >>= g) :=
  fun s t _ _ stands level ran =>
    each s.current t.current ⟨stands.kind, stands.lexeme, stands.newlineBefore⟩ stands level ran

theorem carries_peek_edge {f g : Token → Parse β} {took : β → Bool}
    (each : ∀ a b : Token, a.kind = .eof → b.kind = .eof ∨ b.kind = .symbol .semicolon →
      Carries joint.Edge ends took (f a) (g b)) :
    Carries joint.Edge ends took (peek >>= f) (peek >>= g) :=
  fun s t _ _ stands level ran =>
    each s.current t.current stands.ended.kind stands.kind stands level ran

theorem starved_peek {f : Token → Parse β}
    (starved : ∀ token : Token, token.kind = .eof → Starved (f token)) : Starved (peek >>= f) :=
  fun s _ _ ended ran => starved s.current ended.kind ended ran

/-- Taking a token that both texts have. -/
theorem advance_carries {s t s' : State} {a : Token} (stands : joint.First s.ahead t.ahead)
    (level : Level s t) (ran : advance s = .ok a s') :
    ∃ t', advance t = .ok t.current t' ∧ a = s.current ∧ joint.Near s'.ahead t'.ahead ∧
      Level s' t' ∧ Took true s s' ∧ Took true t t' := by
  obtain ⟨current, upcoming, depth, allowIn⟩ := s
  obtain ⟨current', upcoming', depth', allowIn'⟩ := t
  obtain ⟨rfl, rfl⟩ := level
  have pieces : joint.Upcoming upcoming upcoming' := stands.upcoming
  cases pieces with
  | error => cases ran
  | @stop token isEnd =>
    cases ran
    exact ⟨_, rfl, rfl, .inr ⟨⟨isEnd, rfl⟩, rfl⟩, ⟨rfl, rfl⟩,
      ⟨⟨rfl, rfl⟩, [token], rfl, nofun⟩, ⟨⟨rfl, rfl⟩, [joint.mark], rfl, nofun⟩⟩
  | @token a b left right alike isToken more =>
    cases ran
    refine ⟨_, rfl, rfl, .inl ⟨⟨alike.kind, alike.lexeme, isToken, more⟩, alike.newlineBefore⟩,
      ⟨rfl, rfl⟩, ⟨⟨rfl, rfl⟩, [a], rfl, nofun⟩, ⟨⟨rfl, rfl⟩, [b], rfl, nofun⟩⟩

theorem strays_advance {some : Bool} {f g : Token → Parse α}
    (second : ∀ a b : Token, a.kind = b.kind → a.lexeme = b.lexeme →
      Strays astray joint.Near ends (fun _ => some) (f a) (g b)) :
    Strays astray joint.First ends took (advance >>= f) (advance >>= g) := by
  intro s t b s' stands level ran
  obtain ⟨a, s₁, ran, more⟩ := bind_eq_ok_iff.mp ran
  obtain ⟨t₁, ran', rfl, near, level, left, right⟩ := advance_carries stands level ran
  obtain ⟨left', lost | ⟨t', more', stands, level, right'⟩⟩ :=
    second s.current t.current stands.kind stands.lexeme near level more
  · exact ⟨(left.trans left').always, .inl lost⟩
  · exact ⟨(left.trans left').always, .inr ⟨t', bind_eq_ok_iff.mpr ⟨_, t₁, ran', more'⟩, stands,
      level, (right.trans right').always⟩⟩

theorem carries_advance {f g : Token → Parse α}
    (second : ∀ a b : Token, a.kind = b.kind → a.lexeme = b.lexeme →
      Carries joint.Near ends (fun _ => false) (f a) (g b)) :
    Carries joint.First ends took (advance >>= f) (advance >>= g) :=
  (strays_advance fun a b kind lexeme => (second a b kind lexeme).toStrays).toCarries

theorem expect_eq_ok_iff {kind : Kind} {s s' : State} {a : Token} :
    expect kind s = .ok a s' ↔ s.current.kind = kind ∧ advance s = .ok a s' := by
  change (if s.current.kind = kind then advance else unexpected (.token kind) : Parse Token) s = _
    ↔ _
  split
  · next is => simp [is]
  · next is =>
    simp only [is, false_and, iff_false]
    exact unexpected_ne_ok s a s'

/-- Taking a token of a kind that is asked for. -/
theorem expect_carries {s t s' : State} {kind : Kind} {a : Token} (isToken : kind ≠ .eof)
    (stands : joint.Any s.ahead t.ahead) (level : Level s t) (ran : expect kind s = .ok a s') :
    ∃ b t', expect kind t = .ok b t' ∧ a.lexeme = b.lexeme ∧ joint.Near s'.ahead t'.ahead ∧
      Level s' t' ∧ Took true s s' ∧ Took true t t' := by
  obtain ⟨is, ran⟩ := expect_eq_ok_iff.mp ran
  rcases stands with stands | ended
  · obtain ⟨t', ran', rfl, rest⟩ := advance_carries stands level ran
    have is' : t.current.kind = kind := stands.kind.symm.trans is
    exact ⟨t.current, t', expect_eq_ok_iff.mpr ⟨is', ran'⟩, stands.lexeme, rest⟩
  · exact absurd (is.symm.trans ended.kind) isToken

theorem strays_expect {some : Bool} {f : Token → Parse α} {kind : Kind} (isToken : kind ≠ .eof)
    (second : ∀ a b : Token, a.lexeme = b.lexeme →
      Strays astray joint.Near ends (fun _ => some) (f a) (f b)) :
    Strays astray joint.Any ends (fun _ => true) (expect kind >>= f) (expect kind >>= f) := by
  intro s t b s' stands level ran
  obtain ⟨a, s₁, ran, more⟩ := bind_eq_ok_iff.mp ran
  obtain ⟨b, t₁, ran', same, near, level, left, right⟩ := expect_carries isToken stands level ran
  obtain ⟨left', lost | ⟨t', more', stands, level, right'⟩⟩ := second a b same near level more
  · exact ⟨left.trans left', .inl lost⟩
  · exact ⟨left.trans left', .inr ⟨t', bind_eq_ok_iff.mpr ⟨b, t₁, ran', more'⟩, stands, level,
      right.trans right'⟩⟩

theorem takes_expect {f : Token → Parse α} {kind : Kind} (isToken : kind ≠ .eof)
    (second : ∀ a b : Token, a.lexeme = b.lexeme →
      Carries joint.Near ends (fun _ => false) (f a) (f b)) :
    joint.Takes ends (expect kind >>= f) :=
  (strays_expect isToken fun a b same => (second a b same).toStrays).toCarries

/-- The symbol that closes a construct. -/
theorem takes_close (symbol : Symbol) (a : α) :
    joint.Takes joint.Near (expect (.symbol symbol) >>= fun _ => pure a) :=
  takes_expect nofun fun _ _ _ => carries_pure rfl

theorem takes_expectIdentifier : joint.Takes joint.Near expectIdentifier :=
  takes_expect nofun fun a b same => by
    rw [same]
    exact carries_pure rfl

theorem eat_eq (kind : Kind) (s : State) :
    eat kind s =
      if s.current.kind = kind then
        match advance s with
        | .ok _ after => .ok true after
        | .error error after => .error error after
      else .ok false s := by
  change (if s.current.kind = kind then (advance >>= fun _ => pure true) else pure false :
    Parse Bool) s = _
  split
  · change EStateM.bind advance _ s = _
    unfold EStateM.bind
    cases advance s <;> rfl
  · rfl

theorem eat_bind_of_ne {kind : Kind} {f : Bool → Parse β} {s : State}
    (other : s.current.kind ≠ kind) : (eat kind >>= f) s = f false s := by
  change EStateM.bind (eat kind) f s = _
  simp only [EStateM.bind, eat_eq, if_neg other]

theorem eat_bind_of_eq {kind : Kind} {f : Bool → Parse β} {s : State}
    (same : s.current.kind = kind) : (eat kind >>= f) s = (advance >>= fun _ => f true) s := by
  change EStateM.bind (eat kind) f s = EStateM.bind advance _ s
  simp only [EStateM.bind, eat_eq, if_pos same]
  cases advance s <;> rfl

/-- A token that may be missing, where both texts have one. -/
theorem carries_eat_within {f g : Bool → Parse β} {took : β → Bool} {kind : Kind}
    (within : ∀ s t, starts s t → joint.First s t)
    (yes : Carries joint.Near ends (fun _ => false) (f true) (g true))
    (no : Carries starts ends took (f false) (g false)) :
    Carries starts ends took (eat kind >>= f) (eat kind >>= g) := by
  intro s t b s' stands level ran
  have first := within _ _ stands
  have same : s.current.kind = t.current.kind := first.kind
  by_cases is : s.current.kind = kind
  · rw [eat_bind_of_eq is] at ran
    rw [eat_bind_of_eq (same.symm.trans is)]
    exact carries_advance (fun _ _ _ _ => yes) first level ran
  · rw [eat_bind_of_ne is] at ran
    rw [eat_bind_of_ne (same ▸ is)]
    exact no stands level ran

/-- A token that may be missing, before the end or what stands in its place. -/
theorem carries_eat {f g : Bool → Parse β} {took : β → Bool} {kind : Kind} (isToken : kind ≠ .eof)
    (other : kind ≠ .symbol .semicolon)
    (yes : Carries joint.Near ends (fun _ => false) (f true) (g true))
    (no : Carries joint.Near ends took (f false) (g false)) :
    Carries joint.Near ends took (eat kind >>= f) (eat kind >>= g) := by
  rintro s t b s' (inside | edge) level ran
  · have within := no.mono (fun _ _ => Joint.Inside.near) fun _ _ => id
    exact carries_eat_within (fun _ _ => Joint.Inside.toFirst) yes within inside level ran
  · have left : s.current.kind ≠ kind := fun is => isToken (is.symm.trans edge.ended.kind)
    have right : t.current.kind ≠ kind := by
      intro is
      rcases edge.kind with (isEnd : t.current.kind = _) | (isEnd : t.current.kind = _)
      · exact isToken (is.symm.trans isEnd)
      · exact other (is.symm.trans isEnd)
    rw [eat_bind_of_ne left] at ran
    rw [eat_bind_of_ne right]
    exact no (.inr edge) level ran

/-- A token that may be missing before others that are taken in any case. -/
theorem takes_eat {f : Bool → Parse β} {kind : Kind} (isToken : kind ≠ .eof)
    (yes : Goes joint.Near ends (f true)) (no : joint.Takes ends (f false)) :
    joint.Takes ends (eat kind >>= f) := by
  refine Carries.takes (carries_eat_within (fun _ _ => id) yes no.first) ?_
  intro s b s' ended ran
  have missing : s.current.kind ≠ kind := fun is => isToken (is.symm.trans ended.kind)
  rw [eat_bind_of_ne missing] at ran
  exact no.starved ended ran

/-- A semicolon that may be missing. Only here the two parses part: the second one takes the
semicolon that stands in the place of the end. -/
theorem carries_eat_semicolon {x : Parse β} (rest : Goes joint.Far ends x) :
    Goes joint.Near ends (eat (.symbol .semicolon) >>= fun _ => x) := by
  rintro s t b s' (inside | edge) level ran
  · have within := rest.mono (fun _ _ (stands : joint.Inside _ _) => .inl stands.near) fun _ _ => id
    have near := rest.mono (fun _ _ => Joint.Near.far) fun _ _ => id
    exact carries_eat_within (f := fun _ => x) (g := fun _ => x)
      (fun _ _ => Joint.Inside.toFirst) near within inside level ran
  · have left : s.current.kind ≠ .symbol .semicolon := by
      have isEnd : s.current.kind = .eof := edge.ended.kind
      simp [isEnd]
    rw [eat_bind_of_ne left] at ran
    -- a second end is left alone, a semicolon is taken
    rcases joint.closes with isEnd | ⟨isSemicolon, next, later, after, _⟩
    · have right : t.current.kind ≠ .symbol .semicolon := by
        have same : t.current = joint.mark := congrArg Ahead.current edge.mark
        simp [same, isEnd]
      rw [eat_bind_of_ne right]
      exact rest (.inl (.inr edge)) level ran
    · obtain ⟨current, upcoming, depth, allowIn⟩ := t
      obtain ⟨rfl, rfl⟩ : current = joint.mark ∧ upcoming = joint.after := by
        have same := edge.mark
        exact ⟨congrArg Ahead.current same, congrArg Ahead.upcoming same⟩
      rw [eat_bind_of_eq (s := ⟨joint.mark, _, _, _⟩) isSemicolon]
      have stands : joint.Past s.ahead (State.ahead ⟨next, later, depth, allowIn⟩) :=
        ⟨edge.ended, isSemicolon, after⟩
      have level' : Level s ⟨next, later, depth, allowIn⟩ := ⟨level.depth, level.allowIn⟩
      obtain ⟨t', ran', ends, level', left, right⟩ := rest (.inr stands) level' ran
      refine ⟨t', ?_, ends, level', left, ?_⟩
      · refine bind_eq_ok_iff.mpr ⟨joint.mark, ⟨next, later, depth, allowIn⟩, ?_, ran'⟩
        simp only [advance, after]
      · have passed : Took true ⟨joint.mark, joint.after, depth, allowIn⟩
            ⟨next, later, depth, allowIn⟩ := ⟨⟨rfl, rfl⟩, [next], after, nofun⟩
        exact (passed.trans right).always

theorem carries_atWord {f g : Bool → Parse β} {took : β → Bool} (word : String)
    (within : ∀ s t, starts s t → joint.First s t)
    (each : ∀ found, Carries starts ends took (f found) (g found)) :
    Carries starts ends took (atWord word >>= f) (atWord word >>= g) := by
  intro s t b s' stands level ran
  have first := within _ _ stands
  have kind : s.current.kind = t.current.kind := first.kind
  have lexeme : s.current.lexeme = t.current.lexeme := first.lexeme
  change f (s.current.kind = .identifier && s.current.lexeme = word) s = _ at ran
  change ∃ t', g (t.current.kind = .identifier && t.current.lexeme = word) t = _ ∧ _
  rw [← kind, ← lexeme]
  exact each _ stands level ran

theorem carries_atWord_edge {f g : Bool → Parse β} {took : β → Bool} (word : String)
    (edge : Carries joint.Edge ends took (f false) (g false)) :
    Carries joint.Edge ends took (atWord word >>= f) (atWord word >>= g) := by
  intro s t b s' stands level ran
  change f (s.current.kind = .identifier && s.current.lexeme = word) s = _ at ran
  change ∃ t', g (t.current.kind = .identifier && t.current.lexeme = word) t = _ ∧ _
  have left : s.current.kind = .eof := stands.ended.kind
  have right : t.current.kind ≠ .identifier := by
    rcases stands.kind with (is : t.current.kind = _) | (is : t.current.kind = _) <;> simp [is]
  simp only [left, reduceCtorEq, decide_false, Bool.false_and] at ran
  simp only [right, decide_false, Bool.false_and]
  exact edge stands level ran

theorem takes_expectWord (word : String) : joint.Takes joint.Near (expectWord word) := by
  refine Carries.takes (carries_atWord word (fun _ _ => id) fun found => ?_) ?_
  · split
    · exact carries_advance fun _ _ _ _ => carries_pure rfl
    · exact carries_unexpected
  · intro s b s' ended ran
    have isEnd : s.current.kind = .eof := ended.kind
    have missing : (s.current.kind = .identifier && s.current.lexeme = word : Bool) = false := by
      simp [isEnd]
    change (if (s.current.kind = .identifier && s.current.lexeme = word : Bool) then _ else
      unexpected (.word word) : Parse Unit) s = _ at ran
    rw [missing] at ran
    exact unexpected_ne_ok s b s' ran

/-! ## Context -/

theorem carries_allowsIn {f g : Bool → Parse β} {took : β → Bool}
    (second : ∀ allowed, Carries starts ends took (f allowed) (g allowed)) :
    Carries starts ends took (allowsIn >>= f) (allowsIn >>= g) := by
  intro s t b s' stands level ran
  change ∃ t', g t.allowIn t = _ ∧ _
  rw [← level.allowIn]
  exact second s.allowIn stands level ran

theorem strays_withAllowIn (allowIn : Bool) (strays : Strays astray starts ends took x y) :
    Strays astray starts ends took (withAllowIn allowIn x) (withAllowIn allowIn y) := by
  intro s t a s' stands level ran
  unfold withAllowIn at ran ⊢
  cases inner : x { s with allowIn } with
  | error error after =>
    rw [inner] at ran
    cases ran
  | ok a₁ after =>
    rw [inner] at ran
    cases ran
    obtain ⟨left, lost | ⟨t', ran', ends, level', right⟩⟩ :=
      strays (s := { s with allowIn }) (t := { t with allowIn }) stands ⟨level.depth, rfl⟩ inner
    · exact ⟨left.withAllowIn, .inl lost⟩
    · rw [ran']
      exact ⟨left.withAllowIn, .inr ⟨_, rfl, ends, ⟨level'.depth, level.allowIn⟩,
        right.withAllowIn⟩⟩

theorem carries_withAllowIn (allowIn : Bool) (carries : Carries starts ends took x y) :
    Carries starts ends took (withAllowIn allowIn x) (withAllowIn allowIn y) :=
  (strays_withAllowIn allowIn carries.toStrays).toCarries

theorem carries_nested (carries : Carries starts ends took x y) :
    Carries starts ends took (nested x) (nested y) := by
  intro s t a s' stands level ran
  unfold nested at ran ⊢
  cases inner : x { s with depth := s.depth + 1 } with
  | error error after =>
    rw [inner] at ran
    cases ran
  | ok a₁ after =>
    rw [inner] at ran
    cases ran
    have deeper : Level { s with depth := s.depth + 1 } { t with depth := t.depth + 1 } :=
      ⟨congrArg (· + 1) level.depth, level.allowIn⟩
    obtain ⟨t', ran', ends, level', left, right⟩ :=
      carries (s := { s with depth := s.depth + 1 }) (t := { t with depth := t.depth + 1 }) stands
        deeper inner
    rw [ran']
    exact ⟨_, rfl, ends, ⟨congrArg (· - 1) level'.depth, level'.allowIn⟩, left.nested, right.nested⟩

/-! ## Repetition -/

/-- A loop whose rounds read the same. A round that goes on takes a token. It may also go astray,
if no further round succeeds at the end. -/
theorem loop_carries {step : α → Parse (Step α)} {astray : Step α → Prop} {some : Bool}
    (goesOn : ∀ s t, ends s t → starts s t)
    (round : ∀ value, Strays astray starts ends (fun found => some || found.goesOn) (step value)
      (step value))
    (lost : ∀ found, astray found → found.goesOn = true ∧ ∀ value, Starved (step value))
    (value : α) : Carries starts ends (fun _ => some) (loop step value) (loop step value) := by
  -- the second parse may count its rounds with more tokens than the first one
  suffices main : ∀ (ahead ahead' : List (Except Error Token)) (value : α) ⦃s t : State⦄ ⦃a : α⦄
      ⦃s' : State⦄, s.upcoming.length ≤ ahead.length → t.upcoming.length ≤ ahead'.length →
      starts s.ahead t.ahead → Level s t → repeatOver step ahead value s = .ok a s' →
      ∃ t', repeatOver step ahead' value t = .ok a t' ∧ ends s'.ahead t'.ahead ∧ Level s' t' ∧
        Took some s s' ∧ Took some t t' by
    intro s t a s' stands level ran
    exact main s.upcoming t.upcoming value (Nat.le_refl _) (Nat.le_refl _) stands level ran
  intro ahead
  induction ahead with
  | nil =>
    intro ahead' value s t a s' short _ stands level ran
    obtain ⟨found, after, ran, ended⟩ := bind_eq_ok_iff.mp ran
    cases ended
    have noMore : ¬Took true s s' := by
      intro took
      have := took.length_lt
      simp only [List.length_nil] at short
      omega
    obtain ⟨left, rest⟩ := round value stands level ran
    cases found with
    | again next => exact absurd (by simpa [Step.goesOn] using left) noMore
    | done result =>
      rcases rest with ⟨is, _⟩ | ⟨t', ran', stands, level, right⟩
      · cases (lost _ is).1
      · simp only [Step.goesOn, Bool.or_false] at left right
        exact ⟨t', repeatOver_done ran', stands, level, left, right⟩
  | cons piece ahead ih =>
    intro ahead' value s t a s' short short' stands level ran
    obtain ⟨found, after, ran, ended⟩ := bind_eq_ok_iff.mp ran
    obtain ⟨left, ⟨is, isEnd⟩ | ⟨t', ran', stands, level, right⟩⟩ := round value stands level ran
    · obtain ⟨goes, starved⟩ := lost _ is
      cases found with
      | done result => cases goes
      | again next =>
        cases stepped : step next after with
        | ok found final => exact absurd stepped (starved next isEnd)
        | error error final =>
          change repeatOver step ahead next after = _ at ended
          rw [repeatOver_error stepped] at ended
          cases ended
    · cases found with
      | done result =>
        cases ended
        simp only [Step.goesOn, Bool.or_false] at left right
        exact ⟨t', repeatOver_done ran', stands, level, left, right⟩
      | again next =>
        simp only [Step.goesOn, Bool.or_true] at left right
        have less := left.length_lt
        have less' := right.length_lt
        cases ahead' with
        | nil =>
          simp only [List.length_nil] at short'
          omega
        | cons piece' ahead' =>
          simp only [List.length_cons] at short short'
          obtain ⟨t'', ran'', stands, level, left', right'⟩ :=
            ih ahead' next (by omega) (by omega) (goesOn _ _ stands) level ended
          rw [repeatOver_again ran']
          exact ⟨t'', ran'', stands, level, (left.trans left').always, (right.trans right').always⟩

theorem carries_loop {step : α → Parse (Step α)} {some : Bool}
    (goesOn : ∀ s t, ends s t → starts s t)
    (round : ∀ value, Carries starts ends (fun found => some || found.goesOn) (step value)
      (step value)) (value : α) :
    Carries starts ends (fun _ => some) (loop step value) (loop step value) :=
  loop_carries goesOn (fun value => (round value).toStrays) (fun _ => False.elim) value

/-- One or more items with commas between them. -/
theorem takes_separated (item : joint.Takes joint.Near x) :
    joint.Takes joint.Near (separated x) := by
  have round (items : List α) : joint.Takes joint.Near (separatedStep x items) := by
    refine item.bind fun next => ?_
    refine carries_eat nofun nofun ?_ ?_
    · exact carries_pure rfl
    · exact carries_pure rfl
  have looped : joint.Takes joint.Near (loop (separatedStep x) []) :=
    carries_loop (fun _ _ => Joint.Near.any) round []
  exact looped.bind fun items => carries_pure rfl

/-- Items with commas between them, up to the token that closes the list. -/
theorem goes_closedList (close : Symbol) (other : close ≠ .semicolon)
    (item : Goes joint.Near joint.Near x) : Goes joint.Near joint.Near (closedList close x) := by
  have rest (items : List α) : Carries joint.Near joint.Near (fun _ => true)
      (eat (.symbol .comma) >>= fun more =>
        if more then pure (Step.again items)
        else expect (.symbol close) >>= fun _ => pure (Step.done items))
      (eat (.symbol .comma) >>= fun more =>
        if more then pure (Step.again items)
        else expect (.symbol close) >>= fun _ => pure (Step.done items)) :=
    carries_eat nofun nofun (carries_pure rfl) (takes_close close (Step.done items)).near
  have round (items : List α) : Carries joint.Near joint.Near (fun _ => true)
      (closedStep close x items) (closedStep close x items) := by
    refine carries_eat nofun (by simpa using other) (carries_pure rfl) ?_
    exact item.bindTaking fun next => rest (next :: items)
  have looped : Carries joint.Near joint.Near (fun _ => true) (loop (closedStep close x) [])
      (loop (closedStep close x) []) := carries_loop (fun _ _ => id) round []
  exact looped.always.bind fun items => carries_pure rfl

end Grammar
end Scriptlet
