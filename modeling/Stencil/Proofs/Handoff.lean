import Mathlib.Logic.Relation
import Stencil.Token.Channel

/-!
# Handing tokens over

A producer puts tokens into a channel, one by one, and then closes it. A consumer takes them; it
decides by the tokens it has whether to ask for another, and once it has stopped it throws the
rest away, up to the close. The two share one slot and nothing else, and they move in any order
(`Handoff.Step`), except that putting waits for an empty slot and taking for a full one.

Whatever the order, no token is lost or overtaken, nobody is left waiting, and the consumer stops
with the tokens and the result that it would have had from reading the list by itself
(`Handoff.agrees_with_reading`). The close counts as the last thing put, so that one equation says
where everything is: what was taken, and then what is in the slot, is what was put
(`Handoff.Sound.order`).
-/

namespace Stencil

/-! ## The channel -/

namespace Channel

variable {c c' : Channel} {p : Parcel} {t : Token}

theorem put_eq_ok : c.put p = .ok c' ↔ c.slot = none ∧ c' = { c with slot := some p } := by
  unfold put
  split
  · next taken => simp [taken]
  · next free => simp [free, eq_comm]

/-- A token is received where the slot of an open channel holds one. -/
theorem receive_eq_token :
    c.receive = .ok (some t, c') ↔
      c.closed = false ∧ c.slot = some (.token t) ∧ c' = ⟨none, false⟩ := by
  unfold receive
  split
  · next closed => simp [closed]
  · next opened =>
    split
    · next empty => simp [empty]
    · next closing => simp [closing]
    · next token => simp [token, opened, eq_comm]

/-- The end is received from a channel that is closed, or has its closing in the slot. -/
theorem receive_eq_none :
    c.receive = .ok (none, c') ↔
      c.closed = true ∧ c' = c ∨
        c.closed = false ∧ c.slot = some .closing ∧ c' = ⟨none, true⟩ := by
  unfold receive
  split
  · next closed => simp [closed, eq_comm]
  · next opened =>
    split
    · next empty => simp [empty, opened]
    · next closing => simp [closing, opened, eq_comm]
    · next token => simp [token, opened]

end Channel

namespace Parcel

/-- What a producer of these tokens puts: each of them, and then the close. -/
def stream (ts : List Token) : List Parcel :=
  ts.map token ++ [closing]

variable {ts us : List Token} {ps : List Parcel}

/-- What comes behind the first tokens is what a producer of the others puts. -/
theorem exists_of_append_eq_stream (whole : ts.map token ++ ps = stream us) :
    ∃ rest, us = ts ++ rest ∧ ps = stream rest := by
  induction ts generalizing us with
  | nil => exact ⟨us, rfl, whole⟩
  | cons t ts ih =>
    cases us with
    | nil => cases whole
    | cons u us =>
      obtain ⟨same, whole⟩ := List.cons.inj whole
      obtain ⟨rest, rfl, after⟩ := ih whole
      cases same
      exact ⟨rest, rfl, after⟩

/-- Nothing comes behind the close. -/
theorem nil_of_closing_eq_stream (whole : closing :: ps = stream ts) : ts = [] ∧ ps = [] := by
  cases ts with
  | nil => exact ⟨rfl, (List.cons.inj whole).2⟩
  | cons t ts => cases whole

theorem stream_ne_nil : stream ts ≠ [] := by
  simp [stream]

end Parcel

namespace Handoff

/-! ## Producers and consumers -/

/-- A consumer of tokens, which comes to a result. All that it knows are the tokens it has. -/
structure Consumer (α : Type) where
  /-- What it stops with after these tokens; nothing if it asks for another. -/
  stop? : List Token → Option α
  /-- What it comes to if these were all. -/
  atClose : List Token → α

/-- Where a consumer is. -/
inductive Stage (α : Type) where
  | reading
  /-- It has stopped, and throws away what still comes. -/
  | draining (result : α)
  | finished (result : α)

/-- The result of a consumer that has stopped. -/
def Stage.result? {α : Type} : Stage α → Option α
  | reading => none
  | draining result => some result
  | finished result => some result

/-- A producer and a consumer at some moment, and the channel between them. -/
structure State (α : Type) where
  /-- What the producer has still to put. -/
  ahead : List Parcel
  /-- What it has put. -/
  put : List Parcel := []
  channel : Channel := {}
  /-- The tokens that the consumer acts on. -/
  acted : List Token := []
  /-- The tokens that it has thrown away. -/
  dropped : List Token := []
  stage : Stage α := .reading

/-- Nothing has been put yet. -/
def State.start {α : Type} (tokens : List Token) : State α :=
  { ahead := Parcel.stream tokens }

/-- What has been taken from the channel: the tokens, and the close if it was met. -/
def State.taken {α : Type} (s : State α) : List Parcel :=
  (s.acted ++ s.dropped).map .token ++ if s.channel.closed then [.closing] else []

/-- A move of the producer or the consumer that has not to wait. -/
inductive Step {α : Type} (consumer : Consumer α) : State α → State α → Prop
  | put {s : State α} {p : Parcel} {ps : List Parcel} {c : Channel} :
    s.ahead = p :: ps → s.channel.put p = .ok c →
    Step consumer s { s with ahead := ps, put := s.put ++ [p], channel := c }
  | receive {s : State α} {t : Token} {c : Channel} :
    s.stage = .reading → consumer.stop? s.acted = none → s.channel.receive = .ok (some t, c) →
    Step consumer s { s with channel := c, acted := s.acted ++ [t] }
  | close {s : State α} {c : Channel} :
    s.stage = .reading → consumer.stop? s.acted = none → s.channel.receive = .ok (none, c) →
    Step consumer s { s with channel := c, stage := .draining (consumer.atClose s.acted) }
  | stop {s : State α} {result : α} :
    s.stage = .reading → consumer.stop? s.acted = some result →
    Step consumer s { s with stage := .draining result }
  | discard {s : State α} {result : α} {t : Token} {c : Channel} :
    s.stage = .draining result → s.channel.receive = .ok (some t, c) →
    Step consumer s { s with channel := c, dropped := s.dropped ++ [t] }
  | finish {s : State α} {result : α} {c : Channel} :
    s.stage = .draining result → s.channel.receive = .ok (none, c) →
    Step consumer s { s with channel := c, stage := .finished result }

/-- What moves in some order lead to. -/
abbrev Reaches {α : Type} (consumer : Consumer α) : State α → State α → Prop :=
  Relation.ReflTransGen (Step consumer)

variable {α : Type} {consumer : Consumer α} {tokens read rest : List Token} {s s' : State α}
  {result : α}

/-- Reading a list by itself, behind tokens already read: the tokens acted on, and the result. -/
def Consumer.readOn (consumer : Consumer α) (read : List Token) : List Token → List Token × α
  | [] => (read, (consumer.stop? read).getD (consumer.atClose read))
  | t :: ts =>
    match consumer.stop? read with
    | some result => (read, result)
    | none => consumer.readOn (read ++ [t]) ts

theorem Consumer.readOn_of_stop (stops : consumer.stop? read = some result) :
    consumer.readOn read rest = (read, result) := by
  cases rest with
  | nil => rw [readOn, stops, Option.getD_some]
  | cons t ts => rw [readOn, stops]

theorem Consumer.prefix_readOn (consumer : Consumer α) (read rest : List Token) :
    read <+: (consumer.readOn read rest).1 := by
  fun_induction consumer.readOn read rest with
  | case1 read => exact List.prefix_refl _
  | case2 read t ts result stops => exact List.prefix_refl _
  | case3 read t ts more ih => exact (List.prefix_append _ _).trans ih

/-! ## What every order keeps -/

/-- What is known of a consumer at its stage. As long as it reads, reading on by itself would come
to the same; afterwards it has come to it. -/
def StageSound (consumer : Consumer α) (tokens : List Token) (s : State α) : Stage α → Prop
  | .reading => s.dropped = [] ∧ s.channel.closed = false ∧
      ∀ rest, tokens = s.acted ++ rest → consumer.readOn [] tokens = consumer.readOn s.acted rest
  | .draining result => consumer.readOn [] tokens = (s.acted, result)
  | .finished result => consumer.readOn [] tokens = (s.acted, result) ∧ s.channel.closed = true

/-- What is known of a producer of these tokens and a consumer, whatever the order of moves. -/
structure Sound (consumer : Consumer α) (tokens : List Token) (s : State α) : Prop where
  whole : s.put ++ s.ahead = Parcel.stream tokens
  order : s.taken ++ s.channel.slot.toList = s.put
  stage : StageSound consumer tokens s s.stage

theorem sound_start : Sound consumer tokens (.start tokens) where
  whole := rfl
  order := rfl
  stage := ⟨rfl, rfl, fun rest whole => by rw [whole]; rfl⟩

/-- Behind the tokens received comes what was not taken. -/
theorem Sound.exists_rest (sound : Sound consumer tokens s) (opened : s.channel.closed = false) :
    ∃ rest, tokens = s.acted ++ s.dropped ++ rest ∧
      s.channel.slot.toList ++ s.ahead = Parcel.stream rest := by
  have whole := sound.whole
  rw [← sound.order, State.taken, opened, if_neg nofun, List.append_nil, List.append_assoc] at whole
  exact Parcel.exists_of_append_eq_stream whole

/-- Taking the close is taking the last thing that is put. -/
theorem Sound.of_closing (sound : Sound consumer tokens s) (opened : s.channel.closed = false)
    (slot : s.channel.slot = some .closing) : tokens = s.acted ++ s.dropped ∧ s.ahead = [] := by
  obtain ⟨rest, whole, after⟩ := sound.exists_rest opened
  rw [slot, Option.toList_some, List.singleton_append] at after
  obtain ⟨rfl, nothing⟩ := Parcel.nil_of_closing_eq_stream after
  exact ⟨by rw [whole, List.append_nil], nothing⟩

/-- Once the close was taken, everything was put and taken, and the slot is empty. -/
theorem Sound.of_closed (sound : Sound consumer tokens s) (closed : s.channel.closed = true) :
    tokens = s.acted ++ s.dropped ∧ s.channel.slot = none ∧ s.ahead = [] := by
  have whole := sound.whole
  rw [← sound.order, State.taken, closed, if_pos rfl, List.append_assoc, List.append_assoc] at whole
  obtain ⟨rest, same, after⟩ := Parcel.exists_of_append_eq_stream whole
  rw [List.singleton_append] at after
  obtain ⟨rfl, nothing⟩ := Parcel.nil_of_closing_eq_stream after
  obtain ⟨empty, nothing⟩ := List.append_eq_nil_iff.mp nothing
  exact ⟨by rw [same, List.append_nil], Option.toList_eq_nil_iff.mp empty, nothing⟩

/-- Each move keeps what is known of the two parties, whoever makes it. -/
theorem Sound.step (sound : Sound consumer tokens s) (step : Step consumer s s') :
    Sound consumer tokens s' := by
  have whole := sound.whole
  have order := sound.order
  have stage := sound.stage
  cases step with
  | @put p ps c ahead put =>
    obtain ⟨empty, rfl⟩ := Channel.put_eq_ok.mp put
    refine ⟨?_, ?_, ?_⟩
    · rw [← whole, ahead, List.append_assoc, List.singleton_append]
    · rw [← order, empty, Option.toList_none, List.append_nil]
      rfl
    · cases phase : s.stage <;> rw [phase] at stage <;> exact stage
  | @receive t c reading asks received =>
    obtain ⟨opened, slot, rfl⟩ := Channel.receive_eq_token.mp received
    rw [reading] at stage
    obtain ⟨none, -, reads⟩ := stage
    refine ⟨whole, ?_, ?_⟩
    · rw [← order, State.taken, State.taken, opened, slot, none]
      simp
    · rw [reading]
      refine ⟨none, rfl, fun rest whole => ?_⟩
      rw [reads (t :: rest) (by rw [whole, List.append_assoc, List.singleton_append]),
        Consumer.readOn, asks]
  | @close c reading asks closed =>
    rw [reading] at stage
    obtain ⟨none, opened, reads⟩ := stage
    rcases Channel.receive_eq_none.mp closed with ⟨met, -⟩ | ⟨-, slot, rfl⟩
    · rw [opened] at met
      cases met
    obtain ⟨same, nothing⟩ := sound.of_closing opened slot
    rw [none] at same
    refine ⟨whole, ?_, ?_⟩
    · rw [← order, State.taken, State.taken, opened, slot]
      simp
    · have result := reads [] same
      rw [Consumer.readOn, asks, Option.getD_none] at result
      exact result
  | @stop result reading stops =>
    rw [reading] at stage
    obtain ⟨none, opened, reads⟩ := stage
    obtain ⟨rest, same, -⟩ := sound.exists_rest opened
    rw [none, List.append_nil] at same
    refine ⟨whole, order, ?_⟩
    exact (reads rest same).trans (Consumer.readOn_of_stop stops)
  | @discard result t c draining received =>
    obtain ⟨opened, slot, rfl⟩ := Channel.receive_eq_token.mp received
    refine ⟨whole, ?_, ?_⟩
    · rw [← order, State.taken, State.taken, opened, slot]
      simp
    · rw [draining] at stage ⊢
      exact stage
  | @finish result c draining closed =>
    rw [draining] at stage
    rcases Channel.receive_eq_none.mp closed with ⟨met, rfl⟩ | ⟨opened, slot, rfl⟩
    · exact ⟨whole, order, stage, met⟩
    · refine ⟨whole, ?_, stage, rfl⟩
      rw [← order, State.taken, State.taken, opened, slot]
      simp

theorem Sound.reaches (sound : Sound consumer tokens s) (reached : Reaches consumer s s') :
    Sound consumer tokens s' := by
  induction reached with
  | refl => exact sound
  | tail _ step ih => exact ih.step step

/-! ## Nobody waits for ever -/

/-- The producer has put everything, and the consumer has thrown away what it did not want. -/
def State.Done (s : State α) : Prop :=
  s.ahead = [] ∧ ∃ result, s.stage = .finished result

/-- With an empty slot and the close not yet taken, the producer has something to put. -/
theorem Sound.exists_put (sound : Sound consumer tokens s) (opened : s.channel.closed = false)
    (empty : s.channel.slot = none) : ∃ s', Step consumer s s' := by
  obtain ⟨rest, -, after⟩ := sound.exists_rest opened
  rw [empty, Option.toList_none, List.nil_append] at after
  cases ahead : s.ahead with
  | nil => exact absurd (after.symm.trans ahead) Parcel.stream_ne_nil
  | cons p ps => exact ⟨_, .put ahead (Channel.put_eq_ok.mpr ⟨empty, rfl⟩)⟩

/-- With a full slot, the consumer takes what is in it, or else stops. -/
theorem Sound.exists_take {p : Parcel} (sound : Sound consumer tokens s)
    (opened : s.channel.closed = false) (full : s.channel.slot = some p) :
    ∃ s', Step consumer s s' := by
  have stage := sound.stage
  cases phase : s.stage with
  | reading =>
    cases asks : consumer.stop? s.acted with
    | some result => exact ⟨_, .stop phase asks⟩
    | none =>
      cases p with
      | token t => exact ⟨_, .receive phase asks (Channel.receive_eq_token.mpr ⟨opened, full, rfl⟩)⟩
      | closing =>
        exact ⟨_, .close phase asks (Channel.receive_eq_none.mpr (.inr ⟨opened, full, rfl⟩))⟩
  | draining result =>
    cases p with
    | token t => exact ⟨_, .discard phase (Channel.receive_eq_token.mpr ⟨opened, full, rfl⟩)⟩
    | closing => exact ⟨_, .finish phase (Channel.receive_eq_none.mpr (.inr ⟨opened, full, rfl⟩))⟩
  | finished result =>
    rw [phase] at stage
    rw [stage.2] at opened
    cases opened

/-- Unless both are done, one of them can move. -/
theorem Sound.progress (sound : Sound consumer tokens s) (undone : ¬s.Done) :
    ∃ s', Step consumer s s' := by
  cases closed : s.channel.closed with
  | false =>
    cases slot : s.channel.slot with
    | none => exact sound.exists_put closed slot
    | some p => exact sound.exists_take closed slot
  | true =>
    -- The close was taken, so nothing is left to put, and the consumer does not read.
    obtain ⟨-, -, nothing⟩ := sound.of_closed closed
    have stage := sound.stage
    cases phase : s.stage with
    | reading =>
      rw [phase] at stage
      rw [stage.2.1] at closed
      cases closed
    | draining result =>
      exact ⟨_, .finish phase (Channel.receive_eq_none.mpr (.inl ⟨closed, rfl⟩))⟩
    | finished result => exact absurd ⟨nothing, result, phase⟩ undone

/-- Where both are done, everything was put and taken, and the consumer has what it would have had
from reading by itself. -/
theorem Sound.done (sound : Sound consumer tokens s) (done : s.Done) :
    s.taken = Parcel.stream tokens ∧ s.channel = ⟨none, true⟩ ∧
      s.stage = .finished (consumer.readOn [] tokens).2 := by
  obtain ⟨nothing, result, phase⟩ := done
  have stage := sound.stage
  rw [phase] at stage
  obtain ⟨same, closed⟩ := stage
  obtain ⟨-, empty, -⟩ := sound.of_closed closed
  have whole := sound.whole
  rw [← sound.order, nothing, empty, Option.toList_none, List.append_nil, List.append_nil] at whole
  refine ⟨whole, ?_, by rw [phase, same]⟩
  rw [← empty, ← closed]

/-- How much there is still to do. -/
def State.effort (s : State α) : Nat :=
  2 * s.ahead.length + s.channel.load + match s.stage with
    | .reading => 2
    | .draining _ => 1
    | .finished _ => 0

/-- Each move leaves less to do, so that no order of moves goes on for ever. -/
theorem Step.effort_lt (step : Step consumer s s') : s'.effort < s.effort := by
  cases step with
  | put ahead put =>
    obtain ⟨empty, rfl⟩ := Channel.put_eq_ok.mp put
    simp only [State.effort, Channel.load, ahead, empty, List.length_cons, Option.toList_some,
      Option.toList_none, List.length_nil]
    omega
  | receive reading _ received =>
    have := Channel.load_of_receive received
    simp only [State.effort, reading]
    omega
  | close reading _ closed =>
    rcases Channel.receive_eq_none.mp closed with ⟨-, rfl⟩ | ⟨-, -, rfl⟩
    · simp only [State.effort, reading]
      omega
    · simp only [State.effort, reading, Channel.load, Option.toList_none, List.length_nil]
      omega
  | stop reading _ =>
    simp only [State.effort, reading]
    omega
  | discard draining received =>
    have := Channel.load_of_receive received
    simp only [State.effort, draining]
    omega
  | finish draining closed =>
    rcases Channel.receive_eq_none.mp closed with ⟨-, rfl⟩ | ⟨-, -, rfl⟩
    · simp only [State.effort, draining]
      omega
    · simp only [State.effort, draining, Channel.load, Option.toList_none, List.length_nil]
      omega

/-- No order of moves goes on for ever. -/
theorem acc_step (consumer : Consumer α) (s : State α) :
    Acc (fun next now => Step consumer now next) s := by
  have decreasing : WellFounded fun next now : State α => next.effort < now.effort :=
    InvImage.wf State.effort Nat.lt_wfRel.wf
  exact Subrelation.accessible Step.effort_lt (decreasing.apply s)

/-! ## The consumer -/

theorem Sound.of_result (sound : Sound consumer tokens s)
    (stopped : s.stage.result? = some result) : consumer.readOn [] tokens = (s.acted, result) := by
  have stage := sound.stage
  cases phase : s.stage with
  | reading => rw [phase] at stopped; cases stopped
  | draining result' => rw [phase] at stage stopped; cases stopped; exact stage
  | finished result' => rw [phase] at stage stopped; cases stopped; exact stage.1

/-- What is acted on so far is read from the list first. -/
theorem Sound.acted_prefix (sound : Sound consumer tokens s) :
    s.acted <+: (consumer.readOn [] tokens).1 := by
  have stage := sound.stage
  cases phase : s.stage with
  | reading =>
    rw [phase] at stage
    obtain ⟨none, opened, reads⟩ := stage
    obtain ⟨rest, whole, -⟩ := sound.exists_rest opened
    rw [none, List.append_nil] at whole
    rw [reads rest whole]
    exact consumer.prefix_readOn s.acted rest
  | draining result =>
    have stopped := sound.of_result (show s.stage.result? = some result by rw [phase]; rfl)
    exact ⟨[], by rw [List.append_nil, stopped]⟩
  | finished result =>
    have stopped := sound.of_result (show s.stage.result? = some result by rw [phase]; rfl)
    exact ⟨[], by rw [List.append_nil, stopped]⟩

theorem Sound.length_put_le (sound : Sound consumer tokens s) :
    s.put.length ≤ s.taken.length + 1 := by
  rw [← sound.order, List.length_append]
  cases s.channel.slot <;> simp

/-- Handing tokens over in any order of moves agrees with reading them as a list. What was taken,
and then what is in the slot, is what was put, and what was put are the first tokens, so that the
producer is at most one ahead. Unless both are done one of them can move, and no order of moves
goes on for ever. Where no move is left, everything was put and taken, the close with it. And the
consumer acts on the first of the tokens that it would read from the list, and stops with these
and with the same result. -/
theorem agrees_with_reading {α : Type} {consumer : Consumer α} {tokens : List Token} {s : State α}
    (reached : Reaches consumer (.start tokens) s) :
    (s.taken ++ s.channel.slot.toList = s.put ∧ s.put ++ s.ahead = Parcel.stream tokens ∧
        s.put.length ≤ s.taken.length + 1) ∧
      (¬s.Done → ∃ s', Step consumer s s') ∧
      Acc (fun next now => Step consumer now next) s ∧
      ((∀ s', ¬Step consumer s s') → s.Done ∧ s.taken = Parcel.stream tokens ∧
        s.channel = ⟨none, true⟩ ∧ s.stage = .finished (consumer.readOn [] tokens).2) ∧
      s.acted <+: (consumer.readOn [] tokens).1 ∧
      ∀ result, s.stage.result? = some result → consumer.readOn [] tokens = (s.acted, result) := by
  have sound : Sound consumer tokens s := sound_start.reaches reached
  refine ⟨⟨sound.order, sound.whole, sound.length_put_le⟩, sound.progress, acc_step consumer s,
    fun stuck => ?_, sound.acted_prefix, fun result => sound.of_result⟩
  have done : s.Done := by
    refine Classical.byContradiction fun undone => ?_
    obtain ⟨s', step⟩ := sound.progress undone
    exact stuck s' step
  exact ⟨done, sound.done done⟩

/-- A consumer that has stopped early, while the producer waits for it to make room; and the two
when no move is left. -/
theorem agrees_with_reading_early :
    ∃ (consumer : Consumer Nat) (blocked last : State Nat),
      Reaches consumer (.start [.left, .right, .endOfInput]) blocked ∧
        blocked.channel.slot = some (.token .right) ∧ blocked.ahead ≠ [] ∧
        blocked.stage = .draining 1 ∧ (∃ s', Step consumer blocked s') ∧
        consumer.readOn [] [.left, .right, .endOfInput] = ([.left], 1) ∧
      Reaches consumer blocked last ∧ (∀ s', ¬Step consumer last s') ∧
        last.taken = Parcel.stream [.left, .right, .endOfInput] ∧ last.channel = ⟨none, true⟩ := by
  let consumer : Consumer Nat :=
    ⟨fun read => if read = [] then none else some read.length, fun read => read.length⟩
  let blocked : State Nat :=
    { ahead := [.token .endOfInput, .closing], put := [.token .left, .token .right]
      channel := ⟨some (.token .right), false⟩, acted := [.left], stage := .draining 1 }
  let last : State Nat :=
    { ahead := [], put := Parcel.stream [.left, .right, .endOfInput], channel := ⟨none, true⟩
      acted := [.left], dropped := [.right, .endOfInput], stage := .finished 1 }
  have reached : Reaches consumer (.start [.left, .right, .endOfInput]) blocked :=
    .tail (.tail (.tail (.single (.put rfl rfl)) (.receive rfl rfl rfl)) (.put rfl rfl))
      (.stop rfl rfl)
  have onwards : Reaches consumer blocked last :=
    .tail (.tail (.tail (.tail (.single (.discard rfl rfl)) (.put rfl rfl)) (.discard rfl rfl))
      (.put rfl rfl)) (.finish rfl rfl)
  have stuck : ∀ s', ¬Step consumer last s' := by
    intro s' step
    cases step with
    | put ahead _ => cases ahead
    | receive reading _ _ => cases reading
    | close reading _ _ => cases reading
    | stop reading _ => cases reading
    | discard draining _ => cases draining
    | finish draining _ => cases draining
  have undone : ¬blocked.Done := by
    rintro ⟨nothing, -⟩
    cases nothing
  obtain ⟨-, moves, -, -, -, result⟩ := agrees_with_reading reached
  obtain ⟨-, -, -, ends, -, -⟩ := agrees_with_reading (reached.trans onwards)
  obtain ⟨-, taken, channel, -⟩ := ends stuck
  exact ⟨consumer, blocked, last, reached, rfl, nofun, rfl, moves undone, result 1 rfl, onwards,
    stuck, taken, channel⟩

end Handoff
end Stencil
