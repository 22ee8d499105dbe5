import Stencil.Proofs.Handoff

/-!
# A channel and its ledger

A channel used from one side only, where an operation that would have to wait is refused. A
ledger lists what was put into the slot and what was taken out of it (`Channel.Ledger`), and
whatever the operations were, it is balanced: what was taken, and then what is in the slot, is
what was put (`Channel.Ledger.run_lawful`).

Receiving until the close is a loop, and the tokens that it took before it was refused are in no
answer. So what an operation takes is followed `receive` by `receive` (`Channel.receivedAll`), and
each step of the loop keeps the balance of the slot.
-/

namespace Stencil
namespace Channel

/-! ## What is taken -/

/-- What one `receive` takes out of the slot. -/
def received (c : Channel) : List Parcel :=
  if c.closed then [] else c.slot.toList

/-- What receiving until the close takes out of the slot. -/
def receivedAll (c : Channel) : List Parcel :=
  match _h : c.receive with
  | .error _ => c.received
  | .ok (none, _) => c.received
  | .ok (some _, c') => c.received ++ receivedAll c'
termination_by c.load
decreasing_by exact load_of_receive _h

variable {c c' : Channel} {t : Token} {p : Parcel}

theorem received_of_closed (closed : c.closed = true) : c.received = [] := by
  rw [received, if_pos closed]

theorem received_of_open (opened : c.closed = false) : c.received = c.slot.toList := by
  rw [received, opened, if_neg nofun]

/-- Receiving is refused only where the channel is open and has nothing. -/
theorem receive_eq_error {refusal : Refusal} :
    c.receive = .error refusal ↔ refusal = .empty ∧ c.slot = none ∧ c.closed = false := by
  unfold receive
  split
  · next closed => simp [closed]
  · next opened =>
    split
    · next empty => simp [empty, opened, eq_comm]
    · next closing => simp [closing]
    · next token => simp [token]

theorem put_eq_error {refusal : Refusal} :
    c.put p = .error refusal ↔ refusal = .full ∧ c.slot ≠ none := by
  unfold put
  split
  · next taken => simp [taken, eq_comm]
  · next free => simp [free]

/-- Where no token comes, one `receive` is all. -/
theorem receivedAll_of_stop (stops : ∀ t c', c.receive ≠ .ok (some t, c')) :
    c.receivedAll = c.received := by
  rw [receivedAll]
  split
  · rfl
  · rfl
  · next got => exact absurd got (stops _ _)

theorem receivedAll_of_token (got : c.receive = .ok (some t, c')) :
    c.receivedAll = c.received ++ c'.receivedAll := by
  rw [receivedAll]
  split <;> simp_all

/-- How receiving until the close ends: behind some tokens it meets the close, unless that was met
before and it takes nothing; or else it finds the slot empty, and the tokens are lost. -/
theorem receiveAll_cases (c : Channel) :
    (c.closed = true ∧ c.receiveAll = (.ok [], c) ∧ c.receivedAll = []) ∨
      c.closed = false ∧ c.receivedAll = c.slot.toList ∧ ∃ ts : List Token,
        (c.receiveAll = (.ok ts, ⟨none, true⟩) ∧ c.receivedAll = ts.map .token ++ [.closing]) ∨
          (c.receiveAll = (.error .empty, ⟨none, false⟩) ∧ c.receivedAll = ts.map .token) := by
  fun_induction receiveAll c with
  | case1 c refusal refused =>
    obtain ⟨rfl, slot, opened⟩ := receive_eq_error.mp refused
    have once : c.receivedAll = c.slot.toList := by
      rw [receivedAll_of_stop (by simp [refused]), received_of_open opened]
    refine .inr ⟨opened, once, [], .inr ⟨by rw [← slot, ← opened], ?_⟩⟩
    rw [once, slot]
    rfl
  | case2 c c' ends =>
    have once : c.receivedAll = c.received := receivedAll_of_stop (by simp [ends])
    rcases receive_eq_none.mp ends with ⟨closed, rfl⟩ | ⟨opened, slot, rfl⟩
    · exact .inl ⟨closed, rfl, once.trans (received_of_closed closed)⟩
    · rw [received_of_open opened] at once
      refine .inr ⟨opened, once, [], .inl ⟨rfl, ?_⟩⟩
      rw [once, slot]
      rfl
  | case3 c t c' got rest c'' more ih =>
    obtain ⟨opened, slot, rfl⟩ := receive_eq_token.mp got
    have taken : c.receivedAll = .token t :: receivedAll ⟨none, false⟩ := by
      rw [receivedAll_of_token got, received_of_open opened, slot]
      rfl
    rw [more] at ih
    rcases ih with ⟨closed, -⟩ | ⟨-, nothing, ts, ends⟩
    · cases closed
    refine .inr ⟨opened, by rw [taken, nothing, slot]; rfl, t :: ts, ends.imp ?_ ?_⟩
    all_goals
      rintro ⟨answer, taken'⟩
      cases answer
      exact ⟨rfl, by rw [taken, taken']; rfl⟩

/-! ## Operations -/

/-- An operation on a channel. -/
inductive Op where
  | send (t : Token)
  | close
  | receive
  /-- Receives tokens until the close. -/
  | iterate
  | drain
  deriving Repr, DecidableEq

/-- What an operation answers if it is not refused. -/
inductive Answer where
  | done
  /-- The token received, or nothing behind the close. -/
  | next (t? : Option Token)
  | tokens (ts : List Token)
  deriving Repr, DecidableEq

namespace Op

/-- Performs an operation. One that is refused leaves the channel that it has got to. -/
def perform : Op → Channel → Except Refusal Answer × Channel
  | send t, c => puts c (c.send t)
  | close, c => puts c c.close
  | receive, c =>
    match c.receive with
    | .error refusal => (.error refusal, c)
    | .ok (t?, c') => (.ok (.next t?), c')
  | iterate, c => (c.receiveAll.1.map .tokens, c.receiveAll.2)
  | drain, c => (c.drain.1.map fun _ => .done, c.drain.2)
where
  /-- The answer to an operation that puts. -/
  puts (c : Channel) : Except Refusal Channel → Except Refusal Answer × Channel
    | .error refusal => (.error refusal, c)
    | .ok c' => (.ok .done, c')

/-- What an operation that puts is to put. -/
def parcel? : Op → Option Parcel
  | send t => some (.token t)
  | close => some .closing
  | _ => none

/-- What an operation puts into the slot: nothing if it is refused. -/
def put (op : Op) (c : Channel) : List Parcel :=
  match (op.perform c).1 with
  | .error _ => []
  | .ok _ => op.parcel?.toList

/-- What an operation takes out of the slot, also if it is refused in the end. -/
def taken : Op → Channel → List Parcel
  | receive, c => c.received
  | iterate, c => c.receivedAll
  | drain, c => c.receivedAll
  | _, _ => []

end Op

/-- A channel, and what went through its slot since it was new. -/
structure Ledger where
  channel : Channel := {}
  put : List Parcel := []
  taken : List Parcel := []
  deriving Repr, DecidableEq

namespace Ledger

/-- Performs an operation and enters what it puts and takes. -/
def record (l : Ledger) (op : Op) : Ledger where
  channel := (op.perform l.channel).2
  put := l.put ++ op.put l.channel
  taken := l.taken ++ op.taken l.channel

/-- The ledger after some more operations. A refusal does not keep the next from being tried. -/
def after (l : Ledger) (ops : List Op) : Ledger :=
  ops.foldl record l

/-- The ledger of a new channel after some operations. -/
def run (ops : List Op) : Ledger :=
  after {} ops

end Ledger

/-! ## One operation -/

section Steps

variable {op : Op} {l : Ledger}

theorem Op.perform_put (puts : op.parcel? = some p) : op.perform c = perform.puts c (c.put p) := by
  cases op with
  | send t => cases puts; rfl
  | close => cases puts; rfl
  | _ => cases puts

theorem Op.taken_put (puts : op.parcel? = some p) : op.taken c = [] := by
  cases op with
  | send t => rfl
  | close => rfl
  | _ => cases puts

/-- Putting fills an empty slot. -/
theorem Ledger.record_put (puts : op.parcel? = some p) (empty : l.channel.slot = none) :
    (op.perform l.channel).1 = .ok .done ∧
      l.record op = { l with
        channel := { l.channel with slot := some p }
        put := l.put ++ [p] } := by
  have performed : op.perform l.channel = (.ok .done, { l.channel with slot := some p }) := by
    rw [Op.perform_put puts, put_eq_ok.mpr ⟨empty, rfl⟩]
    rfl
  refine ⟨by rw [performed], ?_⟩
  simp only [record, Op.put, performed, puts, Op.taken_put puts, Option.toList_some,
    List.append_nil]

/-- A full slot refuses what is put, and nothing changes. -/
theorem Ledger.record_full (puts : op.parcel? = some p) (full : l.channel.slot ≠ none) :
    (op.perform l.channel).1 = .error .full ∧ l.record op = l := by
  have performed : op.perform l.channel = (.error .full, l.channel) := by
    rw [Op.perform_put puts, put_eq_error.mpr ⟨rfl, full⟩]
    rfl
  refine ⟨by rw [performed], ?_⟩
  simp only [record, Op.put, performed, Op.taken_put puts, List.append_nil]

theorem Op.perform_iterate (c : Channel) :
    Op.iterate.perform c = (c.receiveAll.1.map .tokens, c.receiveAll.2) := rfl

theorem Op.perform_drain (c : Channel) :
    Op.drain.perform c = (c.receiveAll.1.map fun _ => .done, c.receiveAll.2) := by
  have drained : c.drain = (c.receiveAll.1.map fun _ => (), c.receiveAll.2) := rfl
  rw [perform, drained]
  cases c.receiveAll.1 <;> rfl

/-- Behind the close every operation that takes has an answer at once. -/
theorem Op.perform_over (closed : c.closed = true) :
    Op.receive.perform c = (.ok (.next none), c) ∧
      Op.iterate.perform c = (.ok (.tokens []), c) ∧ Op.drain.perform c = (.ok .done, c) := by
  have once : c.receive = .ok (none, c) := receive_eq_none.mpr (.inl ⟨closed, rfl⟩)
  have all : c.receiveAll = (.ok [], c) := by
    rcases receiveAll_cases c with ⟨-, all, -⟩ | ⟨opened, -⟩
    · exact all
    · rw [closed] at opened
      cases opened
  refine ⟨?_, ?_, ?_⟩
  · rw [perform, once]
  · rw [perform, all]
    rfl
  · rw [perform_drain, all]
    rfl

/-- Behind the close nothing is taken any more. -/
theorem Ledger.record_over (closed : l.channel.closed = true) (takes : op.parcel? = none) :
    l.record op = l := by
  obtain ⟨received, iterated, drained⟩ := Op.perform_over closed
  have nothing : l.channel.receivedAll = [] := by
    rcases receiveAll_cases l.channel with ⟨-, -, nothing⟩ | ⟨opened, -⟩
    · exact nothing
    · rw [closed] at opened
      cases opened
  cases op with
  | receive => simp [record, Op.put, Op.taken, received, received_of_closed closed, Op.parcel?]
  | iterate => simp [record, Op.put, Op.taken, iterated, nothing, Op.parcel?]
  | drain => simp [record, Op.put, Op.taken, drained, nothing, Op.parcel?]
  | _ => cases takes

/-- Before the close, receiving waits for a parcel and takes it. -/
theorem Ledger.record_receive (opened : l.channel.closed = false) :
    (l.channel.slot = none ∧ (Op.receive.perform l.channel).1 = .error .empty ∧
        l.record .receive = l) ∨
      (∃ t, l.channel.slot = some (.token t) ∧
        (Op.receive.perform l.channel).1 = .ok (.next (some t)) ∧
        l.record .receive = { l with channel := ⟨none, false⟩, taken := l.taken ++ [.token t] }) ∨
      (l.channel.slot = some .closing ∧ (Op.receive.perform l.channel).1 = .ok (.next none) ∧
        l.record .receive =
          { l with channel := ⟨none, true⟩, taken := l.taken ++ [.closing] }) := by
  have taken : Op.receive.taken l.channel = l.channel.slot.toList := received_of_open opened
  cases slot : l.channel.slot with
  | none =>
    have answer : l.channel.receive = .error .empty := receive_eq_error.mpr ⟨rfl, slot, opened⟩
    refine .inl ⟨rfl, by rw [Op.perform, answer], ?_⟩
    simp [record, Op.put, taken, slot, Op.perform, answer]
  | some p =>
    cases p with
    | token t =>
      have answer := receive_eq_token.mpr ⟨opened, slot, rfl⟩
      refine .inr (.inl ⟨t, rfl, by rw [Op.perform, answer], ?_⟩)
      simp [record, Op.put, taken, slot, Op.perform, answer, Op.parcel?]
    | closing =>
      have answer := receive_eq_none.mpr (.inr ⟨opened, slot, rfl⟩)
      refine .inr (.inr ⟨rfl, by rw [Op.perform, answer], ?_⟩)
      simp [record, Op.put, taken, slot, Op.perform, answer, Op.parcel?]

/-- Before the close, receiving until the close takes tokens up to it, or up to where it finds the
slot empty: then it is refused, and the tokens are gone. -/
theorem Ledger.record_sweep (opened : l.channel.closed = false) : ∃ ts : List Token,
    (l.channel.slot.toList = ts.map .token ++ [.closing] ∧
        (Op.iterate.perform l.channel).1 = .ok (.tokens ts) ∧
        (Op.drain.perform l.channel).1 = .ok .done ∧
        ∀ op ∈ [Op.iterate, .drain], l.record op =
          { l with channel := ⟨none, true⟩, taken := l.taken ++ (ts.map .token ++ [.closing]) }) ∨
      (l.channel.slot.toList = ts.map .token ∧
        (Op.iterate.perform l.channel).1 = .error .empty ∧
        (Op.drain.perform l.channel).1 = .error .empty ∧
        ∀ op ∈ [Op.iterate, .drain], l.record op =
          { l with channel := ⟨none, false⟩, taken := l.taken ++ ts.map .token }) := by
  rcases receiveAll_cases l.channel with ⟨closed, -⟩ | ⟨-, all, ts, ends⟩
  · rw [opened] at closed
    cases closed
  refine ⟨ts, ends.imp ?_ ?_⟩
  all_goals
    rintro ⟨answer, taken⟩
    have iterated := Op.perform_iterate l.channel
    have drained := Op.perform_drain l.channel
    rw [answer] at iterated drained
    refine ⟨all.symm.trans taken, by rw [iterated]; rfl, by rw [drained]; rfl, ?_⟩
    simp [record, Op.put, Op.taken, Op.parcel?, iterated, drained, taken, Except.map]

end Steps

/-! ## Any operations -/

namespace Ledger

variable {op : Op} {ops : List Op} {l : Ledger}

/-- The books are balanced, and the close was met if it was taken. -/
structure Balanced (l : Ledger) : Prop where
  order : l.taken ++ l.channel.slot.toList = l.put
  closed_iff : l.channel.closed = true ↔ .closing ∈ l.taken

theorem balanced_new : Balanced {} where
  order := rfl
  closed_iff := by simp

/-- Receiving until the close moves all that is in the slot to what was taken. -/
theorem Balanced.sweep (balanced : l.Balanced) (opened : l.channel.closed = false)
    (sweeps : op ∈ [Op.iterate, .drain]) : (l.record op).Balanced := by
  have order := balanced.order
  have unmet : .closing ∉ l.taken := by simp [← balanced.closed_iff, opened]
  obtain ⟨ts, ⟨slot, -, -, after⟩ | ⟨slot, -, -, after⟩⟩ := record_sweep opened
  all_goals
    rw [after op sweeps]
    exact ⟨by simp [← order, slot], by simp [unmet]⟩

/-- Each operation keeps the books balanced, also one that is refused: what it puts is entered
behind all else that was put, and what it takes is the first that was not taken yet. -/
theorem Balanced.record (balanced : l.Balanced) (op : Op) : (l.record op).Balanced := by
  have order := balanced.order
  have met := balanced.closed_iff
  cases puts : op.parcel? with
  | some p =>
    cases slot : l.channel.slot with
    | none =>
      rw [slot, Option.toList_none, List.append_nil] at order
      rw [(record_put puts slot).2]
      exact ⟨by rw [← order]; rfl, met⟩
    | some q =>
      rw [(record_full puts (by simp [slot])).2]
      exact balanced
  | none =>
    cases closed : l.channel.closed with
    | true =>
      rw [record_over closed puts]
      exact balanced
    | false =>
      have unmet : .closing ∉ l.taken := by simp [← met, closed]
      cases op with
      | receive =>
        rcases record_receive closed with ⟨-, -, same⟩ | ⟨t, slot, -, after⟩ | ⟨slot, -, after⟩
        · rw [same]
          exact balanced
        · rw [after]
          exact ⟨by simp [← order, slot], by simp [unmet]⟩
        · rw [after]
          exact ⟨by simp [← order, slot], by simp⟩
      | iterate => exact balanced.sweep closed (by simp)
      | drain => exact balanced.sweep closed (by simp)
      | _ => cases puts

theorem Balanced.after (balanced : l.Balanced) (ops : List Op) : (l.after ops).Balanced := by
  induction ops generalizing l with
  | nil => exact balanced
  | cons op ops ih => exact ih (balanced.record op)

/-- Once the close was met, operations take nothing, and it stays met. -/
theorem after_over (closed : l.channel.closed = true) (ops : List Op) :
    (l.after ops).taken = l.taken ∧ (l.after ops).channel.closed = true := by
  induction ops generalizing l with
  | nil => exact ⟨rfl, closed⟩
  | cons op ops ih =>
    have kept : (l.record op).taken = l.taken ∧ (l.record op).channel.closed = true := by
      cases puts : op.parcel? with
      | none =>
        rw [record_over closed puts]
        exact ⟨rfl, closed⟩
      | some p =>
        cases slot : l.channel.slot with
        | none =>
          rw [(record_put puts slot).2]
          exact ⟨rfl, closed⟩
        | some q =>
          rw [(record_full puts (by simp [slot])).2]
          exact ⟨rfl, closed⟩
    obtain ⟨taken, stays⟩ := ih kept.2
    exact ⟨taken.trans kept.1, stays⟩

/-- The law of a channel with one slot. -/
structure Lawful (l : Ledger) : Prop where
  /-- What was taken, and then what is in the slot, is what was put. -/
  order : l.taken ++ l.channel.slot.toList = l.put
  room : l.channel.load ≤ 1
  /-- Putting fails exactly on a full slot, and then changes nothing; it fills an empty one, also
  behind the close. -/
  puts : ∀ op p, op.parcel? = some p →
    ((∃ refusal, (op.perform l.channel).1 = .error refusal) ↔ l.channel.slot ≠ none) ∧
      (l.channel.slot ≠ none → (op.perform l.channel).1 = .error .full ∧ l.record op = l) ∧
      (l.channel.slot = none → (op.perform l.channel).1 = .ok .done ∧
        l.record op =
          { l with channel := { l.channel with slot := some p }, put := l.put ++ [p] })
  /-- Receiving fails exactly on an empty slot before the close was met. -/
  waits : ∀ refusal, (Op.receive.perform l.channel).1 = .error refusal ↔
    refusal = .empty ∧ l.channel.slot = none ∧ l.channel.closed = false
  /-- The token received is the one that is taken. -/
  receives : ∀ t, (Op.receive.perform l.channel).1 = .ok (.next (some t)) ↔
    Op.receive.taken l.channel = [.token t]
  /-- The close was met if it was taken. -/
  closed_iff : l.channel.closed = true ↔ .closing ∈ l.taken
  /-- From then on nothing is taken, and every operation that takes has an answer. -/
  behind : l.channel.closed = true →
    (∀ ops, (l.after ops).taken = l.taken ∧ (l.after ops).channel.closed = true) ∧
      Op.receive.perform l.channel = (.ok (.next none), l.channel) ∧
      Op.iterate.perform l.channel = (.ok (.tokens []), l.channel) ∧
      Op.drain.perform l.channel = (.ok .done, l.channel)
  /-- Before it, receiving until the close takes tokens up to the close, or up to where it finds
  the slot empty; then it fails, and the tokens are gone. -/
  sweeps : l.channel.closed = false → ∃ ts : List Token,
    ((Op.iterate.perform l.channel).1 = .ok (.tokens ts) ∧
        (Op.drain.perform l.channel).1 = .ok .done ∧
        ∀ op ∈ [Op.iterate, .drain], l.record op =
          { l with channel := ⟨none, true⟩, taken := l.taken ++ (ts.map .token ++ [.closing]) }) ∨
      ((Op.iterate.perform l.channel).1 = .error .empty ∧
        (Op.drain.perform l.channel).1 = .error .empty ∧
        ∀ op ∈ [Op.iterate, .drain], l.record op =
          { l with channel := ⟨none, false⟩, taken := l.taken ++ ts.map .token })

theorem load_le (c : Channel) : c.load ≤ 1 := by
  rw [load]
  cases c.slot <;> simp

theorem puts_iff (puts : op.parcel? = some p) :
    (∃ refusal, (op.perform l.channel).1 = .error refusal) ↔ l.channel.slot ≠ none := by
  constructor
  · rintro ⟨refusal, refused⟩ empty
    rw [(record_put puts empty).1] at refused
    cases refused
  · exact fun full => ⟨.full, (record_full puts full).1⟩

theorem waits_iff {refusal : Refusal} :
    (Op.receive.perform l.channel).1 = .error refusal ↔
      refusal = .empty ∧ l.channel.slot = none ∧ l.channel.closed = false := by
  rw [← receive_eq_error, Op.perform]
  cases l.channel.receive <;> simp

/-- A receiver gets the token that it takes off the channel, and no other. -/
theorem receives_iff :
    (Op.receive.perform l.channel).1 = .ok (.next (some t)) ↔
      Op.receive.taken l.channel = [.token t] := by
  cases closed : l.channel.closed with
  | true => simp [(Op.perform_over closed).1, Op.taken, received_of_closed closed]
  | false =>
    rw [Op.taken, received_of_open closed]
    rcases record_receive closed with ⟨slot, answer, -⟩ | ⟨u, slot, answer, -⟩ | ⟨slot, answer, -⟩
    · simp [slot, answer]
    · simp [slot, answer]
    · simp [slot, answer]

theorem Balanced.lawful (balanced : l.Balanced) : l.Lawful where
  order := balanced.order
  room := load_le l.channel
  puts _ _ puts := ⟨puts_iff puts, record_full puts, record_put puts⟩
  waits _ := waits_iff
  receives _ := receives_iff
  closed_iff := balanced.closed_iff
  behind closed := ⟨after_over closed, Op.perform_over closed⟩
  sweeps opened := by
    obtain ⟨ts, ends⟩ := record_sweep opened
    exact ⟨ts, ends.imp And.right And.right⟩

/-- Whatever is done with a new channel, in whatever order, it keeps the law of one slot. -/
theorem run_lawful (ops : List Op) : (run ops).Lawful :=
  (balanced_new.after ops).lawful

/-- Tokens that were taken before an operation was refused, and puts behind the close. -/
example :
    (run [.send .left, .receive, .close, .send .right, .receive, .send .right, .close]).taken =
      [.token .left, .closing] ∧
    (run [.send .left, .receive, .close, .send .right, .receive, .send .right, .close]).channel =
      ⟨some (.token .right), true⟩ := by
  decide

end Ledger

end Channel
end Stencil
