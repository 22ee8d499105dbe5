import Stencil.Token.Basic

/-!
# The token channel

The channel between a lexer and its reader: one slot, which holds a token or the mark that no
more follow. A sender has to wait while the slot is taken, so it is never more than one token
ahead of the receiver.

Operations here do not wait: one that would have to is refused, and changes nothing.
-/

namespace Stencil

/-- What goes through a channel. -/
inductive Parcel where
  | token (t : Token)
  | closing
  deriving Repr, DecidableEq

/-- A channel at some moment. -/
structure Channel where
  slot : Option Parcel := none
  /-- The receiver has seen that no more tokens follow. -/
  closed : Bool := false
  deriving Repr, DecidableEq

namespace Channel

/-- Why an operation would have to wait. -/
inductive Refusal where
  | full
  | empty
  deriving Repr, DecidableEq

/-- Puts a parcel into the slot. -/
def put (p : Parcel) (c : Channel) : Except Refusal Channel :=
  match c.slot with
  | some _ => .error .full
  | none => .ok { c with slot := some p }

/-- Sends a token. -/
def send (t : Token) (c : Channel) : Except Refusal Channel :=
  c.put (.token t)

/-- Announces that no more tokens follow. -/
def close (c : Channel) : Except Refusal Channel :=
  c.put .closing

/-- The next token, or nothing once the channel has been seen to be closed. -/
def receive (c : Channel) : Except Refusal (Option Token × Channel) :=
  if c.closed then .ok (none, c)
  else
    match c.slot with
    | none => .error .empty
    | some .closing => .ok (none, ⟨none, true⟩)
    | some (.token t) => .ok (some t, ⟨none, false⟩)

/-- The number of parcels in the slot. -/
def load (c : Channel) : Nat :=
  c.slot.toList.length

theorem load_of_receive {c c' : Channel} {t : Token} (h : c.receive = .ok (some t, c')) :
    c'.load < c.load := by
  unfold receive at h
  split at h
  · cases h
  · split at h
    · cases h
    · cases h
    · next slot => cases h; simp [load, slot]

/-- Receives tokens until the channel is closed. If it has to wait, the tokens taken are lost. -/
def receiveAll (c : Channel) : Except Refusal (List Token) × Channel :=
  match _h : c.receive with
  | .error e => (.error e, c)
  | .ok (none, c') => (.ok [], c')
  | .ok (some t, c') =>
    let (rest, c'') := receiveAll c'
    (rest.map (t :: ·), c'')
termination_by c.load
decreasing_by exact load_of_receive _h

/-- Throws away all tokens up to the close. -/
def drain (c : Channel) : Except Refusal Unit × Channel :=
  let (tokens, c) := c.receiveAll
  (tokens.map fun _ => (), c)

end Channel

end Stencil
