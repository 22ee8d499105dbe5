import Stencil.Text.Literal

/-!
# Encodings

Decoding bytes to characters in UTF-8, ASCII and Latin-1. Only UTF-8 has sequences that a cut
can split: decoding a piece of a longer input keeps such a sequence back, and the keeper puts
it in front of the next piece. A byte that cannot start or continue a sequence is an error at
a range of positions, the longest valid start of a sequence before it. One such error has to wait
at the end of a piece: of a surrogate two bytes are kept back, and refused with what follows them.
-/

namespace Stencil.Text

/-- The encodings a template file may have. -/
inductive Encoding where
  | utf8
  | ascii
  | latin1
  deriving Repr, DecidableEq

namespace Encoding

/-- The name an encoding has in error texts. -/
def label : Encoding → String
  | utf8 => "utf-8"
  | ascii => "ascii"
  | latin1 => "latin-1"

end Encoding

/-- Why bytes are no text. -/
inductive DecodeReason where
  | invalidStart
  | invalidContinuation
  | unexpectedEnd
  | outOfRange
  deriving Repr, DecidableEq

/-- The wording of a reason. -/
def DecodeReason.message : DecodeReason → String
  | invalidStart => "invalid start byte"
  | invalidContinuation => "invalid continuation byte"
  | unexpectedEnd => "unexpected end of data"
  | outOfRange => "ordinal not in range(128)"

/-- Bytes that are no text: where they start, which they are, and what is wrong with them. -/
structure DecodeError where
  encoding : Encoding
  position : Nat
  bytes : List UInt8
  reason : DecodeReason
  deriving Repr, DecidableEq

/-- A single byte is shown with its value, a longer range by its positions alone. -/
def DecodeError.message (e : DecodeError) : String :=
  let place := match e.bytes with
    | [b] => "byte 0x" ++ String.ofList (hexNumeral 2 b.toNat) ++ " in position " ++
        toString e.position
    | bs => "bytes in position " ++ toString e.position ++ "-" ++
        toString (e.position + bs.length - 1)
  "'" ++ e.encoding.label ++ "' codec can't decode " ++ place ++ ": " ++ e.reason.message

namespace Utf8

/-- What stands at the front of some bytes. -/
inductive Front where
  /-- A character and the number of bytes it takes. -/
  | char (c : Char) (size : Nat)
  /-- A sequence that the end of the bytes cuts off. -/
  | cut
  /-- So many bytes that start no sequence. -/
  | bad (size : Nat) (reason : DecodeReason)
  deriving Repr, DecidableEq

/-- The bytes that may follow the leading byte `lead`: not an overlong form, not a surrogate,
not beyond U+10FFFF. -/
def secondAllowed (lead second : UInt8) : Bool :=
  let low : UInt8 := if lead = 0xe0 then 0xa0 else if lead = 0xf0 then 0x90 else 0x80
  let high : UInt8 := if lead = 0xed then 0x9f else if lead = 0xf4 then 0x8f else 0xbf
  low ≤ second && second ≤ high

/-- A byte that continues a sequence. -/
def isContinuation (b : UInt8) : Bool :=
  0x80 ≤ b && b ≤ 0xbf

/-- The low six bits of a continuation byte. -/
def payload (b : UInt8) : Nat :=
  b.toNat % 0x40

/-- Reads the sequence at the front of `lead :: rest`. -/
def front (lead : UInt8) (rest : List UInt8) : Front :=
  if lead < 0x80 then .char (Char.ofNat lead.toNat) 1
  else if lead < 0xc2 || 0xf4 < lead then .bad 1 .invalidStart
  else match rest with
    | [] => .cut
    | second :: rest =>
      if !secondAllowed lead second then .bad 1 .invalidContinuation
      else if lead < 0xe0 then
        .char (Char.ofNat (lead.toNat % 0x20 * 0x40 + payload second)) 2
      else match rest with
        | [] => .cut
        | third :: rest =>
          if !isContinuation third then .bad 2 .invalidContinuation
          else if lead < 0xf0 then
            .char (Char.ofNat
              ((lead.toNat % 0x10 * 0x40 + payload second) * 0x40 + payload third)) 3
          else match rest with
            | [] => .cut
            | fourth :: _ =>
              if !isContinuation fourth then .bad 3 .invalidContinuation
              else .char (Char.ofNat (((lead.toNat % 8 * 0x40 + payload second) * 0x40 +
                payload third) * 0x40 + payload fourth)) 4

/-- The first two of the three bytes of a surrogate, and no more. No sequence starts with them,
but they are not refused before there is a third one. -/
def cutSurrogate : List UInt8 → Bool
  | [lead, second] => lead == 0xed && 0xa0 ≤ second && second ≤ 0xbf
  | _ => false

/-- Decodes `bs`, which stand at `position`, after the characters `done` (latest first). Gives
the characters and the bytes of a sequence that is cut off; if `final`, no more bytes follow
and such a sequence is an error. -/
def decodeFrom (final : Bool) (position : Nat) (done : List Char) (bs : List UInt8) :
    Except DecodeError (List Char × List UInt8) :=
  match bs with
  | [] => .ok (done.reverse, [])
  | lead :: rest =>
    match front lead rest with
    | .char c size =>
      decodeFrom final (position + size) (c :: done) (rest.drop (size - 1))
    | .bad size reason =>
      if !final && cutSurrogate (lead :: rest) then .ok (done.reverse, lead :: rest)
      else .error ⟨.utf8, position, (lead :: rest).take size, reason⟩
    | .cut =>
      if final then .error ⟨.utf8, position, lead :: rest, .unexpectedEnd⟩
      else .ok (done.reverse, lead :: rest)
termination_by bs.length
decreasing_by simp only [List.length_drop, List.length_cons]; omega

end Utf8

/-- ASCII takes each byte below 128 as the character of that number. -/
def decodeAscii (position : Nat) (done : List Char) :
    List UInt8 → Except DecodeError (List Char)
  | [] => .ok done.reverse
  | b :: bs =>
    if b < 0x80 then decodeAscii (position + 1) (Char.ofNat b.toNat :: done) bs
    else .error ⟨.ascii, position, [b], .outOfRange⟩

/-- Decodes a piece of an input: its characters, and the bytes that wait for the next piece. -/
def Encoding.decode (e : Encoding) (final : Bool) (bs : List UInt8) :
    Except DecodeError (List Char × List UInt8) :=
  match e with
  | .utf8 => Utf8.decodeFrom final 0 [] bs
  | .ascii => (decodeAscii 0 [] bs).map fun cs => (cs, [])
  | .latin1 => .ok (bs.map fun b => Char.ofNat b.toNat, [])

/-- Decodes a whole input. -/
def Encoding.decodeAll (e : Encoding) (bs : List UInt8) : Except DecodeError (List Char) :=
  (e.decode true bs).map (·.1)

end Stencil.Text
