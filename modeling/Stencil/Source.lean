import Stencil.Text.Encoding
import Stencil.Text.Line

/-!
# Sources of characters

Where a template is read from: characters asked for one at a time. A read may fail. A failure
that is no fault of the reader (the device, bytes that are no text) ends the input, and the
source is not asked again; any other failure crashes the reader.

A template file is such a source too. It is read in blocks, and a block is decoded when a
character is asked for and none is left, so bytes that are no text stop the reader only there: all
characters of the blocks before have been delivered, and none of the block itself.
-/

namespace Stencil

/-- A failed read. -/
inductive Fault where
  /-- The input could not be read further. -/
  | unreadable (message : String)
  /-- The reader is not prepared for this, but catches it like all errors of a program; `label`
  names the kind. What no handler of errors catches, such as a request to exit the program, is not
  among these faults: it ends the reader without a trace. -/
  | crash (label message : String)
  deriving Repr, DecidableEq

/-- A source of characters, as it stands after some reads. -/
structure Source where
  /-- The characters not yet read. -/
  rest : List Char
  /-- The read that fails, counted from the next one, and how. It fails once, and consumes
  nothing. -/
  failure : Option (Nat × Fault) := none
  deriving Repr, DecidableEq

namespace Source

/-- A source that never fails. -/
def ofText (s : String) : Source :=
  { rest := s.toList }

/-- A source whose read number `n`, counted from zero, fails. -/
def failingAt (n : Nat) (f : Fault) (s : String) : Source :=
  { rest := s.toList, failure := some (n, f) }

/-- One read: a character, or none at the end of the input, or a failure. -/
def read (s : Source) : Except Fault (Option Char) × Source :=
  match s.failure with
  | some (0, f) => (.error f, { s with failure := none })
  | some (n + 1, f) => (.ok s.rest.head?, ⟨s.rest.tail, some (n, f)⟩)
  | none => (.ok s.rest.head?, ⟨s.rest.tail, none⟩)

/-! ## Files -/

open Text

/-- The number of bytes read at a time. -/
def blockSize : Nat := 8192

/-- Decodes a file block by block. `kept` are the bytes of a sequence cut off by the last
block, `held` says that a carriage return waits, `done` are the characters delivered so far
(latest first) and `count` is their number. -/
def ofBlocks (e : Encoding) (kept : List UInt8) (held : Bool) (done : List Char) (count : Nat)
    (bytes : List UInt8) : Source :=
  match bytes with
  | [] =>
    match e.decode true kept with
    | .error err => ⟨done.reverse, some (count, .unreadable err.message)⟩
    | .ok _ => ⟨done.reverse ++ Newline.readEnd held, none⟩
  | b :: bs =>
    match e.decode false (kept ++ b :: bs.take (blockSize - 1)) with
    | .error err => ⟨done.reverse, some (count, .unreadable err.message)⟩
    | .ok (cs, kept) =>
      let (piece, held) := Newline.readPiece held cs
      ofBlocks e kept held (piece.reverseAux done) (count + piece.length)
        (bs.drop (blockSize - 1))
termination_by bytes.length
decreasing_by simp only [List.length_drop, List.length_cons]; omega

/-- The source that a file with these bytes is. -/
def ofFile (e : Encoding) (bytes : List UInt8) : Source :=
  ofBlocks e [] false [] 0 bytes

end Source

end Stencil
