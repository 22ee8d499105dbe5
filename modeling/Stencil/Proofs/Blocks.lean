import Stencil.Compilation
import Stencil.Proofs.Codec
import Stencil.Source

/-!
# Files and their texts

A file is decoded block by block while it is read, with the bytes of a cut sequence and a carriage
return carried from one block to the next. None of this shows: a file whose bytes are text is the
source that this text is, with its newlines translated (`Source.ofFile_of_encode`), and a file
whose bytes are no text is a source that some read fails on (`Source.exists_failure_of_ofFile`).

The invariant of a file read up to some block is that the bytes kept back and those still to be
read are the bytes of the text still to come, and that the kept bytes alone are no character.
-/

namespace Stencil

namespace Text

namespace Newline

/-- A text with each of its newlines read as one line feed. -/
def translate : List Char → List Char
  | '\r' :: '\n' :: cs => '\n' :: translate cs
  | '\r' :: cs => '\n' :: translate cs
  | c :: cs => c :: translate cs
  | [] => []

/-- A text, and the carriage return that waits in front of it. -/
def behind (held : Bool) (cs : List Char) : List Char :=
  if held then '\r' :: cs else cs

theorem translate_cons {c : Char} (other : c ≠ '\r') (cs : List Char) :
    translate (c :: cs) = c :: translate cs := by
  simp [translate, other]

theorem translate_return {c : Char} (other : c ≠ '\n') (cs : List Char) :
    translate ('\r' :: c :: cs) = '\n' :: translate (c :: cs) := by
  simp [translate, other]

theorem translate_append {cs : List Char} (plain : ∀ c ∈ cs, c ≠ '\r') (more : List Char) :
    translate (cs ++ more) = cs ++ translate more := by
  induction cs with
  | nil => rfl
  | cons c cs ih =>
    obtain ⟨here, plain⟩ := List.forall_mem_cons.mp plain
    rw [List.cons_append, translate_cons here, ih plain, List.cons_append]

theorem translate_behind_nil (held : Bool) : translate (behind held []) = readEnd held := by
  cases held <;> rfl

/-- A piece of a text, with what is read of the rest of it behind, is read as the whole. -/
theorem translate_readOnto (done : List Char) (held : Bool) (cs more : List Char) :
    (readOnto done held cs).1.reverse ++ translate (behind (readOnto done held cs).2 more) =
      done.reverse ++ translate (behind held (cs ++ more)) := by
  fun_induction readOnto done held cs with
  | case1 => rfl
  | case2 done held cs ih =>
    rw [ih]
    cases held with
    | false => rfl
    | true => simp [behind, translate_return]
  | case3 done held cs ih =>
    rw [ih]
    cases held with
    | false => simp [behind, translate]
    | true => simp [behind, translate]
  | case4 done held c cs notReturn notFeed ih =>
    rw [ih]
    cases held with
    | false => simp [behind, translate_cons notReturn]
    | true => simp [behind, translate_return notFeed, translate_cons notReturn]

theorem translate_readPiece {held held' : Bool} {cs piece : List Char}
    (read : readPiece held cs = (piece, held')) (more : List Char) :
    piece ++ translate (behind held' more) = translate (behind held (cs ++ more)) := by
  obtain ⟨rfl, rfl⟩ := Prod.mk.inj read
  exact translate_readOnto [] held cs more

end Newline
end Text

namespace Source

open Text

variable {e : Encoding} {kept bytes : List UInt8} {held : Bool} {done cs : List Char} {count : Nat}

/-- A file whose bytes are text delivers all of it. -/
theorem ofBlocks_of_encode (code : e.encode cs = some (kept ++ bytes))
    (cut : e.decode false kept = .ok ([], kept)) :
    ofBlocks e kept held done count bytes =
      ⟨done.reverse ++ Newline.translate (Newline.behind held cs), none⟩ := by
  fun_induction ofBlocks e kept held done count bytes generalizing cs with
  | case1 kept held done count err failed =>
    rw [List.append_nil] at code
    rw [Encoding.decode_of_encode code] at failed
    cases failed
  | case2 kept held done count read decoded =>
    rw [List.append_nil] at code
    rw [Encoding.decode_of_encode code] at cut
    cases cut
    rw [Newline.translate_behind_nil]
  | case3 kept held done count b bs err failed =>
    rw [← List.take_append_drop (blockSize - 1) bs, ← List.cons_append, ← List.append_assoc] at code
    obtain ⟨cs₁, cs₂, kept', rfl, decoded, -⟩ := Encoding.decode_of_encode_append code
    rw [decoded] at failed
    cases failed
  | case4 kept held done count b bs cs₁ kept₁ decoded piece held₁ read ih =>
    rw [← List.take_append_drop (blockSize - 1) bs, ← List.cons_append, ← List.append_assoc] at code
    obtain ⟨cs₁, cs₂, kept', rfl, decoded', rest⟩ := Encoding.decode_of_encode_append code
    rw [decoded] at decoded'
    cases decoded'
    rw [ih rest (Encoding.decode_kept decoded)]
    simp [← Newline.translate_readPiece read]

/-- A file whose bytes are no text fails once all that it can deliver is read. -/
theorem exists_failure_of_ofBlocks (noText : ∀ cs, e.encode cs ≠ some (kept ++ bytes))
    (counted : count = done.length) :
    ∃ delivered message, ofBlocks e kept held done count bytes =
      ⟨delivered, some (delivered.length, .unreadable message)⟩ := by
  fun_induction ofBlocks e kept held done count bytes with
  | case1 kept held done count err failed =>
    exact ⟨_, _, by rw [List.length_reverse, counted]⟩
  | case2 kept held done count read decoded =>
    obtain ⟨used, code, rfl, nothing⟩ := Encoding.eq_append_of_decode decoded
    rw [nothing rfl] at noText
    refine absurd code ?_
    simpa using noText _
  | case3 kept held done count b bs err failed =>
    exact ⟨_, _, by rw [List.length_reverse, counted]⟩
  | case4 kept held done count b bs cs kept₁ decoded piece held₁ read ih =>
    obtain ⟨used, code, whole, -⟩ := Encoding.eq_append_of_decode decoded
    refine ih (fun cs' code' => ?_) (by simp [counted]; omega)
    refine noText (cs ++ cs') ?_
    rw [Encoding.encode_append code code', ← List.append_assoc, ← whole]
    simp

/-- A file whose bytes are text is the source that this text is, read with its newlines
translated. -/
theorem ofFile_of_encode (code : e.encode cs = some bytes) :
    ofFile e bytes = ofText (String.ofList (Newline.translate cs)) := by
  have nothing : e.decode false [] = .ok ([], []) := Encoding.decode_of_encode rfl
  rw [ofFile, ofBlocks_of_encode code nothing]
  simp [ofText, Newline.behind]

/-- A file whose bytes are no text is a source whose reading fails. -/
theorem exists_failure_of_ofFile (noText : ∀ cs, e.encode cs ≠ some bytes) :
    ∃ text message, ofFile e bytes = failingAt text.toList.length (.unreadable message) text := by
  obtain ⟨delivered, message, fails⟩ := @exists_failure_of_ofBlocks e [] bytes false [] 0 noText rfl
  exact ⟨String.ofList delivered, message, by simp [ofFile, fails, failingAt]⟩

end Source

open Text

/-- A file whose bytes are those of a text has the tokens and the tree, or the failure, of that
text with its newlines translated, wherever the blocks end that it is read in. -/
theorem file_agrees_with_text {e : Encoding} {cs : List Char} {bytes : List UInt8}
    (code : e.encode cs = some bytes) :
    e.decodeAll bytes = .ok cs ∧
      tokenize (.ofFile e bytes) = tokenize (.ofText (String.ofList (Newline.translate cs))) ∧
      compile (.ofFile e bytes) = compile (.ofText (String.ofList (Newline.translate cs))) := by
  have same := Source.ofFile_of_encode code
  refine ⟨Encoding.decodeAll_eq_ok_iff.mpr code, ?_, ?_⟩
  · rw [same]
  · rw [same]

/-- The first block ends inside a character, and the second one inside a newline. -/
theorem file_agrees_with_text_blocks :
    tokenize (.ofFile .utf8 (List.replicate 8191 0x61 ++
        (0xc3 :: 0xa9 :: (List.replicate 8190 0x61 ++ [0x0d, 0x0a])))) =
      tokenize (.ofText (String.ofList (List.replicate 8191 'a' ++
        ('é' :: (List.replicate 8190 'a' ++ ['\n']))))) := by
  have code : Encoding.utf8.encode (List.replicate 8191 'a' ++
      ('é' :: (List.replicate 8190 'a' ++ ['\r', '\n']))) =
      some (List.replicate 8191 0x61 ++
        (0xc3 :: 0xa9 :: (List.replicate 8190 0x61 ++ [0x0d, 0x0a]))) := by
    have one : String.utf8EncodeChar 'a' = [0x61] := by decide
    have two : String.utf8EncodeChar 'é' = [0xc3, 0xa9] := by decide
    have ending : ['\r', '\n'].flatMap String.utf8EncodeChar = [0x0d, 0x0a] := by decide
    rw [Encoding.encode_utf8, List.flatMap_append, List.flatMap_cons, List.flatMap_append,
      List.flatMap_replicate, List.flatMap_replicate, one, two, ending,
      List.flatten_replicate_singleton, List.flatten_replicate_singleton]
    rfl
  have plain : ∀ n : Nat, ∀ c ∈ List.replicate n 'a', c ≠ '\r' := by
    intro n c member
    rw [(List.mem_replicate.mp member).2]
    decide
  have agrees := (file_agrees_with_text code).2.1
  rw [Newline.translate_append (plain _), Newline.translate_cons (by decide),
    Newline.translate_append (plain _)] at agrees
  exact agrees

end Stencil
