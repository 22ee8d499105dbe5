import Stencil.Text.Encoding

/-!
# Bytes of texts

The converse of decoding: the bytes that stand for a text in an encoding, if there are any
(`Encoding.encode`). It says which bytes are text without speaking of a decoder. Decoding is its
inverse on a whole input (`Encoding.decodeAll_eq_ok_iff`); on a piece of one, what is decoded and
what is kept back make up the piece (`Encoding.eq_append_of_decode`), and a piece of bytes that
are text is never refused (`Encoding.decode_of_encode_append`).

In UTF-8 a character is a sequence of one to four bytes, and `Utf8.Sequence` has one rule for
each length. A sequence is read back whole, and a proper part of one is cut. What is kept back need
not be such a part: the start of a surrogate is kept too, and no text goes on behind it.
-/

namespace Stencil.Text

/-- The bytes that stand for a character. -/
def Encoding.encodeChar (c : Char) : Encoding → Option (List UInt8)
  | utf8 => some (String.utf8EncodeChar c)
  | ascii => if c.toNat < 0x80 then some [UInt8.ofNat c.toNat] else none
  | latin1 => if c.toNat < 0x100 then some [UInt8.ofNat c.toNat] else none

/-- The bytes that stand for a text. -/
def Encoding.encode (e : Encoding) : List Char → Option (List UInt8)
  | [] => some []
  | c :: cs =>
    match e.encodeChar c, e.encode cs with
    | some b, some bs => some (b ++ bs)
    | _, _ => none

namespace Utf8

/-! ## Sequences -/

theorem secondAllowed_iff {lead second : UInt8} :
    secondAllowed lead second = true ↔ 0x80 ≤ second.toNat ∧ second.toNat ≤ 0xbf ∧
      (lead.toNat = 0xe0 → 0xa0 ≤ second.toNat) ∧ (lead.toNat = 0xf0 → 0x90 ≤ second.toNat) ∧
      (lead.toNat = 0xed → second.toNat ≤ 0x9f) ∧ (lead.toNat = 0xf4 → second.toNat ≤ 0x8f) := by
  simp only [secondAllowed, Bool.and_eq_true, decide_eq_true_eq, ← UInt8.toNat_inj,
    UInt8.le_iff_toNat_le, apply_ite UInt8.toNat, UInt8.reduceToNat]
  grind

theorem isContinuation_iff {b : UInt8} :
    isContinuation b = true ↔ 0x80 ≤ b.toNat ∧ b.toNat ≤ 0xbf := by
  simp only [isContinuation, Bool.and_eq_true, decide_eq_true_eq, UInt8.le_iff_toNat_le,
    UInt8.reduceToNat]

/-- `lead :: tail` is the sequence that stands for a character: the bytes of each length and
the number they carry. -/
inductive Sequence : UInt8 → List UInt8 → Char → Prop
  | one {lead} (low : lead.toNat < 0x80) : Sequence lead [] (Char.ofNat lead.toNat)
  | two {lead second} (starts : 0xc2 ≤ lead.toNat) (ends : lead.toNat < 0xe0)
      (allowed : secondAllowed lead second) :
      Sequence lead [second] (Char.ofNat (lead.toNat % 0x20 * 0x40 + payload second))
  | three {lead second third} (starts : 0xe0 ≤ lead.toNat) (ends : lead.toNat < 0xf0)
      (allowed : secondAllowed lead second) (continues : isContinuation third) :
      Sequence lead [second, third]
        (Char.ofNat ((lead.toNat % 0x10 * 0x40 + payload second) * 0x40 + payload third))
  | four {lead second third fourth} (starts : 0xf0 ≤ lead.toNat) (ends : lead.toNat ≤ 0xf4)
      (allowed : secondAllowed lead second) (continues : isContinuation third)
      (continues' : isContinuation fourth) :
      Sequence lead [second, third, fourth]
        (Char.ofNat (((lead.toNat % 8 * 0x40 + payload second) * 0x40 + payload third) * 0x40 +
          payload fourth))

variable {lead : UInt8} {tail rest : List UInt8} {c : Char}

/-- The bytes that start a sequence of more than one. -/
theorem starts_iff : ¬lead < 0x80 ∧ ¬(decide (lead < 0xc2) || decide (0xf4 < lead)) = true ↔
    0xc2 ≤ lead.toNat ∧ lead.toNat ≤ 0xf4 := by
  simp only [Bool.or_eq_true, decide_eq_true_eq, UInt8.lt_iff_toNat_lt, UInt8.reduceToNat]
  omega

/-- A sequence is read, whatever follows it. -/
theorem Sequence.front (sequence : Sequence lead tail c) :
    front lead (tail ++ rest) = .char c (tail.length + 1) := by
  cases sequence with
  | one low => rw [Utf8.front.eq_def, if_pos (UInt8.lt_iff_toNat_lt.mpr low)]; rfl
  | two starts ends allowed =>
    obtain ⟨long, first⟩ := starts_iff.mpr ⟨starts, by omega⟩
    rw [Utf8.front.eq_def, if_neg long, if_neg first]
    simp [allowed, UInt8.lt_iff_toNat_lt, ends]
  | three starts ends allowed continues =>
    have range : 0xc2 ≤ lead.toNat ∧ lead.toNat ≤ 0xf4 := by omega
    obtain ⟨long, first⟩ := starts_iff.mpr range
    have notTwo : ¬lead.toNat < 0xe0 := by omega
    rw [Utf8.front.eq_def, if_neg long, if_neg first]
    simp [allowed, continues, UInt8.lt_iff_toNat_lt, ends, notTwo]
  | four starts ends allowed continues continues' =>
    obtain ⟨long, first⟩ := starts_iff.mpr ⟨by omega, ends⟩
    have notTwo : ¬lead.toNat < 0xe0 := by omega
    have notThree : ¬lead.toNat < 0xf0 := by omega
    rw [Utf8.front.eq_def, if_neg long, if_neg first]
    simp [allowed, continues, continues', UInt8.lt_iff_toNat_lt, notTwo, notThree]

/-- A part of a sequence is seen to be cut off. -/
theorem Sequence.front_part {b : UInt8} (sequence : Sequence lead (tail ++ b :: rest) c) :
    Utf8.front lead tail = .cut := by
  generalize whole : tail ++ b :: rest = all at sequence
  cases sequence with
  | one => simp at whole
  | two starts ends allowed =>
    obtain ⟨long, first⟩ := starts_iff.mpr ⟨starts, by omega⟩
    rw [Utf8.front.eq_def, if_neg long, if_neg first]
    match tail, whole with
    | [], _ => rfl
    | _ :: tail, whole => simp at whole
  | three starts ends allowed continues =>
    have range : 0xc2 ≤ lead.toNat ∧ lead.toNat ≤ 0xf4 := by omega
    obtain ⟨long, first⟩ := starts_iff.mpr range
    have notTwo : ¬lead.toNat < 0xe0 := by omega
    rw [Utf8.front.eq_def, if_neg long, if_neg first]
    match tail, whole with
    | [], _ => rfl
    | [_], whole =>
      cases whole
      simp [allowed, UInt8.lt_iff_toNat_lt, notTwo]
    | _ :: _ :: tail, whole => simp at whole
  | four starts ends allowed continues continues' =>
    obtain ⟨long, first⟩ := starts_iff.mpr ⟨by omega, ends⟩
    have notTwo : ¬lead.toNat < 0xe0 := by omega
    have notThree : ¬lead.toNat < 0xf0 := by omega
    rw [Utf8.front.eq_def, if_neg long, if_neg first]
    match tail, whole with
    | [], _ => rfl
    | [_], whole =>
      cases whole
      simp [allowed, UInt8.lt_iff_toNat_lt, notTwo]
    | [_, _], whole =>
      cases whole
      simp [allowed, continues, UInt8.lt_iff_toNat_lt, notTwo, notThree]
    | _ :: _ :: _ :: tail, whole => simp at whole

/-- What is read is a sequence. -/
theorem sequence_of_front {size : Nat} (read : front lead rest = .char c size) :
    ∃ tail, Sequence lead tail c ∧ rest = tail ++ rest.drop (size - 1) := by
  unfold Utf8.front at read
  split at read
  · next low =>
    cases read
    exact ⟨[], .one (UInt8.lt_iff_toNat_lt.mp low), rfl⟩
  next long =>
  split at read
  · cases read
  next first =>
  obtain ⟨starts, ends⟩ := starts_iff.mp ⟨long, first⟩
  split at read
  · cases read
  next second rest =>
  split at read
  · cases read
  next allowed =>
  rw [Bool.not_eq_true', Bool.not_eq_false] at allowed
  split at read
  · next two =>
    cases read
    exact ⟨[second], .two starts (UInt8.lt_iff_toNat_lt.mp two) allowed, rfl⟩
  next notTwo =>
  have three : 0xe0 ≤ lead.toNat :=
    Nat.not_lt.mp fun two => notTwo (UInt8.lt_iff_toNat_lt.mpr two)
  split at read
  · cases read
  next third rest =>
  split at read
  · cases read
  next continues =>
  rw [Bool.not_eq_true', Bool.not_eq_false] at continues
  split at read
  · next short =>
    cases read
    exact ⟨[second, third], .three three (UInt8.lt_iff_toNat_lt.mp short) allowed continues, rfl⟩
  next notThree =>
  have four : 0xf0 ≤ lead.toNat :=
    Nat.not_lt.mp fun three => notThree (UInt8.lt_iff_toNat_lt.mpr three)
  split at read
  · cases read
  next fourth rest =>
  split at read
  · cases read
  next continues' =>
  rw [Bool.not_eq_true', Bool.not_eq_false] at continues'
  cases read
  exact ⟨[second, third, fourth], .four four ends allowed continues continues', rfl⟩

/-! ## Sequences and characters -/

theorem val_ofNat {n : Nat} (valid : n.isValidChar) : (Char.ofNat n).val.toNat = n := by
  rw [Char.ofNat, dif_pos valid]
  rfl

theorem ofNat_eq {n : Nat} {b : UInt8} (same : n = b.toNat) : UInt8.ofNat n = b := by
  rw [same, UInt8.ofNat_toNat]

theorem toNat_ofNat {n : Nat} (small : n < 0x100) : (UInt8.ofNat n).toNat = n :=
  UInt8.toNat_ofNat_of_lt' small

/-- A sequence is the encoding of its character. -/
theorem Sequence.encodeChar (sequence : Sequence lead tail c) :
    String.utf8EncodeChar c = lead :: tail := by
  cases sequence with
  | one low =>
    have number : (Char.ofNat lead.toNat).val.toNat = lead.toNat := val_ofNat (by left; omega)
    rw [String.utf8EncodeChar, number]
    rw [if_pos (by omega), ofNat_eq rfl]
  | @two second starts ends allowed =>
    rw [secondAllowed_iff] at allowed
    rw [payload]
    generalize total : lead.toNat % 0x20 * 0x40 + second.toNat % 0x40 = n
    have number : (Char.ofNat n).val.toNat = n := val_ofNat (by left; omega)
    rw [String.utf8EncodeChar, number]
    rw [if_neg (by omega), if_pos (by omega), ofNat_eq (b := lead) (by omega),
      ofNat_eq (b := second) (by omega)]
  | @three second third starts ends allowed continues =>
    rw [secondAllowed_iff] at allowed
    rw [isContinuation_iff] at continues
    rw [payload, payload]
    generalize total :
      (lead.toNat % 0x10 * 0x40 + second.toNat % 0x40) * 0x40 + third.toNat % 0x40 = n
    have number : (Char.ofNat n).val.toNat = n := val_ofNat (by unfold Nat.isValidChar; omega)
    rw [String.utf8EncodeChar, number]
    rw [if_neg (by omega), if_neg (by omega), if_pos (by omega), ofNat_eq (b := lead) (by omega),
      ofNat_eq (b := second) (by omega), ofNat_eq (b := third) (by omega)]
  | @four second third fourth starts ends allowed continues continues' =>
    rw [secondAllowed_iff] at allowed
    rw [isContinuation_iff] at continues continues'
    rw [payload, payload, payload]
    generalize total :
      ((lead.toNat % 8 * 0x40 + second.toNat % 0x40) * 0x40 + third.toNat % 0x40) * 0x40 +
        fourth.toNat % 0x40 = n
    have number : (Char.ofNat n).val.toNat = n := val_ofNat (by unfold Nat.isValidChar; omega)
    rw [String.utf8EncodeChar, number]
    rw [if_neg (by omega), if_neg (by omega), if_neg (by omega),
      ofNat_eq (b := lead) (by omega), ofNat_eq (b := second) (by omega),
      ofNat_eq (b := third) (by omega), ofNat_eq (b := fourth) (by omega)]

/-- Every character has a sequence. -/
theorem exists_sequence (c : Char) : ∃ lead tail, Sequence lead tail c := by
  have valid := c.valid
  have value : Char.ofNat c.val.toNat = c := Char.ofNat_toNat c
  simp only [UInt32.isValidChar, Nat.isValidChar] at valid
  generalize c.val.toNat = n at value valid
  by_cases one : n < 0x80
  · have first := toNat_ofNat (n := n) (by omega)
    have sequence := @Sequence.one (.ofNat n) (by omega)
    rw [first, value] at sequence
    exact ⟨_, _, sequence⟩
  by_cases two : n < 0x800
  · have first := toNat_ofNat (n := n / 0x40 + 0xc0) (by omega)
    have second := toNat_ofNat (n := n % 0x40 + 0x80) (by omega)
    have sequence := @Sequence.two (.ofNat (n / 0x40 + 0xc0)) (.ofNat (n % 0x40 + 0x80))
      (by omega) (by omega) (secondAllowed_iff.mpr (by omega))
    have number : (n / 0x40 + 0xc0) % 0x20 * 0x40 + (n % 0x40 + 0x80) % 0x40 = n := by omega
    rw [payload, first, second, number, value] at sequence
    exact ⟨_, _, sequence⟩
  by_cases three : n < 0x10000
  · have first := toNat_ofNat (n := n / 0x1000 + 0xe0) (by omega)
    have second := toNat_ofNat (n := n / 0x40 % 0x40 + 0x80) (by omega)
    have third := toNat_ofNat (n := n % 0x40 + 0x80) (by omega)
    have sequence := @Sequence.three (.ofNat (n / 0x1000 + 0xe0))
      (.ofNat (n / 0x40 % 0x40 + 0x80)) (.ofNat (n % 0x40 + 0x80))
      (by omega) (by omega) (secondAllowed_iff.mpr (by omega)) (isContinuation_iff.mpr (by omega))
    have number : ((n / 0x1000 + 0xe0) % 0x10 * 0x40 + (n / 0x40 % 0x40 + 0x80) % 0x40) * 0x40 +
        (n % 0x40 + 0x80) % 0x40 = n := by omega
    rw [payload, payload, first, second, third, number, value] at sequence
    exact ⟨_, _, sequence⟩
  · have first := toNat_ofNat (n := n / 0x40000 + 0xf0) (by omega)
    have second := toNat_ofNat (n := n / 0x1000 % 0x40 + 0x80) (by omega)
    have third := toNat_ofNat (n := n / 0x40 % 0x40 + 0x80) (by omega)
    have fourth := toNat_ofNat (n := n % 0x40 + 0x80) (by omega)
    have sequence := @Sequence.four (.ofNat (n / 0x40000 + 0xf0))
      (.ofNat (n / 0x1000 % 0x40 + 0x80)) (.ofNat (n / 0x40 % 0x40 + 0x80))
      (.ofNat (n % 0x40 + 0x80)) (by omega) (by omega) (secondAllowed_iff.mpr (by omega))
      (isContinuation_iff.mpr (by omega)) (isContinuation_iff.mpr (by omega))
    have number : (((n / 0x40000 + 0xf0) % 8 * 0x40 + (n / 0x1000 % 0x40 + 0x80) % 0x40) * 0x40 +
        (n / 0x40 % 0x40 + 0x80) % 0x40) * 0x40 + (n % 0x40 + 0x80) % 0x40 = n := by omega
    rw [payload, payload, payload, first, second, third, fourth, number, value] at sequence
    exact ⟨_, _, sequence⟩

theorem sequence_of_encodeChar (code : String.utf8EncodeChar c = lead :: tail) :
    Sequence lead tail c := by
  obtain ⟨lead', tail', sequence⟩ := exists_sequence c
  obtain ⟨rfl, rfl⟩ := List.cons.inj (code.symm.trans sequence.encodeChar)
  exact sequence

/-! ## Decoding -/

variable {final : Bool} {position : Nat} {done cs : List Char} {bs kept : List UInt8}

/-- What is decoded and what is kept back make up the bytes. -/
theorem eq_append_of_decodeFrom (decoded : decodeFrom final position done bs = .ok (cs, kept)) :
    ∃ new, cs = done.reverse ++ new ∧ bs = new.flatMap String.utf8EncodeChar ++ kept ∧
      (final = true → kept = []) := by
  fun_induction decodeFrom final position done bs with
  | case1 position done =>
    cases decoded
    exact ⟨[], by simp⟩
  | case2 position done lead rest c size read ih =>
    obtain ⟨new, rfl, code, nothing⟩ := ih decoded
    obtain ⟨tail, sequence, whole⟩ := sequence_of_front read
    refine ⟨c :: new, by simp, ?_, nothing⟩
    rw [List.flatMap_cons, sequence.encodeChar, List.append_assoc, ← code, List.cons_append,
      ← whole]
  | case3 position done lead rest size reason read waits =>
    cases decoded
    exact ⟨[], by simp, rfl, fun isFinal => by simp [isFinal] at waits⟩
  | case4 => cases decoded
  | case5 => cases decoded
  | case6 position done lead rest read notFinal =>
    cases decoded
    exact ⟨[], by simp, rfl, fun isFinal => absurd isFinal notFinal⟩

theorem decodeFrom_encodeChar (rest : List UInt8) :
    decodeFrom final position done (String.utf8EncodeChar c ++ rest) =
      decodeFrom final (position + (String.utf8EncodeChar c).length) (c :: done) rest := by
  obtain ⟨lead, tail, sequence⟩ := exists_sequence c
  rw [sequence.encodeChar, List.cons_append, decodeFrom, sequence.front]
  simp

/-- The bytes of a text are decoded to it. -/
theorem decodeFrom_encode :
    decodeFrom final position done (cs.flatMap String.utf8EncodeChar) =
      .ok (done.reverse ++ cs, []) := by
  induction cs generalizing position done with
  | nil => simp [decodeFrom]
  | cons c cs ih => rw [List.flatMap_cons, decodeFrom_encodeChar, ih]; simp

/-- The first part of the bytes of a text is decoded to a first part of the text. What is kept
back belongs with the bytes that follow. -/
theorem decodeFrom_part {part more : List UInt8}
    (code : part ++ more = cs.flatMap String.utf8EncodeChar) :
    ∃ cs₁ cs₂ kept, cs = cs₁ ++ cs₂ ∧ kept ++ more = cs₂.flatMap String.utf8EncodeChar ∧
      decodeFrom false position done part = .ok (done.reverse ++ cs₁, kept) := by
  induction cs generalizing part position done with
  | nil =>
    obtain ⟨rfl, rfl⟩ := List.append_eq_nil_iff.mp code
    exact ⟨[], [], [], rfl, rfl, by simp [decodeFrom]⟩
  | cons c cs ih =>
    rw [List.flatMap_cons] at code
    rcases List.append_eq_append_iff.mp code with ⟨b, whole, rest⟩ | ⟨part', rfl, rest⟩
    · -- The part ends before the bytes of `c`, just behind them or among them.
      cases part with
      | nil => exact ⟨[], c :: cs, [], rfl, by simpa using code, by simp [decodeFrom]⟩
      | cons lead tail =>
        cases b with
        | nil =>
          rw [List.append_nil] at whole
          rw [List.nil_append] at rest
          refine ⟨[c], cs, [], rfl, rest, ?_⟩
          rw [← whole, ← List.append_nil (String.utf8EncodeChar c), decodeFrom_encodeChar]
          simp [decodeFrom]
        | cons b bs =>
          refine ⟨[], c :: cs, lead :: tail, rfl, by simpa using code, ?_⟩
          rw [decodeFrom, (sequence_of_encodeChar whole).front_part]
          simp
    · obtain ⟨cs₁, cs₂, kept, rfl, code, decoded⟩ := ih rest.symm
      refine ⟨c :: cs₁, cs₂, kept, rfl, code, ?_⟩
      rw [decodeFrom_encodeChar, decoded]
      simp

/-- What is kept back is no character. -/
theorem decodeFrom_kept (decoded : decodeFrom false position done bs = .ok (cs, kept)) :
    decodeFrom false 0 [] kept = .ok ([], kept) := by
  fun_induction decodeFrom false position done bs with
  | case1 =>
    cases decoded
    rw [decodeFrom, List.reverse_nil]
  | case2 position done lead rest c size read ih => exact ih decoded
  | case3 position done lead rest size reason bad waits =>
    cases decoded
    rw [decodeFrom, bad]
    simp only [waits, if_true, List.reverse_nil]
  | case4 => cases decoded
  | case5 => cases decoded
  | case6 position done lead rest cut =>
    cases decoded
    rw [decodeFrom, cut]
    rfl

end Utf8

/-! ## The encodings -/

variable {position : Nat} {done : List Char}

/-- What is read as ASCII has no byte of eight bits, and each byte is a character. -/
theorem decodeAscii_eq_ok_iff {bs : List UInt8} {cs : List Char} :
    decodeAscii position done bs = .ok cs ↔
      (∀ b ∈ bs, b.toNat < 0x80) ∧ cs = done.reverse ++ bs.map fun b => Char.ofNat b.toNat := by
  induction bs generalizing position done with
  | nil => simp [decodeAscii, eq_comm]
  | cons b bs ih =>
    rw [decodeAscii]
    split
    · next low =>
      have : b.toNat < 0x80 := UInt8.lt_iff_toNat_lt.mp low
      rw [ih]
      simp [this]
    · next high =>
      have : ¬b.toNat < 0x80 := fun low => high (UInt8.lt_iff_toNat_lt.mpr low)
      simp [this]

namespace Encoding

variable {e : Encoding} {final : Bool} {cs cs' : List Char} {bs bs' kept : List UInt8}

theorem toNat_charOfByte (b : UInt8) : (Char.ofNat b.toNat).toNat = b.toNat :=
  Utf8.val_ofNat (.inl (by have := b.toNat_lt; omega))

theorem encode_cons_eq_some {c : Char} :
    e.encode (c :: cs) = some bs ↔
      ∃ b bs', e.encodeChar c = some b ∧ e.encode cs = some bs' ∧ bs = b ++ bs' := by
  rw [encode]
  split
  · next b bs' code code' =>
    rw [code, code']
    simp [eq_comm]
  · next none =>
    simp only [reduceCtorEq, false_iff]
    rintro ⟨b, bs', code, code', -⟩
    exact none b bs' code code'

/-- Texts are encoded one behind the other. -/
theorem encode_append (code : e.encode cs = some bs) (code' : e.encode cs' = some bs') :
    e.encode (cs ++ cs') = some (bs ++ bs') := by
  induction cs generalizing bs with
  | nil =>
    cases code
    exact code'
  | cons c cs ih =>
    obtain ⟨b, bs, one, rest, rfl⟩ := encode_cons_eq_some.mp code
    rw [List.append_assoc]
    exact encode_cons_eq_some.mpr ⟨b, _, one, ih rest, rfl⟩

theorem encode_utf8 (cs : List Char) :
    utf8.encode cs = some (cs.flatMap String.utf8EncodeChar) := by
  induction cs with
  | nil => rfl
  | cons c cs ih => exact encode_cons_eq_some.mpr ⟨_, _, rfl, ih, rfl⟩

/-- The encodings that take each byte below some limit as the character of that number. -/
theorem encode_eq_some_iff {limit : Nat} (small : limit ≤ 0x100)
    (one : ∀ c : Char, e.encodeChar c = if c.toNat < limit then some [.ofNat c.toNat] else none) :
    e.encode cs = some bs ↔
      (∀ b ∈ bs, b.toNat < limit) ∧ cs = bs.map fun b => Char.ofNat b.toNat := by
  induction cs generalizing bs with
  | nil =>
    cases bs with
    | nil => simp [encode]
    | cons => simp [encode]
  | cons c cs ih =>
    rw [encode_cons_eq_some]
    constructor
    · rintro ⟨b, bs, code, rest, rfl⟩
      rw [one] at code
      split at code
      · next low =>
        cases code
        obtain ⟨lows, rfl⟩ := ih.mp rest
        have number := Utf8.toNat_ofNat (Nat.lt_of_lt_of_le low small)
        rw [List.singleton_append, List.map_cons, number, Char.ofNat_toNat]
        refine ⟨List.forall_mem_cons.mpr ⟨?_, lows⟩, rfl⟩
        rw [number]
        exact low
      · cases code
    · rintro ⟨low, whole⟩
      cases bs with
      | nil => cases whole
      | cons b bs =>
        obtain ⟨rfl, rfl⟩ := List.cons.inj whole
        obtain ⟨here, lows⟩ := List.forall_mem_cons.mp low
        refine ⟨[b], bs, ?_, ih.mpr ⟨lows, rfl⟩, rfl⟩
        rw [one, toNat_charOfByte, if_pos here, UInt8.ofNat_toNat]

theorem encode_ascii : ascii.encode cs = some bs ↔
    (∀ b ∈ bs, b.toNat < 0x80) ∧ cs = bs.map fun b => Char.ofNat b.toNat :=
  encode_eq_some_iff (by decide) fun _ => rfl

theorem encode_latin1 : latin1.encode cs = some bs ↔ cs = bs.map fun b => Char.ofNat b.toNat := by
  rw [encode_eq_some_iff (Nat.le_refl _) fun _ => rfl]
  exact and_iff_right fun b _ => b.toNat_lt

/-- Reading ASCII is the inverse of writing it, and keeps no byte back. -/
theorem decode_ascii_eq_ok :
    ascii.decode final bs = .ok (cs, kept) ↔ ascii.encode cs = some bs ∧ kept = [] := by
  rw [decode, encode_ascii]
  cases decoded : decodeAscii 0 [] bs with
  | error f =>
    constructor
    · nofun
    · rintro ⟨code, -⟩
      rw [decodeAscii_eq_ok_iff.mpr code] at decoded
      cases decoded
  | ok read =>
    obtain ⟨low, rfl⟩ := decodeAscii_eq_ok_iff.mp decoded
    constructor
    · rintro ⟨⟩
      exact ⟨⟨low, rfl⟩, rfl⟩
    · rintro ⟨⟨-, rfl⟩, rfl⟩
      rfl

/-- What is decoded and what is kept back make up the bytes. -/
theorem eq_append_of_decode (decoded : e.decode final bs = .ok (cs, kept)) :
    ∃ used, e.encode cs = some used ∧ bs = used ++ kept ∧ (final = true → kept = []) := by
  cases e with
  | utf8 =>
    obtain ⟨new, rfl, whole, nothing⟩ := Utf8.eq_append_of_decodeFrom decoded
    exact ⟨_, encode_utf8 _, whole, nothing⟩
  | ascii =>
    obtain ⟨code, rfl⟩ := decode_ascii_eq_ok.mp decoded
    exact ⟨bs, code, by simp, fun _ => rfl⟩
  | latin1 =>
    cases decoded
    exact ⟨bs, encode_latin1.mpr rfl, by simp, fun _ => rfl⟩

/-- The bytes of a text are decoded to it. -/
theorem decode_of_encode (code : e.encode cs = some bs) : e.decode final bs = .ok (cs, []) := by
  cases e with
  | utf8 =>
    rw [encode_utf8] at code
    cases code
    exact Utf8.decodeFrom_encode
  | ascii => exact decode_ascii_eq_ok.mpr ⟨code, rfl⟩
  | latin1 => rw [decode, encode_latin1.mp code]

/-- The first part of the bytes of a text is decoded to a first part of the text. What is kept
back belongs with the bytes that follow. -/
theorem decode_of_encode_append (code : e.encode cs = some (bs ++ bs')) :
    ∃ cs₁ cs₂ kept, cs = cs₁ ++ cs₂ ∧ e.decode false bs = .ok (cs₁, kept) ∧
      e.encode cs₂ = some (kept ++ bs') := by
  cases e with
  | utf8 =>
    rw [encode_utf8] at code
    obtain ⟨cs₁, cs₂, kept, rfl, rest, decoded⟩ :=
      @Utf8.decodeFrom_part 0 [] _ _ _ (Option.some.inj code).symm
    exact ⟨cs₁, cs₂, kept, rfl, decoded, by rw [encode_utf8, rest]⟩
  | ascii =>
    obtain ⟨low, rfl⟩ := encode_ascii.mp code
    obtain ⟨low₁, low₂⟩ := List.forall_mem_append.mp low
    rw [List.map_append]
    exact ⟨_, _, [], rfl, decode_of_encode (encode_ascii.mpr ⟨low₁, rfl⟩),
      encode_ascii.mpr ⟨low₂, rfl⟩⟩
  | latin1 =>
    obtain rfl := encode_latin1.mp code
    rw [List.map_append]
    exact ⟨_, _, [], rfl, decode_of_encode (encode_latin1.mpr rfl), encode_latin1.mpr rfl⟩

/-- What is kept back is no character. -/
theorem decode_kept (decoded : e.decode false bs = .ok (cs, kept)) :
    e.decode false kept = .ok ([], kept) := by
  cases e with
  | utf8 => exact Utf8.decodeFrom_kept decoded
  | ascii =>
    obtain ⟨-, rfl⟩ := decode_ascii_eq_ok.mp decoded
    exact decode_ascii_eq_ok.mpr ⟨rfl, rfl⟩
  | latin1 =>
    cases decoded
    rfl

/-- Decoding succeeds exactly on the bytes of texts. -/
theorem decodeAll_eq_ok_iff : e.decodeAll bs = .ok cs ↔ e.encode cs = some bs := by
  rw [decodeAll]
  constructor
  · intro decoded
    cases all : e.decode true bs with
    | error f => rw [all] at decoded; cases decoded
    | ok read =>
      rw [all] at decoded
      cases decoded
      obtain ⟨used, code, rfl, nothing⟩ := eq_append_of_decode all
      rw [code, nothing rfl, List.append_nil]
  · intro code
    rw [decode_of_encode code]
    rfl

end Encoding
end Stencil.Text
