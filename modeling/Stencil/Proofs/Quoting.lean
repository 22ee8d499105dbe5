import Mathlib.Algebra.Group.Nat.Defs
import Mathlib.Data.List.Basic
import Stencil.Text.Literal
import Stencil.Text.Line

/-!
# Where a quoted text ends

JSON strings and literals end where they seem to end: whatever stands behind a quoted text, the
text and what stands behind it can be told from the characters alone
(`JsonString.encode_append_inj`, `Literal.encode_append_inj`). So lists and records of quoted texts
need no other separator.

Both ways of quoting write a character as itself, behind a backslash by a name, or behind a
backslash as a numeral whose first letter says how long it is. One reader for both, `unescape`,
takes a character off the front; the quote at the end is no character in this sense. Literals
also stay on their line (`Literal.unbroken_encode`).
-/

namespace Stencil.Text

variable {c d : Char} {cs ds xs ys : List Char}

/-! ## Numerals -/

/-- The value of a hexadecimal digit. -/
def hexDigitValue (d : Char) : Nat :=
  "0123456789abcdef".toList.idxOf d

/-- The number that hexadecimal digits denote. -/
def hexValue (ds : List Char) : Nat :=
  ds.foldl (fun n d => 16 * n + hexDigitValue d) 0

theorem hexDigitValue_hexDigit : ∀ n < 16, hexDigitValue (hexDigit n) = n := by
  decide

theorem hexValue_hexNumeral (width n : Nat) : hexValue (hexNumeral width n) = n % 16 ^ width := by
  induction width generalizing n with
  | zero => rw [Nat.pow_zero, Nat.mod_one]; rfl
  | succ width ih =>
    have last := hexDigitValue_hexDigit (n % 16) (Nat.mod_lt _ (by decide))
    have whole : hexValue (hexNumeral (width + 1) n) =
        16 * hexValue (hexNumeral width (n / 16)) + hexDigitValue (hexDigit (n % 16)) := by
      simp [hexNumeral, hexValue]
    rw [whole, ih, last, Nat.pow_succ, Nat.mul_comm (16 ^ width), Nat.mod_mul, Nat.add_comm]

theorem exists_of_mem_hexNumeral {width n : Nat} (member : d ∈ hexNumeral width n) :
    ∃ k < 16, d = hexDigit k := by
  induction width generalizing n with
  | zero => cases member
  | succ width ih =>
    rcases List.mem_append.mp member with member | member
    · exact ih member
    · exact ⟨n % 16, Nat.mod_lt _ (by decide), List.mem_singleton.mp member⟩

/-! ## Line ends -/

/-- None of the characters ends a line. -/
def Unbroken (cs : List Char) : Prop :=
  ∀ c ∈ cs, isLineEnd c = false

theorem Unbroken.nil : Unbroken [] :=
  nofun

theorem Unbroken.cons (first : isLineEnd c = false) (more : Unbroken cs) : Unbroken (c :: cs) :=
  List.forall_mem_cons.mpr ⟨first, more⟩

theorem Unbroken.append (front : Unbroken cs) (back : Unbroken ds) : Unbroken (cs ++ ds) :=
  List.forall_mem_append.mpr ⟨front, back⟩

theorem Unbroken.of_all (each : cs.all (!isLineEnd ·)) : Unbroken cs := by
  intro c member
  simpa using List.all_eq_true.mp each c member

theorem Unbroken.hexNumeral (width n : Nat) : Unbroken (hexNumeral width n) := by
  have digits : ∀ k < 16, isLineEnd (hexDigit k) = false := by decide
  intro d member
  obtain ⟨k, bound, rfl⟩ := exists_of_mem_hexNumeral member
  exact digits k bound

theorem not_isLineEnd_of_isPrintable (printable : isPrintable c) : isLineEnd c = false := by
  have hidden : ['\n', '\x0b', '\x0c', '\r', '\x1c', '\x1d', '\x1e', '\u0085', '\u2028',
      '\u2029'].all (!isPrintable ·) := by decide +kernel
  by_contra ends
  rw [Bool.not_eq_false, isLineEnd, decide_eq_true_eq] at ends
  have shown := List.all_eq_true.mp hidden c ends
  rw [printable] at shown
  cases shown

/-! ## Reading a quoted text -/

/-- The number of digits behind the letter of a numeral. -/
def escapeWidth (letter : Char) : Option Nat :=
  match letter with
  | 'x' => some 2
  | 'u' => some 4
  | 'U' => some 8
  | _ => none

/-- The character with a name, which for most is the name itself. -/
def escapeName (letter : Char) : Char :=
  match letter with
  | 'n' => '\n'
  | 'r' => '\r'
  | 't' => '\t'
  | 'f' => '\x0c'
  | 'b' => '\x08'
  | c => c

/-- Reads one character off the front of a quoted text. -/
def unescape : List Char → Option (Char × List Char)
  | [] => none
  | [c] => some (c, [])
  | c :: letter :: cs =>
    if c = '\\' then
      match escapeWidth letter with
      | some width => some (Char.ofNat (hexValue (cs.take width)), cs.drop width)
      | none => some (escapeName letter, cs)
    else some (c, letter :: cs)

theorem unescape_self (plain : c ≠ '\\') : unescape (c :: cs) = some (c, cs) := by
  cases cs with
  | nil => rfl
  | cons letter cs => rw [unescape, if_neg plain]

theorem unescape_name {letter : Char} (noNumeral : escapeWidth letter = none) :
    unescape ('\\' :: letter :: cs) = some (escapeName letter, cs) := by
  rw [unescape, if_pos rfl, noNumeral]

theorem unescape_numeral {letter : Char} {width : Nat} (numeral : escapeWidth letter = some width)
    (bound : c.toNat < 16 ^ width) :
    unescape ('\\' :: letter :: (hexNumeral width c.toNat ++ cs)) = some (c, cs) := by
  have length := length_hexNumeral width c.toNat
  rw [unescape, if_pos rfl, numeral]
  simp only [List.take_left' length, List.drop_left' length, hexValue_hexNumeral,
    Nat.mod_eq_of_lt bound, Char.ofNat_toNat]

/-- `code` writes the characters of a text that the quote `mark` ends: a reader finds the
character in front, and a quote in the text stands behind a backslash. -/
structure Quotes (mark : Char) (code : Char → List Char) : Prop where
  reads : ∀ c xs, unescape (code c ++ xs) = some (c, xs)
  apart : mark ≠ '\\'
  escapes : code mark = ['\\', mark]

namespace Quotes

variable {mark : Char} {code : Char → List Char}

/-- What starts with the quote starts with no character of the text. -/
theorem ne_mark (quotes : Quotes mark code) (c : Char) : code c ++ xs ≠ mark :: ys := by
  intro same
  have here := quotes.reads c xs
  rw [same, unescape_self quotes.apart, Option.some.injEq, Prod.mk.injEq] at here
  rw [← here.1, quotes.escapes] at same
  exact quotes.apart (List.cons.inj same).1.symm

theorem append_inj (quotes : Quotes mark code) (same : code c ++ xs = code d ++ ys) :
    c = d ∧ xs = ys := by
  have here := quotes.reads c xs
  rw [same, quotes.reads d ys, Option.some.injEq, Prod.mk.injEq] at here
  exact ⟨here.1.symm, here.2.symm⟩

/-- Up to its quote, a text is read back, and so is what stands behind it. -/
theorem flatMap_append_inj (quotes : Quotes mark code)
    (same : cs.flatMap code ++ mark :: xs = ds.flatMap code ++ mark :: ys) :
    cs = ds ∧ xs = ys := by
  induction cs generalizing ds with
  | nil =>
    cases ds with
    | nil => exact ⟨rfl, (List.cons.inj same).2⟩
    | cons d ds =>
      rw [List.flatMap_cons, List.append_assoc] at same
      exact absurd same.symm (quotes.ne_mark d)
  | cons c cs ih =>
    cases ds with
    | nil =>
      rw [List.flatMap_cons, List.append_assoc] at same
      exact absurd same (quotes.ne_mark c)
    | cons d ds =>
      rw [List.flatMap_cons, List.flatMap_cons, List.append_assoc, List.append_assoc] at same
      obtain ⟨rfl, more⟩ := quotes.append_inj same
      obtain ⟨rfl, behind⟩ := ih more
      exact ⟨rfl, behind⟩

end Quotes

/-! ## JSON strings -/

namespace JsonString

theorem quotes : Quotes '"' escape where
  reads c xs := by
    unfold escape
    split_ifs with quote backslash feed carriage tab form back control
    · rw [quote]; exact unescape_name rfl
    · rw [backslash]; exact unescape_name rfl
    · rw [feed]; exact unescape_name rfl
    · rw [carriage]; exact unescape_name rfl
    · rw [tab]; exact unescape_name rfl
    · rw [form]; exact unescape_name rfl
    · rw [back]; exact unescape_name rfl
    · exact unescape_numeral rfl (Nat.lt_of_lt_of_le control (by decide))
    · exact unescape_self backslash
  apart := by decide
  escapes := rfl

theorem encode_append_inj (same : encode cs ++ xs = encode ds ++ ys) : cs = ds ∧ xs = ys := by
  simp only [encode, List.cons_append, List.append_assoc, List.nil_append] at same
  exact quotes.flatMap_append_inj (List.cons.inj same).2

end JsonString

/-! ## Literals -/

namespace Literal

theorem quoteMark_cases (cs : List Char) : quoteMark cs = '\'' ∨ quoteMark cs = '"' := by
  unfold quoteMark
  split_ifs
  · exact .inr rfl
  · exact .inl rfl

theorem quotes {mark : Char} (quote : mark = '\'' ∨ mark = '"') : Quotes mark (escape mark) where
  reads c xs := by
    unfold escape
    split_ifs with self tab feed carriage printable short long
    · rcases self with rfl | rfl
      · rcases quote with rfl | rfl
        · exact unescape_name rfl
        · exact unescape_name rfl
      · exact unescape_name rfl
    · rw [tab]; exact unescape_name rfl
    · rw [feed]; exact unescape_name rfl
    · rw [carriage]; exact unescape_name rfl
    · exact unescape_self fun backslash => self (.inr backslash)
    · exact unescape_numeral rfl short
    · exact unescape_numeral rfl long
    · exact unescape_numeral rfl (Nat.lt_of_lt_of_le c.val.toNat_lt (by decide))
  apart := by
    rcases quote with rfl | rfl
    · decide
    · decide
  escapes := if_pos (.inl rfl)

theorem encode_append_inj (same : encode cs ++ xs = encode ds ++ ys) : cs = ds ∧ xs = ys := by
  simp only [encode, List.cons_append, List.append_assoc, List.nil_append] at same
  obtain ⟨mark, same⟩ := List.cons.inj same
  rw [mark] at same
  exact (quotes (quoteMark_cases ds)).flatMap_append_inj same

/-! ### Literals stay on their line -/

theorem unbroken_escape {mark : Char} (quote : mark = '\'' ∨ mark = '"') (c : Char) :
    Unbroken (escape mark c) := by
  have backslash : isLineEnd '\\' = false := by decide
  unfold escape
  split_ifs with self tab feed carriage printable short long
  · have here : isLineEnd c = false := by
      rcases self with rfl | rfl
      · rcases quote with rfl | rfl <;> decide
      · exact backslash
    exact .cons backslash (.cons here .nil)
  · exact .cons backslash (.cons (by decide) .nil)
  · exact .cons backslash (.cons (by decide) .nil)
  · exact .cons backslash (.cons (by decide) .nil)
  · exact .cons (not_isLineEnd_of_isPrintable printable) .nil
  · exact .cons backslash (.cons (by decide) (.hexNumeral _ _))
  · exact .cons backslash (.cons (by decide) (.hexNumeral _ _))
  · exact .cons backslash (.cons (by decide) (.hexNumeral _ _))

theorem unbroken_encode (cs : List Char) : Unbroken (encode cs) := by
  have quote := quoteMark_cases cs
  have mark : isLineEnd (quoteMark cs) = false := by
    rcases quote with same | same <;> rw [same] <;> decide
  refine .cons mark (.append ?_ (.cons mark .nil))
  intro d member
  obtain ⟨c, -, member⟩ := List.mem_flatMap.mp member
  exact unbroken_escape quote c d member

theorem toList_quote (s : String) : (quote s).toList = encode s.toList :=
  String.toList_ofList

theorem quote_inj {s t : String} (same : quote s = quote t) : s = t := by
  have chars := congrArg String.toList same
  rw [toList_quote, toList_quote, ← List.append_nil (encode s.toList),
    ← List.append_nil (encode t.toList)] at chars
  exact String.toList_inj.mp (encode_append_inj chars).1

/-! ### Groups -/

/-- The end of a group, from behind one of its first members. -/
def groupTail : List String → List Char
  | [] => [')']
  | s :: ss => ',' :: ' ' :: (encode s.toList ++ groupTail ss)

/-- The end of a group, from behind its first member. -/
def groupRest : List String → List Char
  | [] => [',', ')']
  | ss => groupTail ss

variable {ss ts : List String}

/-- Quoted strings with commas between them, up to the closing parenthesis. -/
theorem toList_intercalate (s : String) (ss : List String) :
    (", ".intercalate (quote s :: ss.map quote)).toList ++ [')'] =
      encode s.toList ++ groupTail ss := by
  induction ss generalizing s with
  | nil => rw [List.map_nil, String.intercalate_singleton, toList_quote, groupTail]
  | cons t ss ih =>
    have comma : ", ".toList = [',', ' '] := by decide
    rw [List.map_cons, String.intercalate_cons_cons, String.toList_append, String.toList_append,
      List.append_assoc, List.append_assoc, ih, toList_quote, comma]
    rfl

theorem toList_group_cons (s : String) (ss : List String) :
    (group (s :: ss)).toList = '(' :: (encode s.toList ++ groupRest ss) := by
  have left : "(".toList = ['('] := by decide
  cases ss with
  | nil =>
    have right : ",)".toList = [',', ')'] := by decide
    rw [group, String.toList_append, String.toList_append, toList_quote, left, right]
    rfl
  | cons t ss =>
    have right : ")".toList = [')'] := by decide
    have whole : group (s :: t :: ss) =
        "(" ++ ", ".intercalate (quote s :: (t :: ss).map quote) ++ ")" := rfl
    rw [whole, String.toList_append, String.toList_append, left, right, List.append_assoc,
      toList_intercalate]
    rfl

/-- The tail of a group determines its strings. -/
theorem groupTail_inj (same : groupTail ss = groupTail ts) : ss = ts := by
  induction ss generalizing ts with
  | nil =>
    cases ts with
    | nil => rfl
    | cons => cases same
  | cons s ss ih =>
    cases ts with
    | nil => cases same
    | cons t ts =>
      obtain ⟨chars, more⟩ := encode_append_inj (List.cons.inj (List.cons.inj same).2).2
      rw [String.toList_inj.mp chars, ih more]

/-- What follows the first string of a group determines the others. -/
theorem groupRest_inj (same : groupRest ss = groupRest ts) : ss = ts := by
  cases ss with
  | nil =>
    cases ts with
    | nil => rfl
    | cons => cases same
  | cons s ss =>
    cases ts with
    | nil => cases same
    | cons => exact groupTail_inj same

theorem group_cons_ne_nil (s : String) (ss : List String) : group (s :: ss) ≠ group [] := by
  intro same
  have chars := congrArg String.toList same
  have none : (group []).toList = ['(', ')'] := by decide
  rw [toList_group_cons, none, encode] at chars
  have mark : quoteMark s.toList = ')' := (List.cons.inj (List.cons.inj chars).2).1
  rcases quoteMark_cases s.toList with quote | quote
  · rw [mark] at quote
    cases quote
  · rw [mark] at quote
    cases quote

/-- A group names its members. -/
theorem group_inj (same : group ss = group ts) : ss = ts := by
  cases ss with
  | nil =>
    cases ts with
    | nil => rfl
    | cons t ts => exact absurd same.symm (group_cons_ne_nil t ts)
  | cons s ss =>
    cases ts with
    | nil => exact absurd same (group_cons_ne_nil s ss)
    | cons t ts =>
      have chars := congrArg String.toList same
      rw [toList_group_cons, toList_group_cons] at chars
      obtain ⟨first, more⟩ := encode_append_inj (List.cons.inj chars).2
      rw [String.toList_inj.mp first, groupRest_inj more]

theorem unbroken_groupTail (ss : List String) : Unbroken (groupTail ss) := by
  induction ss with
  | nil => exact .cons (by decide) .nil
  | cons s ss ih =>
    exact .cons (by decide) (.cons (by decide) (.append (unbroken_encode s.toList) ih))

theorem unbroken_group (ss : List String) : Unbroken (group ss).toList := by
  cases ss with
  | nil => exact .of_all (by decide)
  | cons s ss =>
    rw [toList_group_cons]
    refine .cons (by decide) (.append (unbroken_encode s.toList) ?_)
    cases ss with
    | nil => exact .cons (by decide) (.cons (by decide) .nil)
    | cons t ss => exact unbroken_groupTail (t :: ss)

end Literal

end Stencil.Text
