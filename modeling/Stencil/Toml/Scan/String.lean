import Stencil.Toml.Scan.Basic

/-!
# Reading strings and keys

Strings in double and in single quotes, on one line and on many, and keys, whose parts are bare
words or strings on one line.
-/

namespace Stencil.Toml

/-! ## Strings -/

/-- The character with a hexadecimal code of `n` digits. -/
def escapedCode (n : Nat) (cs : List Char) : Option Char :=
  let digits := cs.take n
  let code := ofDigits 16 digits
  if digits.length = n ∧ digits.all isHexDigit ∧ code.isValidChar then some (Char.ofNat code)
  else none

/-- The character that an escape behind a backslash stands for, and the length of the escape. -/
def escape : List Char → Option (Char × Nat)
  | 'b' :: _ => some ('\x08', 1)
  | 't' :: _ => some ('\t', 1)
  | 'n' :: _ => some ('\n', 1)
  | 'f' :: _ => some ('\x0c', 1)
  | 'r' :: _ => some ('\r', 1)
  | '"' :: _ => some ('"', 1)
  | '\\' :: _ => some ('\\', 1)
  | 'u' :: cs => (escapedCode 4 cs).map (·, 5)
  | 'U' :: cs => (escapedCode 8 cs).map (·, 9)
  | _ => none

/-- A string in double quotes on one line, behind its opening quote. -/
def basicString (done : List Char) (cs : List Char) : Read String :=
  match cs with
  | [] => none
  | '"' :: cs => some (String.ofList done.reverse, cs)
  | '\\' :: cs =>
    match escape cs with
    | some (c, n) => basicString (c :: done) (cs.drop n)
    | none => none
  | c :: cs => if isIllegal c then none else basicString (c :: done) cs
termination_by cs.length
decreasing_by all_goals simp only [List.length_drop, List.length_cons]; omega

/-- Behind the three quotes that end a text of many lines, up to two more belong to it. -/
def closeBlock (mark : Char) (done cs : List Char) : Read String :=
  let extra := (cs.takeWhile (· == mark)).length.min 2
  some (String.ofList (done.reverse ++ List.replicate extra mark), cs.drop extra)

theorem length_dropWhile_le {α : Type} (p : α → Bool) (l : List α) :
    (l.dropWhile p).length ≤ l.length :=
  (List.dropWhile_suffix p).length_le

/-- A string in triple double quotes. A backslash at the end of a line joins it to the next
character that is no white space. -/
def basicBlock (done : List Char) (cs : List Char) : Read String :=
  match cs with
  | [] => none
  | '"' :: '"' :: '"' :: cs => closeBlock '"' done cs
  | '\\' :: cs =>
    if cs.head?.any isFill then
      match _h : skipSpace cs with
      | '\n' :: rest => basicBlock done (rest.dropWhile isFill)
      | _ => none
    else
      match escape cs with
      | some (c, n) => basicBlock (c :: done) (cs.drop n)
      | none => none
  | c :: cs => if isIllegalInBlock c then none else basicBlock (c :: done) cs
termination_by cs.length
decreasing_by
  · have skipped := length_dropWhile_le isSpace cs
    have filled := length_dropWhile_le isFill rest
    rw [show cs.dropWhile isSpace = '\n' :: rest from _h] at skipped
    simp only [List.length_cons] at skipped ⊢
    omega
  all_goals simp only [List.length_drop, List.length_cons]; omega

/-- A string in single quotes on one line, behind its opening quote. -/
def literalString (cs : List Char) : Read String :=
  let value := cs.takeWhile (· != '\'')
  match cs.dropWhile (· != '\'') with
  | _ :: rest => if value.any isIllegal then none else some (String.ofList value, rest)
  | [] => none

/-- A string in triple single quotes. -/
def literalBlock (done : List Char) : List Char → Read String
  | '\'' :: '\'' :: '\'' :: cs => closeBlock '\'' done cs
  | c :: cs => if isIllegalInBlock c then none else literalBlock (c :: done) cs
  | [] => none

/-- A line feed right behind opening quotes is no part of the text. -/
def skipFirstNewline : List Char → List Char
  | '\n' :: cs => cs
  | cs => cs

/-! ## Keys -/

/-- One part of a key. -/
def keyPart : List Char → Read String
  | '"' :: cs => basicString [] cs
  | '\'' :: cs => literalString cs
  | cs =>
    match cs.takeWhile isBareKeyChar with
    | [] => none
    | name => some (String.ofList name, cs.dropWhile isBareKeyChar)

/-- The parts of a key, separated by dots, and the white space behind it. -/
def keyParts : (bound : Nat) → List Char → Read (List String)
  | 0, _ => none
  | bound + 1, cs =>
    match keyPart cs with
    | none => none
    | some (part, cs) =>
      match skipSpace cs with
      | '.' :: cs => (keyParts bound (skipSpace cs)).map fun (parts, cs) => (part :: parts, cs)
      | cs => some ([part], cs)

/-- A key. -/
def key (cs : List Char) : Read (List String) :=
  keyParts cs.length cs

end Stencil.Toml
