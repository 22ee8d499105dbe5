import Mathlib
import Stencil.Node.Display
import Stencil.Proofs.Quoting

/-!
# Dumps as outlines

An outline is a list of headings with outlines below them, written by indentation: what stands
below a heading is indented by two spaces. Since no heading starts with a space, the lines tell
the outline (`Outline.linesAll_inj`), and since none holds the end of a line, the text tells the
lines (`lines_printed`). Indenting all lines before they are printed indents the text
(`printed_indented`), and the lines can still be told (`printed_indented_inj`).
-/

namespace Stencil

open Text

/-! ## Headings -/

/-- The start of a heading: some characters, the first of them no space, and none a line end. -/
def isLabel (label : String) : Bool :=
  match label.toList with
  | [] => false
  | c :: cs => c != ' ' && (c :: cs).all (!isLineEnd ·)

theorem of_isLabel {label : String} (plain : isLabel label) :
    (∃ c cs, label.toList = c :: cs ∧ c ≠ ' ') ∧ Unbroken label.toList := by
  unfold isLabel at plain
  split at plain
  · cases plain
  · next c cs chars =>
    rw [Bool.and_eq_true, bne_iff_ne, List.all_eq_true] at plain
    refine ⟨⟨c, cs, chars, plain.1⟩, fun d member => ?_⟩
    rw [chars] at member
    simpa using plain.2 d member

theorem isPrintable_of_isDigit {c : Char} (digit : c.isDigit) : isPrintable c := by
  have bounds : 48 ≤ c.toNat ∧ c.toNat ≤ 57 := by
    rw [Char.isDigit, Bool.and_eq_true, decide_eq_true_eq, decide_eq_true_eq] at digit
    exact digit
  rw [isPrintable, if_pos (by omega), Bool.and_eq_true, decide_eq_true_eq, decide_eq_true_eq]
  omega

theorem unbroken_repr (n : Nat) : Unbroken n.repr.toList := by
  intro c member
  rw [Nat.toList_repr] at member
  have digit := Nat.isDigit_of_mem_toDigits (by decide) (by decide) member
  exact not_isLineEnd_of_isPrintable (isPrintable_of_isDigit digit)

theorem unbroken_toString (value : Int) : Unbroken (toString value).toList := by
  rw [Int.toString_eq_repr, Int.repr_eq_if]
  split_ifs
  · exact unbroken_repr _
  · have minus : "-".toList = ['-'] := by decide
    rw [String.toList_append, minus]
    exact .cons (by decide) (unbroken_repr _)

/-- A line that starts with no space. -/
@[ext]
structure Heading where
  text : String
  flush : text.toList.head? ≠ some ' '
  unbroken : Unbroken text.toList

namespace Heading

/-- A label with a value behind it. -/
def field (label value : String) (plain : isLabel label) (unbroken : Unbroken value.toList) :
    Heading where
  text := label ++ value
  flush := by
    obtain ⟨⟨c, cs, chars, other⟩, -⟩ := of_isLabel plain
    rw [String.toList_append, chars]
    intro space
    exact other (Option.some.inj space)
  unbroken := by
    rw [String.toList_append]
    exact .append (of_isLabel plain).2 unbroken

@[simp] theorem text_field (label value : String) (plain : isLabel label)
    (unbroken : Unbroken value.toList) : (field label value plain unbroken).text = label ++ value :=
  rfl

theorem field_inj {label value value' : String} {plain plain' : isLabel label}
    {unbroken : Unbroken value.toList} {unbroken' : Unbroken value'.toList}
    (same : field label value plain unbroken = field label value' plain' unbroken') :
    value = value' :=
  (String.append_right_inj label).mp (congrArg text same)

/-- A label of its own. -/
def label (text : String) (plain : isLabel text) : Heading :=
  field text "" plain .nil

@[simp] theorem text_label (text : String) (plain : isLabel text) :
    (label text plain).text = text :=
  String.append_empty

/-- A label with a quoted value behind it. -/
def quoted (label value : String) (plain : isLabel label) : Heading :=
  field label (Literal.quote value) plain (by
    rw [Literal.toList_quote]
    exact Literal.unbroken_encode _)

theorem quoted_inj {label value value' : String} {plain plain' : isLabel label}
    (same : quoted label value plain = quoted label value' plain') : value = value' :=
  Literal.quote_inj (field_inj same)

@[simp] theorem text_quoted (label value : String) (plain : isLabel label) :
    (quoted label value plain).text = label ++ Literal.quote value :=
  rfl

/-- A label with a number behind it. -/
def number (label : String) (value : Int) (plain : isLabel label) : Heading :=
  field label (" " ++ toString value) plain (by
    have space : " ".toList = [' '] := by decide
    rw [String.toList_append, space]
    exact .cons (by decide) (unbroken_toString value))

theorem number_inj {label : String} {value value' : Int} {plain plain' : isLabel label}
    (same : number label value plain = number label value' plain') : value = value' := by
  have digits := (String.append_right_inj " ").mp (field_inj same)
  rw [Int.toString_eq_repr, Int.toString_eq_repr] at digits
  exact Int.repr_inj.mp digits

@[simp] theorem text_number (label : String) (value : Int) (plain : isLabel label) :
    (number label value plain).text = label ++ (" " ++ toString value) :=
  rfl

/-- A label with a truth value behind it. -/
def flag (label : String) (value : Bool) (plain : isLabel label) : Heading :=
  field label (if value then "True" else "False") plain (.of_all (by revert value; decide))

theorem flag_inj {label : String} {value value' : Bool} {plain plain' : isLabel label}
    (same : flag label value plain = flag label value' plain') : value = value' := by
  have apart : "True" ≠ "False" := by decide
  have word := field_inj same
  cases value <;> cases value'
  · rfl
  · exact absurd word.symm apart
  · exact absurd word apart
  · rfl

@[simp] theorem text_flag (label : String) (value : Bool) (plain : isLabel label) :
    (flag label value plain).text = label ++ if value then "True" else "False" :=
  rfl

end Heading

/-! ## Outlines -/

/-- A heading with what stands below it. -/
inductive Outline where
  | entry (heading : Heading) (below : List Outline)

namespace Outline

mutual

/-- The lines of an outline: what stands below a heading is indented by two spaces. -/
def lines : Outline → List String
  | entry heading below => heading.text :: (linesAll below).map ("  " ++ ·)

/-- The lines of several outlines. -/
def linesAll : List Outline → List String
  | [] => []
  | o :: os => o.lines ++ linesAll os

end

@[simp] theorem lines_entry (heading : Heading) (below : List Outline) :
    lines (entry heading below) = heading.text :: (linesAll below).map ("  " ++ ·) := by
  rw [lines]

@[simp] theorem linesAll_nil : linesAll [] = [] := by
  rw [linesAll]

@[simp] theorem linesAll_cons (o : Outline) (os : List Outline) :
    linesAll (o :: os) = o.lines ++ linesAll os := by
  rw [linesAll]

@[simp] theorem linesAll_append (os os' : List Outline) :
    linesAll (os ++ os') = linesAll os ++ linesAll os' := by
  induction os with
  | nil => rfl
  | cons o os ih => rw [List.cons_append, linesAll_cons, linesAll_cons, ih, List.append_assoc]

/-- The line belongs below a heading. -/
def isBelow (line : String) : Bool :=
  line.toList.head? == some ' '

theorem isBelow_indent (line : String) : isBelow ("  " ++ line) := by
  have spaces : "  ".toList = [' ', ' '] := by decide
  rw [isBelow, String.toList_append, spaces]
  rfl

theorem indent_injective : Function.Injective (fun line : String => "  " ++ line) := by
  intro line line' same
  exact String.append_right_inj _ |>.mp same

/-- The lines below the first heading end where the next heading comes. -/
theorem takeWhile_isBelow (below os : List Outline) :
    ((linesAll below).map ("  " ++ ·) ++ linesAll os).takeWhile isBelow =
      (linesAll below).map ("  " ++ ·) := by
  have first : ∀ line ∈ (linesAll below).map ("  " ++ ·), isBelow line := by
    intro line member
    obtain ⟨line, -, rfl⟩ := List.mem_map.mp member
    exact isBelow_indent line
  have next : (linesAll os).takeWhile isBelow = [] := by
    rcases os with _ | ⟨⟨heading, below'⟩, os⟩
    · rfl
    · have flush : isBelow heading.text = false := by
        simpa [isBelow] using heading.flush
      rw [linesAll_cons, lines_entry, List.cons_append,
        List.takeWhile_cons_of_neg (by simp [flush])]
  rw [List.takeWhile_append_of_pos first, next, List.append_nil]

/-- The lines tell the outlines. -/
theorem linesAll_inj : ∀ {os os' : List Outline}, linesAll os = linesAll os' → os = os'
  | [], [], _ => rfl
  | [], entry _ _ :: _, same => by cases same
  | entry _ _ :: _, [], same => by cases same
  | entry heading below :: os, entry heading' below' :: os', same => by
    simp only [linesAll_cons, lines_entry, List.cons_append] at same
    obtain ⟨text, more⟩ := List.cons.inj same
    -- The lines below the first heading are those before the next line that is not indented.
    have here := congrArg (List.takeWhile isBelow) more
    rw [takeWhile_isBelow, takeWhile_isBelow] at here
    rw [here] at more
    obtain rfl := linesAll_inj (List.map_injective_iff.mpr indent_injective here)
    obtain rfl := linesAll_inj (List.append_cancel_left more)
    rw [Heading.ext text]

theorem unbroken_linesAll : ∀ {os : List Outline}, ∀ line ∈ linesAll os, Unbroken line.toList
  | [], _, member => by cases member
  | entry heading below :: os, line, member => by
    simp only [linesAll_cons, lines_entry, List.cons_append, List.mem_cons,
      List.mem_append] at member
    rcases member with rfl | member | member
    · exact heading.unbroken
    · obtain ⟨line, inside, rfl⟩ := List.mem_map.mp member
      have spaces : Unbroken "  ".toList := .of_all (by decide)
      rw [String.toList_append]
      exact spaces.append (unbroken_linesAll line inside)
    · exact unbroken_linesAll line member

end Outline

/-! ## Printing -/

/-- Lines as they are printed, each of them ended. -/
def printed (ls : List String) : String :=
  String.join (ls.map (· ++ "\n"))

/-- Characters that end no line are added to the line that was begun, up to the next line end. -/
theorem linesFrom_of_unbroken {begun cs rest : List Char} (unbroken : Unbroken cs) :
    linesFrom begun (cs ++ '\n' :: rest) = (begun.reverse ++ cs ++ ['\n']) :: Text.lines rest := by
  induction cs generalizing begun with
  | nil =>
    have ends : isLineEnd '\n' := by decide
    rw [List.nil_append, linesFrom, if_pos ends, List.reverse_cons, List.append_nil]
    · rfl
    · exact nofun
  | cons c cs ih =>
    obtain ⟨here, more⟩ := List.forall_mem_cons.mp unbroken
    have other : c ≠ '\r' := by
      rintro rfl
      cases here
    rw [List.cons_append, linesFrom, here, if_neg nofun, ih more, List.reverse_cons,
      List.append_assoc begun.reverse, List.singleton_append]
    intro cs' same
    exact absurd same other

/-- Printed lines that hold no line end are the lines of what is printed. -/
theorem lines_printed {ls : List String} (unbroken : ∀ line ∈ ls, Unbroken line.toList) :
    Text.lines (printed ls).toList = ls.map fun line => line.toList ++ ['\n'] := by
  induction ls with
  | nil => rfl
  | cons line ls ih =>
    have feed : "\n".toList = ['\n'] := by decide
    obtain ⟨here, more⟩ := List.forall_mem_cons.mp unbroken
    have whole : (printed (line :: ls)).toList = line.toList ++ '\n' :: (printed ls).toList := by
      simp [printed, feed]
    rw [whole, Text.lines, linesFrom_of_unbroken here, ih more]
    rfl

/-- A text with every line indented. -/
def Text.indent (depth : Nat) (cs : List Char) : List Char :=
  (Text.lines cs).flatMap (List.replicate (2 * depth) ' ' ++ ·)

section Indented

variable {depth : Nat} {ls ls' : List String}

theorem toList_indented (depth : Nat) (line : String) :
    (indented depth line).toList = List.replicate (2 * depth) ' ' ++ line.toList := by
  rw [indented, String.toList_append, String.toList_ofList, Int.toNat_natCast]

theorem unbroken_indented (unbroken : ∀ line ∈ ls, Unbroken line.toList) :
    ∀ line ∈ ls.map (indented depth), Unbroken line.toList := by
  intro line member
  obtain ⟨line, inside, rfl⟩ := List.mem_map.mp member
  rw [toList_indented]
  refine .append (fun c space => ?_) (unbroken line inside)
  rw [List.eq_of_mem_replicate space]
  decide

/-- Indenting the lines before they are printed indents the text. -/
theorem printed_indented (unbroken : ∀ line ∈ ls, Unbroken line.toList) :
    (printed (ls.map (indented depth))).toList = Text.indent depth (printed ls).toList := by
  have feed : "\n".toList = ['\n'] := by decide
  rw [Text.indent, lines_printed unbroken]
  simp [printed, feed, toList_indented, List.flatMap_map]

/-- What is printed at a depth tells the lines. -/
theorem printed_indented_inj (unbroken : ∀ line ∈ ls, Unbroken line.toList)
    (unbroken' : ∀ line ∈ ls', Unbroken line.toList)
    (same : printed (ls.map (indented depth)) = printed (ls'.map (indented depth))) :
    ls = ls' := by
  have whole : ∀ line ∈ ls.map (indented depth), Unbroken line.toList :=
    unbroken_indented unbroken
  have cut := lines_printed whole
  rw [same, lines_printed (unbroken_indented unbroken'), List.map_map, List.map_map] at cut
  refine List.map_injective_iff.mpr ?_ cut.symm
  intro line line' chars
  have same : line.toList = line'.toList := by
    simpa [toList_indented] using chars
  exact String.toList_inj.mp same

end Indented

end Stencil
