import Stencil.Proofs.Outline

/-!
# Dumps of trees

A dump tells its tree, at any depth, and a dump at a depth is the dump at depth zero with every line
indented (`Node.dumpText_eq_iff`).

The dump of a tree is an outline (`Node.dump_eq`): a node is an entry over its fields, and a node
in a field is an entry below the field. What is left is that the outline tells the tree
(`Node.outline_inj`), down to the branches that are missing: a field that is not there is told from
the next one by its name.
-/

namespace Stencil

open Text

/-- The kind of a token, in both forms. -/
def TokenKind.dump (k : TokenKind) : String :=
  "<TokenKind." ++ k.title ++ ": " ++ Literal.quote k.label ++ ">"

theorem TokenKind.unbroken_dump (k : TokenKind) : Unbroken k.dump.toList := by
  have title : Unbroken k.title.toList := by
    have each : ∀ k ∈ all, k.title.toList.all (!isLineEnd ·) := by decide
    exact .of_all (each k k.mem_all)
  have front : Unbroken ("<TokenKind." ++ k.title ++ ": ").toList := by
    rw [String.toList_append, String.toList_append]
    exact .append (.append (.of_all (by decide)) title) (.of_all (by decide))
  rw [dump, String.toList_append, String.toList_append, Literal.toList_quote]
  exact .append (.append front (Literal.unbroken_encode _)) (.of_all (by decide))

theorem TokenKind.dump_inj {k k' : TokenKind} (same : k.dump = k'.dump) : k = k' := by
  have apart : (TokenKind.all.map TokenKind.dump).Nodup := by decide +kernel
  exact List.inj_on_of_nodup_map apart k.mem_all k'.mem_all same

/-- The outline of a token. -/
def Token.outline (t : Token) : Outline :=
  .entry (.label "Token" (by decide))
    [.entry (.field "kind: " t.kind.dump (by decide) t.kind.unbroken_dump) [],
      .entry (.quoted "value: " t.value (by decide)) []]

namespace Node

/-- The name of a field over what it holds, or with a sign that it holds nothing. -/
def fieldOutline (name : String) (plain : isLabel name) : List Outline → List Outline
  | [] => [.entry (.field name " []" plain (.of_all (by decide))) []]
  | os => [.entry (.field name "" plain .nil) os]

/-- The name of a branch over the node in it. A branch that is missing has no entry, and one
that is a mere number has it beside its name. -/
def branchOutline (name : String) (plain : isLabel name) : (branch : Node) → Outline → List Outline
  | absent, _ => []
  | foreign value, _ => [.entry (.number name value plain) []]
  | _, o => [.entry (.field name "" plain .nil) [o]]

mutual

/-- The outline of a tree. -/
def outline : Node → Outline
  | text value =>
    .entry (.label "PlaintextNode" (by decide)) [.entry (.quoted "text: " value (by decide)) []]
  | ident name =>
    .entry (.label "IdentifierNode" (by decide)) [.entry (.quoted "name: " name (by decide)) []]
  | endMark => .entry (.label "EndNode" (by decide)) []
  | elseMark => .entry (.label "ElseNode" (by decide)) []
  | list root terminators ns =>
    .entry (.label "ListNode" (by decide)) ([
      .entry (.flag "root: " root (by decide)) [],
      .entry (.field "terminators: " (Literal.group terminators) (by decide)
        (Literal.unbroken_group terminators)) []] ++
      fieldOutline "children:" (by decide) (outlineAll ns))
  | block condition t f =>
    .entry (.label "IfNode" (by decide)) (
      fieldOutline "condition:" (by decide) (condition.map Token.outline) ++
      branchOutline "true_branch:" (by decide) t (outline t) ++
      branchOutline "false_branch:" (by decide) f (outline f))
  | absent => .entry (.label "NoneType: None" (by decide)) []
  | foreign value => .entry (.number "int:" value (by decide)) []

/-- The outlines of several trees. -/
def outlineAll : List Node → List Outline
  | [] => []
  | n :: ns => outline n :: outlineAll ns

end

/-! ## The dump is the outline -/

open Outline

variable {depth : Int}

theorem indented_add_two (nonneg : 0 ≤ depth) (line : String) :
    indented (depth + 2) line = indented depth ("  " ++ ("  " ++ line)) := by
  have spaces : "  ".toList = [' ', ' '] := by decide
  have length : 2 * (depth + 2).toNat = 2 * depth.toNat + 4 := by omega
  apply String.toList_inj.mp
  simp [indented, length, List.replicate_add, spaces]

/-- What stands below a field stands two levels below its node. -/
theorem indented_below (nonneg : 0 ≤ depth) (ls : List String) :
    ls.map (indented (depth + 2)) =
      ((ls.map ("  " ++ ·)).map ("  " ++ ·)).map (indented depth) := by
  rw [List.map_map, List.map_map]
  exact List.map_congr_left fun line _ => indented_add_two nonneg line

/-- The lines of a field, indented, are those of its outline. -/
theorem dumpField_eq (nonneg : 0 ≤ depth) (name : String) (plain : isLabel (name ++ ":"))
    (os : List Outline) :
    dumpField depth name ((linesAll os).map (indented (depth + 2))) =
      ((linesAll (fieldOutline (name ++ ":") plain os)).map ("  " ++ ·)).map (indented depth) := by
  rw [indented_below nonneg]
  cases os with
  | nil => simp [dumpField, fieldOutline, String.append_assoc]
  | cons o os =>
    obtain ⟨heading, below⟩ := o
    simp [dumpField, fieldOutline, ← String.append_assoc]

/-- The lines of a branch, indented, are those of its outline, also where there is no branch. -/
theorem dumpBranch_eq (nonneg : 0 ≤ depth) (name : String) (plain : isLabel (name ++ ":"))
    (branch : Node) (o : Outline) :
    dumpBranch depth name branch (o.lines.map (indented (depth + 2))) =
      ((linesAll (branchOutline (name ++ ":") plain branch o)).map ("  " ++ ·)).map
        (indented depth) := by
  rw [indented_below nonneg]
  cases branch with
  | absent => rfl
  | foreign value =>
    have colon : ": " = ":" ++ " " := rfl
    simp only [dumpBranch, branchOutline, linesAll_cons, lines_entry, linesAll_nil,
      Heading.text_number, colon, String.append_assoc]
    rfl
  | _ => simp [dumpBranch, branchOutline, ← String.append_assoc]

theorem dumpToken_eq (t : Token) : t.dump depth = t.outline.lines.map (indented depth) := by
  simp [Token.dump, Token.outline, TokenKind.dump, ← String.append_assoc]

theorem dumpTokens_eq (ts : List Token) :
    ts.flatMap (Token.dump depth) = (linesAll (ts.map Token.outline)).map (indented depth) := by
  induction ts with
  | nil => rfl
  | cons t ts ih =>
    rw [List.flatMap_cons, ih, dumpToken_eq, List.map_cons, linesAll_cons, List.map_append]

mutual

/-- A dump is the outline of the node, each of its lines indented. -/
theorem dump_eq : ∀ (n : Node) {depth : Int}, 0 ≤ depth →
    n.dump depth = (outline n).lines.map (indented depth)
  | text value, _, _ => by simp [dump, outline, ← String.append_assoc]
  | ident name, _, _ => by simp [dump, outline, ← String.append_assoc]
  | endMark, _, _ => by simp [dump, outline]
  | elseMark, _, _ => by simp [dump, outline]
  | list root terminators ns, depth, nonneg => by
    have below : dumpAll (depth + 2) ns = _ := dumpAll_eq ns (by omega)
    simp [dump, outline, below, dumpField_eq nonneg "children" (by decide), ← String.append_assoc]
  | block condition t f, depth, nonneg => by
    have whenTrue : t.dump (depth + 2) = _ := dump_eq t (by omega)
    have whenFalse : f.dump (depth + 2) = _ := dump_eq f (by omega)
    rw [dump, outline, whenTrue, whenFalse, dumpTokens_eq,
      dumpField_eq nonneg "condition" (by decide), dumpBranch_eq nonneg "true_branch" (by decide),
      dumpBranch_eq nonneg "false_branch" (by decide)]
    simp
  | absent, _, _ => by simp [dump, outline]
  | foreign value, _, _ => by simp [dump, outline, ← String.append_assoc]

theorem dumpAll_eq : ∀ (ns : List Node) {depth : Int}, 0 ≤ depth →
    dumpAll depth ns = (linesAll (outlineAll ns)).map (indented depth)
  | [], _, _ => rfl
  | n :: ns, _, nonneg => by
    rw [dumpAll, dump_eq n nonneg, dumpAll_eq ns nonneg, outlineAll, linesAll_cons, List.map_append]

end

/-! ## The outline tells the tree -/

/-- The line over what an entry holds. -/
def headline : Outline → String
  | entry heading _ => heading.text

theorem outlineToken_inj {t t' : Token} (same : t.outline = t'.outline) : t = t' := by
  obtain ⟨kind, fields⟩ := List.cons.inj (entry.inj same).2
  have kind := TokenKind.dump_inj (Heading.field_inj (entry.inj kind).1)
  have value := Heading.quoted_inj (entry.inj (List.cons.inj fields).1).1
  cases t
  cases t'
  rw [Token.mk.injEq]
  exact ⟨kind, value⟩

section Fields

variable {name : String} {plain : isLabel name}

/-- The outline of a field determines what is in it. -/
theorem fieldOutline_inj {os os' : List Outline}
    (same : fieldOutline name plain os = fieldOutline name plain os') : os = os' := by
  cases os with
  | nil =>
    cases os' with
    | nil => rfl
    | cons => cases (entry.inj (List.cons.inj same).1).2
  | cons o os =>
    cases os' with
    | nil => cases (entry.inj (List.cons.inj same).1).2
    | cons o' os' => exact (entry.inj (List.cons.inj same).1).2

theorem fieldOutline_append_inj {os os' rest rest' : List Outline}
    (same : fieldOutline name plain os ++ rest = fieldOutline name plain os' ++ rest') :
    os = os' ∧ rest = rest' := by
  have length : (fieldOutline name plain os).length = (fieldOutline name plain os').length := by
    cases os <;> cases os' <;> rfl
  obtain ⟨field, more⟩ := List.append_inj same length
  exact ⟨fieldOutline_inj field, more⟩

/-- A branch with a node in it, one with a number, and one that is missing differ. -/
theorem branchOutline_inj {n m : Node} (below : outline n = outline m → n = m)
    (same : branchOutline name plain n (outline n) = branchOutline name plain m (outline m)) :
    n = m := by
  cases n with
  | absent =>
    cases m with
    | absent => rfl
    | _ => cases same
  | foreign value =>
    cases m with
    | absent => cases same
    | foreign value' => rw [Heading.number_inj (entry.inj (List.cons.inj same).1).1]
    | _ => cases (entry.inj (List.cons.inj same).1).2
  | _ =>
    cases m with
    | absent => cases same
    | foreign value' => cases (entry.inj (List.cons.inj same).1).2
    | _ => exact below (List.cons.inj (entry.inj (List.cons.inj same).1).2).1

/-- The lines of a branch start with its name. -/
theorem headline_branchOutline {n : Node} {o e : Outline}
    (member : e ∈ branchOutline name plain n o) :
    (headline e).toList.head? = name.toList.head? := by
  obtain ⟨⟨c, cs, chars, -⟩, -⟩ := of_isLabel plain
  unfold branchOutline at member
  split at member
  · cases member
  · rw [List.mem_singleton.mp member]
    simp [headline, chars]
  · rw [List.mem_singleton.mp member]
    simp [headline, chars]

end Fields

section Branches

variable {plain : isLabel "true_branch:"} {plain' : isLabel "false_branch:"}

/-- The entry of the first branch is told from that of the second by how its name starts. -/
theorem filter_branches (t f : Node) (o p : Outline) :
    (branchOutline "true_branch:" plain t o ++ branchOutline "false_branch:" plain' f p).filter
        (fun e => (headline e).toList.head? = some 't') =
      branchOutline "true_branch:" plain t o := by
  rw [List.filter_append, List.filter_eq_self.mpr, List.filter_eq_nil_iff.mpr, List.append_nil]
  · intro e member
    rw [headline_branchOutline member]
    decide
  · intro e member
    rw [headline_branchOutline member]
    decide

/-- The two branches of a block are told apart, also where one is missing. -/
theorem branches_inj {t f t' f' : Node} {o p o' p' : Outline}
    (same : branchOutline "true_branch:" plain t o ++ branchOutline "false_branch:" plain' f p =
      branchOutline "true_branch:" plain t' o' ++ branchOutline "false_branch:" plain' f' p') :
    branchOutline "true_branch:" plain t o = branchOutline "true_branch:" plain t' o' ∧
      branchOutline "false_branch:" plain' f p = branchOutline "false_branch:" plain' f' p' := by
  have whenTrue := congrArg (List.filter fun e => (headline e).toList.head? = some 't') same
  rw [filter_branches, filter_branches] at whenTrue
  rw [whenTrue] at same
  exact ⟨whenTrue, List.append_cancel_left same⟩

end Branches

/-- The name of the kind of a node. -/
def typeName : Node → String
  | text _ => "PlaintextNode"
  | ident _ => "IdentifierNode"
  | endMark => "EndNode"
  | elseMark => "ElseNode"
  | list .. => "ListNode"
  | block .. => "IfNode"
  | absent => "NoneType"
  | foreign _ => "int"

theorem takeWhile_headline (n : Node) :
    (headline (outline n)).toList.takeWhile (· != ':') = n.typeName.toList := by
  cases n <;> simp [outline, headline, typeName]

theorem typeName_of_outline {n m : Node} (same : outline n = outline m) :
    n.typeName = m.typeName := by
  have chars := takeWhile_headline n
  rw [same, takeWhile_headline m] at chars
  exact (String.toList_inj.mp chars).symm

mutual

-- The headline tells the constructor, and the entries below it the fields, one after another.
/-- Different nodes have different outlines. -/
theorem outline_inj : ∀ {n m : Node}, outline n = outline m → n = m
  | text value, m, same => by
    have kind := typeName_of_outline same
    cases m with
    | text value' =>
      have field := (List.cons.inj (entry.inj same).2).1
      rw [Heading.quoted_inj (entry.inj field).1]
    | _ => simp [typeName] at kind
  | ident name, m, same => by
    have kind := typeName_of_outline same
    cases m with
    | ident name' =>
      have field := (List.cons.inj (entry.inj same).2).1
      rw [Heading.quoted_inj (entry.inj field).1]
    | _ => simp [typeName] at kind
  | endMark, m, same => by
    have kind := typeName_of_outline same
    cases m with
    | endMark => rfl
    | _ => simp [typeName] at kind
  | elseMark, m, same => by
    have kind := typeName_of_outline same
    cases m with
    | elseMark => rfl
    | _ => simp [typeName] at kind
  | list root terminators ns, m, same => by
    have kind := typeName_of_outline same
    cases m with
    | list root' terminators' ns' =>
      obtain ⟨flag, fields⟩ := List.cons.inj (entry.inj same).2
      obtain ⟨group, children⟩ := List.cons.inj fields
      have group := Heading.field_inj (entry.inj group).1
      rw [Heading.flag_inj (entry.inj flag).1, Literal.group_inj group,
        outlineAll_inj (fieldOutline_inj children)]
    | _ => simp [typeName] at kind
  | block condition t f, m, same => by
    have kind := typeName_of_outline same
    cases m with
    | block condition' t' f' =>
      have fields := (entry.inj same).2
      rw [List.append_assoc, List.append_assoc] at fields
      obtain ⟨tokens, branches⟩ := fieldOutline_append_inj fields
      obtain ⟨whenTrue, whenFalse⟩ := branches_inj branches
      have tokens := List.map_injective_iff.mpr (fun _ _ => outlineToken_inj) tokens
      rw [tokens, branchOutline_inj outline_inj whenTrue, branchOutline_inj outline_inj whenFalse]
    | _ => simp [typeName] at kind
  | absent, m, same => by
    have kind := typeName_of_outline same
    cases m with
    | absent => rfl
    | _ => simp [typeName] at kind
  | foreign value, m, same => by
    have kind := typeName_of_outline same
    cases m with
    | foreign value' => rw [Heading.number_inj (entry.inj same).1]
    | _ => simp [typeName] at kind

theorem outlineAll_inj : ∀ {ns ms : List Node}, outlineAll ns = outlineAll ms → ns = ms
  | [], [], _ => rfl
  | [], _ :: _, same => by cases same
  | _ :: _, [], same => by cases same
  | n :: ns, m :: ms, same => by
    obtain ⟨first, more⟩ := List.cons.inj same
    rw [outline_inj first, outlineAll_inj more]

end

/-! ## Dumps as they are printed -/

theorem dumpText_eq (n : Node) (depth : Nat) :
    n.dumpText depth = printed (n.outline.lines.map (indented depth)) := by
  rw [dumpText, dump_eq n (Int.natCast_nonneg depth), printed]

theorem unbroken_lines_outline (n : Node) : ∀ line ∈ n.outline.lines, Unbroken line.toList := by
  intro line member
  have inside : line ∈ linesAll [n.outline] := by
    rw [linesAll_cons, linesAll_nil, List.append_nil]
    exact member
  exact unbroken_linesAll line inside

theorem lines_outline_inj {n m : Node} (same : n.outline.lines = m.outline.lines) : n = m := by
  have alone : linesAll [n.outline] = linesAll [m.outline] := by
    rw [linesAll_cons, linesAll_cons, same]
  exact outline_inj (List.cons.inj (linesAll_inj alone)).1

/-- At any depth, the dump tells the tree, and it is the dump at depth zero with every line
indented by as much. -/
theorem dumpText_eq_iff (l r : Node) (depth : Nat) :
    (l.dumpText depth = r.dumpText depth ↔ l = r) ∧
      (l.dumpText depth).toList = Text.indent depth (l.dumpText 0).toList := by
  have unbroken := unbroken_lines_outline l
  have flush : l.dumpText 0 = printed l.outline.lines := by
    have none : indented (0 : Nat) = id := by
      funext line
      exact String.toList_inj.mp (toList_indented 0 line)
    rw [← List.map_id l.outline.lines, ← none]
    exact dumpText_eq l 0
  refine ⟨⟨fun same => ?_, congrArg (dumpText depth)⟩, ?_⟩
  · rw [dumpText_eq, dumpText_eq] at same
    exact lines_outline_inj (printed_indented_inj unbroken (unbroken_lines_outline r) same)
  · rw [dumpText_eq, flush]
    exact printed_indented unbroken

end Node

end Stencil
