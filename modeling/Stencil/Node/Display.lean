import Stencil.Node.Basic

/-!
# Trees as text

Trees on one line, for messages and logs: each node in brackets, texts and names as JSON
strings, a missing branch as `nil`.

Trees on many lines, for dumps: a line for each node and each of its fields, indented by two
spaces for each level, texts as quoted literals. A field without a value has no line.
-/

namespace Stencil

/-! ## On one line -/

namespace Node

mutual

/-- A tree on one line. A number in the place of a node cannot be shown. -/
def display : Node → Except Misfit String
  | text value => .ok ("[text: " ++ Text.JsonString.quote value ++ "]")
  | ident name => .ok ("[ident: " ++ Text.JsonString.quote name ++ "]")
  | endMark => .ok "[end]"
  | elseMark => .ok "[else]"
  | list root terminators ns => do
    let body ← displayAll ns
    return "[list (" ++ (if root then "true" else "false") ++ ", " ++ toString ns.length ++
      ", [" ++ ", ".intercalate terminators ++ "]): [" ++ String.join body ++ "]]"
  | block condition t f => do
    let t ← display t
    let f ← display f
    return "[if cond:[" ++ Token.renderAll " " condition ++ "] true:" ++ t ++ " false:" ++ f ++
      "]"
  | absent => .ok "nil"
  | foreign value => .error (.noDisplay value)

/-- Several trees, each on its line. -/
def displayAll : List Node → Except Misfit (List String)
  | [] => .ok []
  | n :: ns => do
    let first ← display n
    let rest ← displayAll ns
    return first :: rest

end

end Node

/-! ## On many lines -/

/-- A line at a depth; a depth below zero indents nothing. -/
def indented (depth : Int) (line : String) : String :=
  String.ofList (List.replicate (2 * depth.toNat) ' ') ++ line

/-- A token in a dump: its kind in both forms, and its text. -/
def Token.dump (depth : Int) (t : Token) : List String :=
  [indented depth "Token",
    indented depth ("  kind: <TokenKind." ++ t.kind.title ++ ": " ++
      Text.Literal.quote t.kind.label ++ ">"),
    indented depth ("  value: " ++ Text.Literal.quote t.value)]

namespace Node

/-- A field that holds a list: `[]`, or a heading over the lines of the members. -/
def dumpField (depth : Int) (name : String) (members : List String) : List String :=
  if members.isEmpty then [indented depth ("  " ++ name ++ ": []")]
  else indented depth ("  " ++ name ++ ":") :: members

/-- A field that holds a branch, with the lines of the tree in it: no line if the branch is
missing, and one if it is a mere number. -/
def dumpBranch (depth : Int) (name : String) (branch : Node) (below : List String) :
    List String :=
  match branch with
  | absent => []
  | foreign value => [indented depth ("  " ++ name ++ ": " ++ toString value)]
  | _ => indented depth ("  " ++ name ++ ":") :: below

mutual

/-- The lines of a tree at a depth. -/
def dump (depth : Int) : Node → List String
  | text value =>
    [indented depth "PlaintextNode", indented depth ("  text: " ++ Text.Literal.quote value)]
  | ident name =>
    [indented depth "IdentifierNode", indented depth ("  name: " ++ Text.Literal.quote name)]
  | endMark => [indented depth "EndNode"]
  | elseMark => [indented depth "ElseNode"]
  | list root terminators ns =>
    [indented depth "ListNode",
      indented depth ("  root: " ++ if root then "True" else "False"),
      indented depth ("  terminators: " ++ Text.Literal.group terminators)] ++
      dumpField depth "children" (dumpAll (depth + 2) ns)
  | block condition t f =>
    [indented depth "IfNode"] ++
      dumpField depth "condition" (condition.flatMap (Token.dump (depth + 2))) ++
      dumpBranch depth "true_branch" t (dump (depth + 2) t) ++
      dumpBranch depth "false_branch" f (dump (depth + 2) f)
  | absent => [indented depth "NoneType: None"]
  | foreign value => [indented depth ("int: " ++ toString value)]

/-- The lines of several trees. -/
def dumpAll (depth : Int) : List Node → List String
  | [] => []
  | n :: ns => dump depth n ++ dumpAll depth ns

end

/-- The dump as a text, every line ended. -/
def dumpText (depth : Int) (n : Node) : String :=
  String.join ((n.dump depth).map (· ++ "\n"))

end Node

end Stencil
