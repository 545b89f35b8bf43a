import ShaderInterface.Preprocessing.State
import ShaderInterface.Proofs.Macro.Table

/-!
# Documents

A source whose conditional groups are closed is a tree: a sequence of items, each a line, a
definition with the lines that continue it, or a group whose branches are sequences of items again.
This module gives the tree a meaning of its own, by recursion on it: a group runs the first branch
whose condition holds when its turn comes. There is no stack of open groups here, and nothing is
said about the branches that are not run.

## Main definitions

* `Item`, `Document`, `Branches`: the tree.
* `Document.lines`: the lines that the tree is written in.
* `Document.WellFormed`: every line gives the directive that its place in the tree asks for.
* `Document.interpret`: the lines kept and the table in the end, or the first fault.
-/

namespace ShaderInterface.Preprocessing

open ShaderInterface.Text

mutual

/-- A part of a document. The lines are given as they are written, blanks included. -/
inductive Item where
  /-- A line that gives no directive, or one for the compiler. -/
  | plain (raw : Text)
  /-- A comment line. -/
  | comment (raw : Text)
  /-- A line that removes a macro. -/
  | undefine (raw : Text)
  /-- A line that defines a macro, and the lines that continue it. -/
  | define (raw : Text) (continuation : List Text)
  /-- A group: the line that opens it, the branch behind that line, and the rest of the group. -/
  | group (opener : Text) (body : Document) (rest : Branches)

/-- A sequence of items. -/
inductive Document where
  | nil
  | cons (item : Item) (rest : Document)

/-- A group behind one of its branches. -/
inductive Branches where
  /-- The line that closes the group. -/
  | endIf (raw : Text)
  /-- The last branch, behind the line that starts it, and the line that closes the group. -/
  | otherwise (raw : Text) (body : Document) (closer : Text)
  /-- A branch with a condition of its own, and the rest of the group. -/
  | elseIf (raw : Text) (body : Document) (rest : Branches)

end

/-! ## Lines of a document -/

mutual

/-- The lines of an item. -/
def Item.lines : Item → List Text
  | .plain raw | .comment raw | .undefine raw => [raw]
  | .define raw continuation => raw :: continuation
  | .group opener body rest => opener :: (body.lines ++ rest.lines)

/-- The lines of a document. -/
def Document.lines : Document → List Text
  | .nil => []
  | .cons item rest => item.lines ++ rest.lines

/-- The lines of a group behind one of its branches. -/
def Branches.lines : Branches → List Text
  | .endIf raw => [raw]
  | .otherwise raw body closer => raw :: (body.lines ++ [closer])
  | .elseIf raw body rest => raw :: (body.lines ++ rest.lines)

end

/-! ## Well-formed documents -/

/-- The directive of a line; one that gives none is left to the compiler. -/
def directiveOf (raw : Text) : Directive :=
  (Directive.ofLine? raw.trim).getD .other

/-- Whether a directive opens a group. -/
def opensGroup : Directive → Bool
  | .ifTrue _ | .ifDefined _ | .ifUndefined _ => true
  | _ => false

/-- Each line is continued by the next one, and the last line is not continued. -/
def Joined : List Text → Prop
  | [] => False
  | [last] => isContinued last.trim = false
  | raw :: next :: rest => isContinued raw.trim = true ∧ Joined (next :: rest)

/-- A line that continues a definition starts with neither a number sign nor a comment. -/
def IsContinuation (raw : Text) : Prop :=
  raw.trim.head? ≠ some '#' ∧ isCommentLine raw.trim = false

mutual

/-- The lines of an item give the directives that make up the item. -/
def Item.WellFormed : Item → Prop
  | .plain raw => isCommentLine raw.trim = false ∧ directiveOf raw = .other
  | .comment raw => isCommentLine raw.trim = true
  | .undefine raw => ∃ name, directiveOf raw = .undefine name
  | .define raw continuation => ∃ definition, directiveOf raw = .define definition ∧
      (continuation ≠ [] → (Definition.ofText? definition).isSome) ∧
      Joined (raw :: continuation) ∧ ∀ line ∈ continuation, IsContinuation line
  | .group opener body rest =>
      opensGroup (directiveOf opener) = true ∧ body.WellFormed ∧ rest.WellFormed

/-- All items of a document are well formed. -/
def Document.WellFormed : Document → Prop
  | .nil => True
  | .cons item rest => item.WellFormed ∧ rest.WellFormed

/-- The lines of a group give the directives that divide and close it. -/
def Branches.WellFormed : Branches → Prop
  | .endIf raw => directiveOf raw = .endIf
  | .otherwise raw body closer =>
      directiveOf raw = .otherwise ∧ body.WellFormed ∧ directiveOf closer = .endIf
  | .elseIf raw body rest =>
      (∃ condition, directiveOf raw = .elseIf condition) ∧ body.WellFormed ∧ rest.WellFormed

end

/-! ## Meaning of a document -/

/-- Whether the branch behind a line is taken, as far as the line decides it. -/
def branchHolds (table : Macro.Table) (raw : Text) : Except Fault Bool :=
  match directiveOf raw with
  | .ifTrue condition | .elseIf condition =>
    ((Condition.ofText condition).holds table raw.trim).outcome
  | .ifDefined name => .ok (table.contains name)
  | .ifUndefined name => .ok (!table.contains name)
  | _ => .ok false

/-- A value with one more line behind it. A flag has no line yet. -/
def continueValue (value : Macro.Value) (raw : Text) : Macro.Value :=
  match value.replacement? with
  | some before => .text (before ++ '\n' :: directiveText raw.trim)
  | none => .text (directiveText raw.trim)

/-- The table behind a definition and the lines that continue it. The value is found from the first
line alone, and the other lines are put behind it as they are. -/
def defineLines (table : Macro.Table) (raw : Text) (continuation : List Text) :
    Except Fault Macro.Table :=
  match directiveOf raw with
  | .define text =>
    match Definition.ofText? text with
    | some definition => do
      let value ← (definition.evaluate table).mapError (.invalidEquation raw.trim)
      return table.set definition.name (continuation.foldl continueValue value)
    | none => .ok table
  | _ => .ok table

mutual

/-- The lines that an item keeps, and the table behind it. -/
def Item.interpret (table : Macro.Table) : Item → Except Fault (List Text × Macro.Table)
  | .plain raw => .ok (if raw.trim.isEmpty then [] else [raw], table)
  | .comment _ => .ok ([], table)
  | .undefine raw =>
    match directiveOf raw with
    | .undefine name => .ok ([], table.without name)
    | _ => .ok ([], table)
  | .define raw continuation => do
    return ([], ← defineLines table raw continuation)
  | .group opener body rest => do
    if ← branchHolds table opener then body.interpret table else rest.interpret table

/-- The lines that a document keeps, and the table behind it. -/
def Document.interpret (table : Macro.Table) : Document → Except Fault (List Text × Macro.Table)
  | .nil => .ok ([], table)
  | .cons item rest => do
    let (kept, next) ← item.interpret table
    let (following, last) ← rest.interpret next
    return (kept ++ following, last)

/-- The lines that a group keeps when no branch has been taken so far, and the table behind it. -/
def Branches.interpret (table : Macro.Table) : Branches → Except Fault (List Text × Macro.Table)
  | .endIf _ => .ok ([], table)
  | .otherwise _ body _ => body.interpret table
  | .elseIf raw body rest => do
    if ← branchHolds table raw then body.interpret table else rest.interpret table

end

end ShaderInterface.Preprocessing
