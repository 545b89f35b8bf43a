import ShaderInterface.Arithmetic.Evaluation
import ShaderInterface.Report
import ShaderInterface.Text.Word

/-!
# Conditions

A condition is a list of alternatives, divided by `||`, each of which is a list of terms, divided
by `&&`. A term asks whether a macro is defined, compares two arithmetic texts, or asks whether
the value of one arithmetic text differs from zero. Parentheses may stand around a whole term.

Every term of a condition is evaluated, from left to right, also when the terms before it decide.
-/

namespace ShaderInterface

open ShaderInterface.Text

/-- How two numbers are compared. -/
inductive Comparison where
  | equal
  | notEqual
  | atMost
  | atLeast
  | less
  | greater
  deriving DecidableEq, Repr

namespace Comparison

/-- The comparisons and their signs. A sign comes before those that it starts with. -/
def signs : List (Text × Comparison) :=
  [("==".toList, equal), ("!=".toList, notEqual), ("<=".toList, atMost), (">=".toList, atLeast),
    ("<".toList, less), (">".toList, greater)]

/-- Whether a comparison holds of two numbers. -/
def holds : Comparison → Float → Float → Bool
  | equal, left, right => left == right
  | notEqual, left, right => left != right
  | atMost, left, right => left ≤ right
  | atLeast, left, right => right ≤ left
  | less, left, right => left < right
  | greater, left, right => right < left

/-- The comparison whose sign a text starts with, and the text behind the sign, which is not
empty. -/
def ofStart? (text : Text) : Option (Comparison × Text) :=
  signs.findSome? fun (sign, comparison) =>
    match sign.isPrefixOf? text with
    | some (c :: rest) => some (comparison, c :: rest)
    | _ => none

/-- The comparison with the leftmost sign that has texts on either side, and these texts. -/
def split? : Text → Option (Text × Comparison × Text)
  | [] => none
  | c :: rest =>
    match ofStart? rest with
    | some (comparison, right) => some ([c], comparison, right)
    | none => (split? rest).map fun (left, comparison, right) => (c :: left, comparison, right)

end Comparison

/-- A single question of a condition. -/
inductive Term where
  /-- Whether a macro is defined, or, negated, whether it is not. -/
  | defined (negated : Bool) (name : Text)
  /-- Whether two arithmetic texts compare in the given way. -/
  | comparison (left : Text) (kind : Comparison) (right : Text)
  /-- Whether an arithmetic text has a value other than zero. -/
  | arithmetic (text : Text)
  deriving DecidableEq, Repr

namespace Term

/-- A name in parentheses that makes up all of a text. -/
def parenthesizedName? (text : Text) : Option Text := do
  let inner ← ['('].isPrefixOf? (trimStart text)
  let rest := trimStart inner
  let name := rest.takeWhile isWord
  if !name.isEmpty && trimStart (rest.dropWhile isWord) == [')'] then some name else none

/-- A name behind blanks that makes up all of a text. -/
def separateName? (text : Text) : Option Text :=
  let name := trimStart text
  if text.head?.any isBlank && !name.isEmpty && name.all isWord then some name else none

/-- The question whether a macro is defined, if a text asks it. -/
def definedness? (text : Text) : Option Term := do
  let negated := text.head? == some '!'
  let question := trimStart (if negated then text.drop 1 else text)
  let rest ← "defined".toList.isPrefixOf? question
  let name ← (parenthesizedName? rest).or (separateName? rest)
  return .defined negated name

/-- A text without blanks at its ends and without the parentheses around it. -/
def unwrap (text : Text) : Text :=
  if text.trim.head? = some '(' ∧ text.trim.getLast? = some ')' then
    trim (text.trim.drop 1).dropLast
  else text.trim

/-- The question that a text asks. -/
def ofText (text : Text) : Term :=
  match definedness? (unwrap text) with
  | some term => term
  | none =>
    match Comparison.split? (unwrap text) with
    | some (left, kind, right) => .comparison left kind right
    | none => .arithmetic (unwrap text)

/-- The value of an arithmetic text in a condition. If it has none, the line of the condition is told. -/
def value (table : Macro.Table) (line text : Text) : Report Float :=
  match Arithmetic.evaluate table text with
  | .ok x => return x
  | .error cause => do
    Report.notice (.failure (.invalidCondition line cause))
    Report.raise (.invalidCondition line cause)

/-- The answer to a question that a line asks. -/
def holds (table : Macro.Table) (line : Text) : Term → Report Bool
  | defined negated name => return table.contains name != negated
  | comparison left kind right => do
    let x ← value table line left
    let y ← value table line right
    return kind.holds x y
  | arithmetic text => do
    let x ← value table line text
    return x != 0.0

end Term

/-- The alternatives of a condition, each a list of terms that must all hold. -/
abbrev Condition := List (List Term)

namespace Condition

/-- The condition that a text writes. -/
def ofText (text : Text) : Condition :=
  (splitOnMark '|' '|' text).map fun alternative =>
    (splitOnMark '&' '&' alternative).map Term.ofText

/-- Whether the condition of a line holds under a table. -/
def holds (table : Macro.Table) (line : Text) (condition : Condition) : Report Bool := do
  let answers ← condition.mapM fun terms => terms.mapM (Term.holds table line)
  return answers.any fun terms => terms.all id

end Condition

end ShaderInterface
