import ShaderInterface.Arithmetic.Token
import ShaderInterface.Macro.Table

/-!
# Arithmetic Evaluation

A text is evaluated in three steps: names are replaced by their values, once; the result is read as
tokens; and the tokens are evaluated as a sum of products of signed numbers. Sums and products are
worked off from left to right as they are read, so that the leftmost fault is the one that is found.

Each reader of tokens returns the value read and the tokens left, which are fewer than it was given.
The readers know the length of the whole list of tokens and find the position of a token from the
number of tokens left.
-/

namespace ShaderInterface.Arithmetic

open ShaderInterface.Text

/-- Whether a text holds the sign of an operation. -/
def containsOperator (text : Text) : Bool :=
  text.any isOperator

/-- The text with a space on either side of each operator. -/
def spaceOut (text : Text) : Text :=
  text.flatMap fun c => if isOperator c then [' ', c, ' '] else [c]

/-- The words of a text, operators being words of their own, each replaced by what the table puts in
its place, and joined by single spaces. -/
def substitute (table : Macro.Table) (text : Text) : Text :=
  unwords ((spaceOut text).words.map fun word => (table.replacement? word).getD word)

/-- Applies an operation. Only the divisor zero, of either sign, is refused. -/
def Operator.apply (op : Operator) (left right : Float) : Except Fault Float :=
  match op with
  | .add => .ok (left + right)
  | .subtract => .ok (left - right)
  | .multiply => .ok (left * right)
  | .divide => if right == 0.0 then .error .divisionByZero else .ok (left / right)

/-- Whether an operation joins the factors of a product rather than the terms of a sum. -/
def Operator.joinsFactors : Operator → Bool
  | .multiply | .divide => true
  | .add | .subtract => false

/-- Reads a number behind any number of signs. -/
def operand (total : Nat) : List Token → Except Fault (Float × List Token)
  | [] => .error .unexpectedEnd
  | .number x :: rest => .ok (x, rest)
  | .operator .subtract :: rest => (operand total rest).map fun (x, left) => (-x, left)
  | .operator .add :: rest => operand total rest
  | .operator op :: rest => .error (.unexpectedToken (.operator op) (total - (rest.length + 1)))

/-- A number is read from at least one token. -/
theorem length_lt_of_operand {total : Nat} {tokens rest : List Token} {x : Float}
    (h : operand total tokens = .ok (x, rest)) : rest.length < tokens.length := by
  fun_induction operand total tokens generalizing x with
  | case1 => simp at h
  | case2 y left => cases h; simp
  | case3 left ih =>
    cases hleft : operand total left with
    | error fault => simp [hleft, Except.map] at h
    | ok read =>
      simp only [hleft, Except.map, Except.ok.injEq, Prod.mk.injEq] at h
      have := ih (x := read.1) (by rw [hleft, ← h.2])
      simp only [List.length_cons]
      omega
  | case4 left ih =>
    have := ih h
    simp only [List.length_cons]
    omega
  | case5 => simp at h

/-- Multiplies a value by the factors that follow, and divides it by the divisors among them. -/
def product (total : Nat) (value : Float) : List Token → Except Fault (Float × List Token)
  | .operator op :: rest =>
    if op.joinsFactors then
      match _h : operand total rest with
      | .error fault => .error fault
      | .ok (x, left) =>
        match op.apply value x with
        | .error fault => .error fault
        | .ok result => product total result left
    else .ok (value, .operator op :: rest)
  | tokens => .ok (value, tokens)
termination_by tokens => tokens.length
decreasing_by
  have := length_lt_of_operand _h
  simp only [List.length_cons]
  omega

/-- A product reads no more tokens than there are. -/
theorem length_le_of_product {total : Nat} {value x : Float} {tokens rest : List Token}
    (h : product total value tokens = .ok (x, rest)) : rest.length ≤ tokens.length := by
  fun_induction product total value tokens with
  | case1 => simp at h
  | case2 => simp at h
  | case3 _ op left _ y after hoperand result _ ih =>
    have := length_lt_of_operand hoperand
    have := ih h
    simp only [List.length_cons]
    omega
  | case4 => cases h; simp
  | case5 => cases h; simp

/-- Reads a product: a number and the factors and divisors behind it. -/
def term (total : Nat) (tokens : List Token) : Except Fault (Float × List Token) := do
  let (x, rest) ← operand total tokens
  product total x rest

/-- A term is read from at least one token. -/
theorem length_lt_of_term {total : Nat} {tokens rest : List Token} {x : Float}
    (h : term total tokens = .ok (x, rest)) : rest.length < tokens.length := by
  cases hoperand : operand total tokens with
  | error fault => simp [term, hoperand, bind, Except.bind] at h
  | ok read =>
    simp only [term, hoperand, bind, Except.bind] at h
    have := length_lt_of_operand hoperand
    have := length_le_of_product h
    omega

/-- Adds to a value the terms that follow, and subtracts those behind a minus sign. -/
def sum (total : Nat) (value : Float) : List Token → Except Fault (Float × List Token)
  | .operator op :: rest =>
    if op.joinsFactors then .ok (value, .operator op :: rest)
    else
      match _h : term total rest with
      | .error fault => .error fault
      | .ok (x, left) =>
        match op.apply value x with
        | .error fault => .error fault
        | .ok result => sum total result left
  | tokens => .ok (value, tokens)
termination_by tokens => tokens.length
decreasing_by
  have := length_lt_of_term _h
  simp only [List.length_cons]
  omega

/-- The value of a list of tokens, all of which must belong to one sum. -/
def evaluateTokens (tokens : List Token) : Except Fault Float := do
  let total := tokens.length
  let (x, rest) ← term total tokens
  match ← sum total x rest with
  | (result, []) => .ok result
  | (_, token :: left) => .error (.unexpectedToken token (total - (left.length + 1)))

/-- The value of an arithmetic text under a table. -/
def evaluate (table : Macro.Table) (text : Text) : Except Fault Float := do
  match ← tokens (substitute table text) with
  | [] => .error .empty
  | found => evaluateTokens found

end ShaderInterface.Arithmetic
