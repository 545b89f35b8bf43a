import ShaderInterface.Arithmetic.Evaluation

/-!
# Expressions

The grammar of arithmetic texts and the value of a sentence, without regard to how they are read. A
sentence is a sum of products of signed operands. Sums and products group to the left, so that
their trees grow on the left as well. Operands may be of any kind, as long as each can be written
and stands for a number.

## Main definitions

* `Factor`, `Product`, `Expression`: the sentences.
* `Expression.spell`: the symbols of a sentence, from left to right.
* `Expression.value?`: the value of a sentence, if no divisor is zero.
* `Expression.bind`: a sentence with its operands replaced by factors.
* `Splits`: how a text splits into tokens.
-/

namespace ShaderInterface.Arithmetic

open ShaderInterface.Text

/-- An operand behind any number of signs. -/
inductive Factor (α : Type) where
  | operand (x : α)
  | positive (inner : Factor α)
  | negative (inner : Factor α)

/-- Factors that are multiplied and divided from left to right. -/
inductive Product (α : Type) where
  | single (factor : Factor α)
  | multiply (left : Product α) (right : Factor α)
  | divide (left : Product α) (right : Factor α)

/-- Products that are added and subtracted from left to right. -/
inductive Expression (α : Type) where
  | single (product : Product α)
  | add (left : Expression α) (right : Product α)
  | subtract (left : Expression α) (right : Product α)

variable {α β : Type}

/-! ## Symbols -/

section Symbols

variable (operand : α → β) (sign : Operator → β)

/-- The symbols of a factor. -/
def Factor.spell : Factor α → List β
  | .operand x => [operand x]
  | .positive inner => sign .add :: inner.spell
  | .negative inner => sign .subtract :: inner.spell

/-- The symbols of a product. -/
def Product.spell : Product α → List β
  | .single factor => factor.spell operand sign
  | .multiply left right => left.spell ++ sign .multiply :: right.spell operand sign
  | .divide left right => left.spell ++ sign .divide :: right.spell operand sign

/-- The symbols of an expression. -/
def Expression.spell : Expression α → List β
  | .single product => product.spell operand sign
  | .add left right => left.spell ++ sign .add :: right.spell operand sign
  | .subtract left right => left.spell ++ sign .subtract :: right.spell operand sign

end Symbols

/-- The tokens of a factor. -/
def Factor.tokens (factor : Factor Float) : List Token :=
  factor.spell .number .operator

/-- The tokens of a product. -/
def Product.tokens (product : Product Float) : List Token :=
  product.spell .number .operator

/-- The tokens of an expression. -/
def Expression.tokens (expression : Expression Float) : List Token :=
  expression.spell .number .operator

/-- The operands and the operators of an expression. -/
def Expression.symbols (expression : Expression α) : List (α ⊕ Operator) :=
  expression.spell .inl .inr

/-- The operators of an expression. -/
def Expression.operators (expression : Expression α) : List Operator :=
  expression.symbols.filterMap Sum.getRight?

/-! ## Values -/

section Values

variable (read : α → Float)

/-- The value of a factor. -/
def Factor.value : Factor α → Float
  | .operand x => read x
  | .positive inner => inner.value
  | .negative inner => -inner.value

/-- The value of a product; it has none if a divisor is zero. -/
def Product.value? : Product α → Option Float
  | .single factor => some (factor.value read)
  | .multiply left right => do return (← left.value?) * right.value read
  | .divide left right => do
    let dividend ← left.value?
    if right.value read == 0.0 then none else some (dividend / right.value read)

/-- The value of an expression; it has none if a divisor is zero. -/
def Expression.value? : Expression α → Option Float
  | .single product => product.value? read
  | .add left right => do return (← left.value?) + (← right.value? read)
  | .subtract left right => do return (← left.value?) - (← right.value? read)

end Values

/-! ## Factors in the place of operands -/

section Bind

variable (replace : α → Factor β)

/-- The factor with its operand replaced by a factor. -/
def Factor.bind : Factor α → Factor β
  | .operand x => replace x
  | .positive inner => .positive inner.bind
  | .negative inner => .negative inner.bind

/-- The product with every operand replaced by a factor. -/
def Product.bind : Product α → Product β
  | .single factor => .single (factor.bind replace)
  | .multiply left right => .multiply left.bind (right.bind replace)
  | .divide left right => .divide left.bind (right.bind replace)

/-- The expression with every operand replaced by a factor. -/
def Expression.bind : Expression α → Expression β
  | .single product => .single (product.bind replace)
  | .add left right => .add left.bind (right.bind replace)
  | .subtract left right => .subtract left.bind (right.bind replace)

end Bind

/-! ## Splitting a text -/

/-- A text splits into tokens: blanks count for nothing, each operator is a token, and so is each run
of digits and points, as long as possible, that is a numeral. -/
inductive Splits : (text : Text) → (found : List Token) → Prop where
  | nil : Splits [] []
  | blank {c : Char} {text : Text} {found : List Token} :
      isBlank c = true → Splits text found → Splits (c :: text) found
  | operator (op : Operator) {text : Text} {found : List Token} :
      Splits text found → Splits (op.sign :: text) (.operator op :: found)
  | number {digits text : Text} {x : Float} {found : List Token} : digits ≠ [] →
      (∀ c ∈ digits, isNumeral c = true) → text.head?.any isNumeral = false →
      Number.ofText? digits = some x → Splits text found →
      Splits (digits ++ text) (.number x :: found)

end ShaderInterface.Arithmetic
