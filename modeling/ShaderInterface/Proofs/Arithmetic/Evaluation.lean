import ShaderInterface.Proofs.Arithmetic.Reading
import ShaderInterface.Proofs.Arithmetic.Splitting

/-!
# The Value of a Text

A text has a value if and only if it splits into the tokens of an expression in which no divisor is
zero, and then it is the value of the expression.

## Main results

* `evaluate_of_splits`: the value of an expression is that of its text.
* `evaluate_iff_expression`: which texts have a value, and why the others have none.
-/

namespace ShaderInterface.Arithmetic

variable {table : Macro.Table} {text : Text}

/-- An expression has at least one token. -/
theorem Expression.tokens_ne_nil (expression : Expression Float) : expression.tokens ≠ [] := by
  intro h
  -- Nothing can be read from no token at all.
  have hvalue := evaluateTokens_tokens expression
  rw [h] at hvalue
  cases hx : expression.value? id with
  | none =>
    rw [hx] at hvalue
    cases hvalue
  | some x =>
    rw [hx] at hvalue
    cases hvalue

/-- Where there are tokens, they are evaluated. -/
theorem evaluate_of_tokens {found : List Token} (hfound : tokens (substitute table text) = .ok found)
    (hne : found ≠ []) : evaluate table text = evaluateTokens found := by
  rw [evaluate, hfound]
  obtain ⟨token, behind, rfl⟩ := List.exists_cons_of_ne_nil hne
  rfl

/-- A text has a value if and only if its tokens have it. -/
theorem evaluate_eq_ok_iff {value : Float} : evaluate table text = .ok value ↔
    ∃ found, tokens (substitute table text) = .ok found ∧ evaluateTokens found = .ok value := by
  constructor
  · intro h
    obtain ⟨found, hfound, hvalue⟩ := result_of_bind h
    rcases found with - | ⟨token, behind⟩
    · cases hvalue
    · exact ⟨_, hfound, hvalue⟩
  · rintro ⟨found, hfound, hvalue⟩
    have hne : found ≠ [] := by
      rintro rfl
      cases hvalue
    rw [evaluate_of_tokens hfound hne, hvalue]

/-- The empty text has no value. -/
theorem evaluate_nil (table : Macro.Table) : evaluate table [] = .error .empty := by
  have hnone : tokens (substitute table []) = .ok [] := tokens_eq_ok_iff.2 .nil
  rw [evaluate, hnone]
  rfl

/-- The value of an expression is that of its text. -/
theorem evaluate_of_splits {expression : Expression Float}
    (h : Splits (substitute table text) expression.tokens) :
    evaluate table text = orDivisionByZero (expression.value? id) := by
  rw [evaluate_of_tokens (tokens_eq_ok_iff.2 h) expression.tokens_ne_nil,
    evaluateTokens_tokens]

/-- A text with a value is the text of an expression. -/
theorem exists_of_evaluate {value : Float} (h : evaluate table text = .ok value) :
    ∃ expression : Expression Float,
      Splits (substitute table text) expression.tokens ∧ expression.value? id = some value := by
  obtain ⟨found, hfound, hvalue⟩ := evaluate_eq_ok_iff.1 h
  obtain ⟨expression, hexpression, htokens⟩ := exists_of_evaluateTokens hvalue
  rw [htokens] at hfound
  exact ⟨expression, tokens_eq_ok_iff.1 hfound, hexpression⟩

/-- A text has a value if and only if, with its names replaced, it splits into the tokens of an
expression in which no divisor is zero, and then it has the value of the expression. The text of an
expression with a divisor that is zero is refused for this reason, and every other text for
some reason. -/
theorem evaluate_iff_expression (table : Macro.Table) (text : Text) :
    (∀ value, evaluate table text = .ok value ↔
      ∃ expression : Expression Float,
        Splits (substitute table text) expression.tokens ∧ expression.value? id = some value) ∧
    (∀ expression : Expression Float, Splits (substitute table text) expression.tokens →
      expression.value? id = none → evaluate table text = .error .divisionByZero) ∧
    ((¬ ∃ expression : Expression Float, Splits (substitute table text) expression.tokens) →
      ∃ fault, evaluate table text = .error fault) := by
  refine ⟨fun value => ⟨exists_of_evaluate, ?_⟩, ?_, ?_⟩
  · rintro ⟨expression, hsplits, hvalue⟩
    rw [evaluate_of_splits hsplits, hvalue]
    rfl
  · intro expression hsplits hvalue
    rw [evaluate_of_splits hsplits, hvalue]
    rfl
  · intro hnone
    cases h : evaluate table text with
    | error fault => exact ⟨fault, rfl⟩
    | ok value =>
      obtain ⟨expression, hsplits, -⟩ := exists_of_evaluate h
      exact absurd ⟨expression, hsplits⟩ hnone

/-- The difference of eight, one and two, from left to right. -/
def exampleDifference : Expression Float :=
  .subtract (.subtract (.single (.single (.operand 8))) (.single (.operand 1)))
    (.single (.operand 2))

/-- A macro is replaced by its text, which is no operand of its own: `8-N` is not `8-(1-2)`. -/
theorem evaluate_exampleDifference :
    evaluate (Macro.Table.empty.set ['N'] (.text "1-2".toList)) "8-N".toList = .ok 5 := by
  have hsubstitute : substitute (Macro.Table.empty.set ['N'] (.text "1-2".toList)) "8-N".toList =
      "8 - 1-2".toList := by decide
  have height : Number.ofText? ['8'] = some 8 := by decide +kernel
  have hone : Number.ofText? ['1'] = some 1 := by decide +kernel
  have htwo : Number.ofText? ['2'] = some 2 := by decide +kernel
  have hsplits : Splits "8 - 1-2".toList exampleDifference.tokens :=
    .number (List.cons_ne_nil _ _) (List.forall_mem_singleton.2 rfl) rfl height <|
      .blank (by decide) <| .operator .subtract <| .blank (by decide) <|
      .number (List.cons_ne_nil _ _) (List.forall_mem_singleton.2 rfl) rfl hone <|
      .operator .subtract <|
      .number (List.cons_ne_nil _ _) (List.forall_mem_singleton.2 rfl) rfl htwo .nil
  refine ((evaluate_iff_expression _ _).1 5).2 ⟨exampleDifference, ?_, by decide +kernel⟩
  rw [hsubstitute]
  exact hsplits

end ShaderInterface.Arithmetic
