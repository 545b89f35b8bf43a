import ShaderInterface.Proofs.Arithmetic.Reading
import ShaderInterface.Proofs.Arithmetic.Splitting

/-!
# Numerals

A numeral that stands alone is a single token, and has the number that it writes for its value.

## Main results

* `tokens_of_numeral`: a numeral is a single token.
* `evaluate_of_numeral`: a numeral has the number that it writes for its value.
-/

namespace ShaderInterface.Arithmetic

open ShaderInterface.Text

variable {text : Text} {x : Float}

/-- A numeral is a single token. -/
theorem tokens_of_numeral (hall : text.all isNumeral = true)
    (hx : Number.ofText? text = some x) (hne : text ≠ []) : tokens text = .ok [.number x] := by
  have htokens : tokens (text ++ []) = (tokens []).map (.number x :: ·) :=
    tokens_number hne (List.all_eq_true.1 hall) rfl hx
  rw [List.append_nil, tokens] at htokens
  exact htokens

/-- A numeral has the number that it writes for its value, if the table leaves it as it is. -/
theorem evaluate_of_numeral {table : Macro.Table} (hkept : substitute table text = text)
    (hall : text.all isNumeral = true) (hx : Number.ofText? text = some x) (hne : text ≠ []) :
    evaluate table text = .ok x := by
  rw [evaluate, hkept, tokens_of_numeral hall hx hne]
  exact evaluateTokens_tokens (.single (.single (.operand x)))

end ShaderInterface.Arithmetic
