import Mathlib.Tactic.Common
import ShaderInterface.Proofs.Arithmetic.Spacing
import ShaderInterface.Proofs.Arithmetic.Viability

/-!
# Operators in Texts

As operators are words of their own, a text is read on either side of an operator as if the other side
were not there, as long as the operator is no macro. What cannot be the neighbour of an operator in an
expression is therefore not its neighbour in a text with a value.

## Main results

* `tokens_sign`: what stands on either side of an operator is read on its own.
* `joinsFactors_of_evaluate`: behind an operator, a text with a value goes on with a sign at most.
* `evaluate_ne_of_sign`: no text with a value ends with an operator.
-/

namespace ShaderInterface.Arithmetic

open ShaderInterface.Text

variable {table : Macro.Table} {op next : Operator} {first second : Text} {value : Float}

/-! ## Reading on either side of an operator -/

/-- What stands on either side of an operator that is no macro is read on its own. -/
theorem tokens_sign (h : table.replacement? [op.sign] = none) (first second : Text) :
    tokens (substitute table (first ++ op.sign :: second)) = do
      let before ← tokens (substitute table first)
      let behind ← tokens (substitute table second)
      return before ++ .operator op :: behind := by
  have hop : tokens [op.sign] = .ok [.operator op] := tokens_eq_ok_iff.2 (.operator op .nil)
  have hhead : (op.sign :: second).head?.all isSeparator = true := isSeparator_sign op
  have hsecond : tokens (substitute table (op.sign :: second)) =
      (tokens (substitute table second)).map (.operator op :: ·) := by
    rw [tokens_substitute_operator, replaced, h, Option.getD_none, hop]
    rfl
  rw [tokens_substitute_append table first hhead, hsecond]
  cases tokens (substitute table first) with
  | error fault => rfl
  | ok before => cases tokens (substitute table second) <;> rfl

/-! ## The neighbours of an operator -/

/-- The tokens of a text with a value are those on either side of an operator, and they are regular. -/
theorem exists_regular_of_evaluate (hop : table.replacement? [op.sign] = none)
    (h : evaluate table (first ++ op.sign :: second) = .ok value) :
    ∃ before behind, tokens (substitute table second) = .ok behind ∧
      Regular (before ++ .operator op :: behind) := by
  obtain ⟨expression, hsplits, -⟩ := exists_of_evaluate h
  have htokens := tokens_eq_ok_iff.2 hsplits
  rw [tokens_sign hop] at htokens
  obtain ⟨before, -, hbehind⟩ := result_of_bind htokens
  obtain ⟨behind, hsecond, hfound⟩ := result_of_bind hbehind
  refine ⟨before, behind, hsecond, ?_⟩
  rw [Except.ok.inj hfound]
  exact expression.regular

/-- A text with a value does not go on with a factor behind an operator. -/
theorem joinsFactors_of_evaluate (hop : table.replacement? [op.sign] = none)
    (hnext : table.replacement? [next.sign] = none)
    (h : evaluate table (first ++ op.sign :: next.sign :: second) = .ok value) :
    next.joinsFactors = false := by
  obtain ⟨before, behind, hbehind, hregular⟩ := exists_regular_of_evaluate hop h
  -- The next token is the next operator.
  have hfound := tokens_sign hnext [] second
  rw [List.nil_append, hbehind] at hfound
  obtain ⟨front, hfront, hrest⟩ := result_of_bind hfound.symm
  obtain ⟨rest, -, hbehind⟩ := result_of_bind hrest
  obtain rfl : front = [] := by
    exact Except.ok.inj (hfront.symm.trans tokens_nil)
  obtain rfl : behind = .operator next :: rest := (Except.ok.inj hbehind).symm
  have hneighbours := (List.isChain_cons_cons.1 (List.isChain_append.1 hregular.chain).2.1).1
  simpa [Neighbours, Token.isNumber, Token.opensOperand] using hneighbours

/-- A text with a value does not end with an operator. -/
theorem evaluate_ne_of_sign (hop : table.replacement? [op.sign] = none) :
    evaluate table (first ++ [op.sign]) ≠ .ok value := by
  intro h
  obtain ⟨before, behind, hbehind, hregular⟩ := exists_regular_of_evaluate hop h
  obtain rfl : behind = [] := by
    exact Except.ok.inj (hbehind.symm.trans tokens_nil)
  obtain ⟨front, x, hends⟩ := hregular.ends
  cases List.append_inj_right' hends rfl

end ShaderInterface.Arithmetic
