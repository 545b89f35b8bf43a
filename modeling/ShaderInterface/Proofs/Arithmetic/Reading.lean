import Mathlib.Tactic.Common
import ShaderInterface.Proofs.Arithmetic.Expression
import ShaderInterface.Proofs.Outcome

/-!
# Reading Expressions

Evaluation works off the tokens of a sum as it reads them, and never sees a tree. It gives a result
for the tokens of an expression and for no others, and the result is the value of the expression:
what has been worked off is at any time a product or an expression with the value reached so far.

## Main results

* `evaluateTokens_tokens`: the tokens of an expression have its value.
* `exists_of_evaluateTokens`: only the tokens of an expression have a value.
-/

namespace ShaderInterface.Arithmetic

variable {total : Nat} {op : Operator} {tokens rest : List Token} {value x y : Float}

/-- A value, or the fault that stands in its place when a divisor is zero. -/
def orDivisionByZero (value? : Option Float) : Except Fault Float :=
  value?.elim (.error .divisionByZero) .ok

theorem eq_some_of_orDivisionByZero {value? : Option Float} (h : orDivisionByZero value? = .ok x) :
    value? = some x := by
  cases value? with
  | none => cases h
  | some y => exact congrArg some (Except.ok.inj h)

/-- Whether a product goes on with the next token. -/
def joinsFactors? : Option Token → Bool
  | some (.operator op) => op.joinsFactors
  | _ => false

/-! ## One step of a sum or product -/

/-- A factor or divisor is worked off as soon as it is read. -/
theorem product_cons (hop : op.joinsFactors = true) (h : operand total tokens = .ok (x, rest)) :
    product total value (.operator op :: tokens) =
      op.apply value x >>= fun result => product total result rest := by
  rw [product]
  simp only [hop, if_true]
  split
  next hfault => cases hfault.symm.trans h
  next hread =>
    cases hread.symm.trans h
    cases op.apply value x <;> rfl

/-- A product ends where no factor and no divisor follows. -/
theorem product_of_stop (h : joinsFactors? tokens.head? = false) :
    product total value tokens = .ok (value, tokens) := by
  rw [product.eq_def]
  split
  next op rest =>
    have hop : op.joinsFactors = false := h
    simp only [hop, Bool.false_eq_true, if_false]
  next => rfl

/-- A term is worked off as soon as it is read. -/
theorem sum_cons (hop : op.joinsFactors = false) :
    sum total value (.operator op :: tokens) =
      term total tokens >>= fun read =>
        op.apply value read.1 >>= fun result => sum total result read.2 := by
  rw [sum]
  simp only [hop, Bool.false_eq_true, if_false]
  split
  next hfault =>
    rw [hfault]
    rfl
  next x left hread =>
    rw [hread]
    show _ = op.apply value x >>= fun result => sum total result left
    cases op.apply value x <;> rfl

theorem sum_nil : sum total value [] = .ok (value, []) := by
  rw [sum]
  intro op rest h
  cases h

/-! ## Every expression is read -/

/-- A factor is read as its value. -/
theorem operand_append (factor : Factor Float) :
    operand total (factor.tokens ++ rest) = .ok (factor.value id, rest) := by
  induction factor with
  | operand x => rfl
  | positive inner ih => exact ih
  | negative inner ih =>
    show (operand total (inner.tokens ++ rest)).map _ = _
    rw [ih]
    rfl

/-- A product is read as its value, to which the factors that follow are joined. -/
theorem term_append (product : Product Float) :
    term total (product.tokens ++ rest) =
      orDivisionByZero (product.value? id) >>= fun x => Arithmetic.product total x rest := by
  induction product generalizing rest with
  | single factor =>
    show operand total (factor.tokens ++ rest) >>= _ = _
    rw [operand_append]
    rfl
  | multiply left right ih =>
    -- The product on the left goes on with the sign, and what it has reached is worked off first.
    have htokens : (left.multiply right).tokens ++ rest =
        left.tokens ++ (.operator .multiply :: (right.tokens ++ rest)) :=
      List.append_assoc ..
    rw [htokens, ih, Product.value?]
    cases left.value? id with
    | none => rfl
    | some x => exact product_cons rfl (operand_append right)
  | divide left right ih =>
    have htokens : (left.divide right).tokens ++ rest =
        left.tokens ++ (.operator .divide :: (right.tokens ++ rest)) :=
      List.append_assoc ..
    rw [htokens, ih, Product.value?]
    cases left.value? id with
    | none => rfl
    | some x =>
      show Arithmetic.product total x (.operator .divide :: (right.tokens ++ rest)) = _
      rw [product_cons rfl (operand_append right), Operator.apply]
      -- Whether the divisor is zero decides both.
      by_cases hzero : (right.value id == 0.0) = true
      · simp only [hzero, if_true, bind, Option.bind_some]
        rfl
      · simp only [hzero, bind, Option.bind_some]
        rfl

/-- An expression is read as its value, to which the terms that follow are joined, unless its last
product goes on. -/
theorem sum_append (expression : Expression Float) (hrest : joinsFactors? rest.head? = false) :
    (term total (expression.tokens ++ rest) >>= fun read => sum total read.1 read.2) =
      orDivisionByZero (expression.value? id) >>= fun x => sum total x rest := by
  -- A term that ends here is a product on its own.
  have hterm {product : Product Float} {behind : List Token}
      (h : joinsFactors? behind.head? = false) :
      term total (product.tokens ++ behind) =
        (orDivisionByZero (product.value? id)).map fun x => (x, behind) := by
    rw [term_append]
    simp only [product_of_stop h]
    cases orDivisionByZero (product.value? id) <;> rfl
  induction expression generalizing rest with
  | single product =>
    show term total (product.tokens ++ rest) >>= _ = _
    rw [hterm hrest, Expression.value?]
    cases product.value? id <;> rfl
  | add left right ih =>
    -- The expression on the left ends at the sign, and so its last product does.
    have htokens : (left.add right).tokens ++ rest =
        left.tokens ++ (.operator .add :: (right.tokens ++ rest)) :=
      List.append_assoc ..
    rw [htokens, ih rfl, Expression.value?]
    simp only [sum_cons (show Operator.add.joinsFactors = false from rfl), hterm hrest]
    cases left.value? id <;> cases right.value? id <;> rfl
  | subtract left right ih =>
    have htokens : (left.subtract right).tokens ++ rest =
        left.tokens ++ (.operator .subtract :: (right.tokens ++ rest)) :=
      List.append_assoc ..
    rw [htokens, ih rfl, Expression.value?]
    simp only [sum_cons (show Operator.subtract.joinsFactors = false from rfl), hterm hrest]
    cases left.value? id <;> cases right.value? id <;> rfl

/-- A list of tokens is read as a sum, behind which nothing may be left. -/
theorem evaluateTokens_eq (tokens : List Token) :
    evaluateTokens tokens =
      (term tokens.length tokens >>= fun read => sum tokens.length read.1 read.2) >>= fun read =>
        match read with
        | (result, []) => .ok result
        | (_, token :: left) => .error (.unexpectedToken token (tokens.length - (left.length + 1))) :=
  (bind_assoc ..).symm

/-- The tokens of an expression have its value. -/
theorem evaluateTokens_tokens (expression : Expression Float) :
    evaluateTokens expression.tokens = orDivisionByZero (expression.value? id) := by
  -- Nothing follows the expression.
  rw [evaluateTokens_eq, ← List.append_nil expression.tokens, sum_append expression rfl]
  simp only [sum_nil]
  cases expression.value? id <;> rfl

/-! ## Nothing else is read -/

/-- What is read as an operand are the tokens of a factor. -/
theorem exists_of_operand (h : operand total tokens = .ok (x, rest)) :
    ∃ factor : Factor Float, factor.value id = x ∧ tokens = factor.tokens ++ rest := by
  fun_induction operand total tokens generalizing x with
  | case1 => cases h
  | case2 y left =>
    cases h
    exact ⟨.operand y, rfl, rfl⟩
  | case3 left ih =>
    cases hinner : operand total left with
    | error fault =>
      rw [hinner] at h
      cases h
    | ok read =>
      rw [hinner] at h
      cases h
      obtain ⟨inner, hvalue, htokens⟩ := ih hinner
      exact ⟨.negative inner, congrArg (-·) hvalue, congrArg (_ :: ·) htokens⟩
  | case4 left ih =>
    obtain ⟨inner, hvalue, htokens⟩ := ih h
    exact ⟨.positive inner, hvalue, congrArg (_ :: ·) htokens⟩
  | case5 => cases h

/-- A product is made longer by a factor or divisor. -/
theorem exists_product_of_apply (hop : op.joinsFactors = true) {left : Product Float}
    (hleft : left.value? id = some value) (right : Factor Float)
    (h : op.apply value (right.value id) = .ok x) :
    ∃ product : Product Float, product.value? id = some x ∧
      product.tokens = left.tokens ++ .operator op :: right.tokens := by
  cases op with
  | add => cases hop
  | subtract => cases hop
  | multiply =>
    cases h
    refine ⟨.multiply left right, ?_, rfl⟩
    rw [Product.value?, hleft]
    rfl
  | divide =>
    refine ⟨.divide left right, ?_, rfl⟩
    rw [Operator.apply] at h
    split at h
    next => cases h
    next hzero =>
      cases h
      rw [Product.value?, hleft]
      exact if_neg hzero

/-- What is read behind a product makes it longer. -/
theorem exists_of_product (h : product total value tokens = .ok (x, rest)) (left : Product Float)
    (hleft : left.value? id = some value) :
    ∃ product : Product Float, product.value? id = some x ∧
      left.tokens ++ tokens = product.tokens ++ rest := by
  fun_induction product total value tokens generalizing left with
  | case1 => cases h
  | case2 => cases h
  | case3 value op behind hop y after hoperand result happly ih =>
    obtain ⟨right, rfl, rfl⟩ := exists_of_operand hoperand
    -- The product read so far takes in one more factor, and stays the left part of what follows.
    obtain ⟨longer, hlonger, htokens⟩ := exists_product_of_apply hop hleft right happly
    obtain ⟨product, hproduct, heq⟩ := ih h longer hlonger
    refine ⟨product, hproduct, ?_⟩
    rw [← heq, htokens, List.append_assoc, List.cons_append]
  | case4 =>
    cases h
    exact ⟨left, hleft, rfl⟩
  | case5 =>
    cases h
    exact ⟨left, hleft, rfl⟩

/-- What is read as a term are the tokens of a product. -/
theorem exists_of_term (h : term total tokens = .ok (x, rest)) :
    ∃ product : Product Float, product.value? id = some x ∧ tokens = product.tokens ++ rest := by
  obtain ⟨⟨value, left⟩, hoperand, hproduct⟩ := result_of_bind h
  obtain ⟨factor, rfl, rfl⟩ := exists_of_operand hoperand
  exact exists_of_product hproduct (.single factor) rfl

/-- An expression is made longer by a term. -/
theorem exists_expression_of_apply (hop : op.joinsFactors = false) {left : Expression Float}
    (hleft : left.value? id = some value) {right : Product Float} (hright : right.value? id = some y)
    (h : op.apply value y = .ok x) :
    ∃ expression : Expression Float, expression.value? id = some x ∧
      expression.tokens = left.tokens ++ .operator op :: right.tokens := by
  cases op with
  | add =>
    cases h
    refine ⟨.add left right, ?_, rfl⟩
    rw [Expression.value?, hleft, hright]
    rfl
  | subtract =>
    cases h
    refine ⟨.subtract left right, ?_, rfl⟩
    rw [Expression.value?, hleft, hright]
    rfl
  | multiply => cases hop
  | divide => cases hop

/-- What is read behind an expression makes it longer. -/
theorem exists_of_sum (h : sum total value tokens = .ok (x, rest)) (left : Expression Float)
    (hleft : left.value? id = some value) :
    ∃ expression : Expression Float, expression.value? id = some x ∧
      left.tokens ++ tokens = expression.tokens ++ rest := by
  fun_induction sum total value tokens generalizing left with
  | case1 =>
    cases h
    exact ⟨left, hleft, rfl⟩
  | case2 => cases h
  | case3 => cases h
  | case4 value op behind hop y after hterm result happly ih =>
    obtain ⟨right, hright, rfl⟩ := exists_of_term hterm
    -- Only sums and differences are left, as the operation joins no factors.
    obtain ⟨longer, hlonger, htokens⟩ :=
      exists_expression_of_apply (Bool.eq_false_iff.2 hop) hleft hright happly
    obtain ⟨expression, hexpression, heq⟩ := ih h longer hlonger
    refine ⟨expression, hexpression, ?_⟩
    rw [← heq, htokens, List.append_assoc, List.cons_append]
  | case5 =>
    cases h
    exact ⟨left, hleft, rfl⟩

/-- Only the tokens of an expression have a value. -/
theorem exists_of_evaluateTokens (h : evaluateTokens tokens = .ok x) :
    ∃ expression : Expression Float, expression.value? id = some x ∧
      tokens = expression.tokens := by
  rw [evaluateTokens_eq] at h
  obtain ⟨⟨result, left⟩, hread, hlast⟩ := result_of_bind h
  obtain ⟨⟨y, behind⟩, hterm, hsum⟩ := result_of_bind hread
  obtain ⟨product, hproduct, rfl⟩ := exists_of_term hterm
  obtain ⟨expression, hexpression, heq⟩ := exists_of_sum hsum (.single product) hproduct
  rcases left with - | ⟨token, left⟩
  · cases hlast
    rw [List.append_nil] at heq
    exact ⟨expression, hexpression, heq⟩
  · cases hlast

end ShaderInterface.Arithmetic
