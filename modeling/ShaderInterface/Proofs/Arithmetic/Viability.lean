import Mathlib.Data.List.Chain
import Mathlib.Tactic.Common
import ShaderInterface.Proofs.Arithmetic.Evaluation

/-!
# Where Tokens Go Wrong

A fault of some tokens tells where they stop being the beginning of an expression. What has been
read when a token is looked at either is an expression, or lacks nothing but an operand to be one.
Which tokens can come next depends on nothing else, and the neighbours in an expression show which
cannot.

## Main definitions

* `IsSentence`, `IsViable`: the tokens of an expression, and beginnings of such.
* `AwaitsOperand`: tokens that lack an operand.
* `Explains`: what a fault says about the tokens in which it was found.

## Main results

* `Expression.regular`: which tokens are neighbours in an expression.
* `explains_of_evaluateTokens`: every fault of some tokens says the truth about them.
* `evaluate_explains`: so does every fault of a text that has tokens, and there is one unless the
  tokens are those of an expression.
-/

namespace ShaderInterface.Arithmetic

variable {total : Nat} {op : Operator} {token : Token} {before found : List Token} {value : Float}
  {fault : Fault}

/-! ## Beginnings of expressions -/

/-- The tokens are those of an expression. -/
def IsSentence (found : List Token) : Prop :=
  ∃ expression : Expression Float, expression.tokens = found

/-- The tokens are a beginning of those of an expression. -/
def IsViable (found : List Token) : Prop :=
  ∃ expression : Expression Float, found <+: expression.tokens

/-- The tokens are those of an expression as soon as an operand follows. -/
def AwaitsOperand (found : List Token) : Prop :=
  ∀ factor : Factor Float, IsSentence (found ++ factor.tokens)

/-- What a fault says about the tokens in which it was found. An unexpected token is the first one with
which the tokens are no beginning of an expression, an unexpected end is that of a beginning only, and
a division by zero is that of an expression which the tokens begin with. No other fault is found. -/
def Explains (found : List Token) : Fault → Prop
  | .unexpectedToken token position => found[position]? = some token ∧
    IsViable (found.take position) ∧ ¬ IsViable (found.take (position + 1))
  | .unexpectedEnd => IsViable found ∧ ¬ IsSentence found
  | .divisionByZero => ∃ expression : Expression Float,
    expression.tokens <+: found ∧ expression.value? id = none
  | _ => False

theorem IsSentence.isViable (h : IsSentence found) : IsViable found := by
  obtain ⟨expression, rfl⟩ := h
  exact ⟨expression, List.prefix_rfl⟩

/-- What lacks an operand can be continued. -/
theorem AwaitsOperand.isViable (h : AwaitsOperand found) : IsViable found := by
  obtain ⟨expression, hexpression⟩ := h (.operand 0)
  exact ⟨expression, hexpression ▸ List.prefix_append ..⟩

/-- A sign belongs to the operand behind it. -/
theorem AwaitsOperand.concat_sign (h : AwaitsOperand before) (hop : op.joinsFactors = false) :
    AwaitsOperand (before ++ [.operator op]) := by
  intro factor
  rw [List.append_assoc]
  cases op with
  | add => exact h (.positive factor)
  | subtract => exact h (.negative factor)
  | multiply => cases hop
  | divide => cases hop

/-! ## The last product -/

/-- What stands in front of the last product of an expression. -/
inductive Front where
  | start
  | add (left : Expression Float)
  | subtract (left : Expression Float)

namespace Front

/-- The tokens in front of the last product. -/
def tokens : Front → List Token
  | start => []
  | add left => left.tokens ++ [.operator .add]
  | subtract left => left.tokens ++ [.operator .subtract]

/-- The expression with a given last product. -/
def close : Front → Product Float → Expression Float
  | start, product => .single product
  | add left, product => .add left product
  | subtract left, product => .subtract left product

theorem tokens_close (front : Front) (product : Product Float) :
    (front.close product).tokens = front.tokens ++ product.tokens := by
  cases front with
  | start => rfl
  | add left => exact List.append_cons ..
  | subtract left => exact List.append_cons ..

/-- If the last product has no value, neither has the expression. -/
theorem value?_close (front : Front) {product : Product Float} (h : product.value? id = none) :
    (front.close product).value? id = none := by
  cases front with
  | start => exact h
  | add left =>
    rw [close, Expression.value?, h]
    cases left.value? id <;> rfl
  | subtract left =>
    rw [close, Expression.value?, h]
    cases left.value? id <;> rfl

/-- A term can be joined to any expression. -/
theorem exists_of_operator (left : Expression Float) (hop : op.joinsFactors = false) :
    ∃ front : Front, front.tokens = left.tokens ++ [.operator op] := by
  cases op with
  | add => exact ⟨add left, rfl⟩
  | subtract => exact ⟨subtract left, rfl⟩
  | multiply => cases hop
  | divide => cases hop

/-- Where a product is due, an operand is. -/
theorem awaitsOperand (front : Front) : AwaitsOperand front.tokens := fun factor =>
  ⟨front.close (.single factor), front.tokens_close _⟩

end Front

theorem Expression.exists_front (expression : Expression Float) :
    ∃ (front : Front) (product : Product Float), expression = front.close product := by
  cases expression with
  | single product => exact ⟨.start, product, rfl⟩
  | add left right => exact ⟨.add left, right, rfl⟩
  | subtract left right => exact ⟨.subtract left, right, rfl⟩

/-- A factor can be joined to any product. -/
theorem Product.exists_longer (left : Product Float) (hop : op.joinsFactors = true)
    (right : Factor Float) :
    ∃ product : Product Float, product.tokens = left.tokens ++ .operator op :: right.tokens := by
  cases op with
  | add => cases hop
  | subtract => cases hop
  | multiply => exact ⟨.multiply left right, rfl⟩
  | divide => exact ⟨.divide left right, rfl⟩

/-- Behind an expression every operator asks for one more operand. -/
theorem IsSentence.concat_operator (h : IsSentence before) (op : Operator) :
    AwaitsOperand (before ++ [.operator op]) := by
  obtain ⟨expression, rfl⟩ := h
  by_cases hop : op.joinsFactors = true
  · -- The operator takes hold of the last product only.
    obtain ⟨front, product, rfl⟩ := expression.exists_front
    intro factor
    obtain ⟨longer, hlonger⟩ := product.exists_longer hop factor
    refine ⟨front.close longer, ?_⟩
    rw [front.tokens_close, hlonger, front.tokens_close, List.append_assoc, List.append_assoc]
    rfl
  · obtain ⟨front, hfront⟩ := Front.exists_of_operator expression (Bool.eq_false_iff.2 hop)
    exact hfront ▸ front.awaitsOperand

/-! ## Neighbours -/

/-- Whether a token is a number. -/
def Token.isNumber : Token → Bool
  | .number _ => true
  | .operator _ => false

/-- Whether an operand can start with a token. -/
def Token.opensOperand : Token → Bool
  | .number _ => true
  | .operator op => !op.joinsFactors

/-- Two tokens can be neighbours: an operator stands behind a number, and the start of an operand behind
an operator. -/
def Neighbours (first second : Token) : Prop :=
  if first.isNumber then second.isNumber = false else second.opensOperand = true

/-- Tokens with the first and the last token of an expression, and with its neighbours. -/
structure Regular (found : List Token) : Prop where
  chain : found.IsChain Neighbours
  opens : ∃ token behind, found = token :: behind ∧ token.opensOperand = true
  ends : ∃ front x, found = front ++ [.number x]

/-- An operand goes on behind its sign. -/
theorem Regular.cons_sign (h : Regular found) (hop : op.joinsFactors = false) :
    Regular (.operator op :: found) := by
  obtain ⟨hchain, ⟨token, behind, rfl, hopens⟩, front, x, hends⟩ := h
  refine ⟨List.isChain_cons_cons.2 ⟨hopens, hchain⟩, ⟨_, _, rfl, ?_⟩, .operator op :: front, x, ?_⟩
  · rw [Token.opensOperand, hop]
    rfl
  · rw [hends, List.cons_append]

/-- Operands stand on either side of an operator. -/
theorem Regular.append {first second : List Token} (hfirst : Regular first) (op : Operator)
    (hsecond : Regular second) : Regular (first ++ .operator op :: second) := by
  obtain ⟨hchain, ⟨token, behind, hopens, hopen⟩, front, x, hends⟩ := hfirst
  obtain ⟨hchain', ⟨token', behind', rfl, hopen'⟩, front', x', hends'⟩ := hsecond
  refine ⟨List.isChain_append.2 ⟨hchain, List.isChain_cons_cons.2 ⟨hopen', hchain'⟩, ?_⟩,
    ⟨token, behind ++ .operator op :: token' :: behind', ?_, hopen⟩,
    front ++ .number x :: .operator op :: front', x', ?_⟩
  · intro last hlast next hnext
    rw [hends, List.getLast?_concat] at hlast
    cases hlast
    cases hnext
    rfl
  · rw [hopens, List.cons_append]
  · rw [hends, hends', List.append_assoc, List.append_assoc]
    rfl

theorem Factor.regular (factor : Factor Float) : Regular factor.tokens := by
  induction factor with
  | operand x => exact ⟨List.isChain_singleton _, ⟨_, _, rfl, rfl⟩, [], x, rfl⟩
  | positive inner ih => exact ih.cons_sign rfl
  | negative inner ih => exact ih.cons_sign rfl

theorem Product.regular (product : Product Float) : Regular product.tokens := by
  induction product with
  | single factor => exact factor.regular
  | multiply left right ih => exact ih.append .multiply right.regular
  | divide left right ih => exact ih.append .divide right.regular

/-- Between two numbers of an expression there is an operator, and behind an operator an operand starts,
as at the beginning. -/
theorem Expression.regular (expression : Expression Float) : Regular expression.tokens := by
  induction expression with
  | single product => exact product.regular
  | add left right ih => exact ih.append .add right.regular
  | subtract left right ih => exact ih.append .subtract right.regular

/-- Two neighbours in a beginning of an expression. -/
theorem IsViable.neighbours {first second : Token}
    (h : IsViable (before ++ [first] ++ [second])) : Neighbours first second := by
  obtain ⟨expression, hfront⟩ := h
  have hchain := expression.regular.chain.prefix hfront
  rw [List.append_assoc, List.isChain_append] at hchain
  exact (List.isChain_cons_cons.1 hchain.2.1).1

/-- Where an operand is due, none has just been read. -/
theorem AwaitsOperand.eq_nil_or_concat (h : AwaitsOperand found) :
    found = [] ∨ ∃ front token, found = front ++ [token] ∧ token.isNumber = false := by
  rcases List.eq_nil_or_concat found with rfl | ⟨front, token, rfl⟩
  · exact .inl rfl
  · rw [List.concat_eq_append] at h ⊢
    refine .inr ⟨front, token, rfl, Bool.eq_false_iff.2 fun hnumber => ?_⟩
    -- A number could follow, which it cannot behind another one.
    have hneighbours := (h (.operand 0)).isViable.neighbours
    rw [Neighbours, if_pos hnumber] at hneighbours
    cases hneighbours

/-- What lacks an operand is no expression. -/
theorem AwaitsOperand.not_isSentence (h : AwaitsOperand found) : ¬ IsSentence found := by
  rintro ⟨expression, rfl⟩
  obtain ⟨front, x, hends⟩ := expression.regular.ends
  rcases h.eq_nil_or_concat with hnil | ⟨front', token, hconcat, hnumber⟩
  · simp [hnil] at hends
  · rw [hends] at hconcat
    obtain ⟨-, hlast⟩ := List.append_inj' hconcat rfl
    cases hlast
    cases hnumber

/-- Where an operand is due, no other token can come. -/
theorem AwaitsOperand.not_isViable (h : AwaitsOperand before) (htoken : token.opensOperand = false) :
    ¬ IsViable (before ++ [token]) := by
  intro hviable
  rcases h.eq_nil_or_concat with rfl | ⟨front, last, rfl, hnumber⟩
  · obtain ⟨expression, hfront⟩ := hviable
    obtain ⟨first, behind, hopens, hopen⟩ := expression.regular.opens
    rw [hopens, List.nil_append, List.cons_prefix_cons] at hfront
    rw [hfront.1, hopen] at htoken
    cases htoken
  · have hneighbours := hviable.neighbours
    rw [Neighbours, hnumber, htoken] at hneighbours
    cases hneighbours

/-- Behind an expression there can be no number. -/
theorem IsSentence.not_isViable (h : IsSentence before) (htoken : token.isNumber = true) :
    ¬ IsViable (before ++ [token]) := by
  intro hviable
  obtain ⟨expression, rfl⟩ := h
  obtain ⟨front, x, hends⟩ := expression.regular.ends
  rw [hends] at hviable
  have hneighbours : token.isNumber = false := hviable.neighbours
  cases htoken.symm.trans hneighbours

/-! ## Faults -/

/-- A token is unexpected where a beginning of an expression ends. -/
theorem explains_unexpectedToken (hbefore : IsViable before) (h : ¬ IsViable (before ++ [token]))
    (rest : List Token) : Explains (before ++ token :: rest) (.unexpectedToken token before.length) := by
  refine ⟨?_, ?_, ?_⟩
  · rw [List.getElem?_append_right (Nat.le_refl _), Nat.sub_self]
    rfl
  · rwa [List.take_left]
  · rwa [List.take_length_add_append, List.take_succ_cons, List.take_zero]

/-- An operand is missing at the end, or where another token stands. -/
theorem explains_of_operand (h : operand total found = .error fault) (hbefore : AwaitsOperand before)
    (htotal : total = (before ++ found).length) : Explains (before ++ found) fault := by
  fun_induction operand total found generalizing before with
  | case1 =>
    cases h
    rw [List.append_nil]
    exact ⟨hbefore.isViable, hbefore.not_isSentence⟩
  | case2 => cases h
  | case3 rest ih =>
    have hrest : operand total rest = .error fault := by
      cases hrest : operand total rest with
      | error cause =>
        rw [hrest] at h
        cases h
        rfl
      | ok read =>
        rw [hrest] at h
        cases h
    rw [List.append_cons] at htotal ⊢
    exact ih hrest (hbefore.concat_sign rfl) htotal
  | case4 rest ih =>
    rw [List.append_cons] at htotal ⊢
    exact ih h (hbefore.concat_sign rfl) htotal
  | case5 op rest hsubtract hadd =>
    cases h
    -- The position is found from the number of tokens that are left.
    have hposition : total - (rest.length + 1) = before.length := by
      rw [htotal, List.length_append, List.length_cons, Nat.add_sub_cancel]
    rw [hposition]
    refine explains_unexpectedToken hbefore.isViable (hbefore.not_isViable ?_) rest
    cases op with
    | add => exact absurd rfl hadd
    | subtract => exact absurd rfl hsubtract
    | multiply => rfl
    | divide => rfl

/-- An operation that is refused is a division by zero. -/
theorem divide_of_apply {x : Float} (h : op.apply value x = .error fault) :
    op = .divide ∧ (x == 0.0) = true ∧ fault = .divisionByZero := by
  cases op with
  | add => cases h
  | subtract => cases h
  | multiply => cases h
  | divide =>
    rw [Operator.apply] at h
    split at h
    next hzero =>
      cases h
      exact ⟨rfl, hzero, rfl⟩
    next => cases h

/-- A fault behind a product is one of the next factor, or a division by it. -/
theorem explains_of_product (h : product total value found = .error fault) (front : Front)
    (left : Product Float) (hleft : left.value? id = some value)
    (htotal : total = (front.tokens ++ left.tokens ++ found).length) :
    Explains (front.tokens ++ left.tokens ++ found) fault := by
  fun_induction product total value found generalizing left with
  | case1 value op rest hop cause hoperand =>
    cases h
    have hsentence : IsSentence (front.tokens ++ left.tokens) := ⟨_, front.tokens_close left⟩
    rw [List.append_cons] at htotal ⊢
    exact explains_of_operand hoperand (hsentence.concat_operator op) htotal
  | case2 value op rest hop x behind hoperand cause happly =>
    cases h
    obtain ⟨rfl, hzero, rfl⟩ := divide_of_apply happly
    obtain ⟨right, rfl, rfl⟩ := exists_of_operand hoperand
    have hvalue : (Product.divide left right).value? id = none := by
      rw [Product.value?, hleft]
      exact if_pos hzero
    have htokens : front.tokens ++ left.tokens ++ .operator .divide :: (right.tokens ++ behind) =
        (front.close (.divide left right)).tokens ++ behind := by
      rw [front.tokens_close, List.append_assoc, List.append_assoc]
      exact congrArg (front.tokens ++ ·) (List.append_assoc left.tokens (_ :: right.tokens) behind).symm
    rw [htokens]
    exact ⟨_, List.prefix_append .., front.value?_close hvalue⟩
  | case3 value op rest hop x behind hoperand result happly ih =>
    obtain ⟨right, rfl, rfl⟩ := exists_of_operand hoperand
    -- The product read so far takes in one more factor.
    obtain ⟨longer, hlonger, htokens⟩ := exists_product_of_apply hop hleft right happly
    have hread : front.tokens ++ left.tokens ++ .operator op :: (right.tokens ++ behind) =
        front.tokens ++ longer.tokens ++ behind := by
      rw [htokens, List.append_assoc, List.append_assoc, List.append_assoc, List.cons_append]
    rw [hread] at htotal ⊢
    exact ih h longer hlonger htotal
  | case4 => cases h
  | case5 => cases h

/-- A fault of a term is one of its first factor, or comes behind it. -/
theorem explains_of_term (h : term total found = .error fault) (front : Front)
    (htotal : total = (front.tokens ++ found).length) : Explains (front.tokens ++ found) fault := by
  rcases fault_of_bind h with hoperand | ⟨⟨x, rest⟩, hoperand, hproduct⟩
  · exact explains_of_operand hoperand front.awaitsOperand htotal
  · obtain ⟨factor, rfl, rfl⟩ := exists_of_operand hoperand
    rw [← List.append_assoc] at htotal ⊢
    exact explains_of_product hproduct front (.single factor) rfl htotal

/-- A fault behind an expression is one of the next term. -/
theorem explains_of_sum (h : sum total value found = .error fault) (left : Expression Float)
    (hleft : left.value? id = some value) (htotal : total = (left.tokens ++ found).length) :
    Explains (left.tokens ++ found) fault := by
  fun_induction sum total value found generalizing left with
  | case1 => cases h
  | case2 value op rest hop cause hterm =>
    cases h
    obtain ⟨front, hfront⟩ := Front.exists_of_operator left (Bool.eq_false_iff.2 hop)
    rw [List.append_cons, ← hfront] at htotal ⊢
    exact explains_of_term hterm front htotal
  | case3 value op rest hop x behind hterm cause happly =>
    -- Sums and differences are never refused.
    obtain ⟨rfl, -, -⟩ := divide_of_apply happly
    exact absurd rfl hop
  | case4 value op rest hop x behind hterm result happly ih =>
    obtain ⟨right, hright, rfl⟩ := exists_of_term hterm
    obtain ⟨longer, hlonger, htokens⟩ :=
      exists_expression_of_apply (Bool.eq_false_iff.2 hop) hleft hright happly
    have hread : left.tokens ++ .operator op :: (right.tokens ++ behind) = longer.tokens ++ behind := by
      rw [htokens, List.append_assoc, List.cons_append]
    rw [hread] at htotal ⊢
    exact ih h longer hlonger htotal
  | case5 => cases h

/-! ## What is left behind an expression -/

/-- A product is read as far as factors are joined to it. -/
theorem joinsFactors?_of_product {x : Float} {rest : List Token}
    (h : product total value found = .ok (x, rest)) : joinsFactors? rest.head? = false := by
  fun_induction product total value found with
  | case1 => cases h
  | case2 => cases h
  | case3 value op rest hop y behind hoperand result happly ih => exact ih h
  | case4 value op rest hop =>
    cases h
    exact Bool.eq_false_iff.2 hop
  | case5 value rest hstop =>
    cases h
    rcases rest with - | ⟨y | op, behind⟩
    · rfl
    · rfl
    · exact (hstop op behind rfl).elim

/-- An expression is read as far as an operator follows. -/
theorem isNumber_of_sum {x : Float} {rest : List Token} (h : sum total value found = .ok (x, rest))
    (hfound : joinsFactors? found.head? = false) : rest.head?.all Token.isNumber = true := by
  fun_induction sum total value found with
  | case1 value op rest hop => exact absurd hop (Bool.eq_false_iff.1 hfound)
  | case2 => cases h
  | case3 => cases h
  | case4 value op rest hop y behind hterm result happly ih =>
    obtain ⟨⟨z, between⟩, -, hproduct⟩ := result_of_bind hterm
    exact ih h (joinsFactors?_of_product hproduct)
  | case5 value rest hstop =>
    cases h
    rcases rest with - | ⟨y | op, behind⟩
    · rfl
    · rfl
    · exact (hstop op behind rfl).elim

/-! ## All faults -/

/-- Every fault of some tokens says the truth about them. -/
theorem explains_of_evaluateTokens (h : evaluateTokens found = .error fault) :
    Explains found fault := by
  rw [evaluateTokens_eq] at h
  rcases fault_of_bind h with hread | ⟨⟨result, rest⟩, hread, hlast⟩
  · rcases fault_of_bind hread with hterm | ⟨⟨x, rest⟩, hterm, hsum⟩
    · exact explains_of_term hterm .start rfl
    · obtain ⟨product, hproduct, hfound⟩ := exists_of_term hterm
      have hexplains := explains_of_sum hsum (.single product) hproduct (congrArg List.length hfound)
      exact hfound ▸ hexplains
  · obtain ⟨⟨x, behind⟩, hterm, hsum⟩ := result_of_bind hread
    obtain ⟨⟨y, between⟩, -, hstop⟩ := result_of_bind hterm
    obtain ⟨product, hproduct, hfound⟩ := exists_of_term hterm
    obtain ⟨expression, -, htokens⟩ := exists_of_sum hsum (.single product) hproduct
    -- What is left starts with a number, which cannot stand behind an expression.
    have hnumber := isNumber_of_sum hsum (joinsFactors?_of_product hstop)
    rcases rest with - | ⟨token, rest⟩
    · cases hlast
    · cases hlast
      have hread : found = expression.tokens ++ token :: rest := hfound.trans htokens
      have hposition : found.length - (rest.length + 1) = expression.tokens.length := by
        rw [hread, List.length_append, List.length_cons, Nat.add_sub_cancel]
      have hsentence : IsSentence expression.tokens := ⟨expression, rfl⟩
      rw [hposition, hread]
      exact explains_unexpectedToken hsentence.isViable (hsentence.not_isViable hnumber) rest

/-- Where a text has tokens, every fault of the text says the truth about them: an unexpected token is
the first one with which they are no beginning of an expression, an unexpected end is that of a
beginning which is no expression, a division by zero is that of an expression at the beginning, and there
are no other faults. One of them is found unless the tokens are those of an expression. -/
theorem evaluate_explains {table : Macro.Table} {text : Text}
    (hfound : Splits (substitute table text) found) (hne : found ≠ []) :
    (∀ fault, evaluate table text = .error fault → Explains found fault) ∧
    (¬ IsSentence found → ∃ fault, evaluate table text = .error fault) := by
  have hevaluate := evaluate_of_tokens (tokens_eq_ok_iff.2 hfound) hne
  constructor
  · intro fault h
    exact explains_of_evaluateTokens (hevaluate ▸ h)
  · intro hsentence
    cases h : evaluate table text with
    | error fault => exact ⟨fault, rfl⟩
    | ok value =>
      obtain ⟨expression, -, htokens⟩ := exists_of_evaluateTokens (hevaluate ▸ h)
      exact absurd ⟨expression, htokens.symm⟩ hsentence

/-- In `2-*3` the asterisk is unexpected: it is the token with which the text can be no expression. -/
theorem evaluate_misplacedOperator :
    evaluate .empty "2-*3".toList = .error (.unexpectedToken (.operator .multiply) 2) ∧
      IsViable [.number 2, .operator .subtract] ∧
      ¬ IsViable [.number 2, .operator .subtract, .operator .multiply] := by
  have htwo : Number.ofText? ['2'] = some 2 := by decide +kernel
  have hthree : Number.ofText? ['3'] = some 3 := by decide +kernel
  have hsubstitute : substitute .empty "2-*3".toList = "2 - * 3".toList := by decide
  have hsplits : Splits (substitute .empty "2-*3".toList)
      [.number 2, .operator .subtract, .operator .multiply, .number 3] := by
    rw [hsubstitute]
    exact .number (List.cons_ne_nil _ _) (List.forall_mem_singleton.2 rfl) rfl htwo <|
      .blank (by decide) <| .operator .subtract <| .blank (by decide) <| .operator .multiply <|
      .blank (by decide) <|
      .number (List.cons_ne_nil _ _) (List.forall_mem_singleton.2 rfl) rfl hthree .nil
  have hfault : evaluate .empty "2-*3".toList =
      .error (.unexpectedToken (.operator .multiply) 2) :=
    (evaluate_of_tokens (tokens_eq_ok_iff.2 hsplits) (List.cons_ne_nil _ _)).trans (by decide +kernel)
  have hexplains := (evaluate_explains hsplits (List.cons_ne_nil _ _)).1 _ hfault
  exact ⟨hfault, hexplains.2⟩

end ShaderInterface.Arithmetic
