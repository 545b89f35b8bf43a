import ShaderInterface.Proofs.Arithmetic.Numeral
import ShaderInterface.Proofs.Arithmetic.Substitution
import ShaderInterface.Proofs.Number.Positional
import ShaderInterface.Proofs.Number.Sign

/-!
# Names as Numbers

A macro table is an environment for the sentences whose operands are numerals and names: such a
sentence has the value that it has when every name is read as its number. The text of a number is
read as this number again, and a minus sign in front of it is one more sign of a factor.

## Main definitions

* `Denotes`: the number that an operand stands for under a table.

## Main results

* `tokens_text`: the text of a number is read as a factor with this number for its value.
* `evaluate_of_environment`: a sentence has the value that its names give it, unless an operator is
  a name as well.
* `not_forall_evaluate`: an operator that is a name is replaced like any other.
-/

namespace ShaderInterface.Arithmetic

open ShaderInterface.Text ShaderInterface.Number

/-! ## Numbers in texts -/

/-- The factor that writes a number: a minus sign is not part of the operand. -/
def numberFactor (x : Float) : Factor Float :=
  if isSigned x then .negative (.operand (ofMagnitude false (magnitude x))) else .operand x

variable {x : Float}

/-- The factor that writes a number has this number for its value. -/
theorem numberFactor_value (h : x.isFinite = true) : (numberFactor x).value id = x := by
  rw [numberFactor]
  split
  next hsigned =>
    have hx := ofMagnitude_magnitude h
    rw [hsigned] at hx
    exact (neg_ofMagnitude _).trans hx
  next => rfl

/-- The digits of a finite number are read as its magnitude. -/
theorem tokens_magnitudeText (h : x.isFinite = true) :
    tokens (magnitudeText (magnitude x)) = .ok [.number (ofMagnitude false (magnitude x))] := by
  have hlt := magnitude_lt_of_isFinite h
  obtain ⟨hne, hrun⟩ := magnitudeText_run hlt
  refine tokens_of_numeral (List.all_eq_true.2 fun c hc => ?_) (ofText?_magnitudeText hlt) hne
  rw [isNumeral, Bool.or_eq_true, beq_iff_eq]
  exact hrun c hc

/-- The text of a number is read as a factor with this number for its value. -/
theorem tokens_text (h : x.isFinite = true) :
    tokens (Number.text x) = .ok (numberFactor x).tokens := by
  rw [Number.text, isNaN_of_isFinite h, numberFactor]
  simp only [Bool.false_eq_true, if_false]
  split
  next =>
    show tokens (Operator.subtract.sign :: _) = _
    rw [tokens_operator, tokens_magnitudeText h]
    rfl
  next hsigned =>
    have hx := ofMagnitude_magnitude h
    rw [Bool.not_eq_true] at hsigned
    rw [hsigned] at hx
    rw [tokens_magnitudeText h, hx]
    rfl

/-! ## Operands -/

/-- The number that an operand stands for under a table. A numeral must not be a name, and a name
must be that of a finite number. -/
inductive Denotes (table : Macro.Table) : (text : Text) → (value : Float) → Prop
  | numeral {digits : Text} {x : Float} : digits ≠ [] → (∀ c ∈ digits, isNumeral c = true) →
      Number.ofText? digits = some x → table.get? digits = none → Denotes table digits x
  | name {name : Text} {x : Float} : name ≠ [] →
      (∀ c ∈ name, isBlank c = false ∧ isOperator c = false) →
      table.get? name = some (.number x) → x.isFinite = true → Denotes table name x

/-- A numeral or a name with its number. -/
structure Operand (table : Macro.Table) where
  /-- How the operand is written. -/
  text : Text
  /-- The number that it stands for. -/
  value : Float
  denotes : Denotes table text value

variable {table : Macro.Table}

theorem Operand.isOperandWord (operand : Operand table) : IsOperandWord operand.text := by
  obtain ⟨text, value, hdenotes⟩ := operand
  cases hdenotes with
  | numeral hne hdigits _ _ =>
    refine ⟨hne, fun c hc => (of_isNumeral (hdigits c hc)).1, fun c hc => ?_⟩
    rw [isOperator, (of_isNumeral (hdigits c hc)).2]
    rfl
  | name hne hname _ _ => exact ⟨hne, fun c hc => (hname c hc).1, fun c hc => (hname c hc).2⟩

/-- What is put in the place of an operand is read as a factor with the value of the operand. -/
theorem Operand.exists_factor (operand : Operand table) : ∃ factor : Factor Float,
    tokens ((table.replacement? operand.text).getD operand.text) = .ok factor.tokens ∧
      factor.value id = operand.value := by
  obtain ⟨text, value, hdenotes⟩ := operand
  cases hdenotes with
  | numeral hne hdigits hvalue hget =>
    refine ⟨.operand value, ?_, rfl⟩
    rw [Macro.Table.replacement?, hget]
    exact tokens_of_numeral (List.all_eq_true.2 hdigits) hvalue hne
  | name _ _ hget hfinite =>
    refine ⟨numberFactor value, ?_, numberFactor_value hfinite⟩
    rw [Macro.Table.replacement?, hget]
    exact tokens_text hfinite

/-! ## Sentences -/

/-- A sentence of numerals and names, written with any blanks, has the value that it has when every
name is read as its number, or is refused for a divisor that is zero, as long as none of its operators
is a name in the table. -/
theorem evaluate_of_environment {expression : Expression (Operand table)} {text : Text}
    (h : Written (expression.spell Operand.text fun op => [op.sign]) text)
    (hoperators : ∀ op ∈ expression.operators, table.get? [op.sign] = none) :
    evaluate table text = orDivisionByZero (expression.value? Operand.value) := by
  choose factor htokens hvalue using fun operand : Operand table => operand.exists_factor
  rw [Expression.spell_eq_map] at h
  have hsigns : ∀ op, .inr op ∈ expression.symbols → table.replacement? [op.sign] = none := by
    intro op hop
    rw [Macro.Table.replacement?, hoperators op (List.mem_filterMap.2 ⟨_, hop, rfl⟩)]
    rfl
  rw [evaluate_of_written Operand.isOperandWord htokens hsigns h, funext hvalue]

/-- A table with a positive and a negative number. -/
def exampleTable : Macro.Table :=
  (Macro.Table.empty.set ['a'] (.number 8)).set ['B'] (.number (-3))

/-- The names of `exampleTable`. -/
def exampleOperands : Operand exampleTable × Operand exampleTable :=
  (⟨['a'], 8, .name (List.cons_ne_nil _ _) (List.forall_mem_singleton.2 ⟨rfl, rfl⟩) rfl
    (by decide +kernel)⟩,
  ⟨['B'], -3, .name (List.cons_ne_nil _ _) (List.forall_mem_singleton.2 ⟨rfl, rfl⟩) rfl
    (by decide +kernel)⟩)

/-- Subtracting a name that stands for a negative number adds its magnitude. -/
theorem evaluate_negative_name : evaluate exampleTable "a -B".toList = .ok 11 := by
  let expression : Expression (Operand exampleTable) :=
    .subtract (.single (.single (.operand exampleOperands.1))) (.single (.operand exampleOperands.2))
  have hwritten : Written (expression.spell Operand.text fun op => [op.sign]) "a -B".toList :=
    .word ['a'] (.blank (by decide) (.word ['-'] (.word ['B'] .nil)))
  exact (evaluate_of_environment hwritten (by decide)).trans (by decide +kernel)

/-- An operator that is a name is replaced like any other name: with `+` in the place of `-`, the
sentence `8-1` has the value nine. -/
theorem not_forall_evaluate : ¬ ∀ (table : Macro.Table) (expression : Expression (Operand table))
    (text : Text), Written (expression.spell Operand.text fun op => [op.sign]) text →
      evaluate table text = orDivisionByZero (expression.value? Operand.value) := by
  intro h
  let table : Macro.Table := Macro.Table.empty.set ['-'] (.text ['+'])
  have height : Number.ofText? ['8'] = some 8 := by decide +kernel
  have hone : Number.ofText? ['1'] = some 1 := by decide +kernel
  let eight : Operand table :=
    ⟨['8'], 8, .numeral (List.cons_ne_nil _ _) (List.forall_mem_singleton.2 rfl) height rfl⟩
  let one : Operand table :=
    ⟨['1'], 1, .numeral (List.cons_ne_nil _ _) (List.forall_mem_singleton.2 rfl) hone rfl⟩
  have hdifference := h table (.subtract (.single (.single (.operand eight)))
    (.single (.operand one))) "8-1".toList (.word ['8'] (.word ['-'] (.word ['1'] .nil)))
  -- What is read is the sum.
  have hsubstitute : substitute table "8-1".toList = "8 + 1".toList := by decide
  have hsplits : Splits (substitute table "8-1".toList)
      (Expression.add (.single (.single (.operand (8 : Float)))) (.single (.operand 1))).tokens := by
    rw [hsubstitute]
    exact .number (List.cons_ne_nil _ _) (List.forall_mem_singleton.2 rfl) rfl height <|
      .blank (by decide) <| .operator .add <| .blank (by decide) <|
      .number (List.cons_ne_nil _ _) (List.forall_mem_singleton.2 rfl) rfl hone .nil
  have hvalue : (8 : Float) + 1 = 8 - 1 :=
    Except.ok.inj ((evaluate_of_splits hsplits).symm.trans hdifference)
  exact absurd hvalue (by decide +kernel)

end ShaderInterface.Arithmetic
