import ShaderInterface.Interface.Attribute
import ShaderInterface.Preprocessing.Source
import ShaderInterface.Proofs.Arithmetic.Environment
import ShaderInterface.Proofs.Arithmetic.Spacing
import ShaderInterface.Proofs.Arithmetic.Viability
import ShaderInterface.Proofs.Macro.Arguments
import ShaderInterface.Proofs.Preprocessing.Condition

/-!
# Macros That Are Numbers

A number is put in the place of a macro as a text, and this text is read again. The text of a finite number
is read as this number. The text of an infinite number, and that of what is no number, are words: they are
taken for names that have no value, although the macro has one.

Where a text has no value because of an unknown name, the name is found in what stands for one of its words,
and this word is no macro with a finite number. So is every condition, every attribute and every array size
that has no value for this reason.

## Main definitions

* `Blames`: what is said about a text with an unknown name.

## Main results

* `tokens_text_of_not_finite`: numbers that are not finite are read as unknown names.
* `blames_of_evaluate`: an unknown name is found in what stands for a word of the text.
* `evaluate_numberMacro`: which numbers can be used, and what no finite number is to blame for.
-/

namespace ShaderInterface.Arithmetic

open ShaderInterface.Text ShaderInterface.Number

variable {table : Macro.Table} {name text word unknown : Text} {x : Float}

/-! ## Numbers that are not finite -/

/-- The word that is written for a number that is not finite, without its sign. -/
def nonFiniteWord (x : Float) : Text :=
  if x.isNaN then "NaN".toList else "inf".toList

/-- A name that stands alone is unknown. -/
theorem tokens_word {c : Char} {rest : Text} (hopens : opensName c = true)
    (hstart : isBlank c = false ∧ Operator.ofSign? c = none ∧ isNumeral c = false)
    (hrest : rest.all continuesName = true) :
    tokens (c :: rest) = .error (.unknownName (c :: rest)) := by
  rw [tokens_of_start hstart.1 hstart.2.1 hstart.2.2, if_pos hopens,
    List.takeWhile_eq_self_iff.2 (List.all_eq_true.1 hrest)]

/-- The text of a number that is not finite is read as an unknown name. -/
theorem tokens_text_of_not_finite (h : x.isFinite = false) :
    tokens (Number.text x) = .error (.unknownName (nonFiniteWord x)) := by
  rw [Number.text, nonFiniteWord]
  cases hnumber : x.isNaN with
  | true => exact tokens_word rfl (by decide) rfl
  | false =>
    have hword : tokens "inf".toList = .error (.unknownName "inf".toList) :=
      tokens_word rfl (by decide) rfl
    rw [magnitude_of_isInfinite hnumber h, magnitudeText]
    simp only [Bool.false_eq_true, if_false, if_true]
    split
    next =>
      -- A minus in front of it is read as an operator.
      show tokens (Operator.subtract.sign :: _) = _
      rw [tokens_operator, hword]
      rfl
    next => exact hword

/-- What is put in the place of a number is read as the number, or it is an unknown name. -/
theorem tokens_text_cases (x : Float) : tokens (Number.text x) =
    if x.isFinite then .ok (numberFactor x).tokens else .error (.unknownName (nonFiniteWord x)) := by
  split
  next h => exact tokens_text h
  next h => exact tokens_text_of_not_finite (Bool.eq_false_iff.2 h)

theorem replaced_of_number (h : table.get? name = some (.number x)) :
    replaced table name = Number.text x := by
  rw [replaced, Macro.Table.replacement?, h]
  rfl

/-- The name of a number has this number for its value if it is finite. -/
theorem evaluate_name (hname : IsOperandWord name) (h : table.get? name = some (.number x)) :
    evaluate table name =
      if x.isFinite then .ok x else .error (.unknownName (nonFiniteWord x)) := by
  have htokens := tokens_text_cases x
  rw [← replaced_of_number h, ← substitute_word table hname] at htokens
  split
  next hfinite =>
    rw [if_pos hfinite] at htokens
    let expression : Expression Float := .single (.single (numberFactor x))
    have hvalue : expression.value? id = some x := congrArg some (numberFactor_value hfinite)
    have hfound : tokens (substitute table name) = .ok expression.tokens := htokens
    rw [evaluate_of_tokens hfound expression.tokens_ne_nil, evaluateTokens_tokens, hvalue]
    rfl
  next hfinite =>
    rw [if_neg hfinite] at htokens
    rw [evaluate, htokens]
    rfl

/-! ## Unknown names -/

/-- A name is unknown for the sake of a word of the text: the name is found in what stands for the word,
and the word is no macro with a finite number. -/
def Blames (table : Macro.Table) (text unknown : Text) : Prop :=
  ∃ word ∈ (spaceOut text).words,
    tokens (replaced table word) = .error (.unknownName unknown) ∧
      ∀ x, table.get? word = some (.number x) → x.isFinite = false

/-- A text with an unknown name cannot be read as tokens. -/
theorem tokens_of_unknownName (h : evaluate table text = .error (.unknownName unknown)) :
    tokens (substitute table text) = .error (.unknownName unknown) := by
  cases htokens : tokens (substitute table text) with
  | error fault =>
    rw [evaluate, htokens] at h
    cases h
    rfl
  | ok found =>
    rcases found with - | ⟨token, behind⟩
    · rw [evaluate, htokens] at h
      cases h
    · rw [evaluate_of_tokens htokens (List.cons_ne_nil _ _)] at h
      cases explains_of_evaluateTokens h

/-- An unknown name is found in what stands for a word of the text. -/
theorem blames_of_evaluate (h : evaluate table text = .error (.unknownName unknown)) :
    Blames table text unknown := by
  obtain ⟨part, hpart, hfault⟩ := exists_fault_of_unwords (tokens_of_unknownName h)
  obtain ⟨word, hword, rfl⟩ := List.mem_map.1 hpart
  refine ⟨word, hword, hfault, fun x hx => Bool.eq_false_iff.2 fun hfinite => ?_⟩
  have htext : tokens (replaced table word) = .ok (numberFactor x).tokens := by
    rw [replaced_of_number hx, tokens_text hfinite]
  cases htext.symm.trans hfault

/-! ## Using numbers -/

/-- A macro with a finite number has this number for its value, and one with another number is an unknown
name. Where a text, a condition, an attribute or an array size has no value because of an unknown name, the
name stands for a word which is no macro with a finite number. -/
theorem evaluate_numberMacro (table : Macro.Table) :
    (∀ name x, IsOperandWord name → table.get? name = some (.number x) →
      evaluate table name =
        if x.isFinite then .ok x else .error (.unknownName (nonFiniteWord x))) ∧
    (∀ text unknown, evaluate table text = .error (.unknownName unknown) →
      Blames table text unknown) ∧
    (∀ condition line unknown,
      ((Condition.ofText condition).holds table line).outcome =
          .error (.invalidCondition line (.unknownName unknown)) →
        ∃ text ∈ (Condition.ofText condition).texts, Blames table text unknown) ∧
    ∀ range text unknown,
      (Interface.layoutValue table range text).outcome =
          .error (.invalidLayoutValue text (.unknownName unknown)) →
        Blames table text unknown := by
  refine ⟨fun name x => evaluate_name, fun text unknown => blames_of_evaluate,
    fun condition line unknown h => ?_, fun range text unknown h => blames_of_evaluate ?_⟩
  · obtain ⟨text, htext, cause, hcause, hfault⟩ := Condition.exists_of_holds h
    cases hfault
    exact ⟨text, htext, blames_of_evaluate hcause⟩
  · rw [Interface.layoutValue] at h
    cases hfault : evaluate table text with
    | ok value =>
      rw [hfault] at h
      cases h
    | error cause =>
      rw [hfault] at h
      cases h
      rfl

/-- The infinite number. -/
def infinity : Float :=
  ofMagnitude false infiniteMagnitude

/-- A table with a finite number and the infinite one. -/
def numberTable : Macro.Table :=
  (Macro.Table.empty.set ['X'] (.number (-0.5))).set ['Y'] (.number infinity)

/-- The finite number can be used, in front of a name that is not known, and the infinite one cannot. -/
theorem evaluate_numberTable :
    evaluate numberTable ['X'] = .ok (-0.5) ∧
    evaluate numberTable ['Y'] = .error (.unknownName "inf".toList) ∧
    evaluate numberTable "X * Z".toList = .error (.unknownName ['Z']) ∧
    Blames numberTable "X * Z".toList ['Z'] ∧
    ((Condition.ofText "X < 1 && Y == X".toList).holds numberTable "#if X < 1 && Y == X".toList).outcome =
      .error (.invalidCondition "#if X < 1 && Y == X".toList (.unknownName "inf".toList)) ∧
    (∃ text ∈ (Condition.ofText "X < 1 && Y == X".toList).texts,
      Blames numberTable text "inf".toList) ∧
    (Interface.layoutValue numberTable .signed32 ['Y']).outcome =
      .error (.invalidLayoutValue ['Y'] (.unknownName "inf".toList)) ∧
    Blames numberTable ['Y'] "inf".toList := by
  have hword (c : Char) (h : isBlank c = false ∧ isOperator c = false) : IsOperandWord [c] :=
    ⟨List.cons_ne_nil _ _, List.forall_mem_singleton.2 h.1, List.forall_mem_singleton.2 h.2⟩
  have hproduct : evaluate numberTable "X * Z".toList = .error (.unknownName ['Z']) := by
    decide +kernel
  have hcondition : ((Condition.ofText "X < 1 && Y == X".toList).holds numberTable
      "#if X < 1 && Y == X".toList).outcome =
        .error (.invalidCondition "#if X < 1 && Y == X".toList (.unknownName "inf".toList)) := by
    decide +kernel
  have hvalue : (Interface.layoutValue numberTable .signed32 ['Y']).outcome =
      .error (.invalidLayoutValue ['Y'] (.unknownName "inf".toList)) := by
    decide +kernel
  obtain ⟨hnumbers, htexts, hconditions, hvalues⟩ := evaluate_numberMacro numberTable
  refine ⟨?_, ?_, hproduct, htexts _ _ hproduct, hcondition, hconditions _ _ _ hcondition,
    hvalue, hvalues _ _ _ hvalue⟩
  · rw [hnumbers ['X'] (-0.5) (hword 'X' (by decide)) rfl, if_pos (by decide +kernel)]
  · rw [hnumbers ['Y'] infinity (hword 'Y' (by decide)) rfl, if_neg (by decide +kernel)]
    rfl

/-- A macro that a line of a shader defines as the infinite number is a number and cannot be used. -/
theorem not_forall_evaluate_numberMacro :
    ¬ ∀ (commandLine : Text) (fragments : List Fragment) (source : Preprocessing.Source),
      (Preprocessing.preprocess (.ofArguments commandLine) fragments).outcome = .ok source →
      ∀ name x, IsRun name → source.table.get? name = some (.number x) →
        evaluate source.table name = .ok x := by
  intro hall
  let table : Macro.Table := .set .empty ['X'] (.number infinity)
  have hsource : (Preprocessing.preprocess (.ofArguments [])
      [⟨"#define X inf\n".toList, "a".toList, 0⟩]).outcome = .ok ⟨[], table⟩ := by
    decide +kernel
  have hused := hall [] _ ⟨[], table⟩ hsource ['X'] infinity
    ⟨List.cons_ne_nil _ _, List.forall_mem_singleton.2 rfl⟩ rfl
  have hfault : evaluate table ['X'] = .error (.unknownName "inf".toList) := by decide +kernel
  cases hfault.symm.trans hused

end ShaderInterface.Arithmetic
