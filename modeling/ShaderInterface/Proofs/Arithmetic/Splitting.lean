import Mathlib.Tactic.Common
import ShaderInterface.Proofs.Arithmetic.Expression
import ShaderInterface.Proofs.Outcome
import ShaderInterface.Proofs.Text.Character
import ShaderInterface.Proofs.Text.Cuts

/-!
# Splitting Texts

A text is read as the tokens into which it splits. No token reaches over a blank or an operator, so
that a text that is cut there is read piece by piece.

## Main results

* `tokens_eq_ok_iff`: a text is read as some tokens if and only if it splits into them.
* `tokens_append_of_separator`: what stands in front of a blank or an operator is read on its own.
-/

namespace ShaderInterface.Arithmetic

open ShaderInterface.Text

variable {c : Char} {text rest digits : Text} {x : Float} {found : List Token}

/-! ## Kinds of characters -/

/-- The characters of numerals are neither blanks nor operators. -/
theorem of_isNumeral (h : isNumeral c = true) :
    isBlank c = false ∧ Operator.ofSign? c = none := by
  rw [isNumeral, Bool.or_eq_true, beq_iff_eq] at h
  exact of_isDigit_or_point (p := fun c => isBlank c = false ∧ Operator.ofSign? c = none) (by decide) h

/-- The sign of an operation is no blank, and tells the operation. -/
theorem Operator.of_sign (op : Operator) :
    isBlank op.sign = false ∧ Operator.ofSign? op.sign = some op := by
  cases op <;> decide

/-- An operation has only one sign. -/
theorem Operator.sign_of_ofSign? {op : Operator} (h : Operator.ofSign? c = some op) :
    op.sign = c := by
  unfold Operator.ofSign? at h
  split at h <;> first | cases h; rfl | cases h

/-! ## The first token -/

/-- A blank is passed over. -/
theorem tokens_blank (h : isBlank c = true) : tokens (c :: text) = tokens text := by
  rw [tokens, if_pos h]

/-- An operator is a token. -/
theorem tokens_operator (op : Operator) :
    tokens (op.sign :: text) = (tokens text).map (.operator op :: ·) := by
  obtain ⟨hblank, hsign⟩ := op.of_sign
  rw [tokens, hblank, hsign]
  simp only [Bool.false_eq_true, if_false]

/-- A run of digits and points is read up to its end, and must be a numeral. -/
theorem tokens_run (hne : digits ≠ []) (hdigits : ∀ c ∈ digits, isNumeral c = true)
    (hrest : rest.head?.any isNumeral = false) :
    tokens (digits ++ rest) =
      match Number.ofText? digits with
      | some x => (tokens rest).map (.number x :: ·)
      | none => .error (.invalidNumber digits) := by
  obtain ⟨c, tail, rfl⟩ := List.exists_cons_of_ne_nil hne
  rw [List.forall_mem_cons] at hdigits
  obtain ⟨hblank, hsign⟩ := of_isNumeral hdigits.1
  obtain ⟨htake, hdrop⟩ := takeWhile_append_of_stop [] hrest
  rw [List.nil_append, List.takeWhile_nil] at htake
  rw [List.nil_append, List.dropWhile_nil, List.nil_append] at hdrop
  have hrun : (tail ++ rest).takeWhile isNumeral = tail := by
    rw [List.takeWhile_append_of_pos hdigits.2, htake, List.append_nil]
  have hbehind : (tail ++ rest).dropWhile isNumeral = rest := by
    rw [List.dropWhile_append_of_pos hdigits.2, hdrop]
  rw [List.cons_append, tokens, hblank, hsign, hrun, hbehind]
  cases hnumber : Number.ofText? (c :: tail) <;>
    simp only [Bool.false_eq_true, if_false, hdigits.1, if_true, hnumber]

/-- A numeral is a token. -/
theorem tokens_number (hne : digits ≠ []) (hdigits : ∀ c ∈ digits, isNumeral c = true)
    (hrest : rest.head?.any isNumeral = false) (hx : Number.ofText? digits = some x) :
    tokens (digits ++ rest) = (tokens rest).map (.number x :: ·) := by
  rw [tokens_run hne hdigits hrest, hx]

/-- A character that starts no token is a fault, as is a name. -/
theorem tokens_of_start (hblank : isBlank c = false) (hsign : Operator.ofSign? c = none)
    (hnumeral : isNumeral c = false) :
    tokens (c :: text) = .error
      (if opensName c then .unknownName (c :: text.takeWhile continuesName)
        else .invalidCharacter c) := by
  rw [tokens, hblank, hsign]
  simp only [Bool.false_eq_true, if_false, hnumeral]
  split <;> rfl

/-! ## All tokens -/

/-- A text is either empty, or it starts with a blank, an operator, a run of digits and points, or
another character. What is true of all texts can be shown by going through these starts. -/
theorem tokens_induction {motive : Text → Prop} (nil : motive [])
    (blank : ∀ c text, isBlank c = true → motive text → motive (c :: text))
    (operator : ∀ (op : Operator) text, motive text → motive (op.sign :: text))
    (run : ∀ digits rest, digits ≠ [] → (∀ c ∈ digits, isNumeral c = true) →
      rest.head?.any isNumeral = false → motive rest → motive (digits ++ rest))
    (other : ∀ c text, isBlank c = false → Operator.ofSign? c = none → isNumeral c = false →
      motive (c :: text)) (text : Text) : motive text := by
  -- A run is cut off as a whole, so that the induction is on the length.
  induction hlength : text.length using Nat.strongRecOn generalizing text with
  | ind length ih =>
    subst hlength
    rcases text with - | ⟨c, tail⟩
    · exact nil
    by_cases hblank : isBlank c = true
    · exact blank c tail hblank (ih _ (Nat.lt_succ_self _) _ rfl)
    rw [Bool.not_eq_true] at hblank
    cases hsign : Operator.ofSign? c with
    | some op =>
      rw [← Operator.sign_of_ofSign? hsign]
      exact operator op tail (ih _ (Nat.lt_succ_self _) _ rfl)
    | none =>
      by_cases hnumeral : isNumeral c = true
      · have hshorter : (tail.dropWhile isNumeral).length < (c :: tail).length :=
          Nat.lt_succ_of_le (List.dropWhile_suffix isNumeral).length_le
        have htail := run (c :: tail.takeWhile isNumeral) (tail.dropWhile isNumeral)
          (List.cons_ne_nil _ _)
          (List.forall_mem_cons.2 ⟨hnumeral, List.all_eq_true.1 List.all_takeWhile⟩)
          (any_head?_dropWhile isNumeral tail) (ih _ hshorter _ rfl)
        rwa [List.cons_append, List.takeWhile_append_dropWhile] at htail
      · rw [Bool.not_eq_true] at hnumeral
        exact other c tail hblank hsign hnumeral

/-- Tokens that are read behind another one come from what stands behind it. -/
theorem exists_of_map_ok {token : Token} {outcome : Except Fault (List Token)}
    (h : outcome.map (token :: ·) = .ok found) : ∃ behind, outcome = .ok behind ∧
      found = token :: behind := by
  cases outcome with
  | error fault => cases h
  | ok behind =>
    cases h
    exact ⟨behind, rfl, rfl⟩

/-- A text is read as some tokens if and only if it splits into them. -/
theorem tokens_eq_ok_iff : tokens text = .ok found ↔ Splits text found := by
  constructor
  · intro h
    induction text using tokens_induction generalizing found with
    | nil =>
      rw [tokens] at h
      cases h
      exact .nil
    | blank c text hblank ih =>
      rw [tokens_blank hblank] at h
      exact .blank hblank (ih h)
    | operator op text ih =>
      rw [tokens_operator] at h
      obtain ⟨behind, hbehind, rfl⟩ := exists_of_map_ok h
      exact .operator op (ih hbehind)
    | run digits rest hne hdigits hrest ih =>
      rw [tokens_run hne hdigits hrest] at h
      cases hx : Number.ofText? digits with
      | none =>
        rw [hx] at h
        cases h
      | some x =>
        rw [hx] at h
        obtain ⟨behind, hbehind, rfl⟩ := exists_of_map_ok h
        exact .number hne hdigits hrest hx (ih hbehind)
    | other c text hblank hsign hnumeral =>
      rw [tokens_of_start hblank hsign hnumeral] at h
      cases h
  · intro h
    induction h with
    | nil => rw [tokens]
    | blank hblank _ ih => rw [tokens_blank hblank, ih]
    | operator op _ ih =>
      rw [tokens_operator, ih]
      rfl
    | number hne hdigits hrest hx _ ih =>
      rw [tokens_number hne hdigits hrest hx, ih]
      rfl

/-! ## Separators -/

/-- Whether a character ends every token in front of it: a blank, or an operator. -/
def isSeparator (c : Char) : Bool :=
  isBlank c || isOperator c

theorem isSeparator_of_isBlank (h : isBlank c = true) : isSeparator c = true := by
  rw [isSeparator, h, Bool.true_or]

theorem isSeparator_sign (op : Operator) : isSeparator op.sign = true := by
  rw [isSeparator, isOperator, op.of_sign.2, Option.isSome_some, Bool.or_true]

/-- A separator is part of no numeral. -/
theorem isNumeral_of_isSeparator (h : isSeparator c = true) : isNumeral c = false := by
  by_contra hnumeral
  rw [Bool.not_eq_false] at hnumeral
  obtain ⟨hblank, hsign⟩ := of_isNumeral hnumeral
  rw [isSeparator, isOperator, hblank, hsign] at h
  cases h

/-- A separator is part of no name. -/
theorem continuesName_of_isSeparator (h : isSeparator c = true) : continuesName c = false := by
  rcases Bool.or_eq_true_iff.1 h with hblank | hsign
  · exact continuesName_of_isBlank hblank
  · obtain ⟨op, hop⟩ := Option.isSome_iff_exists.1 hsign
    rw [← Operator.sign_of_ofSign? hop]
    cases op <;> decide

/-- What stands in front of a separator, or at the end, is read on its own. -/
theorem tokens_append_of_separator (first : Text) {second : Text}
    (h : second.head?.all isSeparator = true) :
    tokens (first ++ second) =
      tokens first >>= fun found => (tokens second).map (found ++ ·) := by
  -- No token reaches over a separator, and neither does a name that is a fault.
  have hstop {p : Char → Bool} (hp : ∀ c, isSeparator c = true → p c = false) :
      second.head?.any p = false := by
    rcases second with - | ⟨c, tail⟩
    · rfl
    · exact hp c h
  have hmap (token : Token) (outcome : Except Fault (List Token)) :
      (outcome >>= fun found => (tokens second).map (found ++ ·)).map (token :: ·) =
        outcome.map (token :: ·) >>= fun found => (tokens second).map (found ++ ·) := by
    cases outcome with
    | error fault => rfl
    | ok found => cases tokens second <;> rfl
  induction first using tokens_induction with
  | nil =>
    rw [List.nil_append, tokens]
    cases tokens second <;> rfl
  | blank d text hblank ih => rw [List.cons_append, tokens_blank hblank, tokens_blank hblank, ih]
  | operator op text ih => rw [List.cons_append, tokens_operator, tokens_operator, ih, hmap]
  | run digits rest hne hdigits hrest ih =>
    have hbehind : (rest ++ second).head?.any isNumeral = false := by
      cases rest with
      | nil => exact hstop fun _ => isNumeral_of_isSeparator
      | cons => exact hrest
    rw [List.append_assoc, tokens_run hne hdigits hbehind, tokens_run hne hdigits hrest, ih]
    cases Number.ofText? digits with
    | none => rfl
    | some x => exact hmap _ _
  | other d text hblank hsign hother =>
    rw [List.cons_append, tokens_of_start hblank hsign hother,
      tokens_of_start hblank hsign hother,
      (takeWhile_append_of_stop text (hstop fun _ => continuesName_of_isSeparator)).1]
    rfl

/-- What stands on either side of a blank is read on its own. -/
theorem tokens_append (hc : isBlank c = true) (first second : Text) :
    tokens (first ++ c :: second) =
      tokens first >>= fun found => (tokens second).map (found ++ ·) := by
  have hhead : (c :: second).head?.all isSeparator = true := isSeparator_of_isBlank hc
  rw [tokens_append_of_separator first hhead, tokens_blank hc]

end ShaderInterface.Arithmetic
