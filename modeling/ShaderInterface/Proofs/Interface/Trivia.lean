import ShaderInterface.Interface.Declaration
import ShaderInterface.Proofs.Interface.Grammar
import ShaderInterface.Proofs.Text.Character
import ShaderInterface.Proofs.Text.Cuts

/-!
# Skipping Gaps

The scanner skips a gap as a whole and stops at the first character of a token.

## Main results

* `skipTrivia_of_gap`: a gap makes no difference to what is found behind it.
* `skipTrivia_start`: nothing is skipped where a token starts.
-/

namespace ShaderInterface.Interface

open ShaderInterface.Text

variable {c : Char} {text rest : Text}

/-- Nothing is skipped where neither a blank nor a comment stands. -/
theorem skipTrivia_of_none (hcomment : afterComment? (c :: rest) = none) (hblank : isBlank c = false) :
    skipTrivia (c :: rest) = c :: rest := by
  rw [skipTrivia]
  split
  next after h => cases h.symm.trans hcomment
  next => simp only [hblank, Bool.false_eq_true, if_false]

/-- A comment starts with a slash that another slash or an asterisk follows. -/
theorem afterComment?_eq_none (h : c = '/' → rest.head? ≠ some '/' ∧ rest.head? ≠ some '*') :
    afterComment? (c :: rest) = none := by
  unfold afterComment?
  split
  next heq =>
    obtain ⟨rfl, rfl⟩ := List.cons.inj heq
    exact absurd rfl (h rfl).1
  next heq =>
    obtain ⟨rfl, rfl⟩ := List.cons.inj heq
    exact absurd rfl (h rfl).2
  next => rfl

/-- Nothing is skipped where a token starts. -/
theorem skipTrivia_start (hblank : isBlank c = false) (hslash : c ≠ '/') :
    skipTrivia (c :: rest) = c :: rest :=
  skipTrivia_of_none (afterComment?_eq_none fun heq => absurd heq hslash) hblank

theorem skipTrivia_blank (h : isBlank c = true) : skipTrivia (c :: rest) = skipTrivia rest := by
  have hcomment : afterComment? (c :: rest) = none := by
    apply afterComment?_eq_none
    rintro rfl
    exact absurd h (by decide)
  rw [skipTrivia]
  split
  next after hafter => cases hafter.symm.trans hcomment
  next => simp only [h, if_true]

theorem skipTrivia_comment {after : Text} (h : afterComment? text = some after) :
    skipTrivia text = skipTrivia after := by
  rw [skipTrivia]
  split
  next found hfound =>
    cases hfound.symm.trans h
    rfl
  next hnone => cases hnone.symm.trans h

theorem skipTrivia_nil : skipTrivia [] = [] := by
  rw [skipTrivia]
  rfl

/-- Nothing is left to be skipped. -/
theorem skipTrivia_skipTrivia (text : Text) : skipTrivia (skipTrivia text) = skipTrivia text := by
  fun_induction skipTrivia text with
  | case1 _ _ _ ih => exact ih
  | case2 => exact skipTrivia_nil
  | case3 _ _ _ _ ih => exact ih
  | case4 c rest hcomment hblank =>
    rw [Bool.not_eq_true] at hblank
    exact skipTrivia_of_none hcomment hblank

/-- A line comment reaches to the next line feed. -/
theorem afterComment?_line {inner : Text} (h : '\n' ∉ inner) :
    afterComment? ('/' :: '/' :: (inner ++ rest)) = some (rest.dropWhile (· != '\n')) := by
  rw [afterComment?, List.dropWhile_append_of_pos (forall_bne_of_notMem h)]

/-- A gap makes no difference to what is found behind it. -/
theorem skipTrivia_of_gap (h : Gap text rest) : skipTrivia text = skipTrivia rest := by
  induction h with
  | done => rfl
  | blank hblank _ ih => rw [skipTrivia_blank hblank, ih]
  | lineComment inner hinner _ ih =>
    -- The line feed is left in place, and then skipped as a blank.
    rw [skipTrivia_comment (afterComment?_line hinner), List.dropWhile_cons_of_neg (by decide),
      skipTrivia_blank (by decide), ih]
  | lastComment inner hinner =>
    have hcomment : afterComment? ('/' :: '/' :: (inner ++ [])) = some ([].dropWhile (· != '\n')) :=
      afterComment?_line hinner
    rw [List.append_nil] at hcomment
    rw [skipTrivia_comment hcomment, List.dropWhile_nil]
  | @blockComment inner text rest hinner _ ih =>
    have hafter : afterComment? ('/' :: '*' :: (inner ++ '*' :: '/' :: text)) = some text := by
      rw [afterComment?, afterBlock, breakOn?_append (by decide) hinner]
    rw [skipTrivia_comment hafter, ih]

end ShaderInterface.Interface
