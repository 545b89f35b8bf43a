import Mathlib.Data.List.Basic
import Mathlib.Data.List.TakeWhile
import Mathlib.Tactic.Common
import ShaderInterface.Text.Line

/-!
# Lines of Joined Texts

A text is read line by line, and its lines are those of its parts when every part ends with a line
feed. Lines that were joined are read back, except that a carriage return at the end of one of them
is taken for a part of the line ending.

## Main definitions

* `dropReturn`: a line without a carriage return at its end.
* `EndsLine`: a text that is empty or ends with a line feed.

## Main results

* `lines_unlines`: joined lines are read back, without a carriage return at their ends.
* `unlines_lines`: the lines of a text are joined to the same text.
* `lines_append`, `lines_flatMap`: the lines of texts that are put together at the ends of lines.
-/

namespace ShaderInterface.Text

/-- A line without the carriage return at its end, if it has one. -/
def dropReturn (line : Text) : Text :=
  if line.getLast? = some '\r' then line.dropLast else line

/-- A text consists of whole lines: it is empty or ends with a line feed. -/
def EndsLine (text : Text) : Prop :=
  text = [] ∨ text.getLast? = some '\n'

instance (text : Text) : Decidable (EndsLine text) :=
  inferInstanceAs (Decidable (text = [] ∨ text.getLast? = some '\n'))

/-! ## Lines that are joined -/

@[simp]
theorem unlines_cons (line : Text) (rest : List Text) :
    unlines (line :: rest) = line ++ '\n' :: unlines rest := by
  simp [unlines]

theorem unlines_ne_nil {joined : List Text} (h : joined ≠ []) : unlines joined ≠ [] := by
  rcases joined with - | ⟨line, rest⟩
  · exact absurd rfl h
  · simp

theorem dropReturn_eq_self {line : Text} (h : '\r' ∉ line) : dropReturn line = line :=
  if_neg fun hlast => h (List.mem_of_getLast? hlast)

/-- A character in front of a line stays there when more of the line follows. -/
theorem dropReturn_cons {c : Char} {line : Text} (h : c ≠ '\r' ∨ line ≠ []) :
    dropReturn (c :: line) = c :: dropReturn line := by
  rcases line with - | ⟨d, tail⟩
  · have hc : c ≠ '\r' := h.resolve_right fun hne => hne rfl
    simp [dropReturn, hc]
  · simp only [dropReturn, List.getLast?_cons_cons, List.dropLast_cons_cons]
    split <;> rfl

/-- Up to its first line feed a text is one line. -/
theorem lines_line {line : Text} (h : '\n' ∉ line) (rest : Text) :
    lines (line ++ '\n' :: rest) = dropReturn line :: lines rest := by
  induction line with
  | nil => rfl
  | cons c tail ih =>
    obtain ⟨hc, htail⟩ := List.ne_and_not_mem_of_not_mem_cons h
    by_cases hreturn : c = '\r' ∧ tail = []
    · obtain ⟨rfl, rfl⟩ := hreturn
      rfl
    · -- The line feed does not follow at once, so that the character belongs to the line.
      have hnext : ∀ behind, c = '\r' → tail ++ '\n' :: rest = '\n' :: behind → False := by
        intro behind hcr hbehind
        rcases tail with - | ⟨d, tail⟩
        · exact hreturn ⟨hcr, rfl⟩
        · obtain ⟨rfl, -⟩ := List.cons.inj hbehind
          exact htail List.mem_cons_self
      rw [List.cons_append, lines.eq_4 _ _ (Ne.symm hc) hnext, ih htail, dropReturn_cons]
      rwa [ne_eq, ne_eq, ← not_and_or]

/-- Joined lines in front of a text are read back before its own lines. -/
theorem lines_unlines_append {joined : List Text} (h : ∀ line ∈ joined, '\n' ∉ line)
    (rest : Text) : lines (unlines joined ++ rest) = joined.map dropReturn ++ lines rest := by
  induction joined with
  | nil => rfl
  | cons line joined ih =>
    rw [List.forall_mem_cons] at h
    rw [unlines_cons, List.append_assoc, List.cons_append, lines_line h.1, ih h.2]
    rfl

/-- Joined lines are read back, without a carriage return at their ends. -/
theorem lines_unlines {joined : List Text} (h : ∀ line ∈ joined, '\n' ∉ line) :
    lines (unlines joined) = joined.map dropReturn := by
  simpa [lines] using lines_unlines_append h []

example : lines (unlines ["a".toList, "b\r".toList]) = ["a".toList, "b".toList] := by decide

/-! ## Texts that are cut into lines -/

/-- A line holds no line feed. -/
theorem lineFeed_notMem {text line : Text} (h : line ∈ lines text) : '\n' ∉ line := by
  fun_induction lines text generalizing line with
  | case1 => cases h
  | case2 rest ih | case3 rest ih =>
    rcases List.mem_cons.1 h with rfl | hrest
    · exact List.not_mem_nil
    · exact ih hrest
  | case4 c rest hfeed hreturn hnone ih =>
    obtain rfl := List.mem_singleton.1 h
    exact fun hmem => hfeed (List.mem_singleton.1 hmem).symm
  | case5 c rest hfeed hreturn first more hlines ih =>
    rw [hlines] at ih
    rcases List.mem_cons.1 h with rfl | hmore
    · -- The first line has got one more character in front.
      intro hmem
      rcases List.mem_cons.1 hmem with hc | hfirst
      · exact hfeed hc.symm
      · exact ih List.mem_cons_self hfirst
    · exact ih (List.mem_cons_of_mem _ hmore)

/-- The characters of a line are those of the text. -/
theorem mem_of_mem_lines {c : Char} {text line : Text} (hline : line ∈ lines text) (hc : c ∈ line) :
    c ∈ text := by
  fun_induction lines text generalizing line with
  | case1 => cases hline
  | case2 rest ih =>
    rcases List.mem_cons.1 hline with rfl | hrest
    · cases hc
    · exact List.mem_cons_of_mem _ (ih hrest hc)
  | case3 rest ih =>
    rcases List.mem_cons.1 hline with rfl | hrest
    · cases hc
    · exact List.mem_cons_of_mem _ (List.mem_cons_of_mem _ (ih hrest hc))
  | case4 c rest hfeed hreturn hnone ih =>
    rw [List.mem_singleton.1 hline, List.mem_singleton] at hc
    rw [hc]
    exact List.mem_cons_self ..
  | case5 c rest hfeed hreturn first more hlines ih =>
    rw [hlines] at ih
    rcases List.mem_cons.1 hline with rfl | hmore
    · rcases List.mem_cons.1 hc with rfl | hc
      · exact List.mem_cons_self ..
      · exact List.mem_cons_of_mem _ (ih (List.mem_cons_self ..) hc)
    · exact List.mem_cons_of_mem _ (ih (List.mem_cons_of_mem _ hmore) hc)

/-- Joined lines are whole lines. -/
theorem endsLine_unlines (joined : List Text) : EndsLine (unlines joined) := by
  induction joined with
  | nil => exact .inl rfl
  | cons line joined ih =>
    refine .inr ?_
    rw [unlines_cons, List.getLast?_append, List.getLast?_cons]
    rcases ih with hnil | hlast
    · rw [hnil]
      rfl
    · rw [hlast]
      rfl

/-- What stands behind a part of a text of whole lines consists of whole lines too. -/
theorem EndsLine.of_append (first : Text) {rest : Text} (h : EndsLine (first ++ rest)) :
    EndsLine rest := by
  rcases h with hnil | hlast
  · exact .inl (List.append_eq_nil_iff.1 hnil).2
  · rcases rest with - | ⟨c, tail⟩
    · exact .inl rfl
    · rw [List.getLast?_append_of_ne_nil _ (List.cons_ne_nil c tail)] at hlast
      exact .inr hlast

/-- A character in front of other lines does not change how the last of them ends. -/
theorem endsLine_cons_iff {c : Char} {rest : Text} (h : c = '\n' ∨ rest ≠ []) :
    EndsLine (c :: rest) ↔ EndsLine rest := by
  rcases rest with - | ⟨d, tail⟩
  · obtain rfl := h.resolve_right fun hne => hne rfl
    exact iff_of_true (.inr rfl) (.inl rfl)
  · simp only [EndsLine, List.getLast?_cons_cons, reduceCtorEq, false_or]

/-- Without carriage returns, the lines of a text are joined to the same text, in which the last line is
ended too. -/
theorem unlines_lines {text : Text} (h : '\r' ∉ text) :
    unlines (lines text) = if EndsLine text then text else text ++ ['\n'] := by
  have hcons {c : Char} {rest : Text} (h : c = '\n' ∨ rest ≠ []) :
      c :: (if EndsLine rest then rest else rest ++ ['\n']) =
        if EndsLine (c :: rest) then c :: rest else c :: rest ++ ['\n'] := by
    rw [apply_ite (c :: ·)]
    simp only [endsLine_cons_iff h, List.cons_append]
  fun_induction lines text with
  | case1 => rfl
  | case2 rest ih =>
    rw [unlines_cons, ih (List.not_mem_of_not_mem_cons h), ← hcons (.inl rfl), List.nil_append]
  | case3 rest => exact absurd (List.mem_cons_self ..) h
  | case4 c rest hfeed hreturn hlines ih =>
    -- Nothing follows the last line.
    have hnil : rest = [] := by
      have hrest := ih (List.not_mem_of_not_mem_cons h)
      rw [hlines] at hrest
      split at hrest
      next => exact hrest.symm
      next => cases List.append_eq_nil_iff.1 hrest.symm |>.2
    have hopen : ¬ EndsLine [c] := fun hends =>
      hends.elim (List.cons_ne_nil _ _) fun hlast => hfeed (Option.some.inj hlast)
    rw [hnil, if_neg hopen]
    rfl
  | case5 c rest hfeed hreturn line more hlines ih =>
    have hne : rest ≠ [] := by
      rintro rfl
      cases hlines
    rw [hlines, unlines_cons] at ih
    rw [unlines_cons, List.cons_append, ih (List.not_mem_of_not_mem_cons h), hcons (.inr hne)]

/-- Up to its first line feed a text is one of its lines. -/
theorem takeWhile_mem_lines {first rest : Text} (h : '\r' ∉ first ++ '\n' :: rest) :
    first.takeWhile (· ≠ '\n') ∈ lines (first ++ '\n' :: rest) := by
  have hfeed : '\n' ∉ first.takeWhile (· ≠ '\n') := fun hmem => by
    simpa using List.mem_takeWhile_imp hmem
  obtain ⟨tail, htail⟩ : ∃ tail, first ++ '\n' :: rest = first.takeWhile (· ≠ '\n') ++ '\n' :: tail := by
    have hdivided := List.takeWhile_append_dropWhile (p := fun c => decide (c ≠ '\n')) (l := first)
    rcases hdrop : first.dropWhile (· ≠ '\n') with - | ⟨c, behind⟩
    · rw [hdrop, List.append_nil] at hdivided
      exact ⟨rest, by rw [hdivided]⟩
    · obtain rfl : c = '\n' := by
        have hhead := List.head?_dropWhile_not (fun c => decide (c ≠ '\n')) first
        rw [hdrop] at hhead
        simpa using hhead
      refine ⟨behind ++ '\n' :: rest, ?_⟩
      rw [← List.cons_append, ← hdrop, ← List.append_assoc, hdivided]
  have hreturn : '\r' ∉ first.takeWhile (· ≠ '\n') := fun hmem =>
    h (htail ▸ List.mem_append_left _ hmem)
  rw [htail, lines_line hfeed, dropReturn_eq_self hreturn]
  exact List.mem_cons_self ..

/-- A text of whole lines is made by joining lines. -/
theorem EndsLine.exists_unlines {text : Text} (h : EndsLine text) :
    ∃ joined, (∀ line ∈ joined, '\n' ∉ line) ∧ text = unlines joined := by
  induction text with
  | nil => exact ⟨[], by simp, rfl⟩
  | cons c tail ih =>
    have hlast : (c :: tail).getLast? = some '\n' := h.resolve_left (List.cons_ne_nil c tail)
    by_cases hfeed : c = '\n'
    · -- A line feed ends an empty line in front of the others.
      have htail : EndsLine tail := by
        rcases tail with - | ⟨d, tail⟩
        · exact .inl rfl
        · exact .inr hlast
      obtain ⟨joined, hjoined, rfl⟩ := ih htail
      refine ⟨[] :: joined, ?_, ?_⟩
      · rw [List.forall_mem_cons]
        exact ⟨List.not_mem_nil, hjoined⟩
      · rw [unlines_cons, hfeed, List.nil_append]
    · -- Any other character stands in front of the first line, and there is one.
      have hne : tail ≠ [] := by
        rintro rfl
        exact hfeed (Option.some_inj.1 hlast)
      have htail : EndsLine tail := by
        rw [List.getLast?_cons_of_ne_nil hne] at hlast
        exact .inr hlast
      obtain ⟨joined, hjoined, rfl⟩ := ih htail
      rcases joined with - | ⟨line, joined⟩
      · exact absurd rfl hne
      · rw [List.forall_mem_cons] at hjoined
        refine ⟨(c :: line) :: joined, ?_, ?_⟩
        · rw [List.forall_mem_cons]
          exact ⟨List.not_mem_cons_of_ne_of_not_mem (Ne.symm hfeed) hjoined.1, hjoined.2⟩
        · rw [unlines_cons, unlines_cons, List.cons_append]

/-- The lines of a text that is put together at the end of a line are those of its parts. -/
theorem lines_append {first : Text} (h : EndsLine first) (second : Text) :
    lines (first ++ second) = lines first ++ lines second := by
  obtain ⟨joined, hjoined, rfl⟩ := h.exists_unlines
  rw [lines_unlines_append hjoined, lines_unlines hjoined]

/-- The lines of several texts of whole lines, put together. -/
theorem lines_flatMap {α : Type} {parts : List α} {text : α → Text}
    (h : ∀ part ∈ parts, EndsLine (text part)) :
    lines (parts.flatMap text) = parts.flatMap fun part => lines (text part) := by
  induction parts with
  | nil => rfl
  | cons part parts ih =>
    rw [List.forall_mem_cons] at h
    rw [List.flatMap_cons, lines_append h.1, ih h.2, List.flatMap_cons]

end ShaderInterface.Text
