import Mathlib.Data.List.Basic
import Mathlib.Data.List.TakeWhile
import Mathlib.Tactic.Common
import ShaderInterface.Text.Basic

/-!
# Cutting Texts

What a cut returns puts the text together again. These are the facts about runs and marks that the
scanners rest on.

## Main results

* `cut?_append`: a text is cut at the first occurrence of a character.
* `breakOn?_append`: a text is broken at the first occurrence of a mark.
* `eq_of_cut?`, `eq_of_breakOn?`: the parts and what stands between them make up the text.
* `breakOn?_eq_none_iff`: a text is broken wherever a mark occurs.
* `splitOnMark_append`: a text is split at a mark whose first character does not occur before.
* `notMem_of_mem_splitOn`, `unbroken_of_mem_words`: pieces and words hold no separators.
* `words_append`: a word is what stands before a blank.
* `trim_surrounded`, `words_surrounded`: blanks around a text make no difference.
-/

namespace ShaderInterface.Text

/-- Behind a run stands no other character of its kind. -/
theorem any_head?_dropWhile (p : Char → Bool) (text : Text) :
    (text.dropWhile p).head?.any p = false := by
  have hstop := List.head?_dropWhile_not p text
  cases h : (text.dropWhile p).head? with
  | none => rfl
  | some c => rwa [h] at hstop

/-- A run ends where the text behind it starts with another kind of character. -/
theorem takeWhile_append_of_stop {p : Char → Bool} (first : Text) {second : Text}
    (h : second.head?.any p = false) :
    (first ++ second).takeWhile p = first.takeWhile p ∧
      (first ++ second).dropWhile p = first.dropWhile p ++ second := by
  induction first with
  | nil =>
    rcases second with - | ⟨c, tail⟩
    · exact ⟨rfl, rfl⟩
    · have hc : ¬ p c = true := by
        rw [Bool.not_eq_true]
        exact h
      exact ⟨List.takeWhile_cons_of_neg hc, List.dropWhile_cons_of_neg hc⟩
  | cons c tail ih =>
    -- The run ends here, or further on in the same way with and without the second text.
    by_cases hc : p c = true
    · rw [List.cons_append, List.takeWhile_cons_of_pos hc, List.takeWhile_cons_of_pos hc,
        List.dropWhile_cons_of_pos hc, List.dropWhile_cons_of_pos hc, ih.1, ih.2]
      exact ⟨rfl, rfl⟩
    · rw [List.cons_append, List.takeWhile_cons_of_neg hc, List.takeWhile_cons_of_neg hc,
        List.dropWhile_cons_of_neg hc, List.dropWhile_cons_of_neg hc]
      exact ⟨rfl, rfl⟩

/-- Where a character does not occur, there are others only. -/
theorem forall_bne_of_notMem {c : Char} {text : Text} (h : c ∉ text) :
    ∀ d ∈ text, (d != c) = true := by
  intro d hd
  rw [bne_iff_ne]
  rintro rfl
  exact h hd

/-- A text is cut at the first occurrence of a character. -/
theorem cut?_append {separator : Char} {before : Text} (h : separator ∉ before) (after : Text) :
    cut? separator (before ++ separator :: after) = some (before, after) := by
  have hbefore := forall_bne_of_notMem h
  rw [cut?, List.dropWhile_append_of_pos hbefore, List.takeWhile_append_of_pos hbefore,
    List.dropWhile_cons_of_neg (by simp), List.takeWhile_cons_of_neg (by simp), List.append_nil]

/-- A text is broken where no mark has begun before. -/
theorem breakOn?_of_notInfix {first second : Char} {before : Text}
    (h : ¬ [first, second] <:+: before ++ [first]) (after : Text) :
    breakOn? first second (before ++ first :: second :: after) = some (before, after) := by
  induction before with
  | nil => simp [breakOn?]
  | cons c tail ih =>
    obtain ⟨d, rest, hrest⟩ : ∃ d rest, tail ++ [first] = d :: rest := by
      cases tail <;> exact ⟨_, _, rfl⟩
    have hstart : ¬ (c = first ∧ d = second) := by
      rintro ⟨rfl, rfl⟩
      exact h ⟨[], rest, by rw [List.cons_append, hrest]; rfl⟩
    have htail : ¬ [first, second] <:+: tail ++ [first] := fun hmark => h (List.infix_cons hmark)
    have htext : tail ++ first :: second :: after = d :: (rest ++ second :: after) := by
      rw [List.append_cons, hrest, List.cons_append]
    rw [List.cons_append, htext, breakOn?, if_neg hstart, ← htext, ih htail]
    rfl

/-- A text is broken at the first occurrence of a mark of two different characters. -/
theorem breakOn?_append {first second : Char} (hne : first ≠ second) {before : Text}
    (h : ¬ [first, second] <:+: before) (after : Text) :
    breakOn? first second (before ++ first :: second :: after) = some (before, after) := by
  refine breakOn?_of_notInfix (fun hmark => ?_) after
  -- The mark at the cut does not begin with the last character of another one.
  rcases List.infix_concat_iff.1 hmark with hend | hmark
  · obtain hnil | ⟨front, heq, -⟩ := List.suffix_concat_iff.1 hend
    · cases hnil
    · have hlast : [first] ++ [second] = front ++ [first] := heq
      exact hne (List.cons.inj (List.append_inj_right' hlast rfl)).1.symm
  · exact h hmark

/-- A text is broken at a mark whose first character does not occur before. -/
theorem breakOn?_append_of_notMem {first : Char} {before : Text} (h : first ∉ before)
    (second : Char) (after : Text) :
    breakOn? first second (before ++ first :: second :: after) = some (before, after) := by
  refine breakOn?_of_notInfix (fun hmark => h ?_) after
  rcases List.infix_concat_iff.1 hmark with hend | hmark
  · obtain hnil | ⟨front, heq, hfront⟩ := List.suffix_concat_iff.1 hend
    · cases hnil
    · have hlast : [first] ++ [second] = front ++ [first] := heq
      obtain rfl : [first] = front := List.append_inj_left' hlast rfl
      exact hfront.subset (List.mem_singleton_self first)
  · exact hmark.subset (List.mem_cons_self ..)

/-- The parts of a text on either side of a character, which is not in the first one. -/
theorem eq_of_cut? {separator : Char} {text before after : Text}
    (h : cut? separator text = some (before, after)) :
    text = before ++ separator :: after ∧ separator ∉ before := by
  rw [cut?] at h
  split at h
  next => cases h
  next c behind hdrop =>
    cases h
    have hstop := any_head?_dropWhile (· != separator) text
    rw [hdrop] at hstop
    obtain rfl : c = separator := by simpa using hstop
    refine ⟨?_, fun hmem => ?_⟩
    · rw [← hdrop, List.takeWhile_append_dropWhile]
    · have hne := List.all_eq_true.1 List.all_takeWhile _ hmem
      simp at hne

/-- A text that is not cut does not hold the character. -/
theorem notMem_of_cut? {separator : Char} {text : Text} (h : cut? separator text = none) :
    separator ∉ text := by
  intro hmem
  obtain ⟨before, after, rfl, hbefore⟩ := List.eq_append_cons_of_mem hmem
  cases h.symm.trans (cut?_append hbefore after)

/-- The parts of a text on either side of a mark, which is not in the first one. -/
theorem eq_of_breakOn? {first second : Char} {text before after : Text}
    (h : breakOn? first second text = some (before, after)) :
    text = before ++ first :: second :: after ∧ ¬ [first, second] <:+: before := by
  fun_induction breakOn? first second text generalizing before with
  | case1 c d rest hmark =>
    cases h
    rw [hmark.1, hmark.2, List.nil_append]
    exact ⟨rfl, fun hinfix => List.cons_ne_nil _ _ (List.infix_nil.1 hinfix)⟩
  | case2 c d rest hmark ih =>
    obtain ⟨⟨start, behind⟩, hrest, heq⟩ := Option.map_eq_some_iff.1 h
    cases heq
    obtain ⟨htext, hstart⟩ := ih hrest
    refine ⟨by rw [htext, List.cons_append], fun hinfix => ?_⟩
    rcases List.infix_cons_iff.1 hinfix with hhead | hinfix
    · -- A mark in front would be the first one.
      obtain ⟨hfirst, htail⟩ := List.cons_prefix_cons.1 hhead
      obtain ⟨tail, rfl⟩ := htail
      cases htext
      exact hmark ⟨hfirst.symm, rfl⟩
    · exact hstart hinfix
  | case3 => cases h

/-- A text is not broken exactly if it does not hold the mark. -/
theorem breakOn?_eq_none_iff {first second : Char} {text : Text} :
    breakOn? first second text = none ↔ ¬ [first, second] <:+: text := by
  constructor
  · intro hnone hmark
    fun_induction breakOn? first second text with
    | case1 => cases hnone
    | case2 c d rest hstart ih =>
      rcases List.infix_cons_iff.1 hmark with hhead | hmark
      · obtain ⟨hfirst, hhead⟩ := List.cons_prefix_cons.1 hhead
        exact hstart ⟨hfirst.symm, (List.cons_prefix_cons.1 hhead).1.symm⟩
      · exact ih (Option.map_eq_none_iff.1 hnone) hmark
    | case3 text hshort =>
      -- There are not even two characters.
      rcases text with - | ⟨c, - | ⟨d, rest⟩⟩
      · exact absurd hmark.length_le (by simp)
      · exact absurd hmark.length_le (by simp)
      · exact hshort c d rest rfl
  · intro hmark
    cases hfound : breakOn? first second text with
    | none => rfl
    | some parts =>
      refine absurd ⟨parts.1, parts.2, ?_⟩ hmark
      rw [(eq_of_breakOn? hfound).1, List.append_assoc]
      rfl

/-- No mark begins in a text that its first character does not occur in. -/
theorem notInfix_append {first second : Char} {before after : Text} (hbefore : first ∉ before)
    (hafter : ¬ [first, second] <:+: after) : ¬ [first, second] <:+: before ++ after := by
  induction before with
  | nil => exact hafter
  | cons c tail ih =>
    obtain ⟨hc, htail⟩ := List.ne_and_not_mem_of_not_mem_cons hbefore
    intro hmark
    rcases List.infix_cons_iff.1 hmark with hhead | hmark
    · exact hc (List.cons_prefix_cons.1 hhead).1
    · exact ih htail hmark

/-- All of a text stands before a mark that does not occur. -/
theorem beforeMark_of_notInfix {first second : Char} {text : Text}
    (h : ¬ [first, second] <:+: text) : beforeMark first second text = text := by
  rw [beforeMark, breakOn?_eq_none_iff.2 h]

/-- A text is split at a mark whose first character does not occur before. -/
theorem splitOnMark_append {first : Char} {before : Text} (h : first ∉ before) (second : Char)
    (after : Text) :
    splitOnMark first second (before ++ first :: second :: after) =
      before :: splitOnMark first second after := by
  have hbreak := breakOn?_append_of_notMem h second after
  rw [splitOnMark]
  split
  next hfound =>
    cases hfound.symm.trans hbreak
    rfl
  next hnone => cases hnone.symm.trans hbreak

/-- A text is not split when the first character of the mark does not occur in it. -/
theorem splitOnMark_of_notMem {first : Char} {text : Text} (h : first ∉ text) (second : Char) :
    splitOnMark first second text = [text] := by
  rw [splitOnMark]
  split
  next before after hfound =>
    refine absurd ?_ h
    rw [(eq_of_breakOn? hfound).1]
    exact List.mem_append_right _ (List.mem_cons_self ..)
  next => rfl

/-! ## Pieces between separators -/

/-- The pieces between separators hold no separator. -/
theorem eq_false_of_mem_splitOnP {p : Char → Bool} {text piece : Text} {c : Char}
    (h : piece ∈ text.splitOnP p) (hc : c ∈ piece) : p c = false := by
  induction text generalizing piece with
  | nil =>
    rw [List.mem_singleton.1 h] at hc
    cases hc
  | cons d rest ih =>
    obtain ⟨first, others, hcut⟩ := List.exists_cons_of_ne_nil (List.splitOnP_ne_nil p rest)
    rw [List.splitOnP_cons_eq_if_modifyHead, hcut] at h
    rw [hcut] at ih
    split at h
    next =>
      rcases List.mem_cons.1 h with rfl | hbehind
      · cases hc
      · exact ih hbehind hc
    next hd =>
      rcases List.mem_cons.1 h with rfl | hothers
      · rcases List.mem_cons.1 hc with rfl | hfirst
        · exact Bool.eq_false_iff.2 hd
        · exact ih (List.mem_cons_self ..) hfirst
      · exact ih (List.mem_cons_of_mem _ hothers) hc

/-- The pieces between the places of a character do not hold it. -/
theorem notMem_of_mem_splitOn {separator : Char} {text piece : Text}
    (h : piece ∈ text.splitOn separator) : separator ∉ piece := by
  intro hmem
  rw [List.splitOn_eq_splitOnP] at h
  have hnone := eq_false_of_mem_splitOnP h hmem
  rw [beq_self_eq_true] at hnone
  cases hnone

/-! ## Words -/

/-- A blank in front of a text is not part of a word. -/
theorem words_blank {c : Char} (h : isBlank c = true) (text : Text) :
    words (c :: text) = words text := by
  rw [words, List.splitOnP_cons_eq_if_modifyHead, if_pos h]
  rfl

/-- No word reaches over a blank. -/
theorem words_append_blank {c : Char} (h : isBlank c = true) (first second : Text) :
    words (first ++ c :: second) = words first ++ words second := by
  rw [words, List.splitOnP_append_cons _ _ h, List.filter_append]
  rfl

/-- A word is what stands before a blank or the end. -/
theorem words_append {word rest : Text} (hne : word ≠ []) (hword : ∀ c ∈ word, isBlank c = false)
    (hrest : rest.head?.all isBlank = true) : words (word ++ rest) = word :: words rest := by
  have hkept : (!word.isEmpty) = true := by
    rw [List.isEmpty_eq_false_iff.2 hne]
    rfl
  rcases rest with - | ⟨c, rest⟩
  · rw [List.append_nil, words, List.splitOnP_eq_singleton hword]
    exact List.filter_cons_of_pos hkept
  · have hc : isBlank c = true := hrest
    rw [words_blank hc, words, List.splitOnP_append_cons_of_forall_mem hword c hc]
    exact List.filter_cons_of_pos hkept

theorem unwords_cons {words : List Text} (word : Text) (h : words ≠ []) :
    unwords (word :: words) = word ++ ' ' :: unwords words := by
  rw [unwords, List.intercalate_cons_of_ne_nil h, List.append_assoc]
  rfl

/-- Words are joined with a space between the words of one part and those of the other. -/
theorem unwords_append {before behind : List Text} (hbefore : before ≠ []) (hbehind : behind ≠ []) :
    unwords (before ++ behind) = unwords before ++ ' ' :: unwords behind := by
  induction before with
  | nil => exact absurd rfl hbefore
  | cons word before ih =>
    by_cases hnil : before = []
    · rw [hnil, List.singleton_append, unwords_cons word hbehind, unwords, unwords,
        List.intercalate_singleton]
    · have hne : before ++ behind ≠ [] := List.append_ne_nil_of_left_ne_nil hnil behind
      rw [List.cons_append, unwords_cons word hne, ih hnil, unwords_cons word hnil,
        List.append_assoc, List.cons_append]

/-! ## Blanks around a text -/

/-- A text of blanks only. -/
def Blanks (text : Text) : Prop :=
  ∀ c ∈ text, isBlank c = true

instance (text : Text) : Decidable (Blanks text) :=
  decidable_of_iff (text.all isBlank = true) List.all_eq_true

/-- A text without blanks. -/
def Unbroken (text : Text) : Prop :=
  ∀ c ∈ text, isBlank c = false

instance (text : Text) : Decidable (Unbroken text) :=
  decidable_of_iff (text.all (!isBlank ·) = true) (by simp [Unbroken])

/-- The words of a text hold no blanks. -/
theorem unbroken_of_mem_words {word text : Text} (h : word ∈ text.words) : Unbroken word :=
  fun _ => eq_false_of_mem_splitOnP (List.mem_filter.1 h).1

variable {before after : Text}

/-- No other character stands between blanks. -/
theorem notMem_of_blanks {c : Char} (h : Blanks before) (hc : isBlank c = false) : c ∉ before :=
  fun hmem => Bool.false_ne_true (hc.symm.trans (h c hmem))

theorem words_of_blanks (h : Blanks after) : words after = [] := by
  induction after with
  | nil => rfl
  | cons c rest ih =>
    rw [Blanks, List.forall_mem_cons] at h
    rw [words_blank h.1, ih h.2]

/-- Blanks around a text make no difference to its words. -/
theorem words_surrounded (hbefore : Blanks before) (hafter : Blanks after) (text : Text) :
    words (before ++ text ++ after) = words text := by
  have hend : words (text ++ after) = words text := by
    rcases after with - | ⟨c, rest⟩
    · rw [List.append_nil]
    · rw [Blanks, List.forall_mem_cons] at hafter
      rw [words_append_blank hafter.1, words_of_blanks hafter.2, List.append_nil]
  rw [List.append_assoc, ← hend]
  induction before with
  | nil => rfl
  | cons c rest ih =>
    rw [Blanks, List.forall_mem_cons] at hbefore
    rw [List.cons_append, words_blank hbefore.1, ih hbefore.2]

theorem words_append_left (h : Blanks before) (text : Text) :
    words (before ++ text) = words text := by
  have hsurrounded := words_surrounded h (List.forall_mem_nil _) text
  rwa [List.append_nil] at hsurrounded

/-- Blanks in front of a text are cut off. -/
theorem trimStart_append (h : Blanks before) (text : Text) :
    trimStart (before ++ text) = trimStart text :=
  List.dropWhile_append_of_pos h

theorem trimStart_cons {c : Char} (h : isBlank c = false) (rest : Text) :
    trimStart (c :: rest) = c :: rest :=
  List.dropWhile_cons_of_neg (by rw [h]; exact Bool.false_ne_true)

/-- Blanks behind a text are cut off. -/
theorem trimEnd_append (h : Blanks after) (text : Text) :
    trimEnd (text ++ after) = trimEnd text := by
  rw [trimEnd, List.reverse_append, List.dropWhile_append_of_pos, ← trimEnd]
  simpa only [Blanks, List.mem_reverse] using h

theorem trimEnd_concat {c : Char} (h : isBlank c = false) (text : Text) :
    trimEnd (text ++ [c]) = text ++ [c] := by
  rw [trimEnd, List.reverse_append, List.reverse_singleton, List.singleton_append,
    ← trimStart, trimStart_cons h, List.reverse_cons, List.reverse_reverse]

/-- Blanks around a text are cut off. -/
theorem trim_surrounded (hbefore : Blanks before) (hafter : Blanks after) (text : Text) :
    trim (before ++ text ++ after) = trim text := by
  rw [List.append_assoc, trim, trimStart_append hbefore, trimStart, List.dropWhile_append]
  split
  next hempty =>
    -- There is nothing but blanks.
    have hnil : trimStart after = [] := List.dropWhile_eq_nil_iff.2 hafter
    rw [← trimStart, hnil, trim, trimStart, List.isEmpty_iff.1 hempty]
  next => exact trimEnd_append hafter _

theorem trimEnd_eq_self {text : Text} (hlast : text.getLast?.any isBlank = false) :
    trimEnd text = text := by
  rcases List.eq_nil_or_concat text with rfl | ⟨front, c, rfl⟩
  · rfl
  · rw [List.concat_eq_append, List.getLast?_concat] at hlast
    rw [List.concat_eq_append]
    exact trimEnd_concat hlast front

theorem trim_of_blanks (h : Blanks after) : trim after = [] := by
  have hstart : trimStart after = [] := List.dropWhile_eq_nil_iff.2 h
  rw [trim, hstart]
  rfl

/-- A text without a blank in front is left as it is. -/
theorem trimStart_eq_self {text : Text} (hfirst : text.head?.any isBlank = false) :
    trimStart text = text := by
  rcases text with - | ⟨c, rest⟩
  · rfl
  · exact trimStart_cons hfirst rest

/-- A text without blanks at its ends is left as it is. -/
theorem trim_eq_self {text : Text} (hfirst : text.head?.any isBlank = false)
    (hlast : text.getLast?.any isBlank = false) : trim text = text := by
  rw [trim, trimStart_eq_self hfirst]
  exact trimEnd_eq_self hlast

/-- A text without blanks is left as it is. -/
theorem Unbroken.trim_eq {text : Text} (h : Unbroken text) : trim text = text := by
  refine trim_eq_self ?_ ?_
  · cases hfirst : text.head? with
    | none => rfl
    | some c => exact h c (List.mem_of_head? hfirst)
  · cases hlast : text.getLast? with
    | none => rfl
    | some c => exact h c (List.mem_of_getLast? hlast)

/-- What is cut off in front of a text are blanks. -/
theorem exists_append_trimStart (text : Text) :
    ∃ before, Blanks before ∧ text = before ++ trimStart text :=
  ⟨text.takeWhile isBlank, List.all_eq_true.1 List.all_takeWhile,
    List.takeWhile_append_dropWhile.symm⟩

/-- What is cut off behind a text are blanks. -/
theorem exists_trimEnd_append (text : Text) :
    ∃ after, Blanks after ∧ text = trimEnd text ++ after := by
  obtain ⟨before, hbefore, htext⟩ := exists_append_trimStart text.reverse
  refine ⟨before.reverse, fun c hc => hbefore c (List.mem_reverse.1 hc), ?_⟩
  rw [trimEnd, ← List.reverse_append, ← trimStart, ← htext, List.reverse_reverse]

/-- What is cut off from a text are blanks. -/
theorem exists_surrounded_trim (text : Text) :
    ∃ before after, Blanks before ∧ Blanks after ∧ text = before ++ trim text ++ after := by
  obtain ⟨after, hafter, hstart⟩ := exists_trimEnd_append (trimStart text)
  obtain ⟨before, hbefore, htext⟩ := exists_append_trimStart text
  refine ⟨before, after, hbefore, hafter, ?_⟩
  rw [List.append_assoc, trim, ← hstart, ← htext]

/-- No blank is left in front of a text. -/
theorem isBlank_head_trim (text : Text) : (trim text).head?.any isBlank = false := by
  obtain ⟨after, -, hstart⟩ := exists_trimEnd_append (trimStart text)
  have hhead := any_head?_dropWhile isBlank text
  rw [← trimStart, hstart, ← trim] at hhead
  rcases htrim : trim text with - | ⟨c, rest⟩
  · rfl
  · rwa [htrim] at hhead

/-- No blank is left behind a text. -/
theorem isBlank_getLast_trim (text : Text) : (trim text).getLast?.any isBlank = false := by
  rw [trim, trimEnd, List.getLast?_reverse]
  exact any_head?_dropWhile isBlank _

theorem trim_trim (text : Text) : trim (trim text) = trim text :=
  trim_eq_self (isBlank_head_trim text) (isBlank_getLast_trim text)

theorem trimEnd_trim (text : Text) : trimEnd (trim text) = trim text :=
  trimEnd_eq_self (isBlank_getLast_trim text)

theorem mem_of_mem_trimStart {c : Char} {text : Text} (h : c ∈ trimStart text) : c ∈ text :=
  (List.dropWhile_sublist _).subset h

theorem mem_of_mem_trimEnd {c : Char} {text : Text} (h : c ∈ trimEnd text) : c ∈ text := by
  obtain ⟨after, -, htext⟩ := exists_trimEnd_append text
  rw [htext]
  exact List.mem_append_left _ h

theorem mem_of_mem_trim {c : Char} {text : Text} (h : c ∈ trim text) : c ∈ text :=
  mem_of_mem_trimStart (mem_of_mem_trimEnd h)

theorem trimStart_ne_nil {text : Text} (h : ¬ Blanks text) : trimStart text ≠ [] :=
  fun hnil => h (List.dropWhile_eq_nil_iff.1 hnil)

theorem trimEnd_ne_nil {text : Text} (h : ¬ Blanks text) : trimEnd text ≠ [] := by
  intro hnil
  obtain ⟨after, hafter, htext⟩ := exists_trimEnd_append text
  rw [hnil, List.nil_append] at htext
  exact h (htext ▸ hafter)

/-- A text is trimmed at the end of its last part, when that is not blank. -/
theorem trimEnd_append_of_not_blanks {last : Text} (hlast : ¬ Blanks last) (first : Text) :
    trimEnd (first ++ last) = first ++ trimEnd last := by
  obtain ⟨after, hafter, hend⟩ := exists_trimEnd_append last
  have htext : first ++ last = first ++ trimEnd last ++ after := by
    rw [List.append_assoc, ← hend]
  rw [htext, trimEnd_append hafter]
  refine trimEnd_eq_self ?_
  rw [List.getLast?_append_of_ne_nil _ (trimEnd_ne_nil hlast), trimEnd, List.getLast?_reverse]
  exact any_head?_dropWhile isBlank last.reverse

/-- A text is trimmed at the ends of its first and its last part, when neither is blank. -/
theorem trim_append {first last : Text} (hfirst : ¬ Blanks first) (hlast : ¬ Blanks last)
    (middle : Text) :
    trim (first ++ middle ++ last) = trimStart first ++ middle ++ trimEnd last := by
  have hstart : trimStart (first ++ middle ++ last) = trimStart first ++ middle ++ last := by
    have hne : (trimStart first).isEmpty = false := List.isEmpty_eq_false_iff.2 (trimStart_ne_nil hfirst)
    rw [List.append_assoc, trimStart, List.dropWhile_append, ← trimStart, hne, List.append_assoc]
    rfl
  rw [trim, hstart, trimEnd_append_of_not_blanks hlast]

end ShaderInterface.Text
