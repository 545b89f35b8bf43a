import Mathlib.Tactic.Common
import ShaderInterface.Proofs.Interface.BlockGrammar
import ShaderInterface.Proofs.Interface.Stripping

/-!
# Lexemes between Blanks

A text that consists of lexemes still consists of them when its comments are removed, as a comment
leaves a blank. Between blanks the lexemes are found again: a text is divided at its marks where its
lexemes are, the words of a text are its words, and what is trimmed off is no lexeme.

## Main definitions

* `StartsNoComment`: what keeps an array size from being taken for a comment.
* `BlankGap`: a gap without comments.

## Main results

* `Spaced.stripComments`: without comments there are the same lexemes.
* `Spaced.splitOn`: a text is divided at its marks.
* `Spaced.words`: the words of a text.
* `Spaced.trimStart`, `Spaced.trimEnd`: the gaps at both ends are cut off.
-/

namespace ShaderInterface.Interface

open ShaderInterface.Text

/-! ## Removing comments -/

/-- No comment starts inside a text. -/
structure StartsNoComment (text : Text) : Prop where
  noLineComment : ¬ ['/', '/'] <:+: text
  noBlockComment : ¬ ['/', '*'] <:+: text

theorem startsNoComment_of_notMem {text : Text} (h : '/' ∉ text) : StartsNoComment text where
  noLineComment hmark := h (hmark.subset List.mem_cons_self)
  noBlockComment hmark := h (hmark.subset List.mem_cons_self)

/-- A text in which no comment starts is kept, if none starts at its end either. -/
theorem StartsNoComment.stripComments_append {text rest : Text} (h : StartsNoComment text)
    (hend : text.getLast? = some '/' → rest.head? ≠ some '/' ∧ rest.head? ≠ some '*') :
    stripComments (text ++ rest) = text ++ stripComments rest := by
  induction text with
  | nil => rfl
  | cons c tail ih =>
    have htail : StartsNoComment tail :=
      ⟨fun hmark => h.noLineComment (List.infix_cons hmark),
        fun hmark => h.noBlockComment (List.infix_cons hmark)⟩
    have hlast : tail.getLast? = some '/' → (c :: tail).getLast? = some '/' := by
      intro hlast
      rwa [List.getLast?_cons_of_ne_nil]
      rintro rfl
      cases hlast
    have hcomment : afterComment? (c :: (tail ++ rest)) = none := by
      refine afterComment?_eq_none fun hslash => ?_
      subst hslash
      rcases tail with - | ⟨d, tail⟩
      · exact hend rfl
      · refine ⟨fun hd => h.noLineComment ?_, fun hd => h.noBlockComment ?_⟩ <;>
          obtain rfl := Option.some_inj.1 hd <;>
          exact (List.prefix_append ['/', _] tail).isInfix
    rw [List.cons_append, stripComments_char hcomment, ih htail fun h => hend (hlast h),
      List.cons_append]

/-- Blanks that stand in front of `rest`. -/
def BlankGap (text rest : Text) : Prop :=
  ∃ blanks, Blanks blanks ∧ text = blanks ++ rest

theorem BlankGap.refl (text : Text) : BlankGap text text :=
  ⟨[], List.forall_mem_nil _, rfl⟩

theorem BlankGap.cons {c : Char} {text rest : Text} (hc : isBlank c = true)
    (h : BlankGap text rest) : BlankGap (c :: text) rest := by
  obtain ⟨blanks, hblanks, rfl⟩ := h
  exact ⟨c :: blanks, List.forall_mem_cons.2 ⟨hc, hblanks⟩, rfl⟩

/-- A gap leaves blanks. -/
theorem blankGap_stripComments {text rest : Text} (h : Gap text rest) :
    BlankGap (stripComments text) (stripComments rest) := by
  induction h with
  | done rest => exact .refl _
  | @blank c text rest hc _ ih =>
    have hslash : c ≠ '/' := by
      rintro rfl
      exact absurd hc (by decide)
    rw [stripComments_of_ne hslash]
    exact ih.cons hc
  | lineComment inner hinner _ ih =>
    rw [stripComments_lineComment hinner]
    exact ih.cons (by decide)
  | lastComment inner hinner =>
    rw [stripComments_line, List.dropWhile_eq_nil_iff.2 (forall_bne_of_notMem hinner)]
    exact .refl _
  | blockComment inner hinner _ ih =>
    rw [stripComments_blockComment hinner]
    exact ih.cons (by decide)

/-- A lexeme is kept where it stands. -/
theorem Lexeme.stripComments_append {lexeme : Lexeme} {after : Text} (h : lexeme.WellFormed)
    (hends : lexeme.EndsBefore after) (hsize : ∀ size, lexeme = .size size → StartsNoComment size) :
    stripComments (lexeme.text ++ after) = lexeme.text ++ stripComments after := by
  have hkept {text : Text} (hslash : '/' ∉ text) :
      stripComments (text ++ after) = text ++ stripComments after :=
    (startsNoComment_of_notMem hslash).stripComments_append fun hlast =>
      absurd (List.mem_of_getLast? hlast) hslash
  cases lexeme with
  | word text => exact hkept fun hslash => absurd (h.2 _ hslash) (by decide)
  | size text => exact (hsize text rfl).stripComments_append hends
  | mark c =>
    refine hkept fun hslash => ?_
    obtain rfl : '/' = c := List.mem_singleton.1 hslash
    have hmark : '/' ∈ blockMarks := h
    exact absurd hmark (by decide)

/-- What ends a lexeme still ends it when comments are removed. -/
theorem Lexeme.EndsBefore.stripComments {lexeme : Lexeme} {after : Text}
    (h : lexeme.EndsBefore after) : lexeme.EndsBefore (stripComments after) := by
  rcases head?_stripComments after with hsame | hblank
  · cases lexeme with
    | word | size => rwa [EndsBefore, hsame]
    | mark => trivial
  · cases hhead : (Interface.stripComments after).head? with
    | none => cases lexeme <;> simp [EndsBefore, hhead]
    | some c =>
      rw [hhead] at hblank
      have hc : isBlank c = true := hblank
      cases lexeme with
      | word text => simp [EndsBefore, hhead, isBlockWord, hc]
      | size text =>
        rw [EndsBefore, hhead]
        refine fun _ => ⟨?_, ?_⟩ <;>
          rintro ⟨⟩ <;>
          exact absurd hc (by decide)
      | mark => trivial

/-- Without comments the same lexemes have blanks between them. -/
theorem Spaced.stripComments {lexemes : List Lexeme} {text : Text} (h : Spaced Gap lexemes text)
    (hsizes : ∀ size, .size size ∈ lexemes → StartsNoComment size) :
    Spaced BlankGap lexemes (stripComments text) := by
  induction h with
  | nil hgap =>
    have hblank := blankGap_stripComments hgap
    rw [stripComments_nil] at hblank
    exact .nil hblank
  | @cons lexeme lexemes text after hlexeme hgap hends _ ih =>
    have hkept := Lexeme.stripComments_append hlexeme hends fun size heq =>
      hsizes size (heq ▸ List.mem_cons_self)
    have hblank := blankGap_stripComments hgap
    rw [hkept] at hblank
    exact .cons hlexeme hblank hends.stripComments
      (ih fun size hmem => hsizes size (List.mem_cons_of_mem _ hmem))

/-- A text without lexemes is blank. -/
theorem Spaced.blankGap {text : Text} (h : Spaced BlankGap [] text) : BlankGap text [] := by
  cases h with
  | nil hgap => exact hgap

/-! ## Dividing a text at its marks -/

theorem isBlank_of_mem_blockMarks {c : Char} (h : c ∈ blockMarks) : isBlank c = false := by
  have hall : blockMarks.all (!isBlank ·) = true := by decide
  simpa using List.all_eq_true.1 hall c h

/-- A mark stands in no other lexeme. -/
theorem Lexeme.notMem_text {lexeme : Lexeme} {c : Char} (h : lexeme.WellFormed) (hc : c ∈ blockMarks)
    (hne : lexeme ≠ .mark c) : c ∉ lexeme.text := by
  cases lexeme with
  | word text =>
    intro hmem
    have hword := h.2 c hmem
    simp [isBlockWord, hc] at hword
  | size text => exact fun hmem => h c hmem hc
  | mark d =>
    intro hmem
    rw [List.mem_singleton.1 hmem] at hne
    exact hne rfl

/-- A mark stands in no text that it is no lexeme of. -/
theorem Spaced.notMem {lexemes : List Lexeme} {text : Text} {c : Char}
    (h : Spaced BlankGap lexemes text) (hc : c ∈ blockMarks) (hlexemes : .mark c ∉ lexemes) :
    c ∉ text := by
  have hblank := isBlank_of_mem_blockMarks hc
  induction h with
  | nil hgap =>
    obtain ⟨blanks, hblanks, rfl⟩ := hgap
    rw [List.append_nil]
    exact notMem_of_blanks hblanks hblank
  | cons hlexeme hgap _ _ ih =>
    obtain ⟨blanks, hblanks, rfl⟩ := hgap
    obtain ⟨hne, hrest⟩ := List.ne_and_not_mem_of_not_mem_cons hlexemes
    simp only [List.mem_append, not_or]
    exact ⟨notMem_of_blanks hblanks hblank, Lexeme.notMem_text hlexeme hc (Ne.symm hne), ih hrest⟩

/-- What stands behind a lexeme starts as before when its end is cut off, or is gone. -/
theorem Lexeme.EndsBefore.of_append {lexeme : Lexeme} {before behind : Text}
    (h : lexeme.EndsBefore (before ++ behind)) : lexeme.EndsBefore before := by
  rcases before with - | ⟨d, before⟩
  · cases lexeme with
    | word text => rfl
    | size text => simp [EndsBefore]
    | mark => trivial
  · cases lexeme <;> exact h

/-- A text is divided by a mark into the lexemes in front of it and those behind it. -/
theorem Spaced.exists_of_mark {first second : List Lexeme} {text : Text} {c : Char}
    (h : Spaced BlankGap (first ++ .mark c :: second) text) :
    ∃ before behind, text = before ++ c :: behind ∧ Spaced BlankGap first before ∧
      Spaced BlankGap second behind := by
  induction first generalizing text with
  | nil =>
    cases h with
    | cons _ hgap _ hbehind =>
      obtain ⟨blanks, hblanks, rfl⟩ := hgap
      exact ⟨blanks, _, rfl, .nil ⟨blanks, hblanks, (List.append_nil _).symm⟩, hbehind⟩
  | cons lexeme first ih =>
    cases h with
    | cons hlexeme hgap hends hbehind =>
      obtain ⟨blanks, hblanks, rfl⟩ := hgap
      obtain ⟨before, behind, rfl, hbefore, hsecond⟩ := ih hbehind
      refine ⟨blanks ++ (lexeme.text ++ before), behind, by simp, ?_, hsecond⟩
      exact .cons hlexeme ⟨blanks, hblanks, rfl⟩ hends.of_append hbefore

/-- A text is split at all marks of a kind. -/
theorem Spaced.splitOn {c : Char} (hc : c ∈ blockMarks) {parts : List (List Lexeme)} (hne : parts ≠ [])
    (hparts : ∀ part ∈ parts, .mark c ∉ part) {text : Text}
    (h : Spaced BlankGap ([.mark c].intercalate parts) text) :
    List.Forall₂ (Spaced BlankGap) parts (text.splitOn c) := by
  induction parts generalizing text with
  | nil => exact absurd rfl hne
  | cons part parts ih =>
    rw [List.forall_mem_cons] at hparts
    rcases parts with - | ⟨next, parts⟩
    · rw [List.intercalate_singleton] at h
      rw [List.splitOn_eq_singleton (h.notMem hc hparts.1)]
      exact .cons h .nil
    · rw [List.intercalate_cons_cons, List.append_assoc, List.singleton_append] at h
      obtain ⟨before, behind, rfl, hbefore, hbehind⟩ := h.exists_of_mark
      rw [List.splitOn_append_cons_self_of_not_mem (hbefore.notMem hc hparts.1)]
      exact .cons hbefore (ih (List.cons_ne_nil _ _) hparts.2 hbehind)

/-! ## Words -/

theorem isBlank_of_isBlockWord {c : Char} (h : isBlockWord c = true) : isBlank c = false := by
  rw [isBlockWord, Bool.and_eq_true, Bool.not_eq_true'] at h
  exact h.1

/-- Between two words there is a blank. -/
theorem Spaced.isBlank_head {words : List Text} {text : Text}
    (h : Spaced BlankGap (words.map .word) text) (hends : text.head?.any isBlockWord = false) :
    text.head?.all isBlank = true := by
  cases words with
  | nil =>
    cases h with
    | nil hgap =>
      obtain ⟨blanks, hblanks, rfl⟩ := hgap
      rcases blanks with - | ⟨c, blanks⟩
      · rfl
      · exact hblanks c List.mem_cons_self
  | cons word words =>
    cases h with
    | cons hword hgap _ _ =>
      obtain ⟨blanks, hblanks, rfl⟩ := hgap
      rcases blanks with - | ⟨c, blanks⟩
      · -- The next word would make the one in front of it longer.
        obtain ⟨hne, hchars⟩ := hword
        obtain ⟨c, tail, rfl⟩ := List.exists_cons_of_ne_nil hne
        exact absurd ((hchars c List.mem_cons_self).symm.trans hends) nofun
      · exact hblanks c List.mem_cons_self

/-- The words of a text that consists of words. -/
theorem Spaced.words {words : List Text} {text : Text}
    (h : Spaced BlankGap (words.map .word) text) : text.words = words := by
  induction words generalizing text with
  | nil =>
    cases h with
    | nil hgap =>
      obtain ⟨blanks, hblanks, rfl⟩ := hgap
      rw [List.append_nil]
      exact words_of_blanks hblanks
  | cons word words ih =>
    cases h with
    | @cons _ _ _ after hword hgap hends hbehind =>
      obtain ⟨blanks, hblanks, rfl⟩ := hgap
      have hunbroken : Unbroken word := fun c hc => isBlank_of_isBlockWord (hword.2 c hc)
      rw [words_append_left hblanks]
      show Text.words (word ++ after) = _
      rw [words_append hword.1 hunbroken (hbehind.isBlank_head hends), ih hbehind]

/-! ## Trimming -/

/-- The characters of its lexemes belong to a text. -/
theorem Spaced.mem {lexemes : List Lexeme} {text : Text} (h : Spaced BlankGap lexemes text)
    {lexeme : Lexeme} (hlexeme : lexeme ∈ lexemes) {c : Char} (hc : c ∈ lexeme.text) : c ∈ text := by
  induction h with
  | nil => cases hlexeme
  | cons _ hgap _ _ ih =>
    obtain ⟨blanks, -, rfl⟩ := hgap
    rcases List.mem_cons.1 hlexeme with rfl | hlexeme
    · exact List.mem_append_right _ (List.mem_append_left _ hc)
    · exact List.mem_append_right _ (List.mem_append_right _ (ih hlexeme))

theorem Spaced.wellFormed {lexemes : List Lexeme} {text : Text} (h : Spaced BlankGap lexemes text)
    {lexeme : Lexeme} (hlexeme : lexeme ∈ lexemes) : lexeme.WellFormed := by
  induction h with
  | nil => cases hlexeme
  | cons hfirst _ _ _ ih =>
    rcases List.mem_cons.1 hlexeme with rfl | hlexeme
    · exact hfirst
    · exact ih hlexeme

/-- A word or a mark is not empty and holds no blanks. -/
theorem Lexeme.unbroken {lexeme : Lexeme} (h : lexeme.WellFormed) (hsize : lexeme.isSize = false) :
    lexeme.text ≠ [] ∧ Unbroken lexeme.text := by
  cases lexeme with
  | word text => exact ⟨h.1, fun c hc => isBlank_of_isBlockWord (h.2 c hc)⟩
  | size text => cases hsize
  | mark c => exact ⟨List.cons_ne_nil _ _, List.forall_mem_singleton.2 (isBlank_of_mem_blockMarks h)⟩

/-- A text with a word or a mark is not blank. -/
theorem Spaced.not_blanks {lexemes : List Lexeme} {text : Text} (h : Spaced BlankGap lexemes text)
    {lexeme : Lexeme} (hlexeme : lexeme ∈ lexemes) (hsize : lexeme.isSize = false) :
    ¬ Blanks text := by
  intro hblanks
  obtain ⟨hne, hunbroken⟩ := Lexeme.unbroken (h.wellFormed hlexeme) hsize
  obtain ⟨c, tail, htext⟩ := List.exists_cons_of_ne_nil hne
  have hc : c ∈ lexeme.text := by simp [htext]
  exact notMem_of_blanks hblanks (hunbroken c hc) (h.mem hlexeme hc)

/-- The gap in front of a word or a mark is cut off. -/
theorem Spaced.trimStart {first : Lexeme} {lexemes : List Lexeme} {text : Text}
    (h : Spaced BlankGap (first :: lexemes) text) (hfirst : first.isSize = false) :
    Spaced BlankGap (first :: lexemes) text.trimStart := by
  cases h with
  | @cons _ _ _ after hlexeme hgap hends hbehind =>
    obtain ⟨blanks, hblanks, rfl⟩ := hgap
    obtain ⟨hne, hunbroken⟩ := Lexeme.unbroken hlexeme hfirst
    obtain ⟨c, tail, htext⟩ := List.exists_cons_of_ne_nil hne
    have hc : isBlank c = false := hunbroken c (by simp [htext])
    have hstart : Text.trimStart (first.text ++ after) = first.text ++ after := by
      rw [htext, List.cons_append, trimStart_cons hc]
    rw [trimStart_append hblanks, hstart]
    exact .cons hlexeme (.refl _) hends hbehind

/-- The gap behind a word or a mark is cut off. -/
theorem Spaced.trimEnd {front : List Lexeme} {last : Lexeme} {text : Text}
    (h : Spaced BlankGap (front ++ [last]) text) (hlast : last.isSize = false) :
    Spaced BlankGap (front ++ [last]) text.trimEnd := by
  induction front generalizing text with
  | nil =>
    cases h with
    | cons hlexeme hgap hends hbehind =>
      obtain ⟨blanks, hblanks, rfl⟩ := hgap
      obtain ⟨after, hafter, rfl⟩ := hbehind.blankGap
      obtain ⟨hne, hunbroken⟩ := Lexeme.unbroken hlexeme hlast
      obtain ⟨tail, c, htext⟩ := (List.eq_nil_or_concat' last.text).resolve_left hne
      have hend : Text.trimEnd (blanks ++ last.text) = blanks ++ last.text := by
        rw [htext, ← List.append_assoc, trimEnd_concat (hunbroken c (by simp [htext]))]
      rw [List.append_nil, ← List.append_assoc, trimEnd_append hafter, hend]
      have hnothing : Spaced BlankGap [] [] := .nil (.refl _)
      have hends : last.EndsBefore ([] ++ (after ++ [])) := hends
      refine .cons hlexeme ⟨blanks, hblanks, ?_⟩ hends.of_append hnothing
      rw [List.append_nil]
  | cons lexeme front ih =>
    cases h with
    | @cons _ _ _ after hlexeme hgap hends hbehind =>
      obtain ⟨blanks, hblanks, rfl⟩ := hgap
      have hafter : ¬ Blanks after := hbehind.not_blanks (by simp) hlast
      obtain ⟨gap, -, hcut⟩ := exists_trimEnd_append after
      rw [← List.append_assoc, trimEnd_append_of_not_blanks hafter, List.append_assoc]
      rw [hcut] at hends
      exact .cons hlexeme ⟨blanks, hblanks, rfl⟩ hends.of_append (ih hbehind)

/-- The name behind a comma. -/
theorem Spaced.trim_word {word text : Text} (h : Spaced BlankGap [.word word] text) :
    text.trim = word ∧ word ≠ [] := by
  cases h with
  | cons hword hgap _ hbehind =>
    obtain ⟨blanks, hblanks, rfl⟩ := hgap
    obtain ⟨after, hafter, rfl⟩ := hbehind.blankGap
    obtain ⟨hne, hunbroken⟩ := Lexeme.unbroken hword rfl
    rw [List.append_nil, ← List.append_assoc, trim_surrounded hblanks hafter]
    exact ⟨Unbroken.trim_eq hunbroken, hne⟩

end ShaderInterface.Interface
