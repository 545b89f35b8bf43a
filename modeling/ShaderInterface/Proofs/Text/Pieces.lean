import Mathlib.Data.List.SplitBy
import Mathlib.Tactic.Common
import ShaderInterface.Proofs.Text.Cuts
import ShaderInterface.Text.Word

/-!
# Pieces of a Text

A text falls into pieces: its words, which are the runs of word characters as long as possible, and
the other characters, one by one. Whatever is put in the place of single words, two words never
grow together and no word is torn apart, because a word has no word character beside it. So one
rewriting of the words after another is a single rewriting of the words.

## Main definitions

* `IsRun`: a non-empty run of word characters.
* `pieces`: the pieces of a text.
* `mapPieces`: the text with every piece replaced.

## Main results

* `pieces_induction`: induction on the pieces of a text.
* `mapPieces_mapPieces`: two replacements of words are one.
-/

namespace ShaderInterface.Text

/-- A non-empty run of word characters. -/
structure IsRun (text : Text) : Prop where
  ne_nil : text ≠ []
  isWord : ∀ c ∈ text, isWord c = true

instance (text : Text) : Decidable (IsRun text) :=
  decidable_of_iff (text ≠ [] ∧ text.all isWord = true)
    ⟨fun h => ⟨h.1, List.all_eq_true.1 h.2⟩, fun h => ⟨h.ne_nil, List.all_eq_true.2 h.isWord⟩⟩

/-- The words of a text and its other characters, in order. -/
def pieces (text : Text) : List Text :=
  text.splitBy fun c d => isWord c && isWord d

/-- The text in which `replace` is put in the place of every piece. -/
def mapPieces (replace : Text → Text) (text : Text) : Text :=
  (pieces text).flatMap replace

variable {word rest : Text} {c : Char}

/-! ## Runs of word characters -/

/-- A run starts with a word character, whatever stands behind it. -/
theorem IsRun.isWord_head (h : IsRun word) (rest : Text) : isWord? (word ++ rest).head? = true := by
  obtain ⟨c, tail, rfl⟩ := List.exists_cons_of_ne_nil h.ne_nil
  exact h.isWord c (List.mem_cons_self ..)

/-- A run ends with a word character. -/
theorem IsRun.isWord_getLast (h : IsRun word) : isWord? word.getLast? = true := by
  rw [List.getLast?_eq_some_getLast h.ne_nil]
  exact h.isWord _ (List.getLast_mem h.ne_nil)

/-- The word characters at the front of a text are found when none comes behind them. -/
theorem takeWhile_isWord (hword : ∀ c ∈ word, isWord c = true) (hrest : isWord? rest.head? = false) :
    (word ++ rest).takeWhile isWord = word := by
  have hstop : rest.takeWhile isWord = [] := (takeWhile_append_of_stop [] hrest).1
  rw [List.takeWhile_append_of_pos hword, hstop, List.append_nil]

/-- What comes behind them is found as well. -/
theorem dropWhile_isWord (hword : ∀ c ∈ word, isWord c = true) (hrest : isWord? rest.head? = false) :
    (word ++ rest).dropWhile isWord = rest := by
  rw [(takeWhile_append_of_stop word hrest).2, List.dropWhile_eq_nil_iff.2 hword, List.nil_append]

/-- A text is cut into word characters and a rest without one in front in one way only. -/
theorem append_inj_of_isWord {first second last tail : Text}
    (hfirst : ∀ c ∈ first, isWord c = true) (hlast : isWord? last.head? = false)
    (hsecond : ∀ c ∈ second, isWord c = true) (htail : isWord? tail.head? = false)
    (h : first ++ last = second ++ tail) : first = second ∧ last = tail := by
  have hword : first = second := by
    rw [← takeWhile_isWord hfirst hlast, h, takeWhile_isWord hsecond htail]
  exact ⟨hword, List.append_cancel_left (hword ▸ h)⟩

/-! ## Cutting off a piece -/

@[simp]
theorem pieces_nil : pieces [] = [] := rfl

/-- Two texts that do not meet in word characters share no piece. -/
theorem pieces_append {first second : Text} (h : isWord? second.head? = false) :
    pieces (first ++ second) = pieces first ++ pieces second := by
  -- A text is not cut between two word characters, and cut everywhere else.
  refine List.splitBy_append fun c _ d hd => ?_
  rw [hd] at h
  simp only [isWord?, Option.any_some] at h
  rw [h, Bool.and_false]

/-- A run of word characters is a single piece. -/
theorem pieces_of_isRun (h : IsRun word) : pieces word = [word] := by
  refine List.splitBy_of_isChain h.ne_nil (List.Pairwise.isChain ?_)
  refine List.pairwise_of_forall_mem_list fun c hc d hd => ?_
  rw [h.isWord c hc, h.isWord d hd, Bool.and_self]

/-- A character outside of words is a piece. -/
theorem pieces_mark (rest : Text) (h : isWord c = false) :
    pieces (c :: rest) = [c] :: pieces rest := by
  refine List.splitBy_append (l := [c]) fun d hd _ _ => ?_
  obtain rfl : c = d := by simpa using hd
  rw [h, Bool.false_and]

/-- Nothing of a text is lost in its pieces. -/
theorem flatten_pieces (text : Text) : (pieces text).flatten = text :=
  List.flatten_splitBy _ text

/-- Induction on the pieces of a text: a character outside of words, or a whole word, stands in front
of a text for which the statement holds. -/
theorem pieces_induction {motive : Text → Prop} (nil : motive [])
    (mark : ∀ c rest, isWord c = false → motive rest → motive (c :: rest))
    (word : ∀ word rest, IsRun word → isWord? rest.head? = false → motive rest →
      motive (word ++ rest)) (text : Text) : motive text := by
  -- A word is cut off as a whole, so that the induction is on the length.
  induction hlength : text.length using Nat.strong_induction_on generalizing text with
  | _ length ih =>
    subst hlength
    rcases text with - | ⟨c, tail⟩
    · exact nil
    by_cases hc : isWord c = true
    · rw [← List.takeWhile_append_dropWhile (p := isWord) (l := c :: tail)]
      have hne : (c :: tail).takeWhile isWord ≠ [] := by
        rw [List.takeWhile_cons_of_pos hc]
        exact List.cons_ne_nil _ _
      have hshorter : ((c :: tail).dropWhile isWord).length < (c :: tail).length := by
        rw [List.dropWhile_cons_of_pos hc]
        exact Nat.lt_succ_of_le (List.dropWhile_suffix isWord).length_le
      exact word _ _ ⟨hne, List.all_eq_true.1 List.all_takeWhile⟩ (any_head?_dropWhile isWord _)
        (ih _ hshorter _ rfl)
    · rw [Bool.not_eq_true] at hc
      exact mark c tail hc (ih _ (Nat.lt_succ_self _) _ rfl)

/-! ## Replacing the pieces -/

@[simp]
theorem mapPieces_nil (replace : Text → Text) : mapPieces replace [] = [] := rfl

theorem mapPieces_mark (replace : Text → Text) (rest : Text) (h : isWord c = false) :
    mapPieces replace (c :: rest) = replace [c] ++ mapPieces replace rest := by
  rw [mapPieces, pieces_mark rest h, List.flatMap_cons, ← mapPieces]

theorem mapPieces_append (replace : Text → Text) {first second : Text}
    (h : isWord? second.head? = false) :
    mapPieces replace (first ++ second) = mapPieces replace first ++ mapPieces replace second := by
  rw [mapPieces, pieces_append h, List.flatMap_append, ← mapPieces, ← mapPieces]

theorem mapPieces_of_isRun (replace : Text → Text) (h : IsRun word) :
    mapPieces replace word = replace word := by
  rw [mapPieces, pieces_of_isRun h, List.flatMap_singleton]

/-- A piece has no other piece in it. -/
theorem mapPieces_of_mem (replace : Text → Text) {piece text : Text} (h : piece ∈ pieces text) :
    mapPieces replace piece = replace piece := by
  induction text using pieces_induction with
  | nil => cases h
  | mark c rest hc ih =>
    rw [pieces_mark _ hc] at h
    rcases List.mem_cons.1 h with rfl | h
    · rw [mapPieces_mark _ _ hc, mapPieces_nil, List.append_nil]
    · exact ih h
  | word word rest hword hrest ih =>
    -- The piece is the word in front, which is a run, or one of the pieces behind.
    rw [pieces_append hrest, pieces_of_isRun hword] at h
    rcases List.mem_cons.1 h with rfl | h
    · exact mapPieces_of_isRun replace hword
    · exact ih h

theorem mapPieces_congr {first second : Text → Text} {text : Text}
    (h : ∀ piece ∈ pieces text, first piece = second piece) :
    mapPieces first text = mapPieces second text := by
  rw [mapPieces, List.flatMap_def, List.map_congr_left h, ← List.flatMap_def, ← mapPieces]

/-- A text whose pieces are all kept stays as it is. -/
theorem mapPieces_of_forall {replace : Text → Text} {text : Text}
    (h : ∀ piece ∈ pieces text, replace piece = piece) : mapPieces replace text = text := by
  rw [mapPieces, List.flatMap_def, List.map_congr_left h, List.map_id', flatten_pieces]

/-- The border in front of a text stays when the characters outside of words do. -/
theorem isWord_head_mapPieces {replace : Text → Text}
    (hreplace : ∀ c, isWord c = false → replace [c] = [c]) (h : isWord? rest.head? = false) :
    isWord? (mapPieces replace rest).head? = false := by
  rcases rest with - | ⟨c, tail⟩
  · rfl
  · have hc : isWord c = false := h
    rw [mapPieces_mark _ _ hc, hreplace c hc]
    exact hc

/-- Replacing the words of a text in which words were replaced is a single replacement. -/
theorem mapPieces_mapPieces (first second : Text → Text)
    (hfirst : ∀ c, isWord c = false → first [c] = [c]) (text : Text) :
    mapPieces second (mapPieces first text) =
      mapPieces (fun piece => mapPieces second (first piece)) text := by
  induction text using pieces_induction with
  | nil => rfl
  | mark c rest hc ih =>
    rw [mapPieces_mark _ _ hc, mapPieces_mark _ _ hc, hfirst c hc, List.singleton_append,
      mapPieces_mark _ _ hc, mapPieces_mark _ [] hc, ih, mapPieces_nil, List.append_nil]
  | word word rest hword hrest ih =>
    -- What replaces the word has the same border behind it as the word had.
    rw [mapPieces_append _ hrest, mapPieces_append _ hrest, mapPieces_of_isRun _ hword,
      mapPieces_of_isRun _ hword, mapPieces_append _ (isWord_head_mapPieces hfirst hrest), ih]

end ShaderInterface.Text
