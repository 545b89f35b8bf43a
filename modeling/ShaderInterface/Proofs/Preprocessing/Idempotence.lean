import ShaderInterface.Preprocessing.Source
import ShaderInterface.Proofs.Number.Positional
import ShaderInterface.Proofs.Number.Sign
import ShaderInterface.Proofs.Preprocessing.Plain
import ShaderInterface.Proofs.Preprocessing.Relocation
import ShaderInterface.Proofs.Preprocessing.Substitution
import ShaderInterface.Proofs.Text.Lines

/-!
# Preprocessing Twice

No line of a preprocessed shader is blank, a comment line or a directive for the preprocessor, and there are
still none after numbers have been put in the place of names, so that preprocessing the shader once more
changes nothing.

A name may be any text, and may even reach over the end of a line. Replacing it takes out a part of the text
and puts a number there, at the border of a word. What a line starts with can change only where a number is
put, and no number makes up the mark of a comment or the word of a directive, neither by itself nor with
the characters around it.

## Main definitions

* `IsInert`: a text that makes no comment line or directive of a line that it is put into.
* `Edited`: a text in which parts have given way to another text.

## Main results

* `isInert_text`: the text of a number is inert.
* `Edited.special`: a line that becomes special was special before.
* `preprocess_preprocess`: preprocessing a preprocessed shader changes nothing.
-/

namespace ShaderInterface.Preprocessing

open ShaderInterface.Text

variable {inserted text edited front rest word line : Text} {before : Option Char}

/-! ## Texts that make nothing special -/

/-- A text does not start inside another one, whatever stands behind that. -/
def NeverStartsIn (inserted front : Text) : Prop :=
  ∀ tail, tail ≠ [] → tail <:+ front → ∀ behind, ¬ inserted <+: tail ++ behind

/-- A text without blanks that starts neither with a number sign or a slash nor inside the word of a
directive. -/
structure IsInert (inserted : Text) : Prop where
  ne_nil : inserted ≠ []
  unbroken : Unbroken inserted
  head : ∀ c ∈ inserted.head?, c ≠ '#' ∧ c ≠ '/'
  word : ∀ word ∈ directiveWords, NeverStartsIn inserted word

/-- A text in which parts have given way to another text: each part stood between borders of words, and
the character in front of the text is that of the text before. -/
inductive Edited (inserted : Text) : Option Char → Text → Text → Prop
  | nil {before : Option Char} : Edited inserted before [] []
  | keep {before : Option Char} (c : Char) {rest edited : Text} :
      Edited inserted (some c) rest edited → Edited inserted before (c :: rest) (c :: edited)
  | put {before : Option Char} (removed : Text) {rest edited : Text} :
      isBoundary before (removed ++ rest).head? = true →
      isBoundary (removed.getLast?.or before) rest.head? = true →
      Edited inserted (removed.getLast?.or before) rest edited →
      Edited inserted before (removed ++ rest) (inserted ++ edited)

/-! ## Replacing a name -/

/-- A name is found between two borders of words. -/
theorem of_wholeWord? {name : Text} (h : wholeWord? name before text = some rest) :
    text = name ++ rest ∧ isBoundary before text.head? = true ∧
      isBoundary (name.getLast?.or before) rest.head? = true := by
  obtain ⟨found, hfound, hboundaries⟩ := Option.bind_eq_some_iff.1 h
  obtain rfl := List.isPrefixOf?_eq_some_iff_append_eq.1 hfound
  split at hboundaries
  next hall =>
    cases hboundaries
    exact ⟨rfl, Bool.and_eq_true_iff.1 hall⟩
  next => cases hboundaries

/-- Replacing a name takes out parts of the text. -/
theorem edited_replaceWordFrom (name inserted : Text) (before : Option Char) (text : Text) :
    Edited inserted before text (replaceWordFrom name inserted before text) := by
  fun_induction replaceWordFrom name inserted before text with
  | case1 before hfound =>
    obtain ⟨found, hfound⟩ := Option.isSome_iff_exists.1 hfound
    obtain ⟨htext, hstart, hend⟩ := of_wholeWord? hfound
    obtain ⟨rfl, rfl⟩ := List.append_eq_nil_iff.1 htext.symm
    have hput : Edited inserted before ([] ++ []) (inserted ++ []) := .put [] hstart hend .nil
    rwa [List.append_nil, List.append_nil] at hput
  | case2 before hfound => exact .nil
  | case3 before c rest hnone ih => exact .keep c ih
  | case4 before c rest found hfound hempty ih =>
    -- The empty name takes out nothing.
    obtain ⟨-, hstart, -⟩ := of_wholeWord? hfound
    exact .put [] hstart hstart (.keep c ih)
  | case5 before c rest found hfound hne ih =>
    obtain ⟨htext, hstart, hend⟩ := of_wholeWord? hfound
    obtain ⟨d, tail, rfl⟩ := List.exists_cons_of_ne_nil (List.isEmpty_eq_false_iff.1 (Bool.eq_false_iff.2 hne))
    have hcons := htext
    rw [List.cons_append] at hcons
    obtain ⟨rfl, hrest⟩ := List.cons.inj hcons
    have hbehind : rest.drop ((c :: tail).length - 1) = found := by
      rw [hrest, List.length_cons, Nat.add_sub_cancel, List.drop_left]
    have hlast : (c :: tail).getLast?.or before = (c :: tail).getLast? := by
      rw [List.getLast?_cons, Option.some_or]
    rw [hbehind] at ih ⊢
    rw [htext] at hstart ⊢
    refine .put (c :: tail) hstart hend ?_
    rw [hlast]
    exact ih

/-! ## Edited texts -/

theorem neverStartsIn_of_head (hne : inserted ≠ []) (h : ∀ c ∈ inserted.head?, c ∉ front) :
    NeverStartsIn inserted front := by
  intro tail htail hsuffix behind hstarts
  obtain ⟨c, inserted, rfl⟩ := List.exists_cons_of_ne_nil hne
  obtain ⟨d, tail, rfl⟩ := List.exists_cons_of_ne_nil htail
  obtain ⟨rfl, -⟩ := List.cons_prefix_cons.1 hstarts
  exact h c rfl (hsuffix.subset (List.mem_cons_self ..))

/-- An inert text does not start with a blank. -/
theorem IsInert.head_notMem_blanks (h : IsInert inserted) {blanks : Text} (hblanks : Blanks blanks) :
    ∀ c ∈ inserted.head?, c ∉ blanks := by
  intro c hc hmem
  cases (hblanks c hmem).symm.trans (h.unbroken c (List.mem_of_head? hc))

/-- Whether a line starts with a word does not depend on what stands behind it. -/
theorem isWord_head_feed (first rest : Text) :
    isWord? (first ++ '\n' :: rest).head? = isWord? first.head? := by
  cases first with
  | nil => rfl
  | cons c first => rfl

/-- Behind a text with a character in front, the neighbour is the same as without what is before it. -/
theorem getLast?_cons_or (c : Char) (front : Text) (before : Option Char) :
    (c :: front).getLast?.or before = front.getLast?.or (some c) := by
  rw [List.getLast?_cons, Option.some_or]
  cases front.getLast? <;> rfl

namespace Edited

/-- The front of an edited text in which nothing was put was there before. -/
theorem exists_of_append (hfront : NeverStartsIn inserted front)
    (h : Edited inserted before text (front ++ edited)) : ∃ rest, text = front ++ rest ∧
      Edited inserted (front.getLast?.or before) rest edited := by
  induction front generalizing before text with
  | nil => exact ⟨text, rfl, h⟩
  | cons c front ih =>
    generalize hall : c :: front ++ edited = all at h
    cases h with
    | nil => cases hall
    | keep d hrest =>
      obtain ⟨rfl, rfl⟩ := List.cons.inj hall
      have htail : NeverStartsIn inserted front := fun tail hne hsuffix =>
        hfront tail hne (hsuffix.trans (List.suffix_cons c front))
      obtain ⟨rest, rfl, hbehind⟩ := ih htail hrest
      refine ⟨rest, rfl, ?_⟩
      rwa [getLast?_cons_or]
    | put removed _ _ _ =>
      exact absurd ⟨_, hall.symm⟩
        (hfront (c :: front) (List.cons_ne_nil _ _) List.suffix_rfl edited)

/-- A line feed in an edited text was there before. -/
theorem exists_of_feed (hfeed : '\n' ∉ inserted)
    (h : Edited inserted before text (line ++ '\n' :: edited)) : ∃ first rest,
      text = first ++ '\n' :: rest ∧ Edited inserted before first line ∧
        Edited inserted (some '\n') rest edited := by
  generalize hall : line ++ '\n' :: edited = all at h
  induction h generalizing line with
  | nil => cases List.append_eq_nil_iff.1 hall |>.2
  | keep c hrest ih =>
    rcases line with - | ⟨d, line⟩
    · obtain ⟨rfl, rfl⟩ := List.cons.inj hall
      exact ⟨[], _, rfl, .nil, hrest⟩
    · rw [List.cons_append] at hall
      obtain ⟨rfl, htail⟩ := List.cons.inj hall
      obtain ⟨first, rest, rfl, hfirst, hlast⟩ := ih htail
      exact ⟨d :: first, rest, rfl, .keep d hfirst, hlast⟩
  | @put before removed rest edited' hstart hend hrest ih =>
    have hline : ∃ behind, line = inserted ++ behind ∧ behind ++ '\n' :: edited = edited' := by
      rcases List.append_eq_append_iff.1 hall with ⟨tail, hinserted, htail⟩ | ⟨tail, hline, htail⟩
      · rcases tail with - | ⟨c, tail⟩
        · exact ⟨[], by rw [hinserted, List.append_nil, List.append_nil], htail⟩
        · obtain ⟨rfl, -⟩ := List.cons.inj htail
          exact absurd (by simp [hinserted]) hfeed
      · exact ⟨tail, hline, htail.symm⟩
    obtain ⟨behind, rfl, hbehind⟩ := hline
    obtain ⟨first, last, rfl, hfirst, hlast⟩ := ih hbehind
    -- The line feed is no part of a word, and neither is the end of the text.
    rw [← List.append_assoc] at hstart
    refine ⟨removed ++ first, last, (List.append_assoc ..).symm, .put removed ?_ ?_ hfirst, hlast⟩
    · rwa [isBoundary, isWord_head_feed] at hstart
    · rwa [isBoundary, isWord_head_feed] at hend

theorem eq_nil (hne : inserted ≠ []) (h : Edited inserted before text []) : text = [] := by
  generalize hnone : ([] : Text) = none at h
  cases h with
  | nil => rfl
  | keep => cases hnone
  | put => exact absurd (List.append_eq_nil_iff.1 hnone.symm).1 hne

/-- An edited text consists of whole lines if the text does. -/
theorem endsLine (hne : inserted ≠ []) (hbefore : text = [] → isWord? before = false)
    (htext : EndsLine text) (h : Edited inserted before text edited) : EndsLine edited := by
  induction h with
  | nil => exact .inl rfl
  | @keep before c rest edited hrest ih =>
    refine .inr ?_
    by_cases hnil : rest = []
    · subst hnil
      obtain rfl : c = '\n' := Option.some.inj (htext.resolve_left (List.cons_ne_nil _ _))
      rcases ih (fun _ => rfl) (.inl rfl) with rfl | hedited
      · rfl
      · rw [List.getLast?_cons, hedited]
        rfl
    · have hedited := ih (fun h => absurd h hnil) (htext.of_append [c])
      have hne' : edited ≠ [] := fun h => hnil (eq_nil hne (h ▸ hrest))
      rw [List.getLast?_cons_of_ne_nil hne']
      exact hedited.resolve_left hne'
  | @put before removed rest edited hstart hend hrest ih =>
    refine .inr ?_
    by_cases hnil : rest = []
    · -- A line feed cannot be taken out at the end, since no border of a word is behind it.
      subst hnil
      rw [List.append_nil] at htext hstart hbefore
      rcases htext with rfl | hlast
      · rw [isBoundary, hbefore rfl] at hstart
        cases hstart
      · rw [hlast] at hend
        cases hend
    · have hedited := ih (fun h => absurd h hnil) (htext.of_append removed)
      have hne' : edited ≠ [] := fun h => hnil (eq_nil hne (h ▸ hrest))
      rw [List.getLast?_append_of_ne_nil _ hne']
      exact hedited.resolve_left hne'

theorem mem_or_mem {c : Char} (h : Edited inserted before text edited) (hc : c ∈ edited) :
    c ∈ text ∨ c ∈ inserted := by
  induction h with
  | nil => cases hc
  | keep d _ ih =>
    rcases List.mem_cons.1 hc with rfl | hc
    · exact .inl (List.mem_cons_self ..)
    · exact (ih hc).imp_left (List.mem_cons_of_mem _)
  | put removed _ _ _ ih =>
    rcases List.mem_append.1 hc with hc | hc
    · exact .inr hc
    · exact (ih hc).imp_left (List.mem_append_right _)

/-- Behind a word character, nothing is put unless a word ends there. -/
theorem isWord_head_eq_false (hbefore : isWord? before = true) (h : Edited inserted before text edited)
    (hedited : isWord? edited.head? = false) : isWord? text.head? = false := by
  cases h with
  | nil => rfl
  | keep c _ => exact hedited
  | put removed hstart _ _ =>
    rw [isBoundary, hbefore] at hstart
    simpa using hstart

/-- A line that is special after a text was put into it was special before, up to the first line feed that
was in it then. -/
theorem special (hinert : IsInert inserted) (h : Edited inserted before text edited)
    (hfeed : '\n' ∉ edited) (hspecial : Special edited) : Special (text.takeWhile (· ≠ '\n')) := by
  have htake {front rest : Text} (hfront : '\n' ∉ front) :
      (front ++ rest).takeWhile (· ≠ '\n') = front ++ rest.takeWhile (· ≠ '\n') := by
    refine List.takeWhile_append_of_pos fun c hc => ?_
    simp [ne_of_mem_of_not_mem hc hfront]
  -- In each case nothing was put into the beginning of the line, which makes it special.
  cases hspecial with
  | blank hblanks =>
    have hnever := neverStartsIn_of_head hinert.ne_nil (hinert.head_notMem_blanks hblanks)
    rw [← List.append_nil edited] at h
    obtain ⟨rest, rfl, hrest⟩ := exists_of_append hnever h
    obtain rfl := eq_nil hinert.ne_nil hrest
    rw [htake hfeed]
    exact .blank (List.forall_mem_append.2 ⟨hblanks, List.forall_mem_nil _⟩)
  | @comment front rest hfront =>
    have hmark : front ++ '/' :: '/' :: rest = (front ++ ['/', '/']) ++ rest := by simp
    rw [hmark] at h hfeed
    have hnever : NeverStartsIn inserted (front ++ ['/', '/']) := by
      refine neverStartsIn_of_head hinert.ne_nil fun c hc hmem => ?_
      rcases List.mem_append.1 hmem with hmem | hmem
      · exact hinert.head_notMem_blanks hfront c hc hmem
      · exact (hinert.head c hc).2 (by simpa using hmem)
    obtain ⟨behind, rfl, -⟩ := exists_of_append hnever h
    rw [htake fun hmem => hfeed (List.mem_append_left _ hmem), List.append_assoc]
    exact .comment hfront
  | @directive front gap word rest hfront hgap hword hrest =>
    have hmark : front ++ '#' :: (gap ++ (word ++ rest)) = (front ++ '#' :: gap) ++ (word ++ rest) := by
      simp
    rw [hmark] at h hfeed
    have hnever : NeverStartsIn inserted (front ++ '#' :: gap) := by
      refine neverStartsIn_of_head hinert.ne_nil fun c hc hmem => ?_
      rcases List.mem_append.1 hmem with hmem | hmem
      · exact hinert.head_notMem_blanks hfront c hc hmem
      · exact (List.mem_cons.1 hmem).elim (hinert.head c hc).1 (hinert.head_notMem_blanks hgap c hc)
    obtain ⟨middle, rfl, hmiddle⟩ := exists_of_append hnever h
    obtain ⟨behind, rfl, hbehind⟩ := exists_of_append (hinert.word word hword) hmiddle
    -- The word ends where it did before.
    have hstop : isWord? behind.head? = false := by
      obtain ⟨hne, hlower⟩ := isLower_of_mem_directiveWords hword
      obtain ⟨initial, c, rfl⟩ := (List.eq_nil_or_concat' word).resolve_left hne
      have hc : isWord? (some c) = true := isWord_of_isLower (hlower c (by simp))
      rw [List.getLast?_concat, Option.some_or] at hbehind
      exact isWord_head_eq_false hc hbehind hrest
    rw [htake fun hmem => hfeed (List.mem_append_left _ hmem), htake fun hmem => hfeed (by simp [hmem]),
      List.append_assoc, List.cons_append]
    refine .directive hfront hgap hword ?_
    rcases behind with - | ⟨c, behind⟩
    · rfl
    · rw [List.takeWhile_cons]
      split
      next => exact hstop
      next => rfl

end Edited

/-! ## Settled texts -/

/-- A text of whole lines that preprocessing leaves as it is. -/
structure Settled (text : Text) : Prop where
  endsLine : EndsLine text
  noReturn : '\r' ∉ text
  plain : ∀ line ∈ lines text, ¬ Special line

/-- Lines that are not special make up a settled text. -/
theorem settled_unlines {kept : List Text}
    (h : ∀ line ∈ kept, '\n' ∉ line ∧ '\r' ∉ line ∧ ¬ Special line) : Settled (unlines kept) := by
  have hlines : lines (unlines kept) = kept := by
    rw [lines_unlines fun line hline => (h line hline).1]
    exact (List.map_congr_left fun line hline => dropReturn_eq_self (h line hline).2.1).trans
      (List.map_id' kept)
  refine ⟨endsLine_unlines kept, fun hmem => ?_, fun line hline => ?_⟩
  · obtain ⟨line, hline, hmem⟩ := List.mem_flatMap.1 hmem
    exact (h line hline).2.1 (by simpa using hmem)
  · rw [hlines] at hline
    exact (h line hline).2.2

namespace Settled

/-- The lines of a settled text are put together to the same text. -/
theorem unlines_lines (h : Settled text) : unlines (lines text) = text :=
  (Text.unlines_lines h.noReturn).trans (if_pos h.endsLine)

/-- The first line of a settled text is not special, and what stands behind a line feed is settled. -/
theorem of_append {first rest : Text} (h : Settled (first ++ '\n' :: rest)) :
    ¬ Special (first.takeWhile (· ≠ '\n')) ∧ Settled rest := by
  refine ⟨h.plain _ (takeWhile_mem_lines h.noReturn), ?_⟩
  rw [List.append_cons] at h
  refine ⟨h.endsLine.of_append _, fun hmem => h.noReturn (List.mem_append_right _ hmem), fun line hline => ?_⟩
  refine h.plain line ?_
  rw [lines_append (.inr List.getLast?_concat)]
  exact List.mem_append_right _ hline

/-- No line is special in a settled text into which an inert text is put. -/
theorem not_special_of_edited (hinert : IsInert inserted) {joined : List Text}
    (hjoined : ∀ line ∈ joined, '\n' ∉ line) (h : Settled text)
    (hedited : Edited inserted before text (unlines joined)) : ∀ line ∈ joined, ¬ Special line := by
  have hfeed : '\n' ∉ inserted := fun hmem => absurd (hinert.unbroken _ hmem) (by decide)
  induction joined generalizing before text with
  | nil => exact List.forall_mem_nil _
  | cons line joined ih =>
    rw [List.forall_mem_cons] at hjoined
    rw [unlines_cons] at hedited
    obtain ⟨first, rest, rfl, hfirst, hrest⟩ := hedited.exists_of_feed hfeed
    obtain ⟨hplain, hsettled⟩ := h.of_append
    rw [List.forall_mem_cons]
    exact ⟨fun hspecial => hplain (hfirst.special hinert hjoined.1 hspecial), ih hjoined.2 hsettled hrest⟩

/-- A settled text into which an inert text is put is settled. -/
theorem of_edited (hinert : IsInert inserted) (hbefore : isWord? before = false) (h : Settled text)
    (hedited : Edited inserted before text edited) : Settled edited := by
  have hreturn : '\r' ∉ edited := fun hmem => (hedited.mem_or_mem hmem).elim h.noReturn fun hmem =>
    absurd (hinert.unbroken _ hmem) (by decide)
  have hlast : EndsLine edited := hedited.endsLine hinert.ne_nil (fun _ => hbefore) h.endsLine
  obtain ⟨joined, hjoined, rfl⟩ := hlast.exists_unlines
  refine settled_unlines fun line hline => ⟨hjoined line hline, fun hmem => ?_,
    not_special_of_edited hinert hjoined h hedited line hline⟩
  exact hreturn (List.mem_flatMap.2 ⟨line, hline, List.mem_append_left _ hmem⟩)

end Settled

/-! ## Numbers -/

/-- A text is inert if no mark and no word of a directive holds its first character. -/
theorem isInert_cons {c : Char} (hunbroken : Unbroken (c :: text))
    (hc : c ≠ '#' ∧ c ≠ '/' ∧ c.isLower = false) : IsInert (c :: text) where
  ne_nil := List.cons_ne_nil c text
  unbroken := hunbroken
  head := fun d hd => by
    obtain rfl := Option.some.inj hd
    exact ⟨hc.1, hc.2.1⟩
  word := fun word hword => by
    refine neverStartsIn_of_head (List.cons_ne_nil c text) fun d hd hmem => ?_
    obtain rfl := Option.some.inj hd
    cases hc.2.2.symm.trans ((isLower_of_mem_directiveWords hword).2 c hmem)

/-- No directive has a word in which the text of the infinite number starts. -/
theorem isInert_inf : IsInert "inf".toList where
  ne_nil := List.cons_ne_nil _ _
  unbroken := by decide
  head := fun c hc => by
    obtain rfl : 'i' = c := Option.some.inj hc
    decide
  word := by
    intro word hword tail hne hsuffix behind hstarts
    have hall : ∀ word ∈ directiveWords, ∀ tail ∈ word.tails, tail ≠ [] →
        ¬ (tail <+: "inf".toList ∨ "inf".toList <+: tail) := by decide
    exact hall word hword tail ((List.mem_tails ..).2 hsuffix) hne
      (List.prefix_or_prefix_of_prefix (List.prefix_append tail behind) hstarts)

/-- The text of a number is inert. -/
theorem isInert_text (x : Float) : IsInert (Number.text x) := by
  rw [Number.text]
  split
  next => exact isInert_cons (by decide) (by decide)
  next hnumber =>
    have hcases : Number.magnitudeText (Number.magnitude x) = "inf".toList ∨
        Number.magnitudeText (Number.magnitude x) ≠ [] ∧
          ∀ c ∈ Number.magnitudeText (Number.magnitude x), c.isDigit = true ∨ c = '.' := by
      cases hfinite : x.isFinite with
      | true => exact .inr (Number.magnitudeText_run (Number.magnitude_lt_of_isFinite hfinite))
      | false =>
        rw [Number.magnitude_of_isInfinite (Bool.eq_false_iff.2 hnumber) hfinite]
        exact .inl rfl
    generalize Number.magnitudeText (Number.magnitude x) = size at hcases
    have hunbroken : Unbroken size := by
      rcases hcases with rfl | ⟨-, hsize⟩
      · decide
      · exact fun c hc => of_isDigit_or_point (p := fun c => isBlank c = false) (by decide) (hsize c hc)
    split
    next => exact isInert_cons (List.forall_mem_cons.2 ⟨rfl, hunbroken⟩) (by decide)
    next =>
      rcases hcases with rfl | ⟨hne, hsize⟩
      · exact isInert_inf
      · obtain ⟨c, rest, rfl⟩ := List.exists_cons_of_ne_nil hne
        refine isInert_cons hunbroken ?_
        exact of_isDigit_or_point (p := fun c => c ≠ '#' ∧ c ≠ '/' ∧ c.isLower = false) (by decide)
          (hsize c (List.mem_cons_self ..))

/-! ## Preprocessing twice -/

/-- A settled text stays settled when numbers are put in the place of names. -/
theorem settled_replaceWords {table : Macro.Table} (h : Settled text)
    (hentries : ∀ entry ∈ table.entries, entry.2 = .flag ∨ ∃ x, entry.2 = .number x) :
    Settled (replaceWords table text) := by
  show Settled (table.entries.foldl replaceEntry text)
  generalize table.entries = entries at hentries
  induction entries generalizing text with
  | nil => exact h
  | cons entry rest ih =>
    obtain ⟨name, value⟩ := entry
    rw [List.forall_mem_cons] at hentries
    refine ih ?_ hentries.2
    rcases hentries.1 with rfl | ⟨x, rfl⟩
    · exact h
    · exact h.of_edited (isInert_text x) rfl (edited_replaceWordFrom name _ none text)

/-- The text that is left of a shader is settled. -/
theorem settled_preprocess {table : Macro.Table} {fragments : List Fragment} {source : Source}
    (hreturn : ∀ fragment ∈ fragments, '\r' ∉ fragment.source)
    (h : (preprocess table fragments).outcome = .ok source)
    (hentries : ∀ entry ∈ source.table.entries, entry.2 = .flag ∨ ∃ x, entry.2 = .number x) :
    Settled source.text := by
  rw [preprocess, Report.outcome_bind] at h
  obtain ⟨⟨kept, state⟩, hrun, hrest⟩ := result_of_bind h
  rw [Report.outcome_bind] at hrest
  obtain ⟨-, -, hresult⟩ := result_of_bind hrest
  cases hresult
  refine settled_replaceWords (settled_unlines fun line hline => ?_) hentries
  obtain ⟨hmem, hplain⟩ := run_kept hrun line hline
  rw [map_snd_numberedLines] at hmem
  obtain ⟨fragment, hfragment, hline⟩ := List.mem_flatMap.1 hmem
  exact ⟨lineFeed_notMem hline, fun hc => hreturn fragment hfragment (mem_of_mem_lines hline hc), hplain⟩

/-- A text without special lines is kept and changes no table; only names are replaced in it. -/
theorem preprocess_plain (table : Macro.Table) (h : ∀ line ∈ lines text, ¬ Special line) (file : Text)
    (offset : Nat) : (preprocess table [⟨text, file, offset⟩]).outcome =
      .ok ⟨replaceWords table (unlines (lines text)), table⟩ := by
  have hlines : (numberedLines [⟨text, file, offset⟩]).map Prod.snd = lines text := by
    rw [map_snd_numberedLines, List.flatMap_singleton]
  have hrun : ((State.initial table).run (numberedLines [⟨text, file, offset⟩])).outcome =
      .ok (lines text, .initial table) := by
    rw [← hlines]
    exact run_plain rfl rfl (hlines ▸ h)
  rw [preprocess, Report.outcome_bind, hrun]
  rfl

/-- A settled text is left as it is, and defines nothing. -/
theorem preprocess_of_settled (h : Settled text) (file : Text) (offset : Nat) :
    (preprocess .empty [⟨text, file, offset⟩]).outcome = .ok ⟨text, .empty⟩ := by
  rw [preprocess_plain .empty h.plain, h.unlines_lines]
  rfl

/-- Preprocessing a preprocessed shader once more, as one fragment and without macros, changes nothing and
defines nothing, if its macros are flags and numbers. -/
theorem preprocess_preprocess (table : Macro.Table) (fragments : List Fragment) (source : Source)
    (hreturn : ∀ fragment ∈ fragments, '\r' ∉ fragment.source)
    (hsource : (preprocess table fragments).outcome = .ok source)
    (hentries : ∀ entry ∈ source.table.entries, entry.2 = .flag ∨ ∃ x, entry.2 = .number x)
    (file : Text) (offset : Nat) :
    (preprocess .empty [⟨source.text, file, offset⟩]).outcome = .ok ⟨source.text, .empty⟩ :=
  preprocess_of_settled (settled_preprocess hreturn hsource hentries) file offset

/-- A table with a name that reaches over the end of a line. -/
def exampleReach : Macro.Table :=
  .set .empty "\n#".toList (.number 4)

/-- A shader in which names stand behind a number sign. -/
def exampleNames : Fragment :=
  ⟨"#define A 3\n#define B\n\n# A\nx\n#y // B\n".toList, "a".toList, 2⟩

/-- What is left of it: a number stands behind the number sign, and another one joins two lines. -/
def exampleNumbers : Source where
  text := "# 3\nx4y // B\n".toList
  table := (exampleReach.set "A".toList (.number 3)).set "B".toList .flag

theorem preprocess_exampleNumbers :
    (∀ fragment ∈ [exampleNames], '\r' ∉ fragment.source) ∧
    (preprocess exampleReach [exampleNames]).outcome = .ok exampleNumbers ∧
    (∀ entry ∈ exampleNumbers.table.entries, entry.2 = .flag ∨ ∃ x, entry.2 = .number x) ∧
    (preprocess .empty [⟨exampleNumbers.text, "b".toList, 0⟩]).outcome =
      .ok ⟨exampleNumbers.text, .empty⟩ := by
  have hreturn : ∀ fragment ∈ [exampleNames], '\r' ∉ fragment.source := by decide
  have hsource : (preprocess exampleReach [exampleNames]).outcome = .ok exampleNumbers := by
    decide +kernel
  have hentries : ∀ entry ∈ exampleNumbers.table.entries,
      entry.2 = .flag ∨ ∃ x, entry.2 = .number x := by
    have hall : exampleNumbers.table.entries =
        [("\n#".toList, .number 4), ("A".toList, .number 3), ("B".toList, .flag)] := by decide +kernel
    rw [hall, List.forall_mem_cons, List.forall_mem_cons, List.forall_mem_singleton]
    exact ⟨.inr ⟨4, rfl⟩, .inr ⟨3, rfl⟩, .inl rfl⟩
  exact ⟨hreturn, hsource, hentries,
    preprocess_preprocess exampleReach [exampleNames] exampleNumbers hreturn hsource hentries _ _⟩

end ShaderInterface.Preprocessing
