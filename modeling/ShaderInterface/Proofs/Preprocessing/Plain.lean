import ShaderInterface.Proofs.Preprocessing.Step
import ShaderInterface.Proofs.Text.Character
import ShaderInterface.Proofs.Text.Cuts

/-!
# Lines that Are Kept

Where lines are read, only three kinds of them are not kept: blank lines, comment lines, and directives for
the preprocessor. What a line starts with tells whether it is one of them. A directive ends before a comment
or a backslash at the end of its line, but its word is found without them, as neither of them is part of a
word.

## Main definitions

* `Special`: the lines that are not kept, told by what they start with.

## Main results

* `special_iff`: a line is blank, a comment line or a directive if it starts like one.
* `run_kept`, `run_plain`: a run keeps lines that are not special, and it keeps all of them where lines are
  read and there are no others.
-/

namespace ShaderInterface.Preprocessing

open ShaderInterface.Text

variable {line text front rest word : Text} {c : Char}

/-! ## The text of a directive -/

/-- Up to its first slash, a text stands in front of all marks. -/
theorem exists_beforeMark_append (h : '/' ∉ front) (rest : Text) :
    ∃ behind, behind <+: rest ∧ beforeMark '/' '/' (front ++ rest) = front ++ behind := by
  cases hbreak : breakOn? '/' '/' (front ++ rest) with
  | none => exact ⟨rest, List.prefix_rfl, by rw [beforeMark, hbreak]⟩
  | some parts =>
    obtain ⟨before, after⟩ := parts
    obtain ⟨htext, -⟩ := eq_of_breakOn? hbreak
    -- The mark is in the rest, so that all of the front is before it.
    rcases List.append_eq_append_iff.1 htext with ⟨behind, hbefore, hrest⟩ | ⟨tail, hfront, htail⟩
    · refine ⟨behind, ⟨_, hrest.symm⟩, ?_⟩
      rw [beforeMark, hbreak]
      exact hbefore
    · rcases tail with - | ⟨d, tail⟩
      · refine ⟨[], List.nil_prefix, ?_⟩
        rw [beforeMark, hbreak, hfront, List.append_nil, List.append_nil]
      · obtain ⟨rfl, -⟩ := List.cons.inj htail
        exact absurd (by simp [hfront]) h

/-- What stands behind the text in front of the first mark is nothing or starts with a slash. -/
theorem exists_append_beforeMark (text : Text) :
    ∃ tail, text = beforeMark '/' '/' text ++ tail ∧ isWord? tail.head? = false := by
  cases hbreak : breakOn? '/' '/' text with
  | none => exact ⟨[], by rw [beforeMark, hbreak, List.append_nil], rfl⟩
  | some parts =>
    obtain ⟨htext, -⟩ := eq_of_breakOn? hbreak
    exact ⟨_, by rw [beforeMark, hbreak]; exact htext, rfl⟩

/-- The line without a backslash at its end. -/
def dropBackslash (line : Text) : Text :=
  if isContinued line then line.dropLast else line

theorem directiveText_eq (line : Text) :
    directiveText line = trim (dropBackslash (trimEnd (beforeMark '/' '/' line))) := rfl

/-- What stands behind a line without its backslash is nothing or a backslash. -/
theorem exists_append_dropBackslash (text : Text) :
    ∃ tail, text = dropBackslash text ++ tail ∧ isWord? tail.head? = false := by
  by_cases h : isContinued text = true
  · refine ⟨['\\'], ?_, by decide⟩
    rw [dropBackslash, if_pos h]
    rw [isContinued, beq_iff_eq] at h
    obtain ⟨front, rfl⟩ := List.getLast?_eq_some_iff.1 h
    rw [List.dropLast_concat]
  · exact ⟨[], by rw [dropBackslash, if_neg h, List.append_nil], rfl⟩

/-- The last character of a line stays if it is no backslash. -/
theorem exists_dropBackslash_append (hcontinued : c ≠ '\\') (front rest : Text) :
    ∃ behind, behind <+: rest ∧ dropBackslash (front ++ [c] ++ rest) = front ++ [c] ++ behind := by
  by_cases h : isContinued (front ++ [c] ++ rest) = true
  · rcases List.eq_nil_or_concat' rest with rfl | ⟨behind, d, rfl⟩
    · rw [isContinued, List.append_nil, List.getLast?_concat, beq_iff_eq, Option.some_inj] at h
      exact absurd h hcontinued
    · refine ⟨behind, List.prefix_append _ _, ?_⟩
      rw [dropBackslash, if_pos h, ← List.append_assoc, List.dropLast_concat]
  · exact ⟨rest, List.prefix_rfl, by rw [dropBackslash, if_neg h]⟩

/-- The last character of a text that is no blank stays when blanks are cut off behind it. -/
theorem exists_trimEnd_append_cons (hblank : isBlank c = false) (front rest : Text) :
    ∃ behind, behind <+: rest ∧ trimEnd (front ++ [c] ++ rest) = front ++ [c] ++ behind := by
  have hne : ¬ Blanks (c :: rest) := fun hblanks => by
    cases hblank.symm.trans (hblanks c (List.mem_cons_self ..))
  obtain ⟨d, behind, hend⟩ := List.exists_cons_of_ne_nil (trimEnd_ne_nil hne)
  obtain ⟨after, -, hrest⟩ := exists_trimEnd_append (c :: rest)
  rw [hend, List.cons_append] at hrest
  obtain ⟨rfl, hbehind⟩ := List.cons.inj hrest
  refine ⟨behind, ⟨after, hbehind.symm⟩, ?_⟩
  rw [List.append_assoc, List.singleton_append, trimEnd_append_of_not_blanks hne, hend,
    List.append_assoc, List.singleton_append]

/-- What is not part of the text of a directive does not start with a word character. -/
theorem exists_append_directiveText (hhead : line.head?.any isBlank = false) :
    ∃ tail, line = directiveText line ++ tail ∧ isWord? tail.head? = false := by
  -- Each part that is cut off starts with a slash, a backslash or a blank.
  have hblanks {after behind : Text} (hafter : Blanks after) (hbehind : isWord? behind.head? = false) :
      isWord? (after ++ behind).head? = false := by
    rcases after with - | ⟨c, after⟩
    · exact hbehind
    · exact isWord_of_isBlank (hafter c (List.mem_cons_self ..))
  obtain ⟨mark, hmark, hslash⟩ := exists_append_beforeMark line
  obtain ⟨after, hafter, hcode⟩ := exists_trimEnd_append (beforeMark '/' '/' line)
  obtain ⟨bar, hbar, hbackslash⟩ := exists_append_dropBackslash (trimEnd (beforeMark '/' '/' line))
  obtain ⟨last, hlast, hcut⟩ := exists_trimEnd_append
    (dropBackslash (trimEnd (beforeMark '/' '/' line)))
  rw [directiveText_eq]
  generalize dropBackslash (trimEnd (beforeMark '/' '/' line)) = code at *
  have hline : line = code ++ (bar ++ (after ++ mark)) := by
    rw [hmark, hcode, hbar]
    simp only [List.append_assoc]
  have hstart : code.head?.any isBlank = false := by
    rcases code with - | ⟨c, code⟩
    · rfl
    · rwa [hline] at hhead
  refine ⟨last ++ (bar ++ (after ++ mark)), ?_, hblanks hlast ?_⟩
  · rw [trim, trimStart_eq_self hstart, ← List.append_assoc, ← hcut]
    exact hline
  · rcases bar with - | ⟨c, bar⟩
    · show isWord? (after ++ mark).head? = false
      exact hblanks hafter hslash
    · exact hbackslash

/-- The text of a directive holds all that stands in front of the first slash, up to the last character
that is neither a blank nor a backslash. -/
theorem exists_directiveText_append (hhead : (front ++ [c]).head?.any isBlank = false)
    (hslash : '/' ∉ front ++ [c]) (hblank : isBlank c = false) (hcontinued : c ≠ '\\') (rest : Text) :
    ∃ behind, behind <+: rest ∧ directiveText (front ++ [c] ++ rest) = front ++ [c] ++ behind := by
  obtain ⟨first, hfirst, hbefore⟩ := exists_beforeMark_append hslash rest
  obtain ⟨second, hsecond, hend⟩ := exists_trimEnd_append_cons hblank front first
  obtain ⟨third, hthird, hdrop⟩ := exists_dropBackslash_append hcontinued front second
  obtain ⟨fourth, hfourth, hlast⟩ := exists_trimEnd_append_cons hblank front third
  refine ⟨fourth, hfourth.trans (hthird.trans (hsecond.trans hfirst)), ?_⟩
  have hstart : (front ++ [c] ++ third).head?.any isBlank = false := by
    rwa [List.head?_append_of_ne_nil _ (List.concat_ne_nil c front)]
  rw [directiveText_eq, hbefore, hend, hdrop, trim, trimStart_eq_self hstart, hlast]

/-! ## Special lines -/

/-- The words of the directives that are obeyed. -/
def directiveWords : List Text :=
  ["define".toList, "undef".toList, "if".toList, "ifdef".toList, "ifndef".toList, "elif".toList,
    "else".toList, "endif".toList]

/-- A directive is left to the compiler unless it has one of these words. -/
theorem ofWord_ne_other_iff {arguments : Text} :
    Directive.ofWord word arguments ≠ .other ↔ word ∈ directiveWords := by
  simp only [Directive.ofWord, directiveWords, List.mem_cons, List.not_mem_nil, or_false]
  constructor
  · intro h
    by_contra hnone
    simp only [not_or] at hnone
    simp only [hnone, if_false, ne_eq, not_true] at h
  · rintro (rfl | rfl | rfl | rfl | rfl | rfl | rfl | rfl) <;> simp

theorem isWord_of_isLower (h : c.isLower = true) : isWord c = true := by
  have hbounds : (decide ('a'.val ≤ c.val) && decide (c.val ≤ 'z'.val)) = true := h
  have hsmall : c.toNat < 128 := by
    rw [Bool.and_eq_true, decide_eq_true_eq, decide_eq_true_eq] at hbounds
    exact Nat.lt_of_le_of_lt hbounds.2 (by decide)
  have halphanumeric : c.isAlphanum = true := by
    show ((c.isUpper || c.isLower) || c.isDigit) = true
    rw [h, Bool.or_true, Bool.true_or]
  rw [isWord, if_pos hsmall, halphanumeric, Bool.true_or]

/-- The words of directives are runs of small letters. -/
theorem isLower_of_mem_directiveWords (h : word ∈ directiveWords) :
    word ≠ [] ∧ ∀ c ∈ word, c.isLower = true := by
  have hall : ∀ word ∈ directiveWords, word ≠ [] ∧ word.all Char.isLower = true := by decide
  exact ⟨(hall word h).1, List.all_eq_true.1 (hall word h).2⟩

/-- A line that is not kept where lines are read. -/
inductive Special : Text → Prop
  | blank {line : Text} : Blanks line → Special line
  | comment {front rest : Text} : Blanks front → Special (front ++ '/' :: '/' :: rest)
  | directive {front gap word rest : Text} : Blanks front → Blanks gap → word ∈ directiveWords →
      isWord? rest.head? = false → Special (front ++ '#' :: (gap ++ (word ++ rest)))

/-- The word behind a number sign tells the directive. -/
theorem ofLine?_of_directiveText {gap behind : Text} (hhead : line.head? = some '#')
    (hgap : Blanks gap) (hword : word ∈ directiveWords) (hbehind : isWord? behind.head? = false)
    (htext : directiveText line = '#' :: (gap ++ (word ++ behind))) :
    Directive.ofLine? line = some (.ofWord word (trimStart behind)) := by
  obtain ⟨hne, hlower⟩ := isLower_of_mem_directiveWords hword
  have hstop : behind.head?.any Char.isLower = false := by
    rcases behind with - | ⟨d, behind⟩
    · rfl
    · exact Bool.eq_false_iff.2 fun hd => by cases hbehind.symm.trans (isWord_of_isLower hd)
  have hletters : (word ++ behind).takeWhile Char.isLower = word ∧
      (word ++ behind).dropWhile Char.isLower = behind := by
    obtain ⟨htake, hdrop⟩ := takeWhile_append_of_stop word hstop
    rw [htake, hdrop, List.takeWhile_eq_self_iff.2 hlower, List.dropWhile_eq_nil_iff.2 hlower]
    exact ⟨rfl, rfl⟩
  have hgapped : trimStart (gap ++ (word ++ behind)) = word ++ behind := by
    rw [trimStart_append hgap]
    refine trimStart_eq_self ?_
    obtain ⟨d, tail, rfl⟩ := List.exists_cons_of_ne_nil hne
    exact isBlank_of_isWord (isWord_of_isLower (hlower d (List.mem_cons_self ..)))
  rw [Directive.ofLine?, if_pos hhead]
  simp only [htext, List.drop_succ_cons, List.drop_zero, hgapped, hletters, hbehind,
    Bool.false_eq_true, if_false]

/-- A line that starts like a directive gives one that is obeyed. -/
theorem directiveOf_ne_other {front gap : Text} (hfront : Blanks front) (hgap : Blanks gap)
    (hword : word ∈ directiveWords) (hrest : isWord? rest.head? = false) :
    directiveOf (front ++ '#' :: (gap ++ (word ++ rest))) ≠ .other := by
  obtain ⟨hne, hlower⟩ := isLower_of_mem_directiveWords hword
  obtain ⟨initial, c, hconcat⟩ := (List.eq_nil_or_concat' word).resolve_left hne
  have hc : isWord c = true := isWord_of_isLower (hlower c (by simp [hconcat]))
  -- Up to the last letter of the word, nothing is cut off.
  have htext (behind : Text) : '#' :: (gap ++ (word ++ behind)) =
      ('#' :: (gap ++ initial)) ++ [c] ++ behind := by
    rw [hconcat]
    simp only [List.append_assoc, List.cons_append]
  have hslash : '/' ∉ ('#' :: (gap ++ initial)) ++ [c] := by
    have hmem : '/' ∉ '#' :: (gap ++ word) := by
      simp only [List.mem_cons, List.mem_append, not_or]
      exact ⟨by decide, notMem_of_blanks hgap (by decide), fun hmem => absurd (hlower _ hmem) (by decide)⟩
    rwa [hconcat, ← List.append_assoc, ← List.cons_append] at hmem
  have hbar : c ≠ '\\' := by
    rintro rfl
    exact absurd hc (by decide)
  obtain ⟨first, hfirst, hend⟩ := exists_trimEnd_append_cons (isBlank_of_isWord hc)
    ('#' :: (gap ++ initial)) rest
  obtain ⟨second, hsecond, hdirective⟩ := exists_directiveText_append rfl hslash
    (isBlank_of_isWord hc) hbar first
  have hline : trim (front ++ '#' :: (gap ++ (word ++ rest))) = '#' :: (gap ++ (word ++ first)) := by
    rw [trim, trimStart_append hfront, trimStart_cons rfl, htext, hend, ← htext]
  rw [← htext, ← htext] at hdirective
  -- Behind the word there is the same character as in the line, or none.
  have hbehind : isWord? second.head? = false := by
    rcases second with - | ⟨d, second⟩
    · rfl
    · obtain ⟨tail, htail⟩ := hsecond.trans hfirst
      rwa [← htail] at hrest
  rw [directiveOf, hline, ofLine?_of_directiveText rfl hgap hword hbehind hdirective]
  exact ofWord_ne_other_iff.2 hword

/-- A line that gives a directive to obey starts with a number sign and the word of the directive. -/
theorem special_of_directiveOf (h : directiveOf line ≠ .other) : Special line := by
  obtain ⟨before, after, hbefore, hafter, hline⟩ := exists_surrounded_trim line
  have hhead : line.trim.head? = some '#' := by
    by_contra hne
    exact h (by simp [directiveOf, Directive.ofLine?, hne])
  obtain ⟨tail, htrim, htail⟩ := exists_append_directiveText (isBlank_head_trim line)
  rw [directiveOf, Directive.ofLine?, if_pos hhead] at h
  rcases htext : directiveText line.trim with - | ⟨c, text⟩
  · rw [htext] at h
    exact absurd rfl h
  rw [htext] at h htrim
  obtain rfl : c = '#' := by
    rw [htrim] at hhead
    exact Option.some.inj hhead
  obtain ⟨gap, hgap, hword⟩ := exists_append_trimStart text
  simp only [List.drop_succ_cons, List.drop_zero] at h
  split at h
  next => exact absurd rfl h
  next hrest =>
    have hdivided := List.takeWhile_append_dropWhile (p := Char.isLower) (l := trimStart text)
    have hspecial : line = before ++ '#' :: (gap ++ ((trimStart text).takeWhile Char.isLower ++
        ((trimStart text).dropWhile Char.isLower ++ (tail ++ after)))) := by
      rw [hline, htrim, ← List.append_assoc (List.takeWhile _ _), hdivided, ← List.append_assoc gap,
        ← hword]
      simp only [List.append_assoc, List.cons_append]
    rw [hspecial]
    refine .directive hbefore hgap (ofWord_ne_other_iff.1 h) ?_
    -- The word ends where the text of the directive does, or before.
    rcases hdrop : (trimStart text).dropWhile Char.isLower with - | ⟨c, rest⟩
    · rcases tail with - | ⟨d, tail⟩
      · rcases after with - | ⟨d, after⟩
        · rfl
        · exact isWord_of_isBlank (hafter d (List.mem_cons_self ..))
      · exact htail
    · rw [hdrop] at hrest
      exact Bool.eq_false_iff.2 hrest

/-- A comment line starts with two slashes. -/
theorem isCommentLine_iff : isCommentLine text = true ↔ ∃ rest, text = '/' :: '/' :: rest := by
  rw [isCommentLine, List.isPrefixOf_iff_prefix]
  exact ⟨fun ⟨rest, h⟩ => ⟨rest, h.symm⟩, fun ⟨rest, h⟩ => ⟨rest, h.symm⟩⟩

/-- A line is blank, a comment line or a directive if it starts like one. -/
theorem special_iff : Special line ↔
    line.trim.isEmpty = true ∨ isCommentLine line.trim = true ∨ directiveOf line ≠ .other := by
  obtain ⟨before, after, hbefore, hafter, hline⟩ := exists_surrounded_trim line
  constructor
  · rintro (hblanks | @⟨front, rest, hfront⟩ | ⟨hfront, hgap, hword, hrest⟩)
    · exact .inl (by rw [trim_of_blanks hblanks]; rfl)
    · refine .inr (.inl (isCommentLine_iff.2 ?_))
      obtain ⟨behind, -, hend⟩ := exists_trimEnd_append_cons (c := '/') rfl ['/'] rest
      rw [trim, trimStart_append hfront, trimStart_cons rfl]
      exact ⟨behind, hend⟩
    · exact .inr (.inr (directiveOf_ne_other hfront hgap hword hrest))
  · rintro (hempty | hcomment | hdirective)
    · rw [List.isEmpty_iff.1 hempty, List.append_nil] at hline
      rw [hline]
      exact .blank (List.forall_mem_append.2 ⟨hbefore, hafter⟩)
    · obtain ⟨rest, htrim⟩ := isCommentLine_iff.1 hcomment
      rw [htrim, List.append_assoc] at hline
      rw [hline]
      exact .comment hbefore
    · exact special_of_directiveOf hdirective

/-! ## Steps and runs -/

variable {state next : State} {site : Site} {raw : Text} {located : List (Site × Text)}
  {kept : List Text}

/-- A directive is not kept, wherever it stands. -/
theorem step_directive {result : Option Text} (hdirective : directiveOf raw ≠ .other)
    (h : (state.step site raw).outcome = .ok (result, next)) : result = none := by
  cases hcontinued : state.continued with
  | some name =>
    rw [State.step_continuation (isCommentLine_eq_false hdirective) hcontinued] at h
    cases h
    rfl
  | none =>
    cases hgroup : state.obeyGroupDirective? site raw.trim (directiveOf raw) with
    | some report =>
      rw [State.step_groupDirective hcontinued hdirective hgroup] at h
      cases hobeyed : report.outcome with
      | error fault =>
        rw [hobeyed] at h
        cases h
      | ok following =>
        rw [hobeyed] at h
        cases h
        rfl
    | none =>
      -- The directive defines a macro or removes one, and it may stand where lines are not read.
      have hconcerns : State.concernsGroups (directiveOf raw) = false := by
        cases hkind : directiveOf raw <;> rw [hkind] at hgroup <;> first | rfl | cases hgroup
      cases henabled : enabled state.groups with
      | false =>
        rw [State.step_skipped hcontinued henabled hconcerns] at h
        cases h
        rfl
      | true =>
        cases hkind : directiveOf raw with
        | define text =>
          rw [State.step_define hcontinued henabled hkind] at h
          split at h
          next =>
            cases h
            rfl
          next definition _ =>
            cases hvalue : definition.evaluate state.table with
            | error fault =>
              rw [hvalue] at h
              cases h
            | ok value =>
              rw [hvalue] at h
              cases h
              rfl
        | undefine name =>
          rw [State.step_undefine hcontinued henabled hkind] at h
          cases h
          rfl
        | other => exact absurd hkind hdirective
        | _ =>
          rw [hkind] at hconcerns
          cases hconcerns

/-- A line that is kept is the one that is read, and it is not special. -/
theorem step_kept (h : (state.step site raw).outcome = .ok (some line, next)) :
    line = raw ∧ ¬ Special raw := by
  by_cases hdirective : directiveOf raw ≠ .other
  · cases step_directive hdirective h
  rw [not_not] at hdirective
  cases hcomment : isCommentLine raw.trim with
  | true =>
    rw [State.step_comment hcomment] at h
    cases h
  | false =>
    cases hcontinued : state.continued with
    | some name =>
      rw [State.step_continuation hcomment hcontinued] at h
      cases h
    | none =>
      cases henabled : enabled state.groups with
      | false =>
        rw [State.step_skipped hcontinued henabled (by rw [hdirective]; rfl)] at h
        cases h
      | true =>
        rw [State.step_plain hcontinued henabled hcomment hdirective] at h
        split at h
        next => cases h
        next hempty =>
          cases h
          rw [special_iff, hcomment]
          exact ⟨rfl, fun hspecial => hspecial.elim hempty fun hother =>
            hother.elim Bool.false_ne_true fun hother => hother hdirective⟩

/-- The lines that a run keeps are among those that it reads, and none of them is special. -/
theorem run_kept (h : (state.run located).outcome = .ok (kept, next)) :
    ∀ line ∈ kept, line ∈ located.map Prod.snd ∧ ¬ Special line := by
  induction located generalizing state kept with
  | nil =>
    cases h
    exact List.forall_mem_nil _
  | cons entry rest ih =>
    obtain ⟨site, raw⟩ := entry
    rw [State.run_cons] at h
    obtain ⟨⟨first, middle⟩, hstep, hrest⟩ := result_of_bind h
    obtain ⟨⟨following, last⟩, hrun, hresult⟩ := result_of_bind hrest
    cases hresult
    refine List.forall_mem_append.2 ⟨fun line hline => ?_, fun line hline => ?_⟩
    · rw [Option.mem_toList.1 hline] at hstep
      obtain ⟨rfl, hplain⟩ := step_kept hstep
      exact ⟨List.mem_cons_self .., hplain⟩
    · exact (ih hrun line hline).imp_left (List.mem_cons_of_mem _)

/-- Where lines are read, those that are not special are kept, and they change nothing. -/
theorem run_plain (hcontinued : state.continued = none) (henabled : enabled state.groups = true)
    (h : ∀ line ∈ located.map Prod.snd, ¬ Special line) :
    (state.run located).outcome = .ok (located.map Prod.snd, state) := by
  induction located with
  | nil => rfl
  | cons entry rest ih =>
    obtain ⟨site, raw⟩ := entry
    rw [List.map_cons, List.forall_mem_cons, special_iff, not_or, not_or, not_not] at h
    obtain ⟨⟨hempty, hcomment, hdirective⟩, hrest⟩ := h
    rw [State.run_cons, State.step_plain hcontinued henabled (Bool.eq_false_iff.2 hcomment) hdirective,
      if_neg hempty]
    show (state.run rest).outcome >>= _ = _
    rw [ih hrest]
    rfl

end ShaderInterface.Preprocessing
