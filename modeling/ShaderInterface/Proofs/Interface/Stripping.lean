import ShaderInterface.Proofs.Interface.Recognition

/-!
# Removing Comments

Each step of the scanner reads from a text without comments what it reads from the text itself, as
long as it does not take a part of a comment for something else. This can only happen where a
text is taken as it is up to a closing delimiter: the delimiter may stand inside of a comment.

## Main definitions

* `Whole`: a text that ends outside of comments.
* `TakesWhole`: what is taken between two delimiters is whole.

## Main results

* `stripComments_stripComments`: there is no comment left.
* `name?_stripComments`, `symbol?_stripComments`, `qualifier?_stripComments`: what is read between
  comments.
* `cut?_stripComments`, `optionalEnclosed?_stripComments`: what is taken between delimiters.
-/

namespace ShaderInterface.Interface

open ShaderInterface.Text

variable {c : Char} {text rest after : Text}

/-! ## Removing comments from the front -/

theorem stripComments_nil : stripComments [] = [] := by
  rw [stripComments]
  rfl

theorem stripComments_char (h : afterComment? (c :: rest) = none) :
    stripComments (c :: rest) = c :: stripComments rest := by
  rw [stripComments]
  split
  next hafter => cases hafter.symm.trans h
  next => rfl

theorem stripComments_of_ne (h : c ≠ '/') : stripComments (c :: rest) = c :: stripComments rest :=
  stripComments_char (afterComment?_eq_none fun heq => absurd heq h)

/-- A comment leaves nothing or a space. -/
theorem stripComments_comment (h : afterComment? text = some after) :
    stripComments text =
      if "//".toList.isPrefixOf text then stripComments after else ' ' :: stripComments after := by
  rw [stripComments]
  split
  next hafter =>
    cases hafter.symm.trans h
    rfl
  next hnone => cases hnone.symm.trans h

theorem stripComments_line (rest : Text) :
    stripComments ('/' :: '/' :: rest) = stripComments (rest.dropWhile (· != '\n')) :=
  stripComments_comment rfl

theorem stripComments_block (rest : Text) :
    stripComments ('/' :: '*' :: rest) = ' ' :: stripComments (afterBlock rest) :=
  stripComments_comment rfl

/-- A line comment with its line feed leaves the line feed. -/
theorem stripComments_lineComment {inner : Text} (h : '\n' ∉ inner) (rest : Text) :
    stripComments ('/' :: '/' :: (inner ++ '\n' :: rest)) = '\n' :: stripComments rest := by
  rw [stripComments_comment (afterComment?_line h), List.dropWhile_cons_of_neg (by decide),
    stripComments_of_ne (by decide)]
  rfl

/-- A block comment with its end leaves a space. -/
theorem stripComments_blockComment {inner : Text} (h : ¬ ['*', '/'] <:+: inner) (rest : Text) :
    stripComments ('/' :: '*' :: (inner ++ '*' :: '/' :: rest)) = ' ' :: stripComments rest := by
  rw [stripComments_block, afterBlock, breakOn?_append (by decide) h]

/-- A comment is of one of two kinds. -/
theorem comment_cases (h : afterComment? text = some after) :
    (∃ rest, text = '/' :: '/' :: rest ∧ after = rest.dropWhile (· != '\n')) ∨
      ∃ rest, text = '/' :: '*' :: rest ∧ after = afterBlock rest := by
  unfold afterComment? at h
  split at h
  next rest =>
    cases h
    exact .inl ⟨rest, rfl, rfl⟩
  next rest =>
    cases h
    exact .inr ⟨rest, rfl, rfl⟩
  next => cases h

/-- Behind a line comment stands a line feed or nothing. -/
theorem dropWhile_lineFeed (rest : Text) : rest.dropWhile (· != '\n') = [] ∨
    ∃ behind, rest.dropWhile (· != '\n') = '\n' :: behind := by
  have hstop := any_head?_dropWhile (· != '\n') rest
  rcases hdrop : rest.dropWhile (· != '\n') with - | ⟨d, behind⟩
  · exact .inl rfl
  · rw [hdrop] at hstop
    have hd : d = '\n' := by simpa using hstop
    exact .inr ⟨behind, by rw [hd]⟩

/-- What is left starts as before, or with the blank that stands behind a comment or in its place. -/
theorem head?_stripComments (text : Text) : (stripComments text).head? = text.head? ∨
    (stripComments text).head?.all isBlank = true := by
  cases hcomment : afterComment? text with
  | none =>
    rcases text with - | ⟨c, rest⟩
    · exact .inl (by rw [stripComments_nil])
    · exact .inl (by rw [stripComments_char hcomment]; rfl)
  | some after =>
    refine .inr ?_
    rcases comment_cases hcomment with ⟨rest, rfl, rfl⟩ | ⟨rest, rfl, rfl⟩
    · rw [stripComments_line]
      rcases dropWhile_lineFeed rest with hdrop | ⟨behind, hdrop⟩
      · rw [hdrop, stripComments_nil]
        rfl
      · rw [hdrop, stripComments_of_ne (by decide)]
        rfl
    · rw [stripComments_block]
      rfl

/-- No comment starts at a character in front of a text from which the comments were removed, if none
started there before. -/
theorem afterComment?_stripComments (h : afterComment? (c :: rest) = none) :
    afterComment? (c :: stripComments rest) = none := by
  apply afterComment?_eq_none
  rintro rfl
  -- A mark that starts now has its second character from the text or from a comment's place.
  have hkeep {d : Char} (hd : isBlank d = false) (hne : rest.head? ≠ some d) :
      (stripComments rest).head? ≠ some d := by
    intro hhead
    rcases head?_stripComments rest with hsame | hblank
    · exact hne (hsame.symm.trans hhead)
    · rw [hhead] at hblank
      cases hblank.symm.trans hd
  refine ⟨hkeep (by decide) fun hhead => ?_, hkeep (by decide) fun hhead => ?_⟩ <;>
    obtain ⟨tail, rfl⟩ := List.head?_eq_some_iff.1 hhead <;>
    cases h

/-- There is no comment left. -/
theorem stripComments_stripComments (text : Text) :
    stripComments (stripComments text) = stripComments text := by
  fun_induction stripComments text with
  | case1 _ _ _ _ ih => exact ih
  | case2 _ _ _ _ ih => rw [stripComments_of_ne (by decide), ih]
  | case3 => exact stripComments_nil
  | case4 c rest hcomment ih => rw [stripComments_char (afterComment?_stripComments hcomment), ih]

/-! ## Names and signs -/

/-- What is found behind blanks and comments starts with no comment. -/
theorem afterComment?_of_skipTrivia (h : skipTrivia text = c :: rest) :
    afterComment? (c :: rest) = none := by
  fun_induction skipTrivia text with
  | case1 _ _ _ ih => exact ih h
  | case2 => cases h
  | case3 _ _ _ _ ih => exact ih h
  | case4 _ _ hcomment =>
    cases h
    exact hcomment

/-- It makes no difference whether comments are removed before blanks and comments are skipped. -/
theorem skipTrivia_stripComments (text : Text) :
    skipTrivia (stripComments text) = stripComments (skipTrivia text) := by
  fun_induction skipTrivia text with
  | case1 text after hcomment ih =>
    rcases comment_cases hcomment with ⟨rest, rfl, rfl⟩ | ⟨rest, rfl, rfl⟩
    · rw [stripComments_line, ih]
    · rw [stripComments_block, skipTrivia_blank (by decide), ih]
  | case2 => rw [stripComments_nil, skipTrivia_nil]
  | case3 c rest hcomment hblank ih => rw [stripComments_char hcomment, skipTrivia_blank hblank, ih]
  | case4 c rest hcomment hblank =>
    rw [Bool.not_eq_true] at hblank
    rw [stripComments_char hcomment,
      skipTrivia_of_none (afterComment?_stripComments hcomment) hblank]

/-- Characters of names are kept. -/
theorem stripComments_append_of_name {name : Text} (hname : ∀ c ∈ name, continuesName c = true) :
    stripComments (name ++ rest) = name ++ stripComments rest := by
  induction name with
  | nil => rfl
  | cons c tail ih =>
    rw [List.forall_mem_cons] at hname
    have hc : c ≠ '/' := by
      rintro rfl
      exact absurd hname.1 (by decide)
    rw [List.cons_append, stripComments_of_ne hc, ih hname.2, List.cons_append]

/-- A name is not made longer by what is left behind it. -/
theorem continues_stripComments (h : continues rest = false) :
    continues (stripComments rest) = false := by
  rcases head?_stripComments rest with hsame | hblank
  · rwa [continues, hsame]
  · rw [continues]
    cases hhead : (stripComments rest).head? with
    | none => rfl
    | some c =>
      rw [hhead] at hblank
      exact continuesName_of_isBlank hblank

/-- A name ends where it did before. -/
theorem takeWhile_stripComments (text : Text) :
    (stripComments text).takeWhile continuesName = text.takeWhile continuesName ∧
      (stripComments text).dropWhile continuesName =
        stripComments (text.dropWhile continuesName) := by
  have hname : ∀ c ∈ text.takeWhile continuesName, continuesName c = true :=
    List.all_eq_true.1 List.all_takeWhile
  have hbehind : continues (stripComments (text.dropWhile continuesName)) = false :=
    continues_stripComments (any_head?_dropWhile continuesName text)
  -- The name is kept, and what follows it still starts with no character of a name.
  have hsplit : stripComments text = text.takeWhile continuesName ++
      stripComments (text.dropWhile continuesName) := by
    rw [← stripComments_append_of_name hname, List.takeWhile_append_dropWhile]
  obtain ⟨htake, hdrop⟩ := takeWhile_append_of_stop [] hbehind
  rw [List.nil_append] at htake hdrop
  rw [hsplit, List.takeWhile_append_of_pos hname, List.dropWhile_append_of_pos hname, htake, hdrop,
    List.takeWhile_nil, List.dropWhile_nil, List.append_nil, List.nil_append]
  exact ⟨rfl, rfl⟩

/-- With and without comments, the same name is read. -/
theorem name?_stripComments (text : Text) :
    name? (stripComments text) = (name? text).map fun (name, rest) => (name, stripComments rest) := by
  rw [name?, name?, skipTrivia_stripComments]
  rcases hskip : skipTrivia text with - | ⟨c, rest⟩
  · rw [stripComments_nil]
    rfl
  · obtain ⟨htake, hdrop⟩ := takeWhile_stripComments rest
    rw [stripComments_char (afterComment?_of_skipTrivia hskip)]
    simp only [htake, hdrop]
    cases opensName c <;> rfl

theorem name?_stripComments_of_some {name : Text} (h : name? text = some (name, rest)) :
    name? (stripComments text) = some (name, stripComments rest) := by
  rw [name?_stripComments, h]
  rfl

/-- With and without comments, the same sign is read. -/
theorem symbol?_stripComments (symbol : Char) (text : Text) :
    symbol? symbol (stripComments text) = (symbol? symbol text).map stripComments := by
  rw [symbol?, symbol?, skipTrivia_stripComments]
  rcases hskip : skipTrivia text with - | ⟨c, rest⟩
  · rw [stripComments_nil]
    rfl
  · rw [stripComments_char (afterComment?_of_skipTrivia hskip)]
    by_cases hc : c = symbol
    · simp only [hc, if_true, Option.map_some]
    · simp only [hc, if_false, Option.map_none]

theorem optionalName_stripComments (text : Text) :
    optionalName (stripComments text) =
      ((optionalName text).1, stripComments (optionalName text).2) := by
  rw [optionalName, optionalName, name?_stripComments]
  cases name? text <;> rfl

/-- With and without comments, the same storage qualifier is read. -/
theorem qualifier?_stripComments (text : Text) :
    qualifier? (stripComments text) =
      (qualifier? text).map fun (word, rest) => (word, stripComments rest) := by
  fun_induction qualifier? text with
  | case1 text hnone =>
    have hstripped := name?_stripComments text
    rw [hnone] at hstripped
    rw [qualifier?]
    split
    next => rfl
    next hsome => cases hstripped.symm.trans hsome
  | case2 text word rest hword hmemory ih =>
    rw [qualifier?_of_name? (name?_stripComments_of_some hword), if_pos hmemory, ih]
  | case3 text word rest hword hmemory =>
    rw [qualifier?_of_name? (name?_stripComments_of_some hword), if_neg hmemory]
    rfl

/-! ## Texts between delimiters -/

/-- A text that ends outside of comments. -/
inductive Whole : Text → Prop where
  | nil : Whole []
  | char {c : Char} {rest : Text} : afterComment? (c :: rest) = none → Whole rest →
      Whole (c :: rest)
  | lineComment (inner : Text) {rest : Text} : '\n' ∉ inner → Whole rest →
      Whole ('/' :: '/' :: (inner ++ '\n' :: rest))
  | blockComment (inner : Text) {rest : Text} : ¬ ['*', '/'] <:+: inner → Whole rest →
      Whole ('/' :: '*' :: (inner ++ '*' :: '/' :: rest))

theorem whole_char (h : afterComment? (c :: rest) = none) : Whole (c :: rest) ↔ Whole rest := by
  refine ⟨fun hwhole => ?_, .char h⟩
  cases hwhole with
  | char _ hrest => exact hrest
  | lineComment | blockComment => cases h

/-- A line comment must come to its end. -/
theorem whole_line (rest : Text) :
    Whole ('/' :: '/' :: rest) ↔ ∃ parts ∈ rest.cut? '\n', Whole parts.2 := by
  constructor
  · intro hwhole
    cases hwhole with
    | char hcomment _ => cases hcomment
    | lineComment inner hinner hrest => exact ⟨_, cut?_append hinner _, hrest⟩
  · rintro ⟨⟨inner, behind⟩, hcut, hbehind⟩
    obtain ⟨rfl, hinner⟩ := eq_of_cut? hcut
    exact .lineComment inner hinner hbehind

/-- A block comment must come to its end. -/
theorem whole_block (rest : Text) :
    Whole ('/' :: '*' :: rest) ↔ ∃ parts ∈ rest.breakOn? '*' '/', Whole parts.2 := by
  constructor
  · intro hwhole
    cases hwhole with
    | char hcomment _ => cases hcomment
    | blockComment inner hinner hrest => exact ⟨_, breakOn?_append (by decide) hinner _, hrest⟩
  · rintro ⟨⟨inner, behind⟩, hbreak, hbehind⟩
    obtain ⟨rfl, hinner⟩ := eq_of_breakOn? hbreak
    exact .blockComment inner hinner hbehind

/-- Whether a text ends outside of comments is found by reading its comments one by one. -/
instance decidableWhole : (text : Text) → Decidable (Whole text)
  | [] => .isTrue .nil
  | [_] => .isTrue (.char (afterComment?_eq_none fun _ => ⟨nofun, nofun⟩) .nil)
  | c :: d :: rest =>
    if hline : c = '/' ∧ d = '/' then
      match hcut : cut? '\n' rest with
      | some (_, behind) =>
        have := decidableWhole behind
        decidable_of_iff (Whole behind) (by rw [hline.1, hline.2, whole_line, hcut]; simp)
      | none => .isFalse (by rw [hline.1, hline.2, whole_line, hcut]; simp)
    else if hblock : c = '/' ∧ d = '*' then
      match hbreak : breakOn? '*' '/' rest with
      | some (_, behind) =>
        have := decidableWhole behind
        decidable_of_iff (Whole behind) (by rw [hblock.1, hblock.2, whole_block, hbreak]; simp)
      | none => .isFalse (by rw [hblock.1, hblock.2, whole_block, hbreak]; simp)
    else
      have hcomment : afterComment? (c :: d :: rest) = none := afterComment?_eq_none fun hc =>
        ⟨fun hd => hline ⟨hc, Option.some_inj.1 hd⟩, fun hd => hblock ⟨hc, Option.some_inj.1 hd⟩⟩
      have := decidableWhole (d :: rest)
      decidable_of_iff (Whole (d :: rest)) (whole_char hcomment).symm
termination_by text => text.length
decreasing_by
  · have := length_lt_of_cut? hcut
    simp only [List.length_cons]
    omega
  · have := length_lt_of_breakOn? hbreak
    simp only [List.length_cons]
    omega
  · simp

/-- The characters that end a text between delimiters. -/
def closings : List Char := Token.delimiters.map Prod.snd

/-- Behind whole comments, a delimiter is outside of comments. -/
theorem Whole.stripComments_append (h : Whole text) {closing : Char} (hclosing : closing ∈ closings) :
    stripComments (text ++ closing :: rest) =
      stripComments text ++ closing :: stripComments rest := by
  have hmark : closing ≠ '/' ∧ closing ≠ '*' := by
    have hall : closings.all fun closing => closing ≠ '/' ∧ closing ≠ '*' := by decide
    exact of_decide_eq_true (List.all_eq_true.1 hall closing hclosing)
  induction h with
  | nil => rw [List.nil_append, stripComments_nil, List.nil_append, stripComments_of_ne hmark.1]
  | @char c behind hcomment _ ih =>
    -- A mark cannot reach over the end of the text, as it does not end in the delimiter.
    have hchar : afterComment? (c :: (behind ++ closing :: rest)) = none := by
      apply afterComment?_eq_none
      rintro rfl
      rcases behind with - | ⟨d, behind⟩
      · exact ⟨fun heq => hmark.1 (Option.some_inj.1 heq), fun heq => hmark.2 (Option.some_inj.1 heq)⟩
      · refine ⟨fun heq => ?_, fun heq => ?_⟩ <;>
          cases Option.some_inj.1 heq <;> cases hcomment
    rw [List.cons_append, stripComments_char hchar, stripComments_char hcomment, ih,
      List.cons_append]
  | @lineComment inner behind hinner _ ih =>
    have hassoc : '/' :: '/' :: (inner ++ '\n' :: behind) ++ closing :: rest =
        '/' :: '/' :: (inner ++ '\n' :: (behind ++ closing :: rest)) := by simp
    rw [hassoc, stripComments_lineComment hinner, stripComments_lineComment hinner, ih,
      List.cons_append]
  | @blockComment inner behind hinner _ ih =>
    have hassoc : '/' :: '*' :: (inner ++ '*' :: '/' :: behind) ++ closing :: rest =
        '/' :: '*' :: (inner ++ '*' :: '/' :: (behind ++ closing :: rest)) := by simp
    rw [hassoc, stripComments_blockComment hinner, stripComments_blockComment hinner, ih,
      List.cons_append]

/-- What follows a comment belongs to the text. -/
theorem mem_of_mem_afterComment (h : afterComment? text = some after) (hc : c ∈ after) :
    c ∈ text := by
  rcases comment_cases h with ⟨rest, rfl, rfl⟩ | ⟨rest, rfl, rfl⟩
  · have hrest : c ∈ rest := (List.dropWhile_suffix _).subset hc
    exact List.mem_cons_of_mem _ (List.mem_cons_of_mem _ hrest)
  · rw [afterBlock] at hc
    split at hc
    next before behind hbreak =>
      rw [(eq_of_breakOn? hbreak).1]
      simp [hc]
    next => cases hc

/-- A character of what is left was there before, or is the space in the place of a comment. -/
theorem mem_of_mem_stripComments (h : c ∈ stripComments text) : c ∈ text ∨ c = ' ' := by
  fun_induction stripComments text with
  | case1 text after hcomment _ ih => exact (ih h).imp_left (mem_of_mem_afterComment hcomment)
  | case2 text after hcomment _ ih =>
    rcases List.mem_cons.1 h with rfl | h
    · exact .inr rfl
    · exact (ih h).imp_left (mem_of_mem_afterComment hcomment)
  | case3 => cases h
  | case4 d rest _ ih =>
    rcases List.mem_cons.1 h with rfl | h
    · exact .inl (List.mem_cons_self ..)
    · exact (ih h).imp_left (List.mem_cons_of_mem d)

/-- What is taken between two delimiters ends outside of comments. -/
def TakesWhole (opening closing : Char) (text : Text) : Prop :=
  ∀ parts ∈ (symbol? opening text).bind (·.cut? closing), Whole parts.1

instance (opening closing : Char) (text : Text) : Decidable (TakesWhole opening closing text) :=
  inferInstanceAs (Decidable (∀ parts ∈ (symbol? opening text).bind (·.cut? closing), Whole parts.1))

/-- A text is cut at the same delimiter. -/
theorem cut?_stripComments {closing : Char} (hclosing : closing ∈ closings)
    (h : ∀ parts ∈ text.cut? closing, Whole parts.1) :
    (stripComments text).cut? closing =
      (text.cut? closing).map fun (inner, after) => (stripComments inner, stripComments after) := by
  have hspace : closing ≠ ' ' := by
    rintro rfl
    exact absurd hclosing (by decide)
  -- Removing comments brings in no delimiter.
  have hnotMem {text : Text} (hmem : closing ∉ text) : closing ∉ stripComments text :=
    fun hstripped => (mem_of_mem_stripComments hstripped).elim hmem hspace
  cases hcut : text.cut? closing with
  | none =>
    cases hstripped : (stripComments text).cut? closing with
    | none => rfl
    | some parts =>
      obtain ⟨heq, -⟩ := eq_of_cut? hstripped
      refine absurd ?_ (hnotMem (notMem_of_cut? hcut))
      rw [heq]
      exact List.mem_append_right _ (List.mem_cons_self ..)
  | some parts =>
    obtain ⟨inner, after⟩ := parts
    obtain ⟨rfl, hinner⟩ := eq_of_cut? hcut
    rw [Whole.stripComments_append (h _ hcut) hclosing, cut?_append (hnotMem hinner)]
    rfl

/-- With and without comments, the same part is read between delimiters. -/
theorem optionalEnclosed?_stripComments {opening closing : Char} (hclosing : closing ∈ closings)
    (h : TakesWhole opening closing text) :
    optionalEnclosed? opening closing (stripComments text) =
      (optionalEnclosed? opening closing text).map fun (inner, after) =>
        (inner.map stripComments, stripComments after) := by
  rw [optionalEnclosed?, optionalEnclosed?, symbol?_stripComments]
  cases hopened : symbol? opening text with
  | none => rfl
  | some opened =>
    simp only [Option.map_some]
    rw [TakesWhole, hopened] at h
    rw [cut?_stripComments hclosing h]
    cases opened.cut? closing <;> rfl

end ShaderInterface.Interface
