import ShaderInterface.Proofs.Interface.Comments

/-!
# The Extent of Comments

Comments are skipped between the parts of a declaration, and they are removed from its block as a
whole. Both have to find the end of a comment, and they agree on it. As a block comment gives way to a
space, and the line feed behind a line comment stays, removing comments brings no two characters
together that would be the mark of another one.

## Main definitions

* `CommentAhead`: a text starts with a comment.

## Main results

* `afterComment?_eq_some_iff`: what is found to stand behind a comment.
* `uncommented_stripComments`: no comment mark is left.
* `stripComments_extent`: removing comments comes to an end, and skips what the scanner skips.
-/

namespace ShaderInterface.Interface

open ShaderInterface.Text

variable {text after : Text}

/-- A text starts with a comment, and `after` stands behind it. A line comment goes up to the next line
feed, and a block comment up to the first closing mark that has no character in common with the opening
one. A comment without such an end goes up to the end of the text. -/
inductive CommentAhead : (text after : Text) → Prop where
  | line (inner : Text) {after : Text} : '\n' ∉ inner → after.head?.all (· == '\n') = true →
      CommentAhead ('/' :: '/' :: (inner ++ after)) after
  | block (inner after : Text) : ¬ ['*', '/'] <:+: inner →
      CommentAhead ('/' :: '*' :: (inner ++ '*' :: '/' :: after)) after
  | unended (inner : Text) : ¬ ['*', '/'] <:+: inner → CommentAhead ('/' :: '*' :: inner) []

theorem commentAhead_line (rest : Text) :
    CommentAhead ('/' :: '/' :: rest) (rest.dropWhile (· != '\n')) := by
  have hinner : '\n' ∉ rest.takeWhile (· != '\n') := by
    intro hmem
    have hne := List.all_eq_true.1 List.all_takeWhile _ hmem
    simp at hne
  have hafter : (rest.dropWhile (· != '\n')).head?.all (· == '\n') = true := by
    rcases dropWhile_lineFeed rest with hdrop | ⟨behind, hdrop⟩ <;> rw [hdrop] <;> rfl
  have hcomment := CommentAhead.line _ hinner hafter
  rwa [List.takeWhile_append_dropWhile] at hcomment

theorem commentAhead_block (rest : Text) : CommentAhead ('/' :: '*' :: rest) (afterBlock rest) := by
  rw [afterBlock]
  split
  next inner behind hbreak =>
    obtain ⟨rfl, hinner⟩ := eq_of_breakOn? hbreak
    exact .block inner behind hinner
  next hbreak => exact .unended rest (breakOn?_eq_none_iff.1 hbreak)

/-- Behind a comment is found what stands there. -/
theorem afterComment?_eq_some_iff : afterComment? text = some after ↔ CommentAhead text after := by
  constructor
  · intro hafter
    rcases comment_cases hafter with ⟨rest, rfl, rfl⟩ | ⟨rest, rfl, rfl⟩
    · exact commentAhead_line rest
    · exact commentAhead_block rest
  · intro hcomment
    cases hcomment with
    | line inner hinner hafter =>
      rw [afterComment?_line hinner]
      rcases after with - | ⟨c, behind⟩
      · rfl
      · have hc : c = '\n' := by simpa using hafter
        rw [hc, List.dropWhile_cons_of_neg (by decide)]
    | block inner _ hinner => rw [afterComment?, afterBlock, breakOn?_append (by decide) hinner]
    | unended inner hinner => rw [afterComment?, afterBlock, breakOn?_eq_none_iff.2 hinner]

/-- No comment mark is left. -/
theorem uncommented_stripComments (text : Text) : Uncommented (stripComments text) := by
  fun_induction stripComments text with
  | case1 _ _ _ _ ih => exact ih
  | case2 _ _ _ _ ih =>
    -- The space in the place of a block comment cannot be part of a mark.
    exact uncommented_cons.2 ⟨afterComment?_eq_none fun heq => absurd heq (by decide), ih⟩
  | case3 => decide
  | case4 c rest hcomment ih => exact uncommented_cons.2 ⟨afterComment?_stripComments hcomment, ih⟩

/-- Without its comments, a text holds no comment mark, so that there is nothing left to remove; only a
text without any mark stays as it is. A character at which no comment starts is kept. Wherever a comment
starts, there is a single place behind it, where both the scanner and the removal go on. -/
theorem stripComments_extent (text : Text) :
    Uncommented (stripComments text) ∧
      stripComments (stripComments text) = stripComments text ∧
      (stripComments text = text ↔ Uncommented text) ∧
      (∀ c rest, text = c :: rest → ¬ OpensComment text →
        stripComments text = c :: stripComments rest) ∧
      (OpensComment text → ∃ after, (∀ other, CommentAhead text other ↔ other = after) ∧
        skipTrivia text = skipTrivia after ∧
        stripComments text =
          (if ['/', '/'] <+: text then [] else [' ']) ++ stripComments after) := by
  have hkept : stripComments text = text ↔ Uncommented text :=
    ⟨fun hsame => hsame ▸ uncommented_stripComments text, Uncommented.stripComments⟩
  refine ⟨uncommented_stripComments text, stripComments_stripComments text, hkept, ?_, fun hopens => ?_⟩
  · rintro c rest rfl hopens
    exact stripComments_char (afterComment?_eq_none_iff.2 hopens)
  obtain ⟨after, hafter⟩ : ∃ after, afterComment? text = some after := by
    rw [← Option.ne_none_iff_exists', ne_eq, afterComment?_eq_none_iff, not_not]
    exact hopens
  refine ⟨after, fun other => ?_, skipTrivia_comment hafter, ?_⟩
  · rw [← afterComment?_eq_some_iff, hafter, Option.some_inj, eq_comm]
  · rcases comment_cases hafter with ⟨rest, rfl, rfl⟩ | ⟨rest, rfl, rfl⟩
    · rw [stripComments_line, if_pos ⟨rest, rfl⟩, List.nil_append]
    · have hblock : ¬ ['/', '/'] <+: '/' :: '*' :: rest := by
        rintro ⟨tail, htail⟩
        cases htail
      rw [stripComments_block, if_neg hblock, List.singleton_append]

/-- A slash that belongs to the opening mark does not close the comment. -/
example : stripComments "a/*/b*/c/*/d".toList = "a c ".toList := by decide +kernel

end ShaderInterface.Interface
