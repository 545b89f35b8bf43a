import ShaderInterface.Proofs.Interface.Extent

/-!
# The Progress of Reading

Whatever reads a part of a declaration leaves an end of the text that it was given, so that the places
where it stands are places of the source. Where something has been taken, the text that is left is shorter.

## Main definitions

* `Behind`: an end of a text that is not the whole of it.

## Main results

* `skipTrivia_suffix`: blanks and comments are skipped at the beginning of a text.
* `behind_of_declaration?`: a declaration is read at the beginning of a text.
-/

namespace ShaderInterface.Interface

open ShaderInterface.Text

variable {c : Char} {text after rest name : Text} {declaration : Declaration}

/-- The end of a text, but not the whole of it. -/
structure Behind (rest text : Text) : Prop where
  isSuffix : rest <:+ text
  lt : rest.length < text.length

theorem Behind.of_suffix {middle : Text} (h : Behind rest middle) (hmiddle : middle <:+ text) :
    Behind rest text where
  isSuffix := h.isSuffix.trans hmiddle
  lt := Nat.lt_of_lt_of_le h.lt hmiddle.length_le

theorem Behind.of_rest {middle : Text} (h : Behind middle text) (hrest : rest <:+ middle) :
    Behind rest text where
  isSuffix := hrest.trans h.isSuffix
  lt := Nat.lt_of_le_of_lt hrest.length_le h.lt

theorem behind_cons (c : Char) (rest : Text) : Behind rest (c :: rest) :=
  ⟨List.suffix_cons c rest, Nat.lt_succ_self _⟩

theorem behind_of_commentAhead (h : CommentAhead text rest) : Behind rest text := by
  refine ⟨?_, length_lt_of_afterComment? (afterComment?_eq_some_iff.2 h)⟩
  cases h with
  | line inner => exact List.suffix_append ('/' :: '/' :: inner) rest
  | block inner => exact ⟨'/' :: '*' :: (inner ++ ['*', '/']), by simp⟩
  | unended => exact List.nil_suffix

theorem skipTrivia_suffix (text : Text) : skipTrivia text <:+ text := by
  fun_induction skipTrivia text with
  | case1 text after hafter ih =>
    exact ih.trans (behind_of_commentAhead (afterComment?_eq_some_iff.1 hafter)).isSuffix
  | case2 => exact List.suffix_rfl
  | case3 c rest _ _ ih => exact ih.trans (List.suffix_cons c rest)
  | case4 => exact List.suffix_rfl

/-- What stands behind the first character that is not skipped is left of the whole text. -/
theorem behind_of_skipTrivia (hskip : skipTrivia text = c :: after) (hrest : rest <:+ after) :
    Behind rest text :=
  ((behind_cons c after).of_rest hrest).of_suffix (hskip ▸ skipTrivia_suffix text)

theorem behind_of_name? (h : name? text = some (name, rest)) : Behind rest text := by
  unfold name? at h
  split at h
  next => cases h
  next c after hskip =>
    split at h
    next =>
      cases h
      exact behind_of_skipTrivia hskip (List.dropWhile_suffix _)
    next => cases h

theorem behind_of_symbol? {symbol : Char} (h : symbol? symbol text = some rest) :
    Behind rest text := by
  unfold symbol? at h
  split at h
  next => cases h
  next c after hskip =>
    split at h
    next =>
      cases h
      exact behind_of_skipTrivia hskip List.suffix_rfl
    next => cases h

theorem behind_of_cut? {separator : Char} {before : Text}
    (h : text.cut? separator = some (before, rest)) : Behind rest text := by
  refine ⟨?_, length_lt_of_cut? h⟩
  rw [(eq_of_cut? h).1]
  exact (List.suffix_cons separator rest).trans (List.suffix_append before _)

theorem optionalName_suffix (text : Text) : (optionalName text).2 <:+ text := by
  unfold optionalName
  split
  next hname => exact (behind_of_name? hname).isSuffix
  next => exact List.suffix_rfl

theorem suffix_of_optionalEnclosed? {opening closing : Char} {inner : Option Text}
    (h : optionalEnclosed? opening closing text = some (inner, rest)) : rest <:+ text := by
  unfold optionalEnclosed? at h
  split at h
  next opened hopened =>
    obtain ⟨⟨found, after⟩, hcut, heq⟩ := Option.map_eq_some_iff.1 h
    cases heq
    exact (behind_of_cut? hcut).isSuffix.trans (behind_of_symbol? hopened).isSuffix
  next =>
    cases h
    exact List.suffix_rfl

theorem behind_of_qualifier? {word : Text} (h : qualifier? text = some (word, rest)) :
    Behind rest text := by
  fun_induction qualifier? text with
  | case1 => cases h
  | case2 text _ after hname _ ih => exact (ih h).of_suffix (behind_of_name? hname).isSuffix
  | case3 text _ after hname =>
    cases h
    exact behind_of_name? hname

theorem behind_of_declared? {attributes : Text} {storage : Storage} {declared : Variable}
    (h : declared? attributes storage text = some (declared, rest)) : Behind rest text := by
  simp only [declared?, Option.bind_eq_bind, Option.bind_eq_some_iff, Option.pure_def,
    Option.some.injEq, Prod.mk.injEq, Prod.exists] at h
  obtain ⟨type, afterType, htype, block, afterBlock, hblock, array, last, harray, _, rfl⟩ := h
  -- The type is always read, and what is optional comes behind it.
  have hbefore : afterBlock <:+ afterType :=
    (suffix_of_optionalEnclosed? hblock).trans (optionalName_suffix afterType)
  have hbehind : last <:+ afterBlock :=
    (suffix_of_optionalEnclosed? harray).trans (optionalName_suffix afterBlock)
  exact (behind_of_name? htype).of_rest (hbehind.trans hbefore)

/-- A declaration is read from the text that it stands in front of. -/
theorem behind_of_declaration? (h : declaration? text = some (declaration, rest)) :
    Behind rest text := by
  simp only [declaration?, Option.bind_eq_bind, Option.bind_eq_some_iff, Prod.exists] at h
  obtain ⟨opened, hopened, attributes, closed, hclosed, word, after, hword, storage, _, h⟩ := h
  have hafter : after <:+ text :=
    ((behind_of_qualifier? hword).isSuffix.trans (behind_of_cut? hclosed).isSuffix).trans
      (behind_of_symbol? hopened).isSuffix
  split at h
  next last hstop =>
    cases h
    exact (behind_of_symbol? hstop).of_suffix hafter
  next =>
    obtain ⟨⟨declared, last⟩, hdeclared, heq⟩ := Option.bind_eq_some_iff.1 h
    cases heq
    exact (behind_of_declared? hdeclared).of_suffix hafter

end ShaderInterface.Interface
