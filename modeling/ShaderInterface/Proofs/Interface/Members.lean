import Mathlib.Data.List.ReduceOption
import Mathlib.Tactic.Common
import ShaderInterface.Proofs.Arithmetic.Operators
import ShaderInterface.Proofs.Interface.ArraySize

/-!
# The Members of Blocks

A block that consists of declarations is read as their members, in order, wherever blanks and comments
stand in it. Each member has the type of its declaration, and its name holds its array sizes as numbers,
which the size of the member is computed from.

Comments are removed before array sizes are computed. Where `/` and `*` are operators, no size with a
value holds the start of a comment and none ends with a slash, as the operators neither follow each other
in an expression nor end it. They may be macros, however. Then what looks like a comment in a size is
removed, though the size might have a value.

## Main definitions

* `EndsOutside`: the lexemes between two semicolons can be trimmed.

## Main results

* `declaredMembers_of_spaced`: a declaration is read as its members.
* `startsNoComment_of_evaluate`, `Lexeme.endsBefore_of_evaluate`: operators make no comments.
* `blockMembers_of_spaced`: a block is read as the members of its declarations, and their array sizes are
  found again in their names.
* `not_forall_blockMembers`: macros for signs of comments make an exception.
-/

namespace ShaderInterface.Interface

open ShaderInterface.Text

variable {table : Macro.Table}

/-! ## The lexemes of a declaration -/

theorem mem_intercalate_of_mem {α : Type} {separator part : List α} {parts : List (List α)}
    (hpart : part ∈ parts) {x : α} (hx : x ∈ part) : x ∈ separator.intercalate parts := by
  induction parts with
  | nil => cases hpart
  | cons first parts ih =>
    by_cases hnil : parts = []
    · rw [hnil, List.mem_singleton] at hpart
      rwa [hnil, List.intercalate_singleton, ← hpart]
    · rw [List.intercalate_cons_of_ne_nil hnil, List.mem_append, List.mem_append]
      rcases List.mem_cons.1 hpart with rfl | hpart
      · exact .inl (.inl hx)
      · exact .inr (ih hpart)

theorem of_mem_intercalate {α : Type} {separator : List α} {parts : List (List α)} {x : α}
    (h : x ∈ separator.intercalate parts) : x ∈ separator ∨ ∃ part ∈ parts, x ∈ part := by
  induction parts with
  | nil => cases h
  | cons first parts ih =>
    by_cases hnil : parts = []
    · rw [hnil, List.intercalate_singleton] at h
      exact .inr ⟨first, List.mem_cons_self, h⟩
    · rw [List.intercalate_cons_of_ne_nil hnil, List.mem_append, List.mem_append] at h
      rcases h with (h | h) | h
      · exact .inr ⟨first, List.mem_cons_self, h⟩
      · exact .inl h
      · exact (ih h).imp_right fun ⟨part, hpart, hx⟩ => ⟨part, List.mem_cons_of_mem _ hpart, hx⟩

namespace MemberDeclaration

variable {declaration : MemberDeclaration}

/-- Between commas there is a member. -/
theorem exists_of_mem_parts {part : List Lexeme} (h : part ∈ declaration.parts) :
    ∃ words, ∃ declarator ∈ declaration.declarators, part = declarator.lexemes words := by
  rcases List.mem_cons.1 h with rfl | h
  · exact ⟨_, declaration.first, List.mem_cons_self, rfl⟩
  · obtain ⟨declarator, hdeclarator, rfl⟩ := List.mem_map.1 h
    exact ⟨[], declarator, List.mem_cons_of_mem _ hdeclarator, rfl⟩

/-- The lexemes of a declaration are those of its members, and commas. -/
theorem of_mem_lexemes {lexeme : Lexeme} (h : lexeme ∈ declaration.lexemes) :
    lexeme = .mark ',' ∨
      ∃ words, ∃ declarator ∈ declaration.declarators, lexeme ∈ declarator.lexemes words := by
  rcases of_mem_intercalate h with hcomma | ⟨part, hpart, hlexeme⟩
  · exact .inl (List.mem_singleton.1 hcomma)
  · obtain ⟨words, declarator, hdeclarator, rfl⟩ := exists_of_mem_parts hpart
    exact .inr ⟨words, declarator, hdeclarator, hlexeme⟩

/-- The name of each member is a word of the declaration. -/
theorem name_mem_lexemes {declarator : Declarator} (h : declarator ∈ declaration.declarators) :
    .word declarator.name ∈ declaration.lexemes := by
  have hname (words : List Text) : .word declarator.name ∈ declarator.lexemes words := by
    simp [Declarator.lexemes]
  rcases List.mem_cons.1 h with rfl | h
  · exact mem_intercalate_of_mem List.mem_cons_self (hname _)
  · exact mem_intercalate_of_mem (List.mem_cons_of_mem _ (List.mem_map_of_mem h)) (hname _)

end MemberDeclaration

/-- Brackets are the only marks in a member. -/
theorem Declarator.mark_notMem {c : Char} (hopen : c ≠ '[') (hclose : c ≠ ']') (words : List Text)
    (declarator : Declarator) : .mark c ∉ declarator.lexemes words := by
  simp [Declarator.lexemes, sizeLexemes, hopen, hclose]

/-- Semicolons stand between declarations only. -/
theorem MemberDeclaration.semicolon_notMem (declaration : MemberDeclaration) :
    .mark ';' ∉ declaration.lexemes := by
  intro hmem
  rcases of_mem_lexemes hmem with hcomma | ⟨words, declarator, -, hmem⟩
  · cases hcomma
  · exact declarator.mark_notMem (by decide) (by decide) words hmem

/-- The sizes in a member are its array sizes. -/
theorem Declarator.size_mem {declarator : Declarator} {words : List Text} {size : Text}
    (h : .size size ∈ declarator.lexemes words) : some size ∈ declarator.sizes := by
  rcases List.mem_append.1 h with hword | hsize
  · simp at hword
  · obtain ⟨found, hfound, hmem⟩ := List.mem_flatMap.1 hsize
    cases found with
    | none => simp [sizeLexemes] at hmem
    | some found =>
      obtain rfl : size = found := by simpa [sizeLexemes] using hmem
      exact hfound

/-- An array size of a member is a size of the declaration. -/
theorem MemberDeclaration.mem_sizes {declaration : MemberDeclaration} {declarator : Declarator}
    (hdeclarator : declarator ∈ declaration.declarators) {size : Text}
    (hsize : some size ∈ declarator.sizes) : size ∈ declaration.sizes :=
  List.mem_flatMap.2 ⟨declarator, hdeclarator, List.reduceOption_mem_iff.2 hsize⟩

/-! ## Declarations -/

/-- The words of a declarator stand in front of its array sizes. -/
theorem Spaced.splitDims {words : List Text} {sizes : List (Option Text)} {text : Text}
    (h : Spaced BlankGap (words.map .word ++ sizes.flatMap sizeLexemes) text) :
    Spaced BlankGap (words.map .word) (splitDims text).1 ∧
      Spaced BlankGap (sizes.flatMap sizeLexemes) (splitDims text).2 := by
  have hwords : .mark '[' ∉ words.map Lexeme.word := by simp
  cases sizes with
  | nil =>
    rw [List.flatMap_nil, List.append_nil] at h
    have hall := forall_bne_of_notMem (h.notMem (by decide) hwords)
    rw [Interface.splitDims, List.takeWhile_eq_self_iff.2 hall, List.dropWhile_eq_nil_iff.2 hall]
    exact ⟨h, .nil (.refl _)⟩
  | cons size sizes =>
    rw [List.flatMap_cons, sizeLexemes, List.cons_append] at h ⊢
    obtain ⟨before, behind, rfl, hbefore, hbehind⟩ := h.exists_of_mark
    have hall := forall_bne_of_notMem (hbefore.notMem (by decide) hwords)
    rw [Interface.splitDims, List.takeWhile_append_of_pos hall, List.dropWhile_append_of_pos hall,
      List.takeWhile_cons_of_neg (by decide), List.dropWhile_cons_of_neg (by decide), List.append_nil]
    exact ⟨hbefore, .cons (by decide) (.refl _) trivial hbehind⟩

/-- Where each part is read as an item, all parts are read as the items in order. -/
theorem mapM_of_forall₂ {α β γ : Type} {R : α → β → Prop} {f : β → Report γ} {g : α → γ}
    {items : List α} {parts : List β} (h : List.Forall₂ R items parts)
    (hread : ∀ item ∈ items, ∀ part, R item part → f part = pure (g item)) :
    parts.mapM f = pure (items.map g) := by
  induction h with
  | nil => rfl
  | cons hhead _ ih =>
    rw [List.forall_mem_cons] at hread
    rw [List.mapM_cons, hread.1 _ hhead, ih hread.2]
    rfl

/-- A declaration is read as the members that it declares. -/
theorem declaredMembers_of_spaced {declaration : MemberDeclaration} {text : Text}
    (h : Spaced BlankGap declaration.lexemes text)
    (hsizes : ∀ size ∈ declaration.sizes, ∃ x, Arithmetic.evaluate table size = .ok x) :
    declaredMembers table text = pure (declaration.members table) := by
  have hsizes {declarator : Declarator} (hmem : declarator ∈ declaration.declarators) (size : Text)
      (hsize : some size ∈ declarator.sizes) : ∃ x, Arithmetic.evaluate table size = .ok x :=
    hsizes size (MemberDeclaration.mem_sizes hmem hsize)
  have hcommas : ∀ part ∈ declaration.parts, .mark ',' ∉ part := by
    intro part hpart
    obtain ⟨words, declarator, -, rfl⟩ := MemberDeclaration.exists_of_mem_parts hpart
    exact declarator.mark_notMem (by decide) (by decide) words
  obtain ⟨first, others, hfirst, hothers, hsplit⟩ :=
    List.forall₂_cons_left_iff.1 (h.splitOn (by decide) (List.cons_ne_nil _ _) hcommas)
  rw [List.forall₂_map_left_iff] at hothers
  obtain ⟨hwords, hdims⟩ := hfirst.splitDims
  -- The last two words are the type and the first name.
  have hreverse : (Text.words (splitDims first).1).reverse =
      declaration.first.name :: declaration.type :: declaration.qualifiers.reverse := by
    rw [hwords.words, List.reverse_append, List.reverse_append]
    rfl
  have hrest : (others.mapM fun declarator =>
      let name := trim (splitDims declarator).1
      if name.isEmpty then refuseMember text
      else (fun dims => ({ type := declaration.type, name := name ++ dims } : Member)) <$>
        foldDims table text (splitDims declarator).2) =
        pure (declaration.others.map (Declarator.member table declaration.type)) := by
    refine mapM_of_forall₂ hothers fun declarator hmem part hpart => ?_
    obtain ⟨hname, hdims⟩ := hpart.splitDims
    obtain ⟨htrim, hne⟩ := hname.trim_word
    simp only [htrim, List.isEmpty_eq_false_iff.2 hne, Bool.false_eq_true, if_false]
    rw [foldDims_of_spaced hdims (hsizes (List.mem_cons_of_mem _ hmem))]
    rfl
  rw [declaredMembers, hsplit]
  simp only [hreverse]
  rw [foldDims_of_spaced hdims (hsizes List.mem_cons_self), hrest]
  rfl

/-! ## Trimming declarations -/

/-- The last lexeme is a word or a mark. -/
def EndsOutside (lexemes : List Lexeme) : Prop :=
  ∃ front last, lexemes = front ++ [last] ∧ last.isSize = false

theorem EndsOutside.append {second : List Lexeme} (h : EndsOutside second) (first : List Lexeme) :
    EndsOutside (first ++ second) := by
  obtain ⟨front, last, rfl, hlast⟩ := h
  exact ⟨first ++ front, last, (List.append_assoc ..).symm, hlast⟩

/-- A member ends with its name or with a bracket. -/
theorem Declarator.endsOutside (words : List Text) (declarator : Declarator) :
    EndsOutside (declarator.lexemes words) := by
  rw [Declarator.lexemes]
  rcases List.eq_nil_or_concat' declarator.sizes with hnil | ⟨front, size, hsizes⟩
  · refine ⟨words.map .word, .word declarator.name, ?_, rfl⟩
    rw [hnil, List.flatMap_nil, List.append_nil, List.map_append, List.map_singleton]
  · have hbracket : EndsOutside (sizeLexemes size) :=
      ⟨.mark '[' :: (size.map Lexeme.size).toList, .mark ']', rfl, rfl⟩
    rw [hsizes, List.flatMap_append, List.flatMap_singleton]
    exact (hbracket.append _).append _

theorem endsOutside_intercalate {separator : List Lexeme} {parts : List (List Lexeme)}
    (hne : parts ≠ []) (h : ∀ part ∈ parts, EndsOutside part) :
    EndsOutside (separator.intercalate parts) := by
  induction parts with
  | nil => exact absurd rfl hne
  | cons part parts ih =>
    rw [List.forall_mem_cons] at h
    by_cases hnil : parts = []
    · rw [hnil, List.intercalate_singleton]
      exact h.1
    · rw [List.intercalate_cons_of_ne_nil hnil]
      exact (ih hnil h.2).append _

/-- A declaration starts with a word. -/
theorem MemberDeclaration.exists_lexemes_eq (declaration : MemberDeclaration) :
    ∃ word rest, declaration.lexemes = .word word :: rest := by
  obtain ⟨word, words, hcons⟩ : ∃ word words,
      declaration.qualifiers ++ [declaration.type] ++ [declaration.first.name] = word :: words :=
    List.exists_cons_of_ne_nil (by simp)
  rw [lexemes, parts, Declarator.lexemes, hcons, List.map_cons, List.cons_append,
    List.intercalate_cons_cons_left]
  exact ⟨word, _, rfl⟩

/-- A declaration ends with a word or a bracket. -/
theorem MemberDeclaration.endsOutside (declaration : MemberDeclaration) :
    EndsOutside declaration.lexemes := by
  refine endsOutside_intercalate (List.cons_ne_nil _ _) fun part hpart => ?_
  obtain ⟨words, declarator, -, rfl⟩ := exists_of_mem_parts hpart
  exact declarator.endsOutside words

/-- A declaration is trimmed. -/
theorem Spaced.trim {declaration : MemberDeclaration} {text : Text}
    (h : Spaced BlankGap declaration.lexemes text) :
    Spaced BlankGap declaration.lexemes text.trim ∧ text.trim ≠ [] := by
  obtain ⟨word, rest, hfirst⟩ := declaration.exists_lexemes_eq
  obtain ⟨front, last, hends, hlast⟩ := declaration.endsOutside
  have hstart : Spaced BlankGap declaration.lexemes text.trimStart := by
    rw [hfirst] at h ⊢
    exact h.trimStart rfl
  have htrim : Spaced BlankGap declaration.lexemes text.trim := by
    rw [hends] at hstart ⊢
    exact hstart.trimEnd hlast
  refine ⟨htrim, fun hnil => ?_⟩
  have hblanks : Blanks text.trim := by
    rw [hnil]
    exact List.forall_mem_nil _
  exact htrim.not_blanks (by rw [hfirst]; exact List.mem_cons_self) rfl hblanks

/-- The declarations of a block are what stands between semicolons and is not blank. -/
theorem forall₂_filter_trim {declarations : List MemberDeclaration} {tail : List (List Lexeme)}
    (htail : ∀ part ∈ tail, part = []) {texts : List Text}
    (h : List.Forall₂ (Spaced BlankGap) (declarations.map MemberDeclaration.lexemes ++ tail) texts) :
    List.Forall₂ (fun declaration text => Spaced BlankGap declaration.lexemes text) declarations
      ((texts.map trim).filter (!·.isEmpty)) := by
  induction declarations generalizing texts with
  | nil =>
    rw [List.map_nil, List.nil_append] at h
    have hnone : (texts.map trim).filter (!·.isEmpty) = [] := by
      induction h with
      | nil => rfl
      | cons hpart _ ih =>
        rw [List.forall_mem_cons] at htail
        rw [htail.1] at hpart
        obtain ⟨blanks, hblanks, rfl⟩ := hpart.blankGap
        rw [List.map_cons, List.append_nil, trim_of_blanks hblanks,
          List.filter_cons_of_neg (by decide), ih htail.2]
    rw [hnone]
    exact .nil
  | cons declaration declarations ih =>
    rw [List.map_cons, List.cons_append] at h
    obtain ⟨text, rest, htext, hrest, rfl⟩ := List.forall₂_cons_left_iff.1 h
    obtain ⟨htrim, hne⟩ := htext.trim
    rw [List.map_cons, List.filter_cons_of_pos (by simp [hne])]
    exact .cons htrim (ih hrest)

/-! ## Blocks -/

/-- The declarations of a block without comments. -/
theorem declarations_of_spaced {declarations : List MemberDeclaration} {terminated : Bool}
    {text : Text} (h : Spaced BlankGap (blockLexemes declarations terminated) text) :
    List.Forall₂ (fun declaration text => Spaced BlankGap declaration.lexemes text) declarations
      (((text.splitOn ';').map trim).filter (!·.isEmpty)) := by
  have htail : ∀ part ∈ (if terminated then [[]] else [] : List (List Lexeme)), part = [] := by
    cases terminated <;> simp
  by_cases hnil : declarations.map MemberDeclaration.lexemes ++
      (if terminated then [[]] else []) = []
  · -- Nothing but a gap.
    obtain ⟨hdeclarations, -⟩ := List.append_eq_nil_iff.1 hnil
    obtain rfl := List.map_eq_nil_iff.1 hdeclarations
    rw [blockLexemes, hnil] at h
    refine forall₂_filter_trim (List.forall_mem_singleton.2 rfl) ?_
    rw [List.splitOn_eq_singleton (h.notMem (by decide) List.not_mem_nil)]
    exact .cons h .nil
  · refine forall₂_filter_trim htail (h.splitOn (by decide) hnil fun part hpart => ?_)
    rcases List.mem_append.1 hpart with hpart | hpart
    · obtain ⟨declaration, -, rfl⟩ := List.mem_map.1 hpart
      exact declaration.semicolon_notMem
    · rw [htail part hpart]
      exact List.not_mem_nil

/-- A size in a block is a size of a declaration. -/
theorem exists_of_mem_blockLexemes {declarations : List MemberDeclaration} {terminated : Bool}
    {size : Text} (h : .size size ∈ blockLexemes declarations terminated) :
    ∃ declaration ∈ declarations, size ∈ declaration.sizes := by
  rcases of_mem_intercalate h with hmark | ⟨part, hpart, hmem⟩
  · simp at hmark
  rcases List.mem_append.1 hpart with hpart | hpart
  · obtain ⟨declaration, hdeclaration, rfl⟩ := List.mem_map.1 hpart
    rcases MemberDeclaration.of_mem_lexemes hmem with hcomma | ⟨words, declarator, hdeclarator, hmem⟩
    · cases hcomma
    · exact ⟨declaration, hdeclaration,
        MemberDeclaration.mem_sizes hdeclarator (Declarator.size_mem hmem)⟩
  · cases terminated <;> simp at hpart
    rw [hpart] at hmem
    cases hmem

section

variable {size : Text} (hdivide : table.replacement? ['/'] = none)
include hdivide

/-- No comment starts in a size with a value, where the signs of comments are operators. -/
theorem startsNoComment_of_evaluate (hmultiply : table.replacement? ['*'] = none)
    (h : ∃ x, Arithmetic.evaluate table size = .ok x) : StartsNoComment size := by
  obtain ⟨x, hx⟩ := h
  have hdivide : table.replacement? [Arithmetic.Operator.divide.sign] = none := hdivide
  have hmultiply : table.replacement? [Arithmetic.Operator.multiply.sign] = none := hmultiply
  constructor
  · rintro ⟨first, second, rfl⟩
    rw [List.append_assoc] at hx
    exact absurd (Arithmetic.joinsFactors_of_evaluate hdivide hdivide hx) (by decide)
  · rintro ⟨first, second, rfl⟩
    rw [List.append_assoc] at hx
    exact absurd (Arithmetic.joinsFactors_of_evaluate hdivide hmultiply hx) (by decide)

/-- Anything may stand behind a size with a value, where a slash is an operator. -/
theorem Lexeme.endsBefore_of_evaluate (h : ∃ x, Arithmetic.evaluate table size = .ok x)
    (after : Text) : (Lexeme.size size).EndsBefore after := by
  obtain ⟨x, hx⟩ := h
  intro hlast
  obtain ⟨front, rfl⟩ := List.getLast?_eq_some_iff.1 hlast
  have hdivide : table.replacement? [Arithmetic.Operator.divide.sign] = none := hdivide
  have hnone : Arithmetic.evaluate table (front ++ [Arithmetic.Operator.divide.sign]) ≠ .ok x :=
    Arithmetic.evaluate_ne_of_sign hdivide
  exact absurd hx hnone

end

/-- A block of declarations is read as their members, whatever blanks and comments stand between its
parts, if all array sizes have values and none of them holds the start of a comment. The numbers that the
sizes stand for are read from the names of the members again, one for each pair of brackets. Where `/` and
`*` are no macros, no size holds the start of a comment, and any comment may stand right behind one. -/
theorem blockMembers_of_spaced {declarations : List MemberDeclaration} {terminated : Bool}
    {block : Text} (hblock : Spaced Gap (blockLexemes declarations terminated) block)
    (hsizes : ∀ declaration ∈ declarations, ∀ size ∈ declaration.sizes,
      ∃ x, Arithmetic.evaluate table size = .ok x)
    (hsigns : table.replacement? ['/'] = none ∧ table.replacement? ['*'] = none ∨
      ∀ declaration ∈ declarations, ∀ size ∈ declaration.sizes, StartsNoComment size) :
    blockMembers table block = pure (declarations.flatMap (MemberDeclaration.members table)) ∧
      (∀ declaration ∈ declarations, ∀ declarator ∈ declaration.declarators,
        (declarator.member table declaration.type).arrayDims =
          declarator.sizes.map (dimension table)) ∧
      (table.replacement? ['/'] = none → table.replacement? ['*'] = none →
        ∀ declaration ∈ declarations, ∀ size ∈ declaration.sizes,
          StartsNoComment size ∧ ∀ after, (Lexeme.size size).EndsBefore after) := by
  have hstripped : Spaced BlankGap (blockLexemes declarations terminated) (stripComments block) := by
    refine hblock.stripComments fun size hsize => ?_
    obtain ⟨declaration, hdeclaration, hsize⟩ := exists_of_mem_blockLexemes hsize
    rcases hsigns with ⟨hdivide, hmultiply⟩ | hstarts
    · exact startsNoComment_of_evaluate hdivide hmultiply (hsizes declaration hdeclaration size hsize)
    · exact hstarts declaration hdeclaration size hsize
  refine ⟨?_, ?_, ?_⟩
  · have hread := mapM_of_forall₂ (declarations_of_spaced hstripped)
      fun declaration hdeclaration text htext =>
        declaredMembers_of_spaced htext (hsizes declaration hdeclaration)
    rw [blockMembers]
    simp only [hread]
    rw [List.flatMap_def]
    rfl
  · intro declaration hdeclaration declarator hdeclarator
    have hword : .word declarator.name ∈ blockLexemes declarations terminated :=
      mem_intercalate_of_mem (List.mem_append_left _ (List.mem_map_of_mem hdeclaration))
        (MemberDeclaration.name_mem_lexemes hdeclarator)
    have hbracket : '[' ∉ declarator.name :=
      Lexeme.notMem_text (hstripped.wellFormed hword) (by decide) (by simp)
    exact arrayDims_member hbracket declaration.type
  · -- Operators neither follow each other in a size with a value nor end it.
    intro hdivide hmultiply declaration hdeclaration size hsize
    have hvalue := hsizes declaration hdeclaration size hsize
    exact ⟨startsNoComment_of_evaluate hdivide hmultiply hvalue,
      Lexeme.endsBefore_of_evaluate hdivide hvalue⟩

/-- A table with a number that is computed where it is used. -/
def exampleNumber : Macro.Table :=
  Macro.Table.empty.set ['N'] (.text "2-5".toList)

/-- Two members of one declaration. -/
def exampleMembers : MemberDeclaration where
  qualifiers := ["highp".toList]
  type := "float".toList
  first := ⟨"a".toList, [some "N*-1".toList]⟩
  others := [⟨"b".toList, [none, some "N".toList]⟩]

/-- Blanks and comments around the lexemes of two members. -/
def exampleBlock : Text := "highp/**/float a[N*-1], // b\nb [] [ N ];".toList

/-- The macro is replaced by its text, so that the first member has seven elements. An array size that is
missing or negative counts as one. -/
theorem blockMembers_exampleBlock :
    Spaced Gap (blockLexemes [exampleMembers] true) exampleBlock ∧
      (∀ size ∈ exampleMembers.sizes, ∃ x, Arithmetic.evaluate exampleNumber size = .ok x) ∧
      blockMembers exampleNumber exampleBlock =
        pure [⟨"float".toList, "a[7]".toList⟩, ⟨"float".toList, "b[][-3]".toList⟩] ∧
      Member.arrayDims ⟨"float".toList, "a[7]".toList⟩ = [7] ∧
      Member.arrayDims ⟨"float".toList, "b[][-3]".toList⟩ = [1, 1] := by
  have hblock : Spaced Gap (blockLexemes [exampleMembers] true) exampleBlock :=
    .cons (by decide) (.done _) (by decide) <|
    .cons (by decide) (.blockComment [] (by decide) (.done _)) (by decide) <|
    .cons (by decide) (.blank (by decide) (.done _)) (by decide) <|
    .cons (by decide) (.done _) (by decide) <|
    .cons (by decide) (.done _) (by decide) <|
    .cons (by decide) (.done _) (by decide) <|
    .cons (by decide) (.done _) (by decide) <|
    .cons (by decide) (.blank (by decide) (.lineComment " b".toList (by decide) (.done _)))
      (by decide) <|
    .cons (by decide) (.blank (by decide) (.done _)) (by decide) <|
    .cons (by decide) (.done _) (by decide) <|
    .cons (by decide) (.blank (by decide) (.done _)) (by decide) <|
    .cons (by decide) (.blank (by decide) (.done _)) (by decide) <|
    .cons (by decide) (.blank (by decide) (.done _)) (by decide) <|
    .cons (by decide) (.done _) (by decide) <|
    .nil (.done _)
  have hpositive : Arithmetic.evaluate exampleNumber "N*-1".toList = .ok 7 := by decide +kernel
  have hnegative : Arithmetic.evaluate exampleNumber "N".toList = .ok (-3) := by decide +kernel
  have hsizes : ∀ size ∈ exampleMembers.sizes,
      ∃ x, Arithmetic.evaluate exampleNumber size = .ok x := by
    have heq : exampleMembers.sizes = ["N*-1".toList, "N".toList] := rfl
    rw [heq, List.forall_mem_cons, List.forall_mem_singleton]
    exact ⟨⟨7, hpositive⟩, ⟨-3, hnegative⟩⟩
  obtain ⟨hmembers, hdims, -⟩ := blockMembers_of_spaced hblock (List.forall_mem_singleton.2 hsizes)
    (.inl ⟨rfl, rfl⟩)
  have hfirst : exampleMembers.first.member exampleNumber exampleMembers.type =
      ⟨"float".toList, "a[7]".toList⟩ := by
    decide +kernel
  have hsecond : Declarator.member exampleNumber exampleMembers.type
      ⟨"b".toList, [none, some "N".toList]⟩ = ⟨"float".toList, "b[][-3]".toList⟩ := by
    decide +kernel
  refine ⟨hblock, hsizes, ?_, ?_, ?_⟩
  · rw [hmembers, List.flatMap_singleton, ← hfirst, ← hsecond]
    rfl
  · rw [← hfirst, hdims exampleMembers List.mem_cons_self _ List.mem_cons_self]
    decide +kernel
  · rw [← hsecond, hdims exampleMembers List.mem_cons_self _
      (List.mem_cons_of_mem _ List.mem_cons_self)]
    decide +kernel

/-- A table with `+` in the place of `/`. -/
def exampleSlash : Macro.Table :=
  Macro.Table.empty.set ['/'] (.text ['+'])

/-- Signs of comments are removed even if they are macros: with `+` in the place of `/`, the size `4//2`
has the value six, but its closing bracket is lost. -/
theorem not_forall_blockMembers : ¬ ∀ (table : Macro.Table) (declarations : List MemberDeclaration)
    (terminated : Bool) (block : Text), Spaced Gap (blockLexemes declarations terminated) block →
      (∀ declaration ∈ declarations, ∀ size ∈ declaration.sizes,
        ∃ x, Arithmetic.evaluate table size = .ok x) →
      (blockMembers table block).outcome =
        .ok (declarations.flatMap (MemberDeclaration.members table)) := by
  intro h
  let declaration : MemberDeclaration := ⟨[], "float".toList, ⟨['a'], [some "4//2".toList]⟩, []⟩
  have hblock : Spaced Gap (blockLexemes [declaration] false) "float a[4//2]".toList :=
    .cons (by decide) (.done _) (by decide) <|
    .cons (by decide) (.blank (by decide) (.done _)) (by decide) <|
    .cons (by decide) (.done _) (by decide) <|
    .cons (by decide) (.done _) (by decide) <|
    .cons (by decide) (.done _) (by decide) <|
    .nil (.done _)
  have hsize : Arithmetic.evaluate exampleSlash "4//2".toList = .ok 6 := by decide +kernel
  have hfault : (blockMembers exampleSlash "float a[4//2]".toList).outcome =
      .error (.unterminatedArraySize "float a[4".toList) := by decide +kernel
  have hread := h exampleSlash [declaration] false "float a[4//2]".toList hblock ?_
  · cases hfault.symm.trans hread
  · refine List.forall_mem_singleton.2 fun size hmem => ⟨6, ?_⟩
    obtain rfl : size = "4//2".toList := List.mem_singleton.1 hmem
    exact hsize

end ShaderInterface.Interface
