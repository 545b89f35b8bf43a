import ShaderInterface.Interface.Attribute
import ShaderInterface.Proofs.Arithmetic.Evaluation
import ShaderInterface.Proofs.Arithmetic.Spacing
import ShaderInterface.Proofs.Preprocessing.Substitution

/-!
# Arithmetic in Preprocessed Texts

An array size or an attribute may be evaluated as it was written, or after the preprocessor has put the
values of the macros in the place of their names. The preprocessor replaces the names one after the
other, wherever they stand as whole words; the evaluation cuts the text at blanks and operators and
replaces the words that it finds, once. A text with a value has the same value either way, because what
can be read as tokens holds no name: nothing of it is replaced a second time.

## Main results

* `exists_notMem_of_tokens`: what can be read as tokens holds no name.
* `tokens_substitute_replaceWord`: replacing a name leaves the tokens of a text as they are.
* `evaluate_replaceWords`: replacing all names leaves the value of a text as it is.
-/

namespace ShaderInterface.Preprocessing

open ShaderInterface.Text ShaderInterface.Arithmetic

variable {table : Macro.Table} {name replacement text word rest : Text} {found : List Token}

/-! ## Names and what can be read -/

/-- A name that evaluation tells from a numeral: a run of word characters, not all of them digits. -/
structure IsMacroName (name : Text) : Prop where
  isRun : IsRun name
  notDigits : ∃ c ∈ name, c.isDigit = false

instance (name : Text) : Decidable (IsMacroName name) :=
  decidable_of_iff (IsRun name ∧ name.all Char.isDigit = false)
    ⟨fun h => ⟨h.1, by simpa using h.2⟩, fun h => ⟨h.isRun, by simpa using h.notDigits⟩⟩

/-- A separator is part of no word. -/
theorem isWord_of_isSeparator {c : Char} (h : isSeparator c = true) : isWord c = false := by
  rcases Bool.or_eq_true_iff.1 h with hblank | hsign
  · exact isWord_of_isBlank hblank
  · obtain ⟨op, hop⟩ := Option.isSome_iff_exists.1 hsign
    rw [← Operator.sign_of_ofSign? hop]
    cases op <;> decide

/-- What can be read as tokens lacks some character of every name. -/
theorem exists_notMem_of_tokens (hname : IsMacroName name) (h : tokens text = .ok found) :
    ∃ c ∈ name, c ∉ text := by
  obtain ⟨c, hc, hdigit⟩ := hname.notDigits
  have hword := hname.isRun.isWord c hc
  refine ⟨c, hc, fun hmem => ?_⟩
  rcases isSeparator_or_isNumeral h hmem with hseparator | hnumeral
  · cases hword.symm.trans (isWord_of_isSeparator hseparator)
  · -- The only character of numerals besides the digits is the point.
    rw [isNumeral, hdigit, Bool.false_or, beq_iff_eq] at hnumeral
    subst hnumeral
    revert hword
    decide

/-- Nothing is replaced in what can be read. -/
theorem replaceWord_of_tokens (hname : IsMacroName name) (h : tokens text = .ok found) :
    replaceWord name replacement text = text := by
  rw [replaceWord_eq_mapPieces hname.isRun]
  refine mapPieces_of_forall fun piece hpiece => if_neg ?_
  rintro rfl
  obtain ⟨c, hc, hnone⟩ := exists_notMem_of_tokens hname h
  rw [← flatten_pieces text] at hnone
  exact hnone (List.mem_flatten_of_mem hpiece hc)

/-- The words of what can be read are no names. -/
theorem tokens_substitute_of_tokens (hnames : ∀ name ∈ table.names, IsMacroName name)
    (h : tokens text = .ok found) : tokens (Arithmetic.substitute table text) = .ok found := by
  refine (tokens_substitute_of_forall fun word hword => ?_).trans h
  rw [Macro.Table.replacement?, Option.bind_eq_none_iff]
  intro value hvalue
  have hmem : word ∈ table.names :=
    List.mem_map_of_mem ((table.get?_eq_some_iff word value).1 hvalue)
  obtain ⟨c, hc, hnone⟩ := exists_notMem_of_tokens (hnames word hmem) h
  exact absurd (mem_of_mem_words_spaceOut hword hc).2 hnone

/-! ## One name after the other -/

/-- A word that evaluation replaces as a whole may have a name in it replaced before. -/
theorem tokens_substitute_word (hnames : ∀ name ∈ table.names, IsMacroName name)
    (hname : IsMacroName name) (hreplacement : table.replacement? name = some replacement)
    (hword : IsOperandWord word) (h : tokens (Arithmetic.substitute table word) = .ok found) :
    tokens (Arithmetic.substitute table (replaceWord name replacement word)) = .ok found := by
  have hread : tokens (replaced table word) = .ok found := by
    rw [← substitute_word table hword]
    exact h
  by_cases hsame : word = name
  · -- The name gives way to its replacement, which holds no name itself.
    subst hsame
    rw [replaceWord_of_isRun hname.isRun hname.isRun, if_pos rfl]
    rw [replaced, hreplacement] at hread
    exact tokens_substitute_of_tokens hnames hread
  cases hvalue : table.replacement? word with
  | some written =>
    -- Another name is a single word for the preprocessor, too.
    obtain ⟨value, hget, -⟩ := Option.bind_eq_some_iff.1 hvalue
    have hrun : IsRun word :=
      (hnames word (List.mem_map_of_mem ((table.get?_eq_some_iff word value).1 hget))).isRun
    rwa [replaceWord_of_isRun hname.isRun hrun, if_neg hsame]
  | none =>
    -- What is no name is read itself.
    rw [replaced, hvalue, Option.getD_none] at hread
    rwa [replaceWord_of_tokens hname hread]

/-- Replacing a name of a table leaves what is read from a text as it is. -/
theorem tokens_substitute_replaceWord (hnames : ∀ name ∈ table.names, IsMacroName name)
    (hname : IsMacroName name) (hreplacement : table.replacement? name = some replacement)
    (h : tokens (Arithmetic.substitute table text) = .ok found) :
    tokens (Arithmetic.substitute table (replaceWord name replacement text)) = .ok found := by
  induction text using separated_induction generalizing found with
  | nil => rwa [replaceWord_nil hname.isRun]
  | blank c text hc ih =>
    rw [tokens_substitute_blank hc] at h
    rw [replaceWord_mark hname.isRun (isWord_of_isBlank hc), tokens_substitute_blank hc]
    exact ih h
  | operator op text ih =>
    have hmark := isWord_of_isSeparator (isSeparator_sign op)
    rw [tokens_substitute_operator] at h
    obtain ⟨front, behind, hfront, hbehind, rfl⟩ := exists_of_append_ok h
    rw [replaceWord_mark hname.isRun hmark, tokens_substitute_operator, hfront, ih hbehind]
    rfl
  | word word rest hword hrest ih =>
    rw [tokens_substitute_append table word hrest] at h
    obtain ⟨front, behind, hfront, hbehind, rfl⟩ := exists_of_append_ok h
    have hborder : isWord? rest.head? = false := by
      cases rest with
      | nil => rfl
      | cons c tail => exact isWord_of_isSeparator hrest
    -- The separator behind the word is still there, so that both parts are read on their own.
    have hkept : (replaceWord name replacement rest).head?.all isSeparator = true := by
      cases rest with
      | nil => rw [replaceWord_nil hname.isRun]; rfl
      | cons c tail =>
        rw [replaceWord_mark hname.isRun (isWord_of_isSeparator hrest)]
        exact hrest
    rw [replaceWord_append hname.isRun hborder, tokens_substitute_append table _ hkept,
      tokens_substitute_word hnames hname hreplacement hword hfront, ih hbehind]
    rfl

/-- Replacing the names of some entries of a table leaves what is read from a text as it is. -/
theorem tokens_substitute_foldl (hnames : ∀ name ∈ table.names, IsMacroName name)
    {entries : List (Text × Macro.Value)} (hentries : entries ⊆ table.entries)
    (h : tokens (Arithmetic.substitute table text) = .ok found) :
    tokens (Arithmetic.substitute table (entries.foldl replaceEntry text)) = .ok found := by
  induction entries generalizing text with
  | nil => exact h
  | cons entry rest ih =>
    obtain ⟨name, value⟩ := entry
    obtain ⟨hentry, hrest⟩ := List.cons_subset.1 hentries
    refine ih hrest ?_
    cases hvalue : value.replacement? with
    | none => rwa [replaceEntry_of_none hvalue]
    | some replacement =>
      have hreplacement : table.replacement? name = some replacement := by
        rw [Macro.Table.replacement?, (table.get?_eq_some_iff name value).2 hentry, Option.bind_some,
          hvalue]
      rw [replaceEntry_of_some hvalue]
      exact tokens_substitute_replaceWord hnames (hnames name (List.mem_map_of_mem hentry))
        hreplacement h

/-! ## All names -/

/-- A text with a value under a table has this value also after the preprocessor has replaced the names
of the table in it, and so has every array size or attribute that the text writes. It is required that
names are made of word characters and not of digits only. -/
theorem evaluate_replaceWords (hnames : ∀ name ∈ table.names, IsMacroName name) (text : Text)
    {value : Float} (h : evaluate table text = .ok value) :
    evaluate table (replaceWords table text) = .ok value ∧
      ∀ range, Interface.layoutValue table range (replaceWords table text) =
        Interface.layoutValue table range text := by
  have hreplaced : evaluate table (replaceWords table text) = .ok value := by
    obtain ⟨found, hfound, hvalue⟩ := result_of_bind h
    have hsame : tokens (Arithmetic.substitute table (replaceWords table text)) = .ok found :=
      tokens_substitute_foldl hnames (List.Subset.refl _) hfound
    rw [evaluate, hsame]
    exact hvalue
  refine ⟨hreplaced, fun range => ?_⟩
  rw [Interface.layoutValue, Interface.layoutValue, hreplaced, h]

/-- A table in which a text starts with a sign and goes on in a second line, and another one holds
names. -/
def arithmeticTable : Macro.Table where
  entries :=
    [("FAST".toList, .flag), ("N".toList, .text "-2\n+1".toList), ("A".toList, .number 3),
      ("SIZE".toList, .text "N * FAST".toList)]
  nodup := by decide

/-- Eight times minus two, plus one, minus three. -/
def exampleSum : Expression Float :=
  .subtract (.add (.single (.multiply (.single (.operand 8)) (.negative (.operand 2))))
    (.single (.operand 1))) (.single (.operand 3))

/-- The macros are replaced by their texts before or while the text is evaluated. -/
theorem evaluate_arithmeticTable :
    evaluate arithmeticTable (replaceWords arithmeticTable "8*N-A".toList) = .ok (-18) ∧
      ∀ range, Interface.layoutValue arithmeticTable range
          (replaceWords arithmeticTable "8*N-A".toList) =
        Interface.layoutValue arithmeticTable range "8*N-A".toList := by
  have hsubstitute : Arithmetic.substitute arithmeticTable "8*N-A".toList =
      "8 * -2\n+1 - 3".toList := by decide +kernel
  have hone : Number.ofText? ['1'] = some 1 := by decide +kernel
  have htwo : Number.ofText? ['2'] = some 2 := by decide +kernel
  have hthree : Number.ofText? ['3'] = some 3 := by decide +kernel
  have height : Number.ofText? ['8'] = some 8 := by decide +kernel
  have hsplits : Splits "8 * -2\n+1 - 3".toList exampleSum.tokens :=
    .number (List.cons_ne_nil _ _) (List.forall_mem_singleton.2 rfl) rfl height <|
      .blank (by decide) <| .operator .multiply <| .blank (by decide) <| .operator .subtract <|
      .number (List.cons_ne_nil _ _) (List.forall_mem_singleton.2 rfl) rfl htwo <|
      .blank (by decide) <| .operator .add <|
      .number (List.cons_ne_nil _ _) (List.forall_mem_singleton.2 rfl) rfl hone <|
      .blank (by decide) <| .operator .subtract <| .blank (by decide) <|
      .number (List.cons_ne_nil _ _) (List.forall_mem_singleton.2 rfl) rfl hthree .nil
  refine evaluate_replaceWords (by decide) _ ?_
  rw [← hsubstitute] at hsplits
  rw [evaluate_of_splits hsplits]
  have hvalue : exampleSum.value? id = some (-18) := by decide +kernel
  rw [hvalue]
  rfl

end ShaderInterface.Preprocessing
