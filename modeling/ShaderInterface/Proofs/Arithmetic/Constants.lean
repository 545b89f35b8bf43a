import ShaderInterface.Proofs.Arithmetic.Environment
import ShaderInterface.Proofs.Arithmetic.Spacing
import ShaderInterface.Proofs.Number.Spelling
import ShaderInterface.Proofs.Text.Pieces

/-!
# Sentences of Constants

The value of a definition is often a sentence of numerals and of names that stand for numbers. What is read
in the places of its symbols is told here symbol by symbol, so that a part of the sentence can be looked at
on its own. Where a part is a sentence, its number can stand in its place, as long as no factor behind it
takes hold of its last product.

A written sentence that is itself the numeral of a double, with a sign in front, has this double for its
value: a power of ten and the words for infinity are no numerals of sentences.

## Main definitions

* `Constant`: a numeral, or a name that stands for a number.
* `Expression.IsWholeBefore`: no factor takes hold of a part of a sentence.

## Main results

* `tokens_of_symbols`: what is read from symbols.
* `evaluateTokens_append`: a sentence in front of other tokens gives way to another one with the same value.
* `evaluate_of_ofText?`: a sentence that is itself the numeral of a double has its value.
-/

namespace ShaderInterface.Arithmetic

open ShaderInterface.Text ShaderInterface.Number

/-- The number that a constant stands for under a table: that of a numeral, which nothing is put in the
place of, or that of a name. A name is a word that writes no number, not even with a digit behind it: `1e`
is the start of a number. -/
inductive Stands (table : Macro.Table) : (text : Text) → (value : Float) → Prop
  | numeral {digits : Text} {x : Float} : digits ≠ [] → (∀ c ∈ digits, isNumeral c = true) →
      Number.ofText? digits = some x → table.replacement? digits = none → Stands table digits x
  | name {name : Text} {x : Float} : IsRun name → Number.ofText? name = none →
      Number.ofText? (name ++ ['0']) = none → table.get? name = some (.number x) → Stands table name x

/-- A numeral or a name with its number. -/
structure Constant (table : Macro.Table) where
  /-- How the constant is written. -/
  text : Text
  /-- The number that it stands for. -/
  value : Float
  stands : Stands table text value

/-- The symbols of a sentence of constants. -/
abbrev Symbols (table : Macro.Table) := List (Constant table ⊕ Operator)

/-- The words that write symbols. -/
def Symbols.words {table : Macro.Table} (symbols : Symbols table) : List Text :=
  symbols.map (symbolWord Constant.text)

variable {α : Type} {table : Macro.Table} {symbols : Symbols table} {text : Text}
  {found behind : List Token} {x : Float}

/-! ## Constants -/

theorem isOperator_of_isNumeral {c : Char} (h : isNumeral c = true) : isOperator c = false := by
  rw [isOperator, (of_isNumeral h).2]
  rfl

theorem isOperator_of_isWord {c : Char} (h : isWord c = true) : isOperator c = false := by
  rw [isOperator, Option.isSome_eq_false_iff, Option.isNone_iff_eq_none]
  cases hsign : Operator.ofSign? c with
  | none => rfl
  | some op =>
    rw [← Operator.sign_of_ofSign? hsign] at h
    revert h
    cases op <;> decide

theorem isOperandWord_of_isRun {word : Text} (h : IsRun word) : IsOperandWord word :=
  ⟨h.ne_nil, fun c hc => isBlank_of_isWord (h.isWord c hc),
    fun c hc => isOperator_of_isWord (h.isWord c hc)⟩

theorem Constant.isOperandWord (constant : Constant table) : IsOperandWord constant.text := by
  obtain ⟨text, value, hstands⟩ := constant
  cases hstands with
  | numeral hne hdigits _ _ =>
    exact ⟨hne, fun c hc => (of_isNumeral (hdigits c hc)).1,
      fun c hc => isOperator_of_isNumeral (hdigits c hc)⟩
  | name hname _ _ _ => exact isOperandWord_of_isRun hname

/-- Whether something is put in the place of a constant. -/
def Constant.isName (constant : Constant table) : Bool :=
  (table.replacement? constant.text).isSome

/-- The factor that is read in the place of a constant, if any. -/
def Constant.factor (constant : Constant table) : Factor Float :=
  if constant.isName && constant.value.isFinite then numberFactor constant.value
  else .operand constant.value

theorem Constant.value_factor (constant : Constant table) :
    constant.factor.value id = constant.value := by
  rw [factor]
  split
  next h => exact numberFactor_value (Bool.and_eq_true_iff.1 h).2
  next => rfl

/-- What is written for a number can be read only if the number is finite. -/
theorem isFinite_of_tokens_text (h : tokens (Number.text x) = .ok found) : x.isFinite = true := by
  -- All others are written in letters.
  have hletter {c : Char} (hc : c ∈ Number.text x) (hword : isSeparator c = false)
      (hnumeral : isNumeral c = false) : False := by
    rcases isSeparator_or_isNumeral h hc with h | h
    · cases hword.symm.trans h
    · cases hnumeral.symm.trans h
  by_contra hfinite
  rw [Bool.not_eq_true] at hfinite
  cases hnan : x.isNaN with
  | true =>
    have hN : 'N' ∈ Number.text x := by
      rw [Number.text, if_pos hnan]
      exact List.mem_cons_self ..
    exact hletter hN (by decide) (by decide)
  | false =>
    have hi : 'i' ∈ Number.text x := by
      have hsize : 'i' ∈ magnitudeText (magnitude x) := by
        rw [magnitude_of_isInfinite hnan hfinite, magnitudeText, if_pos rfl]
        exact List.mem_cons_self ..
      rw [Number.text, hnan]
      simp only [Bool.false_eq_true, if_false]
      split
      next => exact List.mem_cons_of_mem _ hsize
      next => exact hsize
    exact hletter hi (by decide) (by decide)

/-- What is read in the place of a constant is its factor. -/
theorem Constant.eq_of_tokens {constant : Constant table}
    (h : tokens (replaced table constant.text) = .ok found) : found = constant.factor.tokens := by
  obtain ⟨text, value, hstands⟩ := constant
  cases hstands with
  | numeral hne hdigits hx hkept =>
    rw [replaced, hkept, Option.getD_none, tokens_of_numeral (List.all_eq_true.2 hdigits) hx hne] at h
    rw [factor, isName, hkept]
    exact (Except.ok.inj h).symm
  | name _ _ _ hget =>
    have hwritten : table.replacement? text = some (Number.text value) := by
      rw [Macro.Table.replacement?, hget]
      rfl
    rw [replaced, hwritten, Option.getD_some] at h
    have hfinite := isFinite_of_tokens_text h
    rw [tokens_text hfinite] at h
    rw [factor, isName, hwritten, hfinite]
    exact (Except.ok.inj h).symm

/-! ## Symbols -/

/-- What is read in the places of symbols are the factors of the constants and the operators, unless an
operator is replaced. -/
theorem tokens_of_symbols (hoperators : ∀ op, .inr op ∈ symbols → table.replacement? [op.sign] = none)
    (h : tokens (unwords (symbols.words.map (replaced table))) = .ok found) :
    found = symbols.flatMap (symbolTokens Constant.factor) := by
  induction symbols generalizing found with
  | nil =>
    cases tokens_nil.symm.trans h
    rfl
  | cons symbol rest ih =>
    rw [Symbols.words, List.map_cons, List.map_cons, tokens_unwords_cons] at h
    obtain ⟨front, behind, hfront, hbehind, rfl⟩ := exists_of_append_ok h
    have hrest := ih (fun op hop => hoperators op (List.mem_cons_of_mem _ hop)) hbehind
    rw [List.flatMap_cons, hrest]
    refine congrArg (· ++ _) ?_
    rcases symbol with constant | op
    · exact Constant.eq_of_tokens hfront
    · have hop : tokens [op.sign] = .ok [.operator op] := tokens_eq_ok_iff.2 (.operator op .nil)
      have hkept : replaced table [op.sign] = [op.sign] := by
        rw [replaced, hoperators op (List.mem_cons_self ..), Option.getD_none]
      change tokens (replaced table [op.sign]) = .ok front at hfront
      rw [hkept, hop] at hfront
      exact (Except.ok.inj hfront).symm

/-- Written symbols are replaced and read word by word. -/
theorem tokens_substitute_symbols (hchain : symbols.IsChain Apart) (h : Written symbols.words text) :
    tokens (substitute table text) = tokens (unwords (symbols.words.map (replaced table))) := by
  rw [substitute_eq, words_spaceOut Constant.text Constant.isOperandWord hchain h, Symbols.words]

/-- Symbols that nothing is put in the place of are read as they are. -/
theorem map_replaced_eq (hoperators : ∀ op, .inr op ∈ symbols → table.replacement? [op.sign] = none)
    (hnumerals : ∀ constant, .inl constant ∈ symbols → constant.isName = false) :
    symbols.words.map (replaced table) = symbols.words := by
  rw [Symbols.words, List.map_map]
  refine List.map_congr_left fun symbol hsymbol => ?_
  rcases symbol with constant | op
  · have hkept : table.replacement? constant.text = none :=
      Option.isSome_eq_false_iff.1 (hnumerals constant hsymbol) |> Option.isNone_iff_eq_none.1
    show (table.replacement? constant.text).getD constant.text = constant.text
    rw [hkept, Option.getD_none]
  · show (table.replacement? [op.sign]).getD [op.sign] = [op.sign]
    rw [hoperators op hsymbol, Option.getD_none]

/-- Symbols without an operator among them are a single constant, or none. -/
theorem eq_singleton_of_isChain (hchain : symbols.IsChain Apart) (hne : symbols ≠ [])
    (hnone : ∀ op, .inr op ∉ symbols) : ∃ constant, symbols = [.inl constant] := by
  rcases symbols with - | ⟨constant | op, - | ⟨next, rest⟩⟩
  · exact absurd rfl hne
  · exact ⟨constant, rfl⟩
  · rcases hchain.rel with h | h
    · cases h
    · obtain ⟨op, rfl⟩ := Sum.isRight_iff.1 h
      exact absurd (List.mem_cons_of_mem _ (List.mem_cons_self ..)) (hnone op)
  · exact absurd (List.mem_cons_self ..) (hnone op)
  · exact absurd (List.mem_cons_self ..) (hnone op)

/-- A sentence has at least one symbol. -/
theorem Expression.symbols_ne_nil (expression : Expression α) : expression.symbols ≠ [] := by
  intro h
  have htokens := expression.tokens_bind fun _ => Factor.operand (0 : Float)
  rw [h] at htokens
  exact Expression.tokens_ne_nil _ htokens

/-! ## A sentence in front of other tokens -/

/-- No factor behind a sentence takes hold of a part of it: either none is joined to it there, or the
sentence is a product. -/
def Expression.IsWholeBefore (expression : Expression α) (behind : List Token) : Prop :=
  joinsFactors? behind.head? = false ∨ ∃ product, expression = .single product

/-- A sentence with factors for its operands is whole in front of symbols, if the sentence is a product, or
the first symbol behind it joins no factors. -/
theorem Expression.isWholeBefore_symbols {expression : Expression (Constant table)}
    (h : (∃ product, expression = .single product) ∨
      ∀ op, symbols.head? = some (.inr op) → op.joinsFactors = false) :
    (expression.bind Constant.factor).IsWholeBefore (symbols.flatMap (symbolTokens Constant.factor)) := by
  rcases h with ⟨product, rfl⟩ | hhead
  · exact .inr ⟨product.bind Constant.factor, rfl⟩
  · refine .inl ?_
    rcases symbols with - | ⟨constant | op, rest⟩
    · rfl
    · -- A factor starts with an operand or a sign.
      show joinsFactors? (constant.factor.tokens ++ _).head? = false
      cases constant.factor <;> rfl
    · exact hhead op rfl

/-- The value of a sentence of constants is that of the sentence with factors in their places. -/
theorem Expression.value?_factor (expression : Expression (Constant table)) :
    (expression.bind Constant.factor).value? id = expression.value? Constant.value := by
  rw [value?_bind, funext Constant.value_factor]

/-- A written sentence has a value if and only if its factors are read and give it. -/
theorem evaluate_symbols_iff {sentence : Expression (Constant table)}
    (hoperators : ∀ op, .inr op ∈ sentence.symbols → table.replacement? [op.sign] = none)
    (h : Written (Symbols.words sentence.symbols) text) :
    evaluate table text = .ok x ↔
      tokens (unwords ((Symbols.words sentence.symbols).map (replaced table))) =
          .ok (sentence.bind Constant.factor).tokens ∧
        sentence.value? Constant.value = some x := by
  have hread := tokens_substitute_symbols sentence.isChain_symbols h
  rw [evaluate_eq_ok_iff, hread, ← sentence.value?_factor]
  constructor
  · rintro ⟨found, hfound, hvalue⟩
    obtain rfl : found = (sentence.bind Constant.factor).tokens :=
      (tokens_of_symbols hoperators hfound).trans (sentence.tokens_bind Constant.factor).symm
    rw [evaluateTokens_tokens] at hvalue
    exact ⟨hfound, eq_some_of_orDivisionByZero hvalue⟩
  · rintro ⟨hfound, hvalue⟩
    refine ⟨_, hfound, ?_⟩
    rw [evaluateTokens_tokens, hvalue]
    rfl

/-- Where a sentence stands in front of other tokens, so can any other one with the same value. -/
theorem evaluateTokens_append {first : Expression Float} (hfirst : first.IsWholeBefore behind)
    (h : evaluateTokens (first.tokens ++ behind) = .ok x) : ∃ y, first.value? id = some y ∧
      ∀ second : Expression Float, second.value? id = some y → second.IsWholeBefore behind →
        evaluateTokens (second.tokens ++ behind) = .ok x := by
  rw [evaluateTokens_eq] at h
  obtain ⟨⟨result, last⟩, hread, hlast⟩ := result_of_bind h
  rcases last with - | ⟨token, last⟩
  · cases hlast
    -- What is read behind the first sentence makes the second one longer.
    suffices hlonger : ∃ y, first.value? id = some y ∧ ∀ second : Expression Float,
        second.value? id = some y → second.IsWholeBefore behind → ∃ longer : Expression Float,
          longer.value? id = some x ∧ second.tokens ++ behind = longer.tokens by
      obtain ⟨y, hy, hall⟩ := hlonger
      refine ⟨y, hy, fun second hsecond hwhole => ?_⟩
      obtain ⟨longer, hlonger, htokens⟩ := hall second hsecond hwhole
      rw [htokens, evaluateTokens_tokens, hlonger]
      rfl
    by_cases hstop : joinsFactors? behind.head? = false
    · rw [sum_append first hstop] at hread
      obtain ⟨y, hy, hsum⟩ := result_of_bind hread
      refine ⟨y, eq_some_of_orDivisionByZero hy, fun second hsecond _ => ?_⟩
      obtain ⟨longer, hlonger, htokens⟩ := exists_of_sum hsum second hsecond
      exact ⟨longer, hlonger, by rw [htokens, List.append_nil]⟩
    · obtain ⟨left, rfl⟩ := hfirst.resolve_left hstop
      obtain ⟨⟨z, rest⟩, hterm, hsum⟩ := result_of_bind hread
      have hleft : term _ (left.tokens ++ behind) = .ok (z, rest) := hterm
      rw [term_append] at hleft
      obtain ⟨y, hy, hproduct⟩ := result_of_bind hleft
      refine ⟨y, eq_some_of_orDivisionByZero hy, fun second hsecond hwhole => ?_⟩
      obtain ⟨right, rfl⟩ := hwhole.resolve_left hstop
      obtain ⟨product, hvalue, htokens⟩ := exists_of_product hproduct right hsecond
      obtain ⟨longer, hlonger, hrest⟩ := exists_of_sum hsum (.single product) hvalue
      rw [List.append_nil] at hrest
      exact ⟨longer, hlonger, htokens.trans hrest⟩
  · cases hlast

/-! ## Sentences that write a number themselves -/

/-- A separator is no capital letter. -/
theorem toLower_of_isSeparator {c : Char} (h : isSeparator c = true) : c.toLower = c := by
  rcases Bool.or_eq_true_iff.1 h with hblank | hsign
  · have hsame : decide (c.toLower ≠ c) = false :=
      eq_false_of_isBlank (p := fun c => decide (c.toLower ≠ c)) (by decide +kernel) hblank
    simpa using hsame
  · obtain ⟨op, hop⟩ := Option.isSome_iff_exists.1 hsign
    rw [← Operator.sign_of_ofSign? hop]
    cases op <;> decide

/-- What is a letter in small is no separator. -/
theorem isSeparator_of_toLower {c : Char} (h : isWord c.toLower = true) : isSeparator c = false := by
  by_contra hseparator
  rw [Bool.not_eq_false] at hseparator
  rw [toLower_of_isSeparator hseparator] at h
  rcases Bool.or_eq_true_iff.1 hseparator with hblank | hsign
  · cases (isBlank_of_isWord h).symm.trans hblank
  · cases (isOperator_of_isWord h).symm.trans hsign

/-- The part of a power of ten in front of its sign, or in front of any of its digits, is a power of ten
with a digit behind it. -/
theorem isSome_powerOfTen?_concat {c : Char} {more behind : Text}
    (hmore : ∀ d ∈ more, isSeparator d = false) (h : (powerOfTen? (c :: (more ++ behind))).isSome) :
    (powerOfTen? (c :: (more ++ ['0']))).isSome := by
  obtain ⟨power, hpower⟩ := Option.isSome_iff_exists.1 h
  obtain ⟨hmark, digits, hrest, hdigits⟩ := exists_of_powerOfTen? hpower
  refine isSome_powerOfTen? hmark (List.append_ne_nil_of_right_ne_nil _ (List.cons_ne_nil _ _)) ?_
  refine List.forall_mem_append.2 ⟨fun d hd => ?_, List.forall_mem_singleton.2 rfl⟩
  have hsign {sign : Char} (hseparator : isSeparator sign = true) (hrest : more ++ behind = sign :: digits) :
      d.isDigit = true := by
    obtain ⟨first, rest, rfl⟩ := List.exists_cons_of_ne_nil (List.ne_nil_of_mem hd)
    obtain ⟨rfl, -⟩ := List.cons.inj hrest
    cases (hmore first (List.mem_cons_self ..)).symm.trans hseparator
  rcases hrest with hminus | hplus | hnone
  · exact hsign (isSeparator_sign .subtract) hminus
  · exact hsign (isSeparator_sign .add) hplus
  · exact hdigits d (hnone ▸ List.mem_append_left _ hd)

/-- Every word of a text is a constant, or an operator that nothing is put in the place of. -/
def WritesSymbols (table : Macro.Table) (text : Text) : Prop :=
  ∀ word ∈ (spaceOut text).words, (∃ x, Stands table word x) ∨
    ∃ op : Operator, [op.sign] = word ∧ table.replacement? word = none

theorem writesSymbols_of_written (hchain : symbols.IsChain Apart)
    (hoperators : ∀ op, .inr op ∈ symbols → table.replacement? [op.sign] = none)
    (h : Written symbols.words text) : WritesSymbols table text := by
  intro word hword
  rw [words_spaceOut Constant.text Constant.isOperandWord hchain h] at hword
  obtain ⟨constant | op, hmem, rfl⟩ := List.mem_map.1 hword
  · exact .inl ⟨constant.value, constant.stands⟩
  · exact .inr ⟨op, rfl, hoperators op hmem⟩

namespace WritesSymbols

variable {word rest run tail : Text}

/-- The first word of a text is a constant unless it is an operator. -/
theorem exists_stands (h : WritesSymbols table (word ++ rest)) (hword : IsOperandWord word)
    (hstop : rest.head?.all isSeparator = true) : ∃ x, Stands table word x := by
  rcases h word (by rw [words_spaceOut_word hword hstop]; exact List.mem_cons_self ..) with
    hstands | ⟨op, rfl, -⟩
  · exact hstands
  · have hsign := hword.isOperator _ (List.mem_singleton_self _)
    rw [isOperator, op.of_sign.2] at hsign
    cases hsign

/-- Nothing is put in the place of an operator in front of a text. -/
theorem replacement?_sign {op : Operator} (h : WritesSymbols table (op.sign :: rest)) :
    table.replacement? [op.sign] = none := by
  rcases h [op.sign] (by rw [words_spaceOut_operator]; exact List.mem_cons_self ..) with
    ⟨x, hstands⟩ | ⟨other, -, hnone⟩
  · have hword : IsOperandWord [op.sign] := Constant.isOperandWord ⟨_, x, hstands⟩
    have hsign := hword.isOperator _ (List.mem_singleton_self _)
    rw [isOperator, op.of_sign.2] at hsign
    cases hsign
  · exact hnone

/-- What stands behind an operator. -/
theorem of_operator {op : Operator} (h : WritesSymbols table (op.sign :: rest)) :
    WritesSymbols table rest := fun word hword =>
  h word (by rw [words_spaceOut_operator]; exact List.mem_cons_of_mem _ hword)

/-- Digits and points in front of a power of ten are a numeral, and there is no power of ten. -/
theorem isNumeral_of_decimal (h : WritesSymbols table (run ++ tail)) (hrun : IsDecimalRun run)
    (hwrites : WritesNumber run) (hpower : (powerOfTen? tail).isSome) :
    tail = [] ∧ (∀ c ∈ run, isNumeral c = true) ∧ table.replacement? run = none := by
  have hnumeral : ∀ c ∈ run, isNumeral c = true := fun c hc => by
    rw [isNumeral, Bool.or_eq_true, beq_iff_eq]
    exact hrun.2 c hc
  have hseparator : ∀ c ∈ run, isSeparator c = false := fun c hc =>
    Bool.or_eq_false_iff.2 ⟨(of_isNumeral (hnumeral c hc)).1, isOperator_of_isNumeral (hnumeral c hc)⟩
  obtain ⟨more, behind, rfl, hword, hstop⟩ := exists_word_of_append hrun.1 hseparator tail
  rw [← List.append_assoc] at h
  obtain ⟨value, hstands⟩ := h.exists_stands hword hstop
  generalize hconstant : run ++ more = constant at hstands
  cases hstands with
  | numeral _ hdigits _ hkept =>
    subst hconstant
    obtain ⟨power, hpower⟩ := Option.isSome_iff_exists.1 hpower
    -- A power of ten would start in the numeral, or with a separator.
    rcases more with - | ⟨c, more⟩
    · rcases behind with - | ⟨c, behind⟩
      · rw [List.append_nil] at hkept
        exact ⟨rfl, hnumeral, hkept⟩
      · have hc : isSeparator c = false :=
          isSeparator_of_toLower (by rw [(exists_of_powerOfTen? hpower).1]; rfl)
        cases hc.symm.trans hstop
    · obtain ⟨hdigit, hpoint⟩ := not_isDecimal_of_powerOfTen? hpower c rfl
      have hc := (List.forall_mem_append.1 hdigits).2 c (List.mem_cons_self ..)
      rw [isNumeral, hdigit, beq_false_of_ne hpoint] at hc
      cases hc
  | name _ hnone hlonger _ =>
    subst hconstant
    -- The name would be the number, or the start of it.
    rcases more with - | ⟨c, more⟩
    · have hsome := hwrites [] rfl
      rw [hnone] at hsome
      cases hsome
    · have hmore : ∀ d ∈ more, isSeparator d = false := fun d hd =>
        Bool.or_eq_false_iff.2 ⟨hword.isBlank d (by simp [hd]), hword.isOperator d (by simp [hd])⟩
      have hsome := hwrites _ (isSome_powerOfTen?_concat hmore hpower)
      rw [← List.cons_append, ← List.append_assoc, hlonger] at hsome
      cases hsome

/-- The words for infinity and for no number are no names, and letters are no numerals. -/
theorem ofText?_of_letters (h : WritesSymbols table word) (hne : word ≠ [])
    (hletters : ∀ c ∈ word, c.toLower ∈ nameLetters) : Number.ofText? word = none := by
  have hword : ∀ c ∈ nameLetters, isWord c = true := by simp [nameLetters, isWord]
  have hseparator : ∀ c ∈ word, isSeparator c = false := fun c hc =>
    isSeparator_of_toLower (hword _ (hletters c hc))
  obtain ⟨more, behind, htail, hoperand, hstop⟩ := exists_word_of_append hne hseparator []
  obtain ⟨rfl, rfl⟩ := List.append_eq_nil_iff.1 htail.symm
  rw [List.append_nil] at hoperand
  rw [← List.append_nil word] at h
  obtain ⟨value, hstands⟩ := h.exists_stands hoperand hstop
  cases hstands with
  | numeral _ hdigits _ _ =>
    obtain ⟨c, word, rfl⟩ := List.exists_cons_of_ne_nil hne
    have hc := hdigits c (List.mem_cons_self ..)
    rw [isNumeral, Bool.or_eq_true, beq_iff_eq] at hc
    exact absurd (hletters c (List.mem_cons_self ..))
      (of_isDigit_or_point (p := fun c => c.toLower ∉ nameLetters) (by decide) hc)
  | name _ hnone _ _ => exact hnone

/-- A number without a sign whose words are constants is a single numeral. -/
theorem isNumeral_of_unsigned (h : WritesSymbols table text) (hunsigned : Unsigned text) :
    text ≠ [] ∧ (∀ c ∈ text, isNumeral c = true) ∧ table.replacement? text = none := by
  cases hunsigned with
  | decimal hrun hwrites hpower =>
    obtain ⟨rfl, hdigits, hkept⟩ := h.isNumeral_of_decimal hrun hwrites hpower
    rw [List.append_nil]
    exact ⟨hrun.1, hdigits, hkept⟩
  | named hne hletters hvalue =>
    rw [h.ofText?_of_letters hne hletters] at hvalue
    cases hvalue

/-- What is read from a number without a sign. -/
theorem tokens_of_unsigned (h : WritesSymbols table text) (hunsigned : Unsigned text)
    (hx : Number.ofText? text = some x) : tokens (substitute table text) = .ok [.number x] := by
  obtain ⟨hne, hall, hkept⟩ := h.isNumeral_of_unsigned hunsigned
  have hoperand : IsOperandWord text :=
    ⟨hne, fun c hc => (of_isNumeral (hall c hc)).1, fun c hc => isOperator_of_isNumeral (hall c hc)⟩
  rw [substitute_word table hoperand, replaced, hkept, Option.getD_none]
  exact tokens_of_numeral (List.all_eq_true.2 hall) hx hne

/-- What is read from a number behind a sign. -/
theorem tokens_of_signed {op : Operator} (h : WritesSymbols table (op.sign :: rest))
    (hunsigned : Unsigned rest) (hx : Number.ofText? rest = some x) :
    tokens (substitute table (op.sign :: rest)) = .ok [.operator op, .number x] := by
  have hread : tokens [op.sign] = .ok [.operator op] := tokens_eq_ok_iff.2 (.operator op .nil)
  rw [tokens_substitute_operator, replaced, h.replacement?_sign, Option.getD_none, hread,
    h.of_operator.tokens_of_unsigned hunsigned hx]
  rfl

/-- A number without a sign is a run of digits and points. -/
theorem isDecimalRun (h : WritesSymbols table text) (hunsigned : Unsigned text) :
    IsDecimalRun text := by
  obtain ⟨hne, hall, -⟩ := h.isNumeral_of_unsigned hunsigned
  refine ⟨hne, fun c hc => ?_⟩
  have hc := hall c hc
  rwa [isNumeral, Bool.or_eq_true, beq_iff_eq] at hc

end WritesSymbols

/-- A written sentence that is itself the numeral of a double has this double for its value. -/
theorem evaluate_of_ofText? (hchain : symbols.IsChain Apart)
    (hoperators : ∀ op, .inr op ∈ symbols → table.replacement? [op.sign] = none)
    (h : Written symbols.words text) (hx : Number.ofText? text = some x) :
    evaluate table text = .ok x := by
  have hsymbols : WritesSymbols table text := writesSymbols_of_written hchain hoperators h
  obtain ⟨rest, hsign, hunsigned⟩ := exists_of_ofText? hx
  rcases hsign with rfl | rfl | rfl
  · have hminus : WritesSymbols table (Operator.subtract.sign :: rest) := hsymbols
    rw [ofText?_minus (hminus.of_operator.isDecimalRun hunsigned)] at hx
    obtain ⟨y, hy, rfl⟩ := Option.map_eq_some_iff.1 hx
    have htokens := hminus.tokens_of_signed hunsigned hy
    exact (evaluate_of_tokens htokens (List.cons_ne_nil _ _)).trans
      (evaluateTokens_tokens (.single (.single (.negative (.operand y)))))
  · have hplus : WritesSymbols table (Operator.add.sign :: rest) := hsymbols
    rw [ofText?_plus (hplus.of_operator.isDecimalRun hunsigned)] at hx
    have htokens := hplus.tokens_of_signed hunsigned hx
    exact (evaluate_of_tokens htokens (List.cons_ne_nil _ _)).trans
      (evaluateTokens_tokens (.single (.single (.positive (.operand x)))))
  · rw [evaluate_of_tokens (hsymbols.tokens_of_unsigned hunsigned hx) (List.cons_ne_nil _ _)]
    exact evaluateTokens_tokens (.single (.single (.operand x)))

end ShaderInterface.Arithmetic
