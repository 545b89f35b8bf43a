import Mathlib.Data.List.Chain
import Mathlib.Tactic.Common
import ShaderInterface.Proofs.Arithmetic.Evaluation

/-!
# Replacing Operands

The words of a written sentence are replaced one by one, and the texts put in their places are read
one by one. An operand may be replaced by any text that is read as a factor: signs that come with
it belong to the factor, and no operator around it takes hold of a part of the factor only.

## Main definitions

* `Written`: how words are written as a text.

## Main results

* `Expression.value?_bind`: replacing operands by factors is replacing their values.
* `words_spaceOut`: the words of a written sentence are its symbols.
* `evaluate_of_written`: a written sentence has the value that the factors in the places of its
  operands give it.
-/

namespace ShaderInterface.Arithmetic

open ShaderInterface.Text

variable {α β γ : Type}

/-! ## Symbols -/

section Spell

variable (operand : α → β) (sign : Operator → β) (f : β → γ)

theorem Factor.map_spell (factor : Factor α) :
    (factor.spell operand sign).map f = factor.spell (f ∘ operand) (f ∘ sign) := by
  induction factor with
  | operand x => rfl
  | positive inner ih => exact congrArg (_ :: ·) ih
  | negative inner ih => exact congrArg (_ :: ·) ih

theorem Product.map_spell (product : Product α) :
    (product.spell operand sign).map f = product.spell (f ∘ operand) (f ∘ sign) := by
  induction product with
  | single factor => exact factor.map_spell operand sign f
  | multiply left right ih =>
    rw [spell, spell, List.map_append, List.map_cons, ih, right.map_spell, Function.comp_apply]
  | divide left right ih =>
    rw [spell, spell, List.map_append, List.map_cons, ih, right.map_spell, Function.comp_apply]

theorem Expression.map_spell (expression : Expression α) :
    (expression.spell operand sign).map f = expression.spell (f ∘ operand) (f ∘ sign) := by
  induction expression with
  | single product => exact product.map_spell operand sign f
  | add left right ih =>
    rw [spell, spell, List.map_append, List.map_cons, ih, right.map_spell, Function.comp_apply]
  | subtract left right ih =>
    rw [spell, spell, List.map_append, List.map_cons, ih, right.map_spell, Function.comp_apply]

/-- An expression is spelled symbol by symbol. -/
theorem Expression.spell_eq_map (expression : Expression α) :
    expression.spell operand sign = expression.symbols.map (Sum.elim operand sign) := by
  rw [symbols, map_spell, Sum.elim_comp_inl, Sum.elim_comp_inr]

end Spell

/-- One of two neighbours is an operator. -/
def Apart (first second : α ⊕ Operator) : Prop :=
  first.isRight = true ∨ second.isRight = true

/-- Symbols on either side of an operator. -/
theorem isChain_append {first second : List (α ⊕ Operator)} (hfirst : first.IsChain Apart)
    (op : Operator) (hsecond : second.IsChain Apart) :
    (first ++ .inr op :: second).IsChain Apart := by
  refine List.isChain_append.2 ⟨hfirst, ?_, ?_⟩
  · exact List.isChain_cons.2 ⟨fun _ _ => .inl rfl, hsecond⟩
  · intro left _ right hright
    cases hright
    exact .inr rfl

theorem Factor.isChain_spell (factor : Factor α) :
    (factor.spell .inl .inr).IsChain (@Apart α) := by
  induction factor with
  | operand x => exact List.isChain_singleton _
  | positive inner ih => exact isChain_append .nil .add ih
  | negative inner ih => exact isChain_append .nil .subtract ih

theorem Product.isChain_spell (product : Product α) :
    (product.spell .inl .inr).IsChain (@Apart α) := by
  induction product with
  | single factor => exact factor.isChain_spell
  | multiply left right ih => exact isChain_append ih .multiply right.isChain_spell
  | divide left right ih => exact isChain_append ih .divide right.isChain_spell

/-- There is an operator between any two operands. -/
theorem Expression.isChain_symbols (expression : Expression α) :
    expression.symbols.IsChain Apart := by
  induction expression with
  | single product => exact product.isChain_spell
  | add left right ih => exact isChain_append ih .add right.isChain_spell
  | subtract left right ih => exact isChain_append ih .subtract right.isChain_spell

/-! ## Factors in the place of operands -/

section Bind

variable (replace : α → Factor β) (read : β → Float)

theorem Factor.value_bind (factor : Factor α) :
    (factor.bind replace).value read = factor.value fun x => (replace x).value read := by
  induction factor with
  | operand x => rfl
  | positive inner ih => exact ih
  | negative inner ih => exact congrArg (-·) ih

theorem Product.value?_bind (product : Product α) :
    (product.bind replace).value? read = product.value? fun x => (replace x).value read := by
  induction product with
  | single factor => exact congrArg some (factor.value_bind replace read)
  | multiply left right ih => rw [bind, value?, value?, ih, right.value_bind]
  | divide left right ih => rw [bind, value?, value?, ih, right.value_bind]

/-- Replacing operands by factors is replacing their values. -/
theorem Expression.value?_bind (expression : Expression α) :
    (expression.bind replace).value? read = expression.value? fun x => (replace x).value read := by
  induction expression with
  | single product => exact product.value?_bind replace read
  | add left right ih => rw [bind, value?, value?, ih, right.value?_bind]
  | subtract left right ih => rw [bind, value?, value?, ih, right.value?_bind]

end Bind

section Tokens

variable (replace : α → Factor Float)

/-- The tokens that stand for a symbol when operands are replaced by factors. -/
def symbolTokens : α ⊕ Operator → List Token :=
  Sum.elim (fun x => (replace x).tokens) fun op => [.operator op]

theorem Factor.tokens_bind (factor : Factor α) :
    (factor.bind replace).tokens = (factor.spell .inl .inr).flatMap (symbolTokens replace) := by
  induction factor with
  | operand x => exact (List.append_nil _).symm
  | positive inner ih => exact congrArg (_ :: ·) ih
  | negative inner ih => exact congrArg (_ :: ·) ih

theorem Product.tokens_bind (product : Product α) :
    (product.bind replace).tokens = (product.spell .inl .inr).flatMap (symbolTokens replace) := by
  induction product with
  | single factor => exact factor.tokens_bind replace
  | multiply left right ih =>
    rw [spell, List.flatMap_append, List.flatMap_cons, ← ih, ← right.tokens_bind]
    rfl
  | divide left right ih =>
    rw [spell, List.flatMap_append, List.flatMap_cons, ← ih, ← right.tokens_bind]
    rfl

/-- The tokens of an expression with factors in the place of its operands. -/
theorem Expression.tokens_bind (expression : Expression α) :
    (expression.bind replace).tokens = expression.symbols.flatMap (symbolTokens replace) := by
  induction expression with
  | single product => exact product.tokens_bind replace
  | add left right ih =>
    rw [symbols, spell, List.flatMap_append, List.flatMap_cons, ← right.tokens_bind]
    exact congrArg (· ++ _) ih
  | subtract left right ih =>
    rw [symbols, spell, List.flatMap_append, List.flatMap_cons, ← right.tokens_bind]
    exact congrArg (· ++ _) ih

end Tokens

/-! ## Written sentences -/

/-- Words are written one after the other, with any blanks, or none, around each. -/
inductive Written : (words : List Text) → (text : Text) → Prop
  | nil : Written [] []
  | blank {c : Char} {words : List Text} {text : Text} :
      isBlank c = true → Written words text → Written words (c :: text)
  | word (word : Text) {words : List Text} {text : Text} :
      Written words text → Written (word :: words) (word ++ text)

/-- A word that spacing out operators does not tear apart. -/
structure IsOperandWord (word : Text) : Prop where
  ne_nil : word ≠ []
  isBlank : ∀ c ∈ word, isBlank c = false
  isOperator : ∀ c ∈ word, isOperator c = false

theorem isOperator_of_isBlank {c : Char} (h : isBlank c = true) : isOperator c = false := by
  rw [isOperator, Option.isSome_eq_false_iff, Option.isNone_iff_eq_none]
  cases hsign : Operator.ofSign? c with
  | none => rfl
  | some op =>
    rw [← Operator.sign_of_ofSign? hsign] at h
    cases h.symm.trans op.of_sign.1

theorem spaceOut_append (first second : Text) :
    spaceOut (first ++ second) = spaceOut first ++ spaceOut second :=
  List.flatMap_append

theorem spaceOut_sign (op : Operator) (text : Text) :
    spaceOut (op.sign :: text) = ' ' :: op.sign :: ' ' :: spaceOut text := by
  cases op <;> rfl

theorem spaceOut_of_forall {text : Text} (h : ∀ c ∈ text, isOperator c = false) :
    spaceOut text = text := by
  induction text with
  | nil => rfl
  | cons c rest ih =>
    rw [List.forall_mem_cons] at h
    rw [spaceOut, List.flatMap_cons, h.1, ← spaceOut, ih h.2]
    rfl

/-- Blanks around a text make no difference to its value. -/
theorem evaluate_surrounded (table : Macro.Table) {before after : Text} (hbefore : Blanks before)
    (hafter : Blanks after) (text : Text) :
    evaluate table (before ++ text ++ after) = evaluate table text := by
  have hspace {blanks : Text} (h : Blanks blanks) : spaceOut blanks = blanks :=
    spaceOut_of_forall fun c hc => isOperator_of_isBlank (h c hc)
  rw [evaluate, evaluate, substitute, substitute, spaceOut_append, spaceOut_append, hspace hbefore,
    hspace hafter, words_surrounded hbefore hafter]

theorem evaluate_trim (table : Macro.Table) (text : Text) :
    evaluate table text.trim = evaluate table text := by
  obtain ⟨before, after, hbefore, hafter, htext⟩ := exists_surrounded_trim text
  rw [← evaluate_surrounded table hbefore hafter, ← htext]

theorem evaluate_trimStart (table : Macro.Table) (text : Text) :
    evaluate table text.trimStart = evaluate table text := by
  obtain ⟨before, hbefore, htext⟩ := exists_append_trimStart text
  have hnil : Blanks [] := List.forall_mem_nil _
  rw [← evaluate_surrounded table hbefore hnil, ← htext, List.append_nil]

theorem evaluate_trimEnd (table : Macro.Table) (text : Text) :
    evaluate table text.trimEnd = evaluate table text := by
  obtain ⟨after, hafter, htext⟩ := exists_trimEnd_append text
  have hnil : Blanks [] := List.forall_mem_nil _
  rw [← evaluate_surrounded table hnil hafter, List.nil_append, ← htext]

section Words

variable (spell : α → Text)

/-- The word that writes a symbol. -/
def symbolWord : α ⊕ Operator → Text :=
  Sum.elim spell fun op => [op.sign]

/-- Behind an operand stands a blank or nothing at all when operators are spaced out. -/
theorem isBlank_head_spaceOut {x : α} {symbols : List (α ⊕ Operator)} {text : Text}
    (hchain : (.inl x :: symbols).IsChain Apart)
    (h : Written (symbols.map (symbolWord spell)) text) :
    (spaceOut text).head?.all isBlank = true := by
  generalize hwords : symbols.map (symbolWord spell) = words at h
  -- The next symbol is an operator, in front of which a space is put.
  cases h with
  | nil => rfl
  | blank hc _ =>
    rw [spaceOut, List.flatMap_cons, isOperator_of_isBlank hc]
    exact hc
  | word word _ =>
    obtain ⟨symbol, rest, rfl, rfl, -⟩ := List.map_eq_cons_iff.1 hwords
    rcases symbol with y | op
    · obtain h | h := hchain.rel <;> cases h
    · rw [symbolWord, Sum.elim_inr, List.singleton_append, spaceOut_sign]
      rfl

/-- The words of a written sentence are its symbols. -/
theorem words_spaceOut (hspell : ∀ x, IsOperandWord (spell x)) {symbols : List (α ⊕ Operator)}
    (hchain : symbols.IsChain Apart) {text : Text}
    (h : Written (symbols.map (symbolWord spell)) text) :
    (spaceOut text).words = symbols.map (symbolWord spell) := by
  -- The induction is on how the words are written, so that it takes in blanks and words alike.
  generalize hwords : symbols.map (symbolWord spell) = words at h
  induction h generalizing symbols with
  | nil => rfl
  | blank hc _ ih =>
    rw [spaceOut, List.flatMap_cons, isOperator_of_isBlank hc, ← spaceOut]
    exact (words_blank hc _).trans (ih hchain hwords)
  | word word hrest ih =>
    obtain ⟨symbol, rest, rfl, rfl, rfl⟩ := List.map_eq_cons_iff.1 hwords
    have ih := ih hchain.tail rfl
    rcases symbol with x | op
    · -- An operand is left as it is, and ends at the blank that the next operator brings with it.
      show (spaceOut (spell x ++ _)).words = spell x :: _
      rw [spaceOut_append, spaceOut_of_forall (hspell x).isOperator, words_append (hspell x).ne_nil
        (hspell x).isBlank (isBlank_head_spaceOut spell hchain hrest), ih]
    · have hsign : ∀ c ∈ [op.sign], isBlank c = false := by
        intro c hc
        rw [List.mem_singleton.1 hc]
        exact op.of_sign.1
      show (spaceOut (op.sign :: _)).words = [op.sign] :: _
      rw [spaceOut_sign, words_blank (by decide), ← ih, ← words_blank (c := ' ') (by decide)]
      exact words_append (List.cons_ne_nil _ _) hsign rfl

end Words

/-- What is joined by spaces is read piece by piece. -/
theorem tokens_unwords {items : List α} {word : α → Text} {found : α → List Token}
    (h : ∀ item ∈ items, tokens (word item) = .ok (found item)) :
    tokens (unwords (items.map word)) = .ok (items.flatMap found) := by
  induction items with
  | nil => exact tokens_eq_ok_iff.2 .nil
  | cons item rest ih =>
    rw [List.forall_mem_cons] at h
    have ih := ih h.2
    rcases rest with - | ⟨next, rest⟩
    · rw [List.flatMap_cons, List.flatMap_nil, List.append_nil]
      exact (congrArg tokens (List.append_nil _)).trans h.1
    · rw [unwords, List.map_cons, List.map_cons, List.intercalate_cons_cons, List.append_assoc,
        List.singleton_append, tokens_append (by decide), h.1, ← List.map_cons, ← unwords, ih]
      rfl

/-- A written sentence has the value that the factors in the places of its operands give it. -/
theorem evaluate_of_written {table : Macro.Table} {expression : Expression α} {spell : α → Text}
    {replace : α → Factor Float} (hspell : ∀ x, IsOperandWord (spell x))
    (hreplace : ∀ x, tokens ((table.replacement? (spell x)).getD (spell x)) =
      .ok (replace x).tokens)
    (hsigns : ∀ op, .inr op ∈ expression.symbols → table.replacement? [op.sign] = none)
    {text : Text} (h : Written (expression.symbols.map (symbolWord spell)) text) :
    evaluate table text = orDivisionByZero (expression.value? fun x => (replace x).value id) := by
  -- The text with the replacements is that of the expression with factors for its operands.
  have htokens : tokens (substitute table text) = .ok (expression.bind replace).tokens := by
    rw [substitute, words_spaceOut spell hspell expression.isChain_symbols h, List.map_map,
      Expression.tokens_bind]
    refine tokens_unwords fun symbol hsymbol => ?_
    rcases symbol with x | op
    · exact hreplace x
    · show tokens ((table.replacement? [op.sign]).getD [op.sign]) = .ok [.operator op]
      rw [hsigns op hsymbol]
      exact tokens_eq_ok_iff.2 (.operator op .nil)
  rw [evaluate_of_tokens htokens (Expression.tokens_ne_nil _), evaluateTokens_tokens,
    Expression.value?_bind]

end ShaderInterface.Arithmetic
