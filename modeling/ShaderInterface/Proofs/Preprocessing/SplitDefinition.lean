import ShaderInterface.Proofs.Arithmetic.Constants
import ShaderInterface.Proofs.Preprocessing.Continuation

/-!
# Definitions on Several Lines

A definition whose value is a sentence is computed when it is read, and its name is given the number. When
the same sentence stands on several lines, only the part on the first line is computed, and the rest is put
behind its number as it is written. The sentence has its value all the same when the name is evaluated,
provided that the first line is computed as a sentence of its own, that its number can stand in the place
of this sentence, and that the other lines hold no names: these are not replaced any more.

## Main definitions

* `SplitDefinition`: a definition on one line, and the same one on several lines.
* `SplitDefinition.IsComputable`: the first line can be computed on its own.

## Main results

* `Definition.evaluate_of_sentence`: the value of a definition that writes a sentence is its number.
* `tokens_continued`: lines behind a value are read behind what is read for the value.
* `run_splitDefinition`: a definition on several lines gives its name the number that it has on one line.
* `not_forall_run_splitDefinition`: a first line that is not computable may change the number.
-/

namespace ShaderInterface

open ShaderInterface.Text ShaderInterface.Arithmetic

variable {table : Macro.Table} {name value text : Text}

/-! ## The value of a definition that writes a sentence -/

/-- No words are written as blanks. -/
theorem Arithmetic.Written.blanks (h : Written [] text) : Blanks text := by
  generalize hwords : ([] : List Text) = words at h
  induction h with
  | nil => exact List.forall_mem_nil _
  | blank hc _ ih => exact List.forall_mem_cons.2 ⟨hc, ih hwords⟩
  | word => cases hwords

/-- A single word is written between blanks. -/
theorem Arithmetic.Written.exists_surrounded {word : Text} (h : Written [word] text) :
    ∃ before after, Blanks before ∧ Blanks after ∧ text = before ++ word ++ after := by
  generalize hwords : [word] = words at h
  induction h with
  | nil => cases hwords
  | blank hc _ ih =>
    obtain ⟨before, after, hbefore, hafter, rfl⟩ := ih hwords
    exact ⟨_ :: before, after, List.forall_mem_cons.2 ⟨hc, hbefore⟩, hafter, rfl⟩
  | word _ hrest =>
    cases hwords
    exact ⟨[], _, List.forall_mem_nil _, hrest.blanks, rfl⟩

/-- Symbols that are a name and nothing else. -/
def Arithmetic.Symbols.IsLoneName (symbols : Symbols table) : Prop :=
  ∃ constant, symbols = [.inl constant] ∧ constant.isName = true

namespace Definition

/-- The name of a definition is a word, and there are no blanks around its value. -/
theorem of_ofText? {definition : Definition} (h : ofText? text = some definition) :
    IsRun definition.name ∧ definition.value.trim = definition.value := by
  simp only [ofText?] at h
  split at h
  next => cases h
  next hcond =>
    cases h
    rw [Bool.or_eq_true, not_or] at hcond
    exact ⟨⟨fun hnil => hcond.1 (List.isEmpty_iff.2 hnil), List.all_eq_true.1 List.all_takeWhile⟩,
      trim_trim _⟩

variable {symbols : Symbols table}

/-- A written sentence with an operator looks like arithmetic. -/
theorem looksArithmetic_of_symbols (hchain : symbols.IsChain Apart) (hvalue : Written symbols.words value)
    {op : Operator} (hop : .inr op ∈ symbols) : looksArithmetic value = true := by
  have hwords : (spaceOut value).words = symbols.words :=
    words_spaceOut Constant.text Constant.isOperandWord hchain hvalue
  have hsign : op.sign ∈ value := by
    have hmem : [op.sign] ∈ (spaceOut value).words := by
      rw [hwords]
      exact List.mem_map_of_mem hop
    exact (mem_of_mem_words_spaceOut hmem (List.mem_singleton_self _)).2
  rw [looksArithmetic, Bool.and_eq_true]
  refine ⟨List.any_eq_true.2 ⟨op.sign, hsign, ?_⟩, List.all_eq_true.2 fun c hc => ?_⟩
  · rw [isOperator, op.of_sign.2]
    rfl
  · cases hblank : isBlank c with
    | true => simp [isArithmeticChar, hblank]
    | false =>
      obtain ⟨word, hword, hmem⟩ := exists_mem_words_spaceOut hc hblank
      rw [hwords] at hword
      obtain ⟨⟨_, _, hstands⟩ | other, -, rfl⟩ := List.mem_map.1 hword
      · cases hstands with
        | numeral _ hdigits _ _ =>
          have hdecimal := hdigits c hmem
          rw [isNumeral, Bool.or_eq_true, beq_iff_eq] at hdecimal
          exact of_isDigit_or_point (p := fun c => isArithmeticChar c = true) (by decide) hdecimal
        | name hname _ _ _ => simp [isArithmeticChar, hname.isWord c hmem]
      · obtain rfl := List.mem_singleton.1 hmem
        simp [isArithmeticChar, isOperator, other.of_sign.2]

/-- The value of a definition that writes a sentence is the number of the sentence, unless the sentence is
a name and nothing else. -/
theorem evaluate_of_sentence (name : Text) (hchain : symbols.IsChain Apart) (hne : symbols ≠ [])
    (hoperators : ∀ op, .inr op ∈ symbols → table.replacement? [op.sign] = none)
    (hlone : ¬ symbols.IsLoneName) (hvalue : Written symbols.words value) (htrim : value.trim = value) :
    evaluate table ⟨name, value⟩ = (Arithmetic.evaluate table value).map .number := by
  have hnonempty : value.isEmpty = false := by
    rw [List.isEmpty_eq_false_iff]
    rintro rfl
    have hwords := words_spaceOut Constant.text Constant.isOperandWord hchain hvalue
    exact hne (List.map_eq_nil_iff.1 hwords.symm)
  rw [evaluate, Macro.Value.ofText, htrim, hnonempty]
  simp only [Bool.false_eq_true, if_false]
  cases hx : Number.ofText? value with
  | some x =>
    rw [evaluate_of_ofText? hchain hoperators hvalue hx]
    rfl
  | none =>
    suffices hlooks : looksArithmetic value = true by
      simp only [hlooks, if_true]
    by_contra hlooks
    -- Without an operator there is a single constant, which is no numeral.
    obtain ⟨constant, rfl⟩ := eq_singleton_of_isChain hchain hne fun op hop =>
      hlooks (looksArithmetic_of_symbols hchain hvalue hop)
    obtain ⟨before, after, hbefore, hafter, htext⟩ := hvalue.exists_surrounded
    have hword : value = constant.text := by
      rw [← htrim, htext, trim_surrounded hbefore hafter]
      exact Unbroken.trim_eq constant.isOperandWord.isBlank
    obtain ⟨text, y, hstands⟩ := constant
    cases hstands with
    | numeral _ _ hy _ =>
      rw [hword, hy] at hx
      cases hx
    | name _ _ _ hget =>
      refine hlone ⟨_, rfl, ?_⟩
      rw [Constant.isName, Macro.Table.replacement?, hget]
      rfl

end Definition

namespace Preprocessing

/-! ## Lines behind a value -/

/-- A name that has a value is evaluated as what is shown for the value. -/
theorem tokens_substitute_set {macroValue : Macro.Value} (hname : IsRun name)
    (hvalue : macroValue ≠ .flag) :
    tokens (Arithmetic.substitute (table.set name macroValue) name) = tokens macroValue.display := by
  rw [substitute_word _ (isOperandWord_of_isRun hname), replaced, Macro.Table.replacement?_set_self]
  cases macroValue with
  | flag => exact absurd rfl hvalue
  | number x => rfl
  | text written => rfl

/-- A name that has a finite number evaluates to it. -/
theorem evaluate_set_number {x : Float} (hname : IsRun name) (hx : x.isFinite = true) :
    Arithmetic.evaluate (table.set name (.number x)) name = .ok x := by
  have htokens : tokens (Arithmetic.substitute (table.set name (.number x)) name) =
      .ok (Expression.single (.single (numberFactor x))).tokens :=
    (tokens_substitute_set hname (by simp)).trans (tokens_text hx)
  rw [evaluate_of_tokens htokens (Expression.tokens_ne_nil _), evaluateTokens_tokens]
  exact congrArg Except.ok (numberFactor_value hx)

/-- A line behind a value is read behind what is read for the value. -/
theorem tokens_continueValue (macroValue : Macro.Value) (raw : Text) :
    tokens (continueValue macroValue raw).display =
      tokens macroValue.display >>= fun found =>
        (tokens (directiveText raw.trim)).map (found ++ ·) := by
  have hbreak : isBlank '\n' = true := by decide
  cases hvalue : macroValue.replacement? with
  | none =>
    rw [continueValue, Macro.Value.display, Macro.Value.display, hvalue, Option.getD_none, tokens_nil]
    show tokens (directiveText raw.trim) = _
    cases tokens (directiveText raw.trim) <;> rfl
  | some written =>
    rw [continueValue, Macro.Value.display, Macro.Value.display, hvalue]
    exact tokens_append hbreak written _

/-- Lines behind a value are read behind what is read for the value, one after the other. -/
theorem tokens_continued {pieces : List (Symbols table)} {joined : List Text}
    (hchain : pieces.flatten.IsChain Apart)
    (h : List.Forall₂ (fun symbols raw => Written symbols.words (directiveText raw.trim)) pieces joined)
    (macroValue : Macro.Value) :
    tokens (joined.foldl continueValue macroValue).display =
      tokens macroValue.display >>= fun found =>
        (tokens (unwords (Symbols.words pieces.flatten))).map (found ++ ·) := by
  induction h generalizing macroValue with
  | nil =>
    show tokens macroValue.display = tokens macroValue.display >>= fun found =>
      (tokens []).map (found ++ ·)
    rw [tokens_nil]
    cases tokens macroValue.display with
    | error fault => rfl
    | ok found => exact congrArg Except.ok (List.append_nil found).symm
  | @cons symbols raw pieces joined hwritten _ ih =>
    rw [List.flatten_cons] at hchain
    have hline : tokens (directiveText raw.trim) = tokens (unwords symbols.words) := by
      rw [← tokens_unwords_words_spaceOut (directiveText raw.trim),
        words_spaceOut Constant.text Constant.isOperandWord hchain.left_of_append hwritten]
      rfl
    have hwords : Symbols.words (symbols :: pieces).flatten =
        symbols.words ++ Symbols.words pieces.flatten := List.map_append
    rw [List.foldl_cons, ih hchain.right_of_append, tokens_continueValue, hline, hwords, tokens_unwords_append]
    cases tokens macroValue.display with
    | error fault => rfl
    | ok found =>
      cases tokens (unwords symbols.words) with
      | error fault => rfl
      | ok first =>
        cases tokens (unwords (Symbols.words pieces.flatten)) with
        | error fault => rfl
        | ok behind => exact congrArg Except.ok (List.append_assoc ..)

/-- A value with lines behind it is no flag, and neither is one that was none before. -/
theorem continued_ne_flag {macroValue : Macro.Value} {joined : List Text}
    (h : macroValue ≠ .flag ∨ joined ≠ []) : joined.foldl continueValue macroValue ≠ .flag := by
  induction joined generalizing macroValue with
  | nil => exact h.resolve_right (absurd rfl)
  | cons raw rest ih =>
    refine ih (.inl ?_)
    rw [continueValue]
    split <;> exact Macro.Value.noConfusion

/-! ## Definitions on several lines -/

/-- A line that defines a name by symbols. -/
def Defines (raw name : Text) (symbols : Symbols table) : Prop :=
  ∃ text value, directiveOf raw = .define text ∧ Definition.ofText? text = some ⟨name, value⟩ ∧
    Written symbols.words value

/-- A definition of a sentence on one line, and the same definition with the sentence broken into
pieces, the first of which stands on the first line. -/
structure SplitDefinition (table : Macro.Table) where
  /-- The name that is defined. -/
  name : Text
  /-- The sentence that is its value. -/
  sentence : Expression (Constant table)
  /-- The symbols on the first line. -/
  first : Symbols table
  /-- The symbols on each of the other lines. -/
  pieces : List (Symbols table)
  symbols_eq : sentence.symbols = first ++ pieces.flatten
  /-- The line that defines all of the sentence. -/
  whole : Text
  defines_whole : Defines whole name sentence.symbols
  notContinued_whole : isContinued whole.trim = false
  /-- The first line. -/
  opener : Text
  defines_opener : Defines opener name first
  /-- The other lines, and any comment lines between them. -/
  joined : List Text
  joins : Joins (isContinued opener.trim) joined false
  written : List.Forall₂ (fun symbols raw => Written symbols.words (directiveText raw.trim)) pieces
    (withoutComments joined)

namespace SplitDefinition

variable (split : SplitDefinition table)

/-- The symbols behind the first line. -/
def behind : Symbols table :=
  split.pieces.flatten

/-- The first line can be computed on its own, and the other lines need not be: no operator is replaced, no
name stands behind the first line, and nothing stands on it or a sentence other than a name. The number of
this sentence is finite, and no factor on the next line takes hold of a part of the sentence. -/
structure IsComputable : Prop where
  operators : ∀ op, .inr op ∈ split.sentence.symbols → table.replacement? [op.sign] = none
  numerals : ∀ constant, .inl constant ∈ split.behind → constant.isName = false
  first : split.first = [] ∨ ∃ front : Expression (Constant table), split.first = front.symbols ∧
    ¬ split.first.IsLoneName ∧ (∀ x, front.value? Constant.value = some x → x.isFinite = true) ∧
    ((∃ product, front = .single product) ∨
      ∀ op, split.behind.head? = some (.inr op) → op.joinsFactors = false)

/-- The value that the name has behind the lines that are joined to the first one. -/
def lastValue (macroValue : Macro.Value) : Macro.Value :=
  (withoutComments split.joined).foldl continueValue macroValue

variable {split} {start : Text} {x : Float}

theorem isChain : (split.first ++ split.behind).IsChain Apart := by
  rw [behind, ← split.symbols_eq]
  exact split.sentence.isChain_symbols

theorem operators_first (h : split.IsComputable) :
    ∀ op, .inr op ∈ split.first → table.replacement? [op.sign] = none := fun op hop =>
  h.operators op (by rw [split.symbols_eq]; exact List.mem_append_left _ hop)

theorem operators_behind (h : split.IsComputable) :
    ∀ op, .inr op ∈ split.behind → table.replacement? [op.sign] = none := fun op hop =>
  h.operators op (by rw [split.symbols_eq]; exact List.mem_append_right _ hop)

/-- The sentence is read as its first line with names replaced, and what stands behind it. -/
theorem tokens_value (h : split.IsComputable) (hvalue : Written (Symbols.words split.sentence.symbols) value) :
    tokens (Arithmetic.substitute table value) =
      tokens (unwords (split.first.words.map (replaced table))) >>= fun found =>
        (tokens (unwords split.behind.words)).map (found ++ ·) := by
  have hwords : Symbols.words split.sentence.symbols = split.first.words ++ split.behind.words := by
    rw [split.symbols_eq]
    exact List.map_append
  rw [tokens_substitute_symbols split.sentence.isChain_symbols hvalue, hwords, List.map_append,
    map_replaced_eq (operators_behind h) h.numerals, tokens_unwords_append]

/-- What is read behind the first line are the factors and operators there. -/
theorem eq_of_tokens_behind (h : split.IsComputable) {found : List Token}
    (hfound : tokens (unwords split.behind.words) = .ok found) :
    found = split.behind.flatMap (symbolTokens Constant.factor) := by
  rw [← map_replaced_eq (operators_behind h) h.numerals] at hfound
  exact tokens_of_symbols (operators_behind h) hfound

/-- The name is read as the value that the first line gives it, and what stands behind this line. -/
theorem tokens_lastValue (hname : IsRun split.name) (macroValue : Macro.Value)
    (hflag : macroValue ≠ .flag ∨ split.behind ≠ []) :
    tokens (Arithmetic.substitute (table.set split.name (split.lastValue macroValue)) split.name) =
      tokens macroValue.display >>= fun found =>
        (tokens (unwords split.behind.words)).map (found ++ ·) := by
  have hlast : split.lastValue macroValue ≠ .flag := by
    refine continued_ne_flag (hflag.imp_right fun hne hnil => hne ?_)
    have hwritten := split.written
    rw [hnil, List.forall₂_nil_right_iff] at hwritten
    rw [behind, hwritten]
    rfl
  rw [tokens_substitute_set hname hlast]
  exact tokens_continued isChain.right_of_append split.written macroValue

/-- A first line with nothing on it makes the name a flag. -/
theorem evaluate_nil (hstart : Written [] start) :
    Definition.evaluate table ⟨name, start⟩ = .ok .flag := by
  rw [Definition.evaluate, Macro.Value.ofText, trim_of_blanks hstart.blanks]
  rfl

/-- Behind a first line with a finite number, the name is read as the number and what follows it. -/
theorem tokens_lastValue_number (hname : IsRun split.name) (hx : x.isFinite = true) :
    tokens (Arithmetic.substitute (table.set split.name (split.lastValue (.number x))) split.name) =
      (tokens (unwords split.behind.words)).map ((numberFactor x).tokens ++ ·) := by
  have hshown : tokens (Macro.Value.number x).display = .ok (numberFactor x).tokens := tokens_text hx
  rw [tokens_lastValue hname (.number x) (.inl Macro.Value.noConfusion), hshown]
  rfl

/-- Behind a first line that is computed, the name has the value of the sentence, if it has any. -/
theorem evaluate_iff_of_front (h : split.IsComputable) (hname : IsRun split.name)
    (hvalue : Written (Symbols.words split.sentence.symbols) value)
    (hstart : Written split.first.words start) {front : Expression (Constant table)}
    (hfront : split.first = front.symbols)
    (hfinite : ∀ x, front.value? Constant.value = some x → x.isFinite = true)
    (hwhole : (∃ product, front = .single product) ∨
      ∀ op, split.behind.head? = some (.inr op) → op.joinsFactors = false) :
    Arithmetic.evaluate table value = .ok x ↔ ∃ y, Arithmetic.evaluate table start = .ok y ∧
      Arithmetic.evaluate (table.set split.name (split.lastValue (.number y))) split.name = .ok x := by
  have hfirst {y : Float} : Arithmetic.evaluate table start = .ok y ↔
      tokens (unwords (split.first.words.map (replaced table))) =
          .ok (front.bind Constant.factor).tokens ∧ front.value? Constant.value = some y := by
    have hoperators := operators_first h
    rw [hfront] at hoperators hstart ⊢
    exact evaluate_symbols_iff hoperators hstart
  -- The sentence of the first line, and the factor that writes its number, are whole.
  have hwhole := Expression.isWholeBefore_symbols hwhole
  have hsingle (y : Float) (behind : List Token) :
      (Expression.single (.single (numberFactor y))).IsWholeBefore behind := .inr ⟨_, rfl⟩
  have hnumber {y : Float} (hy : y.isFinite = true) :
      (Expression.single (.single (numberFactor y))).value? id = some y :=
    congrArg some (numberFactor_value hy)
  constructor
  · intro hx
    obtain ⟨found, hfound, hx⟩ := evaluate_eq_ok_iff.1 hx
    rw [tokens_value h hvalue] at hfound
    obtain ⟨before, behind, hbefore, hbehind, rfl⟩ := exists_of_append_ok hfound
    obtain rfl : before = (front.bind Constant.factor).tokens := by
      rw [front.tokens_bind, ← hfront]
      exact tokens_of_symbols (operators_first h) hbefore
    obtain rfl := eq_of_tokens_behind h hbehind
    obtain ⟨y, hy, hall⟩ := evaluateTokens_append hwhole hx
    rw [Expression.value?_factor] at hy
    have hx := hall _ (hnumber (hfinite y hy)) (hsingle y _)
    refine ⟨y, hfirst.2 ⟨hbefore, hy⟩, evaluate_eq_ok_iff.2 ⟨_, ?_, hx⟩⟩
    rw [tokens_lastValue_number hname (hfinite y hy), hbehind]
    rfl
  · rintro ⟨y, hy, hx⟩
    obtain ⟨hbefore, hvalue'⟩ := hfirst.1 hy
    have hyfinite := hfinite y hvalue'
    obtain ⟨found, hfound, hx⟩ := evaluate_eq_ok_iff.1 hx
    rw [tokens_lastValue_number hname hyfinite] at hfound
    cases hbehind : tokens (unwords split.behind.words) with
    | error fault =>
      rw [hbehind] at hfound
      cases hfound
    | ok behind =>
      rw [hbehind] at hfound
      cases hfound
      obtain rfl := eq_of_tokens_behind h hbehind
      obtain ⟨z, hz, hall⟩ := evaluateTokens_append (hsingle y _) hx
      obtain rfl : y = z := Option.some.inj ((hnumber hyfinite).symm.trans hz)
      have hx := hall _ (front.value?_factor.trans hvalue') hwhole
      refine evaluate_eq_ok_iff.2 ⟨_, ?_, hx⟩
      rw [tokens_value h hvalue, hbefore, hbehind]
      rfl

/-- The sentence has a value if and only if the first line has one, and the name has the same value behind
the other lines. -/
theorem evaluate_iff (h : split.IsComputable) (hname : IsRun split.name)
    (hvalue : Written (Symbols.words split.sentence.symbols) value)
    (hstart : Written split.first.words start) (htrim : start.trim = start) :
    Arithmetic.evaluate table value = .ok x ↔
      ∃ macroValue, Definition.evaluate table ⟨split.name, start⟩ = .ok macroValue ∧
        Arithmetic.evaluate (table.set split.name (split.lastValue macroValue)) split.name = .ok x := by
  rcases h.first with hnil | ⟨front, hfront, hlone, hfinite, hwhole⟩
  · -- What is read for the name is what is read for the sentence.
    have htokens := tokens_value h hvalue
    have hbehind : split.behind ≠ [] := fun hnone =>
      split.sentence.symbols_ne_nil (by rw [split.symbols_eq, hnil]; exact hnone)
    rw [hnil] at hstart htokens
    have hlast := tokens_lastValue hname .flag (.inr hbehind)
    have hsame : tokens (Arithmetic.substitute table value) =
        tokens (Arithmetic.substitute (table.set split.name (split.lastValue .flag)) split.name) :=
      htokens.trans hlast.symm
    rw [evaluate_nil hstart, Arithmetic.evaluate, hsame]
    constructor
    · exact fun hx => ⟨_, rfl, hx⟩
    · rintro ⟨_, ⟨⟩, hx⟩
      exact hx
  · rw [Definition.evaluate_of_sentence split.name isChain.left_of_append
      (hfront ▸ front.symbols_ne_nil) (operators_first h) hlone hstart htrim,
      evaluate_iff_of_front h hname hvalue hstart hfront hfinite hwhole]
    constructor
    · rintro ⟨y, hy, hx⟩
      exact ⟨.number y, by rw [hy]; rfl, hx⟩
    · rintro ⟨macroValue, hmacro, hx⟩
      cases hy : Arithmetic.evaluate table start with
      | error fault =>
        rw [hy] at hmacro
        cases hmacro
      | ok y =>
        rw [hy] at hmacro
        cases hmacro
        exact ⟨y, rfl, hx⟩

/-- The sentence is no name alone: the first line is none, and there is none behind it. -/
theorem not_isLoneName (h : split.IsComputable) : ¬ Symbols.IsLoneName split.sentence.symbols := by
  rintro ⟨constant, hsymbols, hname⟩
  rw [split.symbols_eq] at hsymbols
  rcases List.append_eq_singleton_iff.1 hsymbols with ⟨-, hbehind⟩ | ⟨hfirst, -⟩
  · have hmem : .inl constant ∈ split.behind := by
      rw [behind, hbehind]
      exact List.mem_singleton_self _
    rw [h.numerals constant hmem] at hname
    cases hname
  · rcases h.first with hnil | ⟨_, -, hlone, -⟩
    · cases hfirst.symm.trans hnil
    · exact hlone ⟨constant, hfirst, hname⟩

/-- The definition on one line gives the name the number that the sentence is evaluated to. -/
theorem run_whole (h : split.IsComputable) {groups : List Group} (henabled : enabled groups = true)
    (site : Site) {text : Text} (hdirective : directiveOf split.whole = .define text)
    (hdefinition : Definition.ofText? text = some ⟨split.name, value⟩)
    (hvalue : Written (Symbols.words split.sentence.symbols) value) :
    ((State.ready table groups).run [(site, split.whole)]).outcome =
      ((Arithmetic.evaluate table value).mapError (.invalidEquation split.whole.trim)).map fun x =>
        ([], .ready (table.set split.name (.number x)) groups) := by
  have hjoins : Joins (isContinued split.whole.trim) [] false := by
    rw [split.notContinued_whole]
    exact .nil false
  rw [run_definition henabled hdirective hdefinition hjoins rfl,
    Definition.evaluate_of_sentence split.name split.sentence.isChain_symbols
      split.sentence.symbols_ne_nil h.operators (not_isLoneName h) hvalue
      (Definition.of_ofText? hdefinition).2]
  cases Arithmetic.evaluate table value <;> rfl

end SplitDefinition

/-- The number that a name is given is found again in the table. -/
theorem eq_of_set_number {name : Text} {x y : Float}
    (h : table.set name (.number x) = table.set name (.number y)) : x = y := by
  have hget := congrArg (Macro.Table.get? · name) h
  simp only [Macro.Table.get?_set_self] at hget
  cases hget
  rfl

/-- A definition of a sentence on one line succeeds if and only if the same definition on several lines
does and its name has a value then; both give the same number to the name. -/
theorem run_splitDefinition {split : SplitDefinition table} (h : split.IsComputable)
    {groups : List Group} (henabled : enabled groups = true) (site : Site) {located : List (Site × Text)}
    (hlines : located.map Prod.snd = split.opener :: split.joined) :
    (∀ result, ((State.ready table groups).run [(site, split.whole)]).outcome = .ok result →
      ∃ x, split.sentence.value? Constant.value = some x ∧
        result = ([], .ready (table.set split.name (.number x)) groups) ∧
        (x.isFinite = true →
          Arithmetic.evaluate (table.set split.name (.number x)) split.name = .ok x)) ∧
    ∀ x, ((State.ready table groups).run [(site, split.whole)]).outcome =
        .ok ([], .ready (table.set split.name (.number x)) groups) ↔
      ∃ next, ((State.ready table groups).run located).outcome = .ok ([], .ready next groups) ∧
        Arithmetic.evaluate next split.name = .ok x := by
  obtain ⟨text, value, hdirective, hdefinition, hvalue⟩ := split.defines_whole
  obtain ⟨opening, start, hopener, hfirst, hstart⟩ := split.defines_opener
  obtain ⟨hname, -⟩ := Definition.of_ofText? hdefinition
  obtain ⟨-, hstartTrim⟩ := Definition.of_ofText? hfirst
  have hwhole := SplitDefinition.run_whole h henabled site hdirective hdefinition hvalue
  have hsplit : ((State.ready table groups).run located).outcome =
      ((Definition.evaluate table ⟨split.name, start⟩).mapError
        (.invalidEquation split.opener.trim)).map fun macroValue =>
          ([], .ready (table.set split.name (split.lastValue macroValue)) groups) :=
    run_definition henabled hopener hfirst split.joins hlines
  constructor
  · intro result hresult
    rw [hwhole] at hresult
    cases hx : Arithmetic.evaluate table value with
    | error fault =>
      rw [hx] at hresult
      cases hresult
    | ok x =>
      rw [hx] at hresult
      cases hresult
      exact ⟨x, ((evaluate_symbols_iff h.operators hvalue).1 hx).2, rfl, evaluate_set_number hname⟩
  · intro x
    have hone : ((State.ready table groups).run [(site, split.whole)]).outcome =
        .ok ([], .ready (table.set split.name (.number x)) groups) ↔
          Arithmetic.evaluate table value = .ok x := by
      rw [hwhole]
      cases Arithmetic.evaluate table value with
      | error fault => exact ⟨nofun, nofun⟩
      | ok y =>
        refine ⟨fun hsame => ?_, fun hsame => by cases hsame; rfl⟩
        have htable : table.set split.name (.number y) = table.set split.name (.number x) :=
          congrArg State.table (Prod.mk.inj (Except.ok.inj hsame)).2
        rw [eq_of_set_number htable]
    rw [hone, SplitDefinition.evaluate_iff h hname hvalue hstart hstartTrim, hsplit]
    cases Definition.evaluate table ⟨split.name, start⟩ with
    | error fault => exact ⟨nofun, nofun⟩
    | ok macroValue =>
      constructor
      · rintro ⟨_, ⟨⟩, hx⟩
        exact ⟨_, rfl, hx⟩
      · rintro ⟨next, hnext, hx⟩
        cases hnext
        exact ⟨macroValue, rfl, hx⟩

/-- A numeral of one digit, which no table gives a value that is put in its place. -/
def digitConstant {table : Macro.Table} (c : Char) (x : Float) (hdigit : isNumeral c = true)
    (hx : Number.ofText? [c] = some x) (hkept : table.replacement? [c] = none) : Constant table :=
  ⟨[c], x, .numeral (List.cons_ne_nil _ _) (List.forall_mem_singleton.2 hdigit) hx hkept⟩

/-- A table with a number. -/
def splitTable : Macro.Table :=
  Macro.Table.empty.set ['B'] (.number 4)

/-- The sentence `B * 2 - 1 + 3`, whose first product stands on the first line. -/
def exampleSplit : SplitDefinition splitTable :=
  let b : Constant splitTable := ⟨['B'], 4, .name (by decide) (by decide) (by decide) rfl⟩
  let one : Constant splitTable := digitConstant '1' 1 rfl (by decide +kernel) rfl
  let two : Constant splitTable := digitConstant '2' 2 rfl (by decide +kernel) rfl
  let three : Constant splitTable := digitConstant '3' 3 rfl (by decide +kernel) rfl
  { name := ['A']
    sentence := .add (.subtract (.single (.multiply (.single (.operand b)) (.operand two)))
      (.single (.operand one))) (.single (.operand three))
    first := [.inl b, .inr .multiply, .inl two]
    pieces := [[.inr .subtract, .inl one, .inr .add], [.inl three]]
    symbols_eq := rfl
    whole := "#define A B*2-1+3".toList
    defines_whole := ⟨"A B*2-1+3".toList, "B*2-1+3".toList, by decide, by decide,
      .word ['B'] <| .word ['*'] <| .word ['2'] <| .word ['-'] <| .word ['1'] <| .word ['+'] <|
        .word ['3'] .nil⟩
    notContinued_whole := by decide
    opener := "#define A B*2 \\".toList
    defines_opener := ⟨"A B*2".toList, "B*2".toList, by decide, by decide,
      .word ['B'] <| .word ['*'] <| .word ['2'] .nil⟩
    joined := ["-1+ \\".toList, "// the rest".toList, "3".toList]
    joins := .cons (.cons (.cons (.nil false)))
    written := by
      have hsecond : directiveText (trim "-1+ \\".toList) = "-1+".toList := by decide
      have hlast : directiveText (trim "3".toList) = "3".toList := by decide
      refine .cons ?_ (.cons ?_ .nil)
      · rw [hsecond]
        exact .word ['-'] (.word ['1'] (.word ['+'] .nil))
      · rw [hlast]
        exact .word ['3'] .nil }

/-- The lines of the example give its number, which is ten, to the name. -/
theorem run_exampleSplit : ∃ next, ((State.ready splitTable []).run
      [(⟨[], 1⟩, "#define A B*2 \\".toList), (⟨[], 2⟩, "-1+ \\".toList), (⟨[], 3⟩, "// the rest".toList),
        (⟨[], 4⟩, ['3'])]).outcome = .ok ([], .ready next []) ∧
    Arithmetic.evaluate next ['A'] = .ok 10 := by
  have h : exampleSplit.IsComputable := by
    refine ⟨fun op _ => ?_, fun constant hmem => ?_, .inr ⟨.single (.multiply (.single (.operand _))
      (.operand _)), rfl, ?_, ?_, .inl ⟨_, rfl⟩⟩⟩
    · cases op <;> decide
    · -- The constants on the other lines are one and three.
      have hcases : constant = digitConstant '1' 1 rfl (by decide +kernel) rfl ∨
          constant = digitConstant '3' 3 rfl (by decide +kernel) rfl := by
        simpa [exampleSplit, SplitDefinition.behind] using hmem
      rcases hcases with rfl | rfl <;> rfl
    · rintro ⟨constant, hsymbols, -⟩
      cases hsymbols
    · intro x hx
      obtain rfl : (4 : Float) * 2 = x := Option.some.inj hx
      decide +kernel
  have hone : ((State.ready splitTable []).run [(⟨[], 1⟩, exampleSplit.whole)]).outcome =
      .ok ([], .ready (splitTable.set ['A'] (.number 10)) []) := by decide +kernel
  exact ((run_splitDefinition h rfl ⟨[], 1⟩ rfl).2 10).1 hone

/-- The sentence `1 + 2 * 3`, whose product is torn apart. -/
def tornSplit : SplitDefinition .empty :=
  let one : Constant .empty := digitConstant '1' 1 rfl (by decide +kernel) rfl
  let two : Constant .empty := digitConstant '2' 2 rfl (by decide +kernel) rfl
  let three : Constant .empty := digitConstant '3' 3 rfl (by decide +kernel) rfl
  { name := ['A']
    sentence := .add (.single (.single (.operand one))) (.multiply (.single (.operand two)) (.operand three))
    first := [.inl one, .inr .add, .inl two]
    pieces := [[.inr .multiply, .inl three]]
    symbols_eq := rfl
    whole := "#define A 1 + 2 * 3".toList
    defines_whole := ⟨"A 1 + 2 * 3".toList, "1 + 2 * 3".toList, by decide, by decide,
      .word ['1'] <| .blank rfl <| .word ['+'] <| .blank rfl <| .word ['2'] <| .blank rfl <|
        .word ['*'] <| .blank rfl <| .word ['3'] .nil⟩
    notContinued_whole := by decide
    opener := "#define A 1 + 2 \\".toList
    defines_opener := ⟨"A 1 + 2".toList, "1 + 2".toList, by decide, by decide,
      .word ['1'] <| .blank rfl <| .word ['+'] <| .blank rfl <| .word ['2'] .nil⟩
    joined := ["* 3".toList]
    joins := .cons (.nil false)
    written := by
      have hline : directiveText (trim "* 3".toList) = "* 3".toList := by decide
      refine .cons ?_ .nil
      rw [hline]
      exact .word ['*'] (.blank rfl (.word ['3'] .nil)) }

/-- The number of a definition can be another one when it stands on several lines: the sum on the first line
is computed before the factor behind it is seen. -/
theorem not_forall_run_splitDefinition :
    ¬ ∀ (table : Macro.Table) (split : SplitDefinition table) (groups : List Group) (site : Site)
      (located : List (Site × Text)) (first second : Macro.Table), enabled groups = true →
      located.map Prod.snd = split.opener :: split.joined →
      ((State.ready table groups).run [(site, split.whole)]).outcome =
        .ok ([], .ready first groups) →
      ((State.ready table groups).run located).outcome = .ok ([], .ready second groups) →
      Arithmetic.evaluate first split.name = Arithmetic.evaluate second split.name := by
  intro h
  have hone : ((State.ready .empty []).run [(⟨[], 1⟩, tornSplit.whole)]).outcome =
      .ok ([], .ready (Macro.Table.empty.set ['A'] (.number 7)) []) := by decide +kernel
  have hsplit : ((State.ready .empty []).run
        [(⟨[], 1⟩, tornSplit.opener), (⟨[], 2⟩, "* 3".toList)]).outcome =
      .ok ([], .ready (Macro.Table.empty.set ['A'] (.text "3\n* 3".toList)) []) := by decide +kernel
  have hsame := h _ tornSplit [] _ _ _ _ rfl rfl hone hsplit
  have hseven : Arithmetic.evaluate (Macro.Table.empty.set ['A'] (.number 7)) ['A'] = .ok 7 := by
    decide +kernel
  have hnine : Arithmetic.evaluate (Macro.Table.empty.set ['A'] (.text "3\n* 3".toList)) ['A'] = .ok 9 := by
    decide +kernel
  exact absurd (hseven.symm.trans (hsame.trans hnine)) (by decide +kernel)

end Preprocessing

end ShaderInterface
