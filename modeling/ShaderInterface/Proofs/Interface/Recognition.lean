import ShaderInterface.Proofs.Interface.Trivia

/-!
# Reading What Is Written

The scanner reads back what the grammar writes: each of its steps takes the token that stands next, or
finds out that another one does. So it reads every declaration as it was written, and in the code
around declarations it finds none.

## Main results

* `Spelled.declared?`, `Spelled.declaration?`: a declaration is read as it was written.
* `declarations_of_filler`: there are no declarations in the code around them.
* `SourceOf.declarations_eq`: the declarations of a source are those that were written in it.
-/

namespace ShaderInterface.Interface

open ShaderInterface.Text

variable {token : Token} {tokens : List Token} {text rest name inner : Text}
  {opening closing symbol : Char} {found : Option Text}

/-! ## The next token -/

/-- The sign that a token starts with, if it is no word. -/
def Token.sign? : Token → Option Char
  | .word _ => none
  | .enclosed opening _ _ => some opening
  | .semicolon => some ';'

/-- A token starts with a letter if it is a word, and with its sign if it is not. -/
theorem Token.WellFormed.exists_start (h : token.WellFormed) (after : Text) :
    ∃ c tail, token.text ++ after = c :: tail ∧ isBlank c = false ∧ c ≠ '/' ∧
      (opensName c = true ∧ token.sign? = none ∨ opensName c = false ∧ token.sign? = some c) := by
  -- Only a word can be made of anything; the other tokens start with one of four signs.
  cases token with
  | word name =>
    rcases name with - | ⟨c, tail⟩
    · cases h
    · have hopens : opensName c = true := by
        rw [WellFormed, isName, Bool.and_eq_true] at h
        exact h.1
      refine ⟨c, tail ++ after, rfl, ?_, ?_, .inl ⟨hopens, rfl⟩⟩
      · by_contra hblank
        rw [Bool.not_eq_false] at hblank
        cases hopens.symm.trans (opensName_of_isBlank hblank)
      · rintro rfl
        exact absurd hopens (by decide)
  | enclosed opening closing inner =>
    have hsigns : delimiters.all (fun delimiter => isBlank delimiter.1 = false ∧
        delimiter.1 ≠ '/' ∧ opensName delimiter.1 = false) = true := by decide
    obtain ⟨hblank, hslash, hopens⟩ := of_decide_eq_true (List.all_eq_true.1 hsigns _ h.1)
    exact ⟨opening, _, rfl, hblank, hslash, .inr ⟨hopens, rfl⟩⟩
  | semicolon => exact ⟨';', after, rfl, by decide, by decide, .inr ⟨by decide, rfl⟩⟩

/-- Behind the gap stands the next token. -/
theorem Spelled.skipTrivia (h : Spelled (token :: tokens) text rest) :
    ∃ after, Interface.skipTrivia text = token.text ++ after ∧ token.WellFormed ∧
      token.EndsBefore after ∧ Spelled tokens after rest := by
  cases h with
  | @cons _ _ _ after _ hwell hgap hends htokens =>
    refine ⟨after, ?_, hwell, hends, htokens⟩
    obtain ⟨c, tail, htext, hblank, hslash, -⟩ := hwell.exists_start after
    rw [skipTrivia_of_gap hgap, htext, skipTrivia_start hblank hslash]

/-- A word is read as a name. -/
theorem Spelled.name? (h : Spelled (.word name :: tokens) text rest) :
    ∃ after, Interface.name? text = some (name, after) ∧ Spelled tokens after rest := by
  obtain ⟨after, hskip, hwell, hends, htokens⟩ := h.skipTrivia
  refine ⟨after, ?_, htokens⟩
  rcases name with - | ⟨c, tail⟩
  · cases hwell
  · rw [Token.WellFormed, isName, Bool.and_eq_true, List.all_eq_true] at hwell
    -- What follows the word does not continue it, so that the run of characters ends there.
    obtain ⟨htake, hdrop⟩ := takeWhile_append_of_stop [] hends
    rw [Interface.name?, hskip]
    simp only [Token.text, List.cons_append, hwell.1, if_true]
    rw [List.takeWhile_append_of_pos hwell.2, List.dropWhile_append_of_pos hwell.2]
    rw [List.nil_append] at htake hdrop
    rw [htake, hdrop, List.takeWhile_nil, List.append_nil, List.dropWhile_nil, List.nil_append]

/-- No name is read where another token stands. -/
theorem Spelled.name?_eq_none (h : Spelled (token :: tokens) text rest)
    (hsign : token.sign?.isSome) : Interface.name? text = none := by
  obtain ⟨after, hskip, hwell, -⟩ := h.skipTrivia
  obtain ⟨c, tail, htext, -, -, hstart⟩ := hwell.exists_start after
  rcases hstart with ⟨-, hnone⟩ | ⟨hopens, -⟩
  · rw [hnone] at hsign
    cases hsign
  · rw [Interface.name?, hskip, htext]
    simp only [hopens, Bool.false_eq_true, if_false]

/-- A sign is read where it stands. -/
theorem Spelled.symbol? (h : Spelled (token :: tokens) text rest)
    (hsign : token.sign? = some symbol) :
    ∃ behind after, Interface.symbol? symbol text = some behind ∧
      symbol :: behind = token.text ++ after ∧ token.WellFormed ∧ Spelled tokens after rest := by
  obtain ⟨after, hskip, hwell, -, htokens⟩ := h.skipTrivia
  obtain ⟨c, tail, htext, -, -, hstart⟩ := hwell.exists_start after
  rcases hstart with ⟨-, hnone⟩ | ⟨-, hsome⟩
  · cases hnone.symm.trans hsign
  · cases hsome.symm.trans hsign
    refine ⟨tail, after, ?_, htext.symm, hwell, htokens⟩
    rw [Interface.symbol?, hskip, htext]
    simp only [if_true]

/-- No sign is read where another token stands. -/
theorem Spelled.symbol?_eq_none (h : Spelled (token :: tokens) text rest)
    (hsymbol : opensName symbol = false) (hsign : token.sign? ≠ some symbol) :
    Interface.symbol? symbol text = none := by
  obtain ⟨after, hskip, hwell, -⟩ := h.skipTrivia
  obtain ⟨c, tail, htext, -, -, hstart⟩ := hwell.exists_start after
  have hne : c ≠ symbol := by
    rintro rfl
    -- The sign opens no name, so that the token would be the one with this sign.
    rcases hstart with ⟨hopens, -⟩ | ⟨-, hsome⟩
    · cases hopens.symm.trans hsymbol
    · exact hsign hsome
  rw [Interface.symbol?, hskip, htext]
  simp only [hne, if_false]

/-- What stands between delimiters is read up to the closing one. -/
theorem Spelled.enclosed (h : Spelled (.enclosed opening closing inner :: tokens) text rest) :
    ∃ behind after, Interface.symbol? opening text = some behind ∧
      behind.cut? closing = some (inner, after) ∧ Spelled tokens after rest := by
  obtain ⟨behind, after, hsymbol, htext, hwell, htokens⟩ := h.symbol? rfl
  refine ⟨behind, after, hsymbol, ?_, htokens⟩
  rw [Token.text, List.cons_append, List.append_assoc, List.singleton_append] at htext
  rw [(List.cons.inj htext).2, cut?_append hwell.2]

/-! ## Optional parts -/

/-- A name that may be missing is read if it is there. If it is not, no other word may stand in its
place. -/
theorem Spelled.optionalName (h : Spelled (found.toList.map .word ++ tokens) text rest)
    (hnext : found = none → ∃ token behind, tokens = token :: behind ∧ token.sign?.isSome) :
    ∃ after, Interface.optionalName text = (found, after) ∧ Spelled tokens after rest := by
  cases found with
  | none =>
    -- Nothing is taken where the name is missing.
    obtain ⟨token, behind, rfl, hsign⟩ := hnext rfl
    refine ⟨text, ?_, h⟩
    have hnone : Interface.name? text = none := Spelled.name?_eq_none h hsign
    rw [Interface.optionalName, hnone]
  | some name =>
    obtain ⟨after, hname, htokens⟩ := Spelled.name? h
    exact ⟨after, by rw [Interface.optionalName, hname], htokens⟩

/-- Delimiters that may be missing are read if they are there. If they are not, no other ones of the
same kind may stand in their place. -/
theorem Spelled.optionalEnclosed?
    (h : Spelled (found.toList.map (.enclosed opening closing) ++ tokens) text rest)
    (hopening : opensName opening = false)
    (hnext : found = none → ∃ token behind, tokens = token :: behind ∧
      token.sign? ≠ some opening) :
    ∃ after, Interface.optionalEnclosed? opening closing text = some (found, after) ∧
      Spelled tokens after rest := by
  cases found with
  | none =>
    obtain ⟨token, behind, rfl, hsign⟩ := hnext rfl
    refine ⟨text, ?_, h⟩
    have hnone : Interface.symbol? opening text = none := Spelled.symbol?_eq_none h hopening hsign
    rw [Interface.optionalEnclosed?, hnone]
  | some inner =>
    obtain ⟨behind, after, hsymbol, hcut, htokens⟩ := Spelled.enclosed h
    refine ⟨after, ?_, htokens⟩
    rw [Interface.optionalEnclosed?, hsymbol]
    simp only [hcut, Option.map_some]

/-! ## Declarations -/

/-- The name that stands next is looked at and passed over if it is a memory qualifier. -/
theorem qualifier?_of_name? {behind : Text} (h : Interface.name? text = some (name, behind)) :
    qualifier? text =
      if name ∈ memoryQualifiers then qualifier? behind else some (name, behind) := by
  rw [qualifier?]
  split
  next hnone => cases h.symm.trans hnone
  next hsome =>
    obtain ⟨rfl, rfl⟩ := Prod.mk.inj (Option.some_inj.1 (h.symm.trans hsome))
    rfl

/-- Memory qualifiers are passed over, up to the first other name. -/
theorem Spelled.qualifier? {memory : List Text}
    (hmemory : ∀ qualifier ∈ memory, qualifier ∈ memoryQualifiers) (hname : name ∉ memoryQualifiers)
    (h : Spelled (memory.map .word ++ .word name :: tokens) text rest) :
    ∃ after, Interface.qualifier? text = some (name, after) ∧ Spelled tokens after rest := by
  induction memory generalizing text with
  | nil =>
    obtain ⟨after, hword, htokens⟩ := Spelled.name? h
    exact ⟨after, by rw [qualifier?_of_name? hword, if_neg hname], htokens⟩
  | cons qualifier memory ih =>
    rw [List.forall_mem_cons] at hmemory
    obtain ⟨behind, hword, hrest⟩ := Spelled.name? h
    obtain ⟨after, hqualifier, htokens⟩ := ih hmemory.2 hrest
    exact ⟨after, by rw [qualifier?_of_name? hword, if_pos hmemory.1, hqualifier], htokens⟩

/-- A storage with a qualifier is found by the qualifier, which says nothing about memory. -/
theorem ofQualifier?_text {storage : Storage} (h : storage ≠ .storageBuffer) :
    Storage.ofQualifier? storage.text = some storage ∧ storage.text ∉ memoryQualifiers := by
  cases storage with
  | storageBuffer => exact absurd rfl h
  | input => decide
  | output => decide
  | uniform => decide
  | buffer => decide

/-- A variable or block is read up to the semicolon. -/
theorem Spelled.declared? {declared : Variable}
    (hinstance : declared.instanceName.isSome → declared.name.isSome ∨ declared.block.isSome)
    (h : Spelled declared.tokens text rest) :
    ∃ after, Interface.declared? declared.attributes declared.storage text =
      some (declared, after) ∧ Spelled [.semicolon] after rest := by
  obtain ⟨attributes, storage, type, name, block, instanceName, array⟩ := declared
  -- Each part that is missing is missed because the token behind it is of another kind.
  obtain ⟨afterType, htype, h⟩ := Spelled.name? h
  obtain ⟨afterName, hname, h⟩ := Spelled.optionalName h (by
    -- Without a name and a block there is no instance either.
    rintro rfl
    rcases block with - | block
    · rcases instanceName with - | instanceName
      · rcases array with - | array <;> exact ⟨_, _, rfl, rfl⟩
      · simp at hinstance
    · exact ⟨_, _, rfl, rfl⟩)
  obtain ⟨afterBlock, hblock, h⟩ := Spelled.optionalEnclosed? h (by decide) (by
    -- An instance, an array or the semicolon follows.
    rintro rfl
    rcases instanceName with - | instanceName
    · rcases array with - | array <;> exact ⟨_, _, rfl, by simp [Token.sign?]⟩
    · exact ⟨_, _, rfl, by simp [Token.sign?]⟩)
  obtain ⟨afterInstance, hinstanceName, h⟩ := Spelled.optionalName h (by
    rintro rfl
    rcases array with - | array <;> exact ⟨_, _, rfl, rfl⟩)
  obtain ⟨after, harray, h⟩ := Spelled.optionalEnclosed? h (by decide) (by
    rintro rfl
    exact ⟨_, _, rfl, by decide⟩)
  refine ⟨after, ?_, h⟩
  simp only [Interface.declared?, htype, hname, hblock, hinstanceName, harray, Option.bind_eq_bind,
    Option.bind_some, Option.pure_def]

/-- What is left of a declaration when it has been read: the semicolon of a variable or block. -/
def Declaration.remainder : Declaration → List Token
  | .stageWide .. => []
  | .interface _ => [.semicolon]

/-- A declaration is read as it was written. -/
theorem Spelled.declaration? {declaration : Declaration} {memory : List Text}
    (hwell : declaration.WellFormed)
    (hmemory : ∀ qualifier ∈ memory, qualifier ∈ memoryQualifiers)
    (h : Spelled (declaration.tokens memory) text rest) :
    ∃ after, Interface.declaration? text = some (declaration, after) ∧
      Spelled declaration.remainder after rest := by
  cases declaration with
  | stageWide attributes storage =>
    obtain ⟨hstorage, hnotMemory⟩ := ofQualifier?_text hwell
    obtain ⟨opened, closed, hopened, hcut, h⟩ := Spelled.enclosed h
    obtain ⟨afterQualifier, hqualifier, h⟩ := Spelled.qualifier? hmemory hnotMemory h
    obtain ⟨behind, after, hsemicolon, htext, -, h⟩ := Spelled.symbol? h rfl
    obtain rfl : behind = after := List.tail_eq_of_cons_eq htext
    refine ⟨behind, ?_, h⟩
    simp only [Interface.declaration?, hopened, hcut, hqualifier, hstorage, hsemicolon,
      Option.bind_eq_bind, Option.bind_some, Option.pure_def]
  | interface declared =>
    obtain ⟨hstorage, hnotMemory⟩ := ofQualifier?_text hwell.1
    obtain ⟨opened, closed, hopened, hcut, h⟩ := Spelled.enclosed h
    obtain ⟨afterQualifier, hqualifier, h⟩ := Spelled.qualifier? hmemory hnotMemory h
    -- The type stands where the semicolon of the other kind of declaration would be.
    have hsemicolon : Interface.symbol? ';' afterQualifier = none :=
      Spelled.symbol?_eq_none h (by decide) (by simp [Token.sign?])
    obtain ⟨after, hdeclared, h⟩ := Spelled.declared? hwell.2 h
    refine ⟨after, ?_, h⟩
    simp only [Interface.declaration?, hopened, hcut, hqualifier, hstorage, hsemicolon, hdeclared,
      Option.bind_eq_bind, Option.bind_some, Option.pure_def]

/-! ## Sources -/

/-- Only what stands behind blanks and comments counts for the declarations of a source. -/
theorem declarations_of_skipTrivia {first second : Text} (h : skipTrivia first = skipTrivia second) :
    declarations first = declarations second := by
  rw [declarations, declarations, h]

/-- A gap makes no difference to the declarations behind it. -/
theorem declarations_of_gap (h : Gap text rest) : declarations text = declarations rest :=
  declarations_of_skipTrivia (skipTrivia_of_gap h)

theorem declarations_nil : declarations [] = [] := by
  rw [declarations, skipTrivia_nil]

/-- Nothing in front of a name has to be skipped twice. -/
theorem name?_of_skipTrivia {first second : Text} (h : skipTrivia first = second) :
    Interface.name? second = Interface.name? first := by
  rw [Interface.name?, Interface.name?, ← h, skipTrivia_skipTrivia]

/-- A character that opens no name is passed over. -/
theorem declarations_mark {c : Char} {after : Text} (hskip : skipTrivia text = c :: after)
    (hname : Interface.name? text = none) : declarations text = declarations after := by
  rw [declarations, hskip]
  simp only
  split
  next => rfl
  next found _ hfound => cases hfound.symm.trans ((name?_of_skipTrivia hskip).trans hname)

/-- A name that stands next is passed over, unless it is `layout` and a declaration follows. -/
theorem declarations_of_name? {behind : Text} (h : Interface.name? text = some (name, behind)) :
    declarations text =
      if name = "layout".toList then
        match Interface.declaration? behind with
        | some (declaration, after) => declaration :: declarations after
        | none => declarations behind
      else declarations behind := by
  rw [declarations]
  split
  next hskip =>
    rw [Interface.name?, hskip] at h
    cases h
  next hskip =>
    have hsame := (name?_of_skipTrivia hskip).trans h
    split
    next hnone => cases hnone.symm.trans hsame
    next hsome =>
      obtain ⟨rfl, rfl⟩ := Prod.mk.inj (Option.some_inj.1 (hsome.symm.trans hsame))
      -- The two sides differ only in that one of them remembers what was read.
      split
      · split
        next hread => rw [hread]
        next hread => rw [hread]
      · rfl

/-! ## Code without declarations -/

/-- A character that opens no name belongs to no identifier. -/
theorem identifiers_cons_of_mark {c : Char} {code : Text} (hopens : opensName c = false)
    (h : "layout".toList ∉ identifiers (c :: code)) : "layout".toList ∉ identifiers code := by
  intro hmem
  apply h
  rw [identifiers, List.splitOnP_cons_eq_if_modifyHead]
  -- The character ends a run, or stands at the front of one that is dropped up to a letter.
  split
  · exact List.mem_cons_of_mem _ hmem
  · obtain ⟨run, runs, hruns⟩ := List.exists_cons_of_ne_nil
      (List.splitOnP_ne_nil (fun c => !continuesName c) code)
    rw [identifiers, hruns, List.map_cons] at hmem
    rw [hruns, List.modifyHead_cons, List.map_cons, List.dropWhile_cons_of_pos (by simp [hopens])]
    exact hmem

/-- Behind an identifier come the identifiers of the code that follows. -/
theorem identifiers_append {c : Char} {run code : Text} (hopens : opensName c = true)
    (hrun : ∀ d ∈ run, continuesName d = true) (hcode : continues code = false)
    (h : "layout".toList ∉ identifiers (c :: run ++ code)) :
    c :: run ≠ "layout".toList ∧ "layout".toList ∉ identifiers code := by
  have hall : ∀ d ∈ c :: run, (!continuesName d) = false := by
    rw [List.forall_mem_cons]
    exact ⟨by simp [continuesName_of_opensName hopens], fun d hd => by simp [hrun d hd]⟩
  have hwhole : (c :: run).dropWhile (fun d => !opensName d) = c :: run :=
    List.dropWhile_cons_of_neg (by simp [hopens])
  -- The run ends with the code or at the first character that continues no name.
  rcases code with - | ⟨d, tail⟩
  · rw [List.append_nil, identifiers, List.splitOnP_eq_singleton hall, List.map_singleton, hwhole,
      List.mem_singleton] at h
    exact ⟨Ne.symm h, by decide⟩
  · have hd : (!continuesName d) = true := by
      rw [Bool.not_eq_true']
      exact hcode
    rw [identifiers, List.splitOnP_append_cons_of_forall_mem hall d hd, List.map_cons, hwhole,
      List.mem_cons, not_or] at h
    refine ⟨Ne.symm h.1, ?_⟩
    rw [identifiers, List.splitOnP_cons_eq_if_modifyHead, if_pos hd, List.map_cons, List.mem_cons,
      not_or]
    exact ⟨by decide, h.2⟩

/-- The end of code is code. -/
theorem IsCode.suffix {code tail after : Text} (h : IsCode code after) (hsuffix : tail <:+ code)
    (hlayout : "layout".toList ∉ identifiers tail) : IsCode tail after where
  noLineComment hmark := h.noLineComment (hmark.trans hsuffix.isInfix)
  noBlockComment hmark := h.noBlockComment (hmark.trans hsuffix.isInfix)
  noLayout := hlayout
  delimited := h.delimited

/-- A mark of two characters that is not in code does not start with the last one of code either. -/
theorem IsCode.head?_ne {c d : Char} {tail after : Text} (h : IsCode (c :: tail) after)
    (hmark : ¬ [c, d] <:+: c :: tail) (hd : isBlank d = false) :
    (tail ++ after).head? ≠ some d := by
  intro hhead
  rcases tail with - | ⟨e, tail⟩
  · have hdelimited := h.delimited
    rw [List.nil_append] at hhead
    rw [hhead] at hdelimited
    cases hdelimited.symm.trans hd
  · obtain rfl : e = d := Option.some_inj.1 hhead
    exact hmark ⟨[], tail, rfl⟩

/-- No comment starts in code. -/
theorem IsCode.afterComment? {c : Char} {tail after : Text} (h : IsCode (c :: tail) after) :
    Interface.afterComment? (c :: (tail ++ after)) = none := by
  apply afterComment?_eq_none
  rintro rfl
  exact ⟨h.head?_ne h.noLineComment (by decide), h.head?_ne h.noBlockComment (by decide)⟩

/-- Code is not continued by what stands behind it. -/
theorem IsCode.continues {code after : Text} (h : IsCode code after) : continues after = false := by
  have hdelimited := h.delimited
  rcases after with - | ⟨c, after⟩
  · rfl
  · exact continuesName_of_isBlank hdelimited

/-- A name at the beginning of code is read within the code. -/
theorem IsCode.name? {c : Char} {tail after : Text} (h : IsCode (c :: tail) after)
    (hskip : skipTrivia (c :: (tail ++ after)) = c :: (tail ++ after)) (hopens : opensName c = true) :
    Interface.name? (c :: (tail ++ after)) =
      some (c :: tail.takeWhile continuesName, tail.dropWhile continuesName ++ after) := by
  obtain ⟨htake, hdrop⟩ := takeWhile_append_of_stop tail h.continues
  rw [Interface.name?, hskip]
  simp only [hopens, if_true, htake, hdrop]

/-- There are no declarations in code. -/
theorem declarations_of_isCode {code after : Text} (h : IsCode code after) :
    declarations (code ++ after) = declarations after := by
  induction hlength : code.length using Nat.strongRecOn generalizing code with
  | _ length ih =>
    subst hlength
    rcases code with - | ⟨c, tail⟩
    · rfl
    by_cases hopens : opensName c = true
    · -- A whole identifier is passed over.
      have hblank : isBlank c = false := by
        by_contra hblank
        rw [Bool.not_eq_false] at hblank
        cases hopens.symm.trans (opensName_of_isBlank hblank)
      have hskip := skipTrivia_of_none h.afterComment? hblank
      have hsplit : c :: tail = c :: tail.takeWhile continuesName ++ tail.dropWhile continuesName := by
        rw [List.cons_append, List.takeWhile_append_dropWhile]
      have hlayout := h.noLayout
      rw [hsplit] at hlayout
      obtain ⟨hne, hbehind⟩ := identifiers_append hopens (List.all_eq_true.1 List.all_takeWhile)
        (any_head?_dropWhile continuesName tail) hlayout
      have hsuffix : tail.dropWhile continuesName <:+ c :: tail :=
        (List.dropWhile_suffix continuesName).trans (List.suffix_cons c tail)
      rw [List.cons_append, declarations_of_name? (h.name? hskip hopens), if_neg hne]
      refine ih _ ?_ (h.suffix hsuffix hbehind) rfl
      exact Nat.lt_succ_of_le (List.dropWhile_suffix continuesName).length_le
    · -- A blank is skipped, and any other character is passed over by itself.
      rw [Bool.not_eq_true] at hopens
      have htail : IsCode tail after :=
        h.suffix (List.suffix_cons c tail) (identifiers_cons_of_mark hopens h.noLayout)
      rw [← ih _ (Nat.lt_succ_self _) htail rfl]
      cases hblank : isBlank c with
      | true => exact declarations_of_skipTrivia (skipTrivia_blank hblank)
      | false =>
        have hskip := skipTrivia_of_none h.afterComment? hblank
        refine declarations_mark hskip ?_
        rw [List.cons_append, Interface.name?, hskip]
        simp only [hopens, Bool.false_eq_true, if_false]

/-- There are no declarations in what stands around declarations. -/
theorem declarations_of_filler (h : Filler text rest) : declarations text = declarations rest := by
  induction h with
  | done => rfl
  | gap hgap _ ih => rw [declarations_of_gap hgap, ih]
  | code code hcode _ ih => rw [declarations_of_isCode hcode, ih]

/-- What is left of a declaration holds no declaration. -/
theorem declarations_of_remainder {declaration : Declaration}
    (h : Spelled declaration.remainder text rest) : declarations text = declarations rest := by
  cases declaration with
  | stageWide =>
    cases h
    rfl
  | interface =>
    -- The scanner takes the semicolon for code.
    obtain ⟨after, hskip, -, -, htokens⟩ := Spelled.skipTrivia h
    cases htokens
    exact declarations_mark hskip (Spelled.name?_eq_none h rfl)

/-- The declarations of a source are those that were written in it, in order. -/
theorem SourceOf.declarations_eq {expected : List Declaration} {source : Text}
    (h : SourceOf expected source) : declarations source = expected := by
  induction h with
  | done hfiller => rw [declarations_of_filler hfiller, declarations_nil]
  | @next declaration _ memory source start rest hfiller hwell hmemory hspelled _ ih =>
    obtain ⟨behind, hname, hspelled⟩ := Spelled.name? hspelled
    obtain ⟨after, hdeclaration, hremainder⟩ := Spelled.declaration? hwell hmemory hspelled
    rw [declarations_of_filler hfiller, declarations_of_name? hname, if_pos rfl, hdeclaration]
    simp only [declarations_of_remainder hremainder, ih]

end ShaderInterface.Interface
