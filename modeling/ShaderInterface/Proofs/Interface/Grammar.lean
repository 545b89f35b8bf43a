import ShaderInterface.Interface.Declaration

/-!
# The Grammar of Declarations

How declarations are written, without regard to how they are read. A declaration is a sequence of
tokens. Blanks and complete comments may stand in front of every token, and something must stand
between two names. Around declarations there may be any code in which no `layout` occurs.

All parts of the grammar are relations between a text and what is left of it behind the part.

## Main definitions

* `Gap`: blanks and complete comments.
* `Spelled`: a sequence of tokens with gaps.
* `Declaration.tokens`: the tokens of a declaration.
* `Filler`: code between declarations.
* `SourceOf`: the sources in which given declarations are written.
* `write`: the plainest of these sources.

## Main results

* `sourceOf_write`: all declarations can be written.
-/

namespace ShaderInterface.Interface

open ShaderInterface.Text

/-- Blanks and complete comments that stand in front of `rest`. A line comment may also end with the
text. -/
inductive Gap : (text rest : Text) → Prop where
  | done (rest : Text) : Gap rest rest
  | blank {c : Char} {text rest : Text} : isBlank c = true → Gap text rest → Gap (c :: text) rest
  | lineComment (inner : Text) {text rest : Text} : '\n' ∉ inner → Gap text rest →
      Gap ('/' :: '/' :: (inner ++ '\n' :: text)) rest
  | lastComment (inner : Text) : '\n' ∉ inner → Gap ('/' :: '/' :: inner) []
  | blockComment (inner : Text) {text rest : Text} : ¬ ['*', '/'] <:+: inner → Gap text rest →
      Gap ('/' :: '*' :: (inner ++ '*' :: '/' :: text)) rest

/-- Whether a text is a name. -/
def isName : Text → Bool
  | [] => false
  | c :: tail => opensName c && tail.all continuesName

/-- Whether a text goes on with a character that would make a name in front of it longer. -/
def continues (text : Text) : Bool :=
  text.head?.any continuesName

/-! ## Tokens -/

/-- A token of a declaration. -/
inductive Token where
  /-- A name, or a word of the language. -/
  | word (name : Text)
  /-- Anything between two delimiters. -/
  | enclosed (opening closing : Char) (inner : Text)
  | semicolon

namespace Token

/-- The delimiters. -/
def delimiters : List (Char × Char) := [('(', ')'), ('{', '}'), ('[', ']')]

/-- How a token is written. -/
def text : Token → Text
  | word name => name
  | enclosed opening closing inner => opening :: (inner ++ [closing])
  | semicolon => [';']

/-- A word is a name, and what stands between delimiters does not hold the closing one. -/
def WellFormed : Token → Prop
  | word name => isName name = true
  | enclosed opening closing inner => (opening, closing) ∈ delimiters ∧ closing ∉ inner
  | semicolon => True

instance : (token : Token) → Decidable token.WellFormed
  | word name => inferInstanceAs (Decidable (isName name = true))
  | enclosed opening closing inner =>
    inferInstanceAs (Decidable ((opening, closing) ∈ delimiters ∧ closing ∉ inner))
  | semicolon => inferInstanceAs (Decidable True)

/-- Whether a token ends where a text goes on: a word is not made longer by it. -/
def EndsBefore (after : Text) : Token → Prop
  | word _ => continues after = false
  | _ => True

end Token

/-- The given tokens, each behind a gap, stand in front of `rest`. -/
inductive Spelled : (tokens : List Token) → (text rest : Text) → Prop where
  | nil (rest : Text) : Spelled [] rest rest
  | cons {token : Token} {tokens : List Token} {text after rest : Text} : token.WellFormed →
      Gap text (token.text ++ after) → token.EndsBefore after → Spelled tokens after rest →
      Spelled (token :: tokens) text rest

/-! ## Declarations -/

/-- The tokens of a variable or block behind its storage qualifier. -/
def Variable.tokens (declared : Variable) : List Token :=
  .word declared.type :: (declared.name.toList.map .word ++
    (declared.block.toList.map (.enclosed '{' '}') ++
      (declared.instanceName.toList.map .word ++
        (declared.array.toList.map (.enclosed '[' ']') ++ [.semicolon]))))

/-- The tokens of a declaration behind the word `layout`, with some memory qualifiers. -/
def Declaration.tokens (memory : List Text) : Declaration → List Token
  | .stageWide attributes storage =>
    .enclosed '(' ')' attributes :: (memory.map .word ++ [.word storage.text, .semicolon])
  | .interface declared =>
    .enclosed '(' ')' declared.attributes ::
      (memory.map .word ++ .word declared.storage.text :: declared.tokens)

/-- A declaration has a storage for which there is a qualifier, and an instance has a name only where
something else stands behind the type. -/
def Declaration.WellFormed : Declaration → Prop
  | .stageWide _ storage => storage ≠ .storageBuffer
  | .interface declared => declared.storage ≠ .storageBuffer ∧
    (declared.instanceName.isSome → declared.name.isSome ∨ declared.block.isSome)

instance : (declaration : Declaration) → Decidable declaration.WellFormed
  | .stageWide _ storage => inferInstanceAs (Decidable (storage ≠ .storageBuffer))
  | .interface declared => inferInstanceAs (Decidable (declared.storage ≠ .storageBuffer ∧
    (declared.instanceName.isSome → declared.name.isSome ∨ declared.block.isSome)))

/-! ## Sources -/

/-- The identifiers in code: the runs of characters that continue names, each from the first character
on that opens one. -/
def identifiers (code : Text) : List Text :=
  (code.splitOnP fun c => !continuesName c).map (List.dropWhile fun c => !opensName c)

/-- Code without comments and without the identifier `layout`, in front of a blank or the end of the
text. -/
structure IsCode (code after : Text) : Prop where
  noLineComment : ¬ ['/', '/'] <:+: code
  noBlockComment : ¬ ['/', '*'] <:+: code
  noLayout : "layout".toList ∉ identifiers code
  delimited : after.head?.all isBlank = true

/-- Code and comments that stand in front of `rest`. -/
inductive Filler : (text rest : Text) → Prop where
  | done (rest : Text) : Filler rest rest
  | gap {text middle rest : Text} : Gap text middle → Filler middle rest → Filler text rest
  | code (code : Text) {after rest : Text} : IsCode code after → Filler after rest →
      Filler (code ++ after) rest

/-- The texts in which some declarations are written, with code around them. -/
inductive SourceOf : (declarations : List Declaration) → (source : Text) → Prop where
  | done {source : Text} : Filler source [] → SourceOf [] source
  | next {declaration : Declaration} {declarations : List Declaration} {memory : List Text}
      {source start rest : Text} : Filler source start → declaration.WellFormed →
      (∀ qualifier ∈ memory, qualifier ∈ memoryQualifiers) →
      Spelled (.word "layout".toList :: declaration.tokens memory) start rest →
      SourceOf declarations rest → SourceOf (declaration :: declarations) source

/-! ## The plainest source -/

/-- The word that every declaration starts with, and the tokens behind it. -/
def Declaration.allTokens (declaration : Declaration) : List Token :=
  .word "layout".toList :: declaration.tokens []

/-- The given tokens with a space in front of each. -/
def spell (tokens : List Token) : Text :=
  tokens.flatMap fun token => ' ' :: token.text

/-- The given declarations without any code around them. -/
def write (declarations : List Declaration) : Text :=
  declarations.flatMap fun declaration => spell declaration.allTokens

theorem spelled_spell {tokens : List Token} {rest : Text}
    (htokens : ∀ token ∈ tokens, token.WellFormed) (hrest : continues rest = false) :
    Spelled tokens (spell tokens ++ rest) rest := by
  induction tokens with
  | nil => exact .nil rest
  | cons token tokens ih =>
    rw [List.forall_mem_cons] at htokens
    -- Every token ends where the next space, or the text behind all tokens, starts.
    have hbehind : continues (spell tokens ++ rest) = false := by
      cases tokens with
      | nil => exact hrest
      | cons => rfl
    have hends : token.EndsBefore (spell tokens ++ rest) := by
      cases token with
      | word => exact hbehind
      | enclosed => trivial
      | semicolon => trivial
    rw [spell, List.flatMap_cons, List.append_assoc, ← spell]
    exact .cons htokens.1 (.blank (by decide) (.done _)) hends (ih htokens.2)

/-- All declarations can be written, as long as what they consist of can. -/
theorem sourceOf_write {declarations : List Declaration}
    (h : ∀ declaration ∈ declarations, declaration.WellFormed ∧
      ∀ token ∈ declaration.allTokens, token.WellFormed) :
    SourceOf declarations (write declarations) := by
  induction declarations with
  | nil => exact .done (.done [])
  | cons declaration rest ih =>
    rw [List.forall_mem_cons] at h
    -- The next declaration starts with a space.
    have hbehind : continues (write rest) = false := by
      cases rest <;> rfl
    rw [write, List.flatMap_cons, ← write]
    exact .next (.done _) h.1.1 (fun _ hmem => absurd hmem List.not_mem_nil)
      (spelled_spell h.1.2 hbehind) (ih h.2)

end ShaderInterface.Interface
