import Mathlib.Tactic.Common
import ShaderInterface.Proofs.Interface.Entries

/-!
# The Grammar of Blocks

How the members of a block are written, without regard to how they are read, and what they are. A block
is a list of declarations that are divided by semicolons, the last of which may be missing. A declaration
has some qualifiers, a type, and the names of its members with array sizes behind them.

Blanks and complete comments may stand between any two parts, also inside the brackets of a size. Which
gaps there are is left open here, as it changes when comments are removed.

## Main definitions

* `Lexeme`, `Spaced`: the parts of a block, and how they are written with gaps.
* `MemberDeclaration`, `Declarator`: what is declared, and the lexemes for it.
* `blockLexemes`: the lexemes of a block.
* `MemberDeclaration.members`, `dimension`: the members that are declared, and their array sizes.
-/

namespace ShaderInterface.Interface

open ShaderInterface.Text

/-! ## Lexemes -/

/-- The characters that divide a block into its parts. -/
def blockMarks : List Char := ['[', ']', ',', ';']

/-- Whether a character can belong to a qualifier, a type or a name in a block. -/
def isBlockWord (c : Char) : Bool :=
  !isBlank c && !('/' :: blockMarks).contains c

/-- A part of a block. -/
inductive Lexeme where
  /-- A qualifier, a type or a name. -/
  | word (text : Text)
  /-- What stands between the brackets of an array size. -/
  | size (text : Text)
  | mark (c : Char)

namespace Lexeme

/-- How a lexeme is written. -/
def text : Lexeme → Text
  | word text | size text => text
  | mark c => [c]

/-- A word holds neither blanks nor marks nor slashes, and a size no marks. -/
def WellFormed : Lexeme → Prop
  | word text => text ≠ [] ∧ ∀ c ∈ text, isBlockWord c = true
  | size text => ∀ c ∈ text, c ∉ blockMarks
  | mark c => c ∈ blockMarks

instance : (lexeme : Lexeme) → Decidable lexeme.WellFormed
  | word text => decidable_of_iff (text ≠ [] ∧ text.all isBlockWord = true) (by simp [WellFormed])
  | size text => decidable_of_iff (text.all fun c => c ∉ blockMarks) (by simp [WellFormed])
  | mark c => inferInstanceAs (Decidable (c ∈ blockMarks))

/-- Whether a lexeme ends where a text goes on: a word is not made longer by it, and a slash at the end
of a size does not become the start of a comment. -/
def EndsBefore (after : Text) : Lexeme → Prop
  | word _ => after.head?.any isBlockWord = false
  | size text => text.getLast? = some '/' → after.head? ≠ some '/' ∧ after.head? ≠ some '*'
  | mark _ => True

instance (after : Text) : (lexeme : Lexeme) → Decidable (lexeme.EndsBefore after)
  | word _ => inferInstanceAs (Decidable (after.head?.any isBlockWord = false))
  | size text => inferInstanceAs (Decidable
      (text.getLast? = some '/' → after.head? ≠ some '/' ∧ after.head? ≠ some '*'))
  | mark _ => .isTrue trivial

/-- Whether a lexeme stands between brackets. -/
def isSize : Lexeme → Bool
  | size _ => true
  | _ => false

end Lexeme

/-- A text consists of the given lexemes with a gap in front of each and at the end. -/
inductive Spaced (gap : (text rest : Text) → Prop) : (lexemes : List Lexeme) → (text : Text) → Prop where
  | nil {text : Text} : gap text [] → Spaced gap [] text
  | cons {lexeme : Lexeme} {lexemes : List Lexeme} {text after : Text} : lexeme.WellFormed →
      gap text (lexeme.text ++ after) → lexeme.EndsBefore after → Spaced gap lexemes after →
      Spaced gap (lexeme :: lexemes) text

/-! ## Declarations -/

/-- The name of a member, and what stands between the brackets behind it. -/
structure Declarator where
  name : Text
  /-- The array sizes; one that is missing has brackets nevertheless. -/
  sizes : List (Option Text)

/-- A declaration of one or more members. -/
structure MemberDeclaration where
  qualifiers : List Text
  type : Text
  first : Declarator
  others : List Declarator

/-- The brackets of an array size, with the size between them if there is one. -/
def sizeLexemes (size : Option Text) : List Lexeme :=
  .mark '[' :: ((size.map Lexeme.size).toList ++ [.mark ']'])

/-- The lexemes of a member: some words and its name, with its array sizes behind them. -/
def Declarator.lexemes (words : List Text) (declarator : Declarator) : List Lexeme :=
  (words ++ [declarator.name]).map .word ++ declarator.sizes.flatMap sizeLexemes

namespace MemberDeclaration

/-- The members that are declared, in order. -/
def declarators (declaration : MemberDeclaration) : List Declarator :=
  declaration.first :: declaration.others

/-- The array sizes that are given. -/
def sizes (declaration : MemberDeclaration) : List Text :=
  declaration.declarators.flatMap fun declarator => declarator.sizes.reduceOption

/-- The lexemes of each member. The qualifiers and the type stand in front of the first name. -/
def parts (declaration : MemberDeclaration) : List (List Lexeme) :=
  declaration.first.lexemes (declaration.qualifiers ++ [declaration.type]) ::
    declaration.others.map (Declarator.lexemes [])

/-- The lexemes of a declaration. Commas divide the members. -/
def lexemes (declaration : MemberDeclaration) : List Lexeme :=
  [.mark ','].intercalate declaration.parts

end MemberDeclaration

/-- The lexemes of a block. Semicolons divide the declarations, and one may stand behind the last. -/
def blockLexemes (declarations : List MemberDeclaration) (terminated : Bool) : List Lexeme :=
  [.mark ';'].intercalate
    (declarations.map MemberDeclaration.lexemes ++ if terminated then [[]] else [])

/-! ## Members -/

section

variable (table : Macro.Table)

/-- What is left between the brackets of an array size: the number that the size stands for. -/
def foldedNumber : Option Text → Text
  | none => []
  | some size => ofInt (numberOf table .signed64 size)

/-- An array size behind the name of a member. -/
def foldedSize (size : Option Text) : Text :=
  '[' :: (foldedNumber table size ++ [']'])

/-- The elements in one dimension of an array: one if there is no size, or if it is negative. -/
def dimension : Option Text → Nat
  | none => 1
  | some size =>
    if 0 ≤ numberOf table .signed64 size then (numberOf table .signed64 size).toNat else 1

/-- The member of the given type that is declared. -/
def Declarator.member (type : Text) (declarator : Declarator) : Member :=
  { type, name := declarator.name ++ declarator.sizes.flatMap (foldedSize table) }

/-- The members that are declared. -/
def MemberDeclaration.members (declaration : MemberDeclaration) : List Member :=
  declaration.declarators.map (Declarator.member table declaration.type)

end

end ShaderInterface.Interface
