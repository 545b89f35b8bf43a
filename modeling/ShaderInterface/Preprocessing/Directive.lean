import ShaderInterface.Text.Basic
import ShaderInterface.Text.Word

/-!
# Directives

A line whose first character is a number sign is a directive. Its text ends before a `//` comment
and before a backslash at the end of the line, which continues it on the next line. The word
behind the number sign tells what the directive does; a directive with any other word, or none, is
meant for the compiler.
-/

namespace ShaderInterface

open ShaderInterface.Text

/-- What a line starting with a number sign asks for. -/
inductive Directive where
  /-- Define a macro. -/
  | define (definition : Text)
  /-- Forget a macro. -/
  | undefine (name : Text)
  /-- Open a group that depends on a condition. -/
  | ifTrue (condition : Text)
  /-- Open a group that depends on a macro being defined. -/
  | ifDefined (name : Text)
  /-- Open a group that depends on a macro not being defined. -/
  | ifUndefined (name : Text)
  /-- Go on to the next branch of a group, which depends on a condition. -/
  | elseIf (condition : Text)
  /-- Go on to the last branch of a group. -/
  | otherwise
  /-- Close a group. -/
  | endIf
  /-- Left to the compiler. -/
  | other
  deriving DecidableEq, Repr

/-- Whether a line is continued on the next one. -/
def isContinued (line : Text) : Bool :=
  line.getLast? == some '\\'

/-- Whether a line is a comment from its first character on. -/
def isCommentLine (line : Text) : Bool :=
  "//".toList.isPrefixOf line

/-- The text of a directive line, or of a line that continues one: without a comment at its end, a
backslash before that, and the blanks around. -/
def directiveText (line : Text) : Text :=
  let code := trimEnd (beforeMark '/' '/' line)
  trim (if isContinued code then code.dropLast else code)

/-- The directive with the given word and the text behind the word. -/
def Directive.ofWord (word arguments : Text) : Directive :=
  if word = "define".toList then .define arguments
  else if word = "undef".toList then .undefine arguments.firstWord
  else if word = "if".toList then .ifTrue arguments
  else if word = "ifdef".toList then .ifDefined arguments.firstWord
  else if word = "ifndef".toList then .ifUndefined arguments.firstWord
  else if word = "elif".toList then .elseIf arguments
  else if word = "else".toList then .otherwise
  else if word = "endif".toList then .endIf
  else .other

/-- The directive that a line gives. The word is a run of small letters with no other word character
behind it. -/
def Directive.ofLine? (line : Text) : Option Directive :=
  if line.head? = some '#' then
    let text := trimStart ((directiveText line).drop 1)
    let rest := text.dropWhile Char.isLower
    if isWord? rest.head? then some .other
    else some (.ofWord (text.takeWhile Char.isLower) (trimStart rest))
  else none

end ShaderInterface
