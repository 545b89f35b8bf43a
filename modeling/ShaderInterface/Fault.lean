import ShaderInterface.Arithmetic.Token

/-!
# Faults

Everything that can keep a shader from being read, preprocessed or reflected, and the message for
it.
-/

namespace ShaderInterface

open ShaderInterface.Text

/-- A line of a file, counted from one. Line zero stands for the request to read the shader
itself. -/
structure Site where
  /-- The path of the file. -/
  file : Text
  /-- The number of the line. -/
  line : Nat
  deriving DecidableEq, Repr

/-- A line of a file as messages show it. -/
def Site.quotedText (site : Site) : Text :=
  quoted site.file ++ " (".toList ++ ofNat site.line ++ ")".toList

/-- A line of a file as notices show it. -/
def Site.text (site : Site) : Text :=
  site.file ++ " (".toList ++ ofNat site.line ++ ")".toList

/-- Why a shader has no result. -/
inductive Fault where
  /-- The path that an include line asks for cannot be resolved. -/
  | unresolvedInclude (request cause : Text)
  /-- A file cannot be read. -/
  | unreadableFile (path cause : Text)
  /-- A file is included while it is still being read itself. -/
  | recursiveInclude (path : Text) (site : Site)
  /-- A directive inside or at the end of a conditional group stands outside any group. -/
  | unmatchedDirective (directive : Text) (site : Site)
  /-- A conditional group is still open at the end. -/
  | unterminatedConditional (opener : Site)
  /-- A condition has no value. -/
  | invalidCondition (line : Text) (cause : Arithmetic.Fault)
  /-- The value given to a macro looks like arithmetic and has no value. -/
  | invalidEquation (line : Text) (cause : Arithmetic.Fault)
  /-- An attribute or an array size of a declaration has no value. -/
  | invalidLayoutValue (value : Text) (cause : Arithmetic.Fault)
  /-- A block member has no type or no name. -/
  | malformedMember (declaration : Text)
  /-- The size of an array among the members of a block is not closed. -/
  | unterminatedArraySize (declaration : Text)
  /-- An array takes more locations than there are. -/
  | locationsOutOfRange (count : Nat) (first : Int) (name declaration : Text)
  deriving DecidableEq

/-- The message for a fault. -/
def Fault.message : Fault → Text
  | .unresolvedInclude path cause | .unreadableFile path cause =>
    "failed to read ".toList ++ quoted path ++ ": ".toList ++ cause
  | .recursiveInclude path site =>
    "file ".toList ++ quoted path ++ " is recursively included; triggered in ".toList ++
      site.quotedText
  | .unmatchedDirective directive site =>
    "#".toList ++ directive ++ " without a matching #if: ".toList ++ site.quotedText
  | .unterminatedConditional opener =>
    "unterminated conditional opened at ".toList ++ opener.quotedText
  | .invalidCondition text cause | .invalidEquation text cause | .invalidLayoutValue text cause =>
    "failed to evaluate ".toList ++ quoted text ++ ": ".toList ++ cause.message
  | .malformedMember declaration | .unterminatedArraySize declaration
  | .locationsOutOfRange _ _ _ declaration =>
    "malformed declaration: ".toList ++ quoted declaration

end ShaderInterface
