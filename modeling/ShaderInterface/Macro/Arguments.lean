import ShaderInterface.Macro.Table

/-!
# Compiler Arguments

Macros can be defined ahead of a shader by arguments such as `-DNAME`, `-DNAME=VALUE` and
`-DNAME VALUE`, with or without a blank behind the `-D`. Any other argument is left to the compiler.
-/

namespace ShaderInterface.Macro

open ShaderInterface.Text

namespace Table

/-- Defines what the text behind a `-D` asks for, given the arguments that follow it, and tells
which arguments are left. A value stands behind an equals sign, or else is the next argument
unless that starts with a dash. -/
def predefine (table : Table) (definition : Text) (following : List Text) : Table × List Text :=
  match definition.cut? '=' with
  | some (name, value) => (table.set name (.ofText value), following)
  | none =>
    match following with
    | [] => (table.set definition .flag, [])
    | value :: rest =>
      if value.head? = some '-' then (table.set definition .flag, following)
      else (table.set definition (.ofText value), rest)

/-- No argument is added to those that follow a definition. -/
theorem length_predefine_le (table : Table) (definition : Text) (following : List Text) :
    (table.predefine definition following).2.length ≤ following.length := by
  unfold predefine
  split
  · simp
  · split
    · simp
    · split <;> simp

/-- Follows the definitions among a list of arguments. A `-D` alone takes the next argument as its
definition and has no effect at the end. -/
def predefineAll (table : Table) : List Text → Table
  | [] => table
  | argument :: rest =>
    match "-D".toList.isPrefixOf? argument with
    | none => table.predefineAll rest
    | some [] =>
      match rest with
      | [] => table
      | definition :: following =>
        (table.predefine definition following).1.predefineAll
          (table.predefine definition following).2
    | some definition =>
      (table.predefine definition rest).1.predefineAll (table.predefine definition rest).2
termination_by arguments => arguments.length
decreasing_by
  · simp
  · have := table.length_predefine_le definition following
    simp only [List.length_cons]
    omega
  · have := table.length_predefine_le definition rest
    simp only [List.length_cons]
    omega

/-- The table that a command line defines. -/
def ofArguments (commandLine : Text) : Table :=
  empty.predefineAll commandLine.words

end Table

end ShaderInterface.Macro
