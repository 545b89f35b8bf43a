import Mathlib.Logic.Relation
import ShaderInterface.Fault
import ShaderInterface.Inclusion.Fragment
import ShaderInterface.Inclusion.Provider

/-!
# Inlining Files

What a shader with include lines stands for, told without the walk that assembles it: which files its
include lines reach, the text in which every include line has given way to the file that it asks
for, and the include lines that are refused.

## Main definitions

* `Provider.Includes`: a file asks for another one.
* `Provider.IsComplete`: a file can be read and its include lines can be resolved.
* `Provider.InlinedLines`, `Provider.Inlined`: the text with everything inlined.
* `Provider.FailsAt`, `Provider.AssemblyFails`: the include lines that are refused, and why.

## Main results

* `Provider.Inlined.unique`: there is at most one text with everything inlined.
-/

namespace ShaderInterface.Provider

open ShaderInterface.Text ShaderInterface.Inclusion

variable (provider : Provider)

/-! ## Files that ask for files -/

/-- Some line of a file asks for a path that leads to another file. -/
def Includes (file path : Text) : Prop :=
  ∃ text line request, provider.read file = .ok text ∧ line ∈ lines text ∧
    request? line = some request ∧ provider.resolve file request = .ok path

/-- A file can be read, and what its include lines ask for can be resolved. -/
def IsComplete (file : Text) : Prop :=
  ∃ text, provider.read file = .ok text ∧ ∀ line ∈ lines text, ∀ request,
    request? line = some request → ∃ path, provider.resolve file request = .ok path

/-! ## The text with everything inlined -/

/-- The text that lines of a file stand for: an include line for the lines of the file that it asks
for, and any other line for itself. -/
inductive InlinedLines : (file : Text) → (lines : List Text) → (result : Text) → Prop where
  | nil {file} : InlinedLines file [] []
  | keep {file line rest result} : request? line = none → InlinedLines file rest result →
      InlinedLines file (line :: rest) (line ++ '\n' :: result)
  | inline {file line rest request path text included result} : request? line = some request →
      provider.resolve file request = .ok path → provider.read path = .ok text →
      InlinedLines path (lines text) included → InlinedLines file rest result →
      InlinedLines file (line :: rest) (included ++ result)

/-- The text that a file stands for. -/
def Inlined (file result : Text) : Prop :=
  ∃ text, provider.read file = .ok text ∧ provider.InlinedLines file (lines text) result

variable {provider}

/-- Lines stand for one text at most. -/
theorem InlinedLines.unique {file first second : Text} {lines : List Text}
    (hfirst : provider.InlinedLines file lines first)
    (hsecond : provider.InlinedLines file lines second) : first = second := by
  -- What the first line asks for decides by which rule the second text was made.
  induction hfirst generalizing second with
  | nil =>
    cases hsecond
    rfl
  | keep hline _ ih =>
    cases hsecond with
    | keep _ hrest => rw [ih hrest]
    | inline hline' => cases hline.symm.trans hline'
  | inline hline hresolve hread _ _ ihincluded ih =>
    cases hsecond with
    | keep hline' => cases hline.symm.trans hline'
    | inline hline' hresolve' hread' hincluded hrest =>
      obtain rfl := Option.some_inj.1 (hline.symm.trans hline')
      obtain rfl := Except.ok.inj (hresolve.symm.trans hresolve')
      obtain rfl := Except.ok.inj (hread.symm.trans hread')
      rw [ihincluded hincluded, ih hrest]

theorem Inlined.unique {file first second : Text} (hfirst : provider.Inlined file first)
    (hsecond : provider.Inlined file second) : first = second := by
  obtain ⟨text, hread, hlines⟩ := hfirst
  obtain ⟨text', hread', hlines'⟩ := hsecond
  obtain rfl := Except.ok.inj (hread.symm.trans hread')
  exact hlines.unique hlines'

/-! ## Include lines that are refused -/

variable (provider)

/-- Why a line does not open the file that it asks for, while the files of a chain are open. That the
file is open already is found out before it is read. -/
inductive Refused (chain : List Text) (site : Site) (request : Text) : Fault → Prop where
  | unresolved {cause} : provider.resolve site.file request = .error cause →
      Refused chain site request (.unresolvedInclude request cause)
  | recursive {path} : provider.resolve site.file request = .ok path → path ∈ chain →
      Refused chain site request (.recursiveInclude path site)
  | unreadable {path cause} : provider.resolve site.file request = .ok path → path ∉ chain →
      provider.read path = .error cause →
      Refused chain site request (.unreadableFile path cause)

/-- A line opens the file that it asks for, while the files of a chain are open. -/
structure Opened (chain : List Text) (site : Site) (request path text : Text) : Prop where
  resolve : provider.resolve site.file request = .ok path
  notMem : path ∉ chain
  read : provider.read path = .ok text

/-- The include line at the end of a trace is refused. A trace tells the numbers of include lines:
the first one is a line of the file at hand, the next one a line of the file which that line opens,
and so on. -/
inductive FailsAt : (chain : List Text) → (file : Text) → (numbered : List (Text × Nat)) →
    (trace : List Nat) → Fault → Prop where
  | refused {chain file numbered line number request fault} : (line, number) ∈ numbered →
      request? line = some request → provider.Refused chain ⟨file, number⟩ request fault →
      FailsAt chain file numbered [number] fault
  | inside {chain file numbered line number request path text trace fault} :
      (line, number) ∈ numbered → request? line = some request →
      provider.Opened chain ⟨file, number⟩ request path text →
      FailsAt (path :: chain) path ((lines text).zipIdx 1) trace fault →
      FailsAt chain file numbered (number :: trace) fault

/-- The assembly of a shader fails at a trace: the shader itself cannot be read, or an include line is
refused. -/
inductive AssemblyFails (entry : Text) : (trace : List Nat) → Fault → Prop where
  | unreadable {cause} : provider.read entry = .error cause →
      AssemblyFails entry [] (.unreadableFile entry cause)
  | within {text trace fault} : provider.read entry = .ok text →
      provider.FailsAt [entry] entry ((lines text).zipIdx 1) trace fault →
      AssemblyFails entry trace fault

/-- Among all failures one with the given fault comes first, in the order in which the lines are read.
Traces are compared by their first difference. -/
def IsFirstFailure (fails : (trace : List Nat) → Fault → Prop) (fault : Fault) : Prop :=
  ∃ trace, fails trace fault ∧ ∀ other fault', fails other fault' →
    trace < other ∨ trace = other ∧ fault = fault'

/-- No two faults come first. -/
theorem IsFirstFailure.unique {fails : List Nat → Fault → Prop} {first second : Fault}
    (hfirst : IsFirstFailure fails first) (hsecond : IsFirstFailure fails second) :
    first = second := by
  obtain ⟨trace, hfails, hearlier⟩ := hfirst
  obtain ⟨other, hfails', hearlier'⟩ := hsecond
  -- Of two traces only one can be smaller than the other.
  rcases hearlier other second hfails' with hlt | ⟨-, heq⟩
  · rcases hearlier' trace first hfails with hlt' | ⟨-, heq⟩
    · exact absurd hlt' (List.lt_asymm hlt)
    · exact heq.symm
  · exact heq

end ShaderInterface.Provider
