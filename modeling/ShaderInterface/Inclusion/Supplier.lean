import ShaderInterface.Inclusion.Assembly
import ShaderInterface.Report

/-!
# Assembling from Anywhere

A supplier answers what a provider answers, but it may remember what it was asked before, answer the
same question differently the next time, and never run out of files. The walk is that of a provider,
with the state of the supplier handed from one question to the next.

Such a walk need not come to an end: a supplier can make up a new file for every include line. It does
end when there is a bound on how many files are open at once, as every file has finitely many lines.
Where the bound is too low there is no report.
-/

namespace ShaderInterface

/-- Where the files of a shader come from, when every question can change what the next one is
answered. -/
structure Supplier (World : Type) where
  /-- The path of the file that an includer asks for, or the reason why there is none. -/
  resolve : World → (includer request : Text) → Except Text Text × World
  /-- The text of a file, or the reason why it cannot be read. -/
  read : World → (path : Text) → Except Text Text × World

namespace Supplier

variable {World : Type}

/-- The supplier that answers every question as two functions do. -/
def ofFunctions (resolve : (includer request : Text) → Except Text Text)
    (read : (path : Text) → Except Text Text) : Supplier Unit where
  resolve _ includer request := (resolve includer request, ())
  read _ path := (read path, ())

/-- Opens the file at a path, unless it is open already, on behalf of a line of another file. -/
def openFile (supplier : Supplier World) (chain : List Text) (site : Site) (path : Text)
    (world : World) : Report Text × World :=
  if chain.contains path then
    (do
      Report.notice (.failure (.recursiveInclude path site))
      Report.raise (.recursiveInclude path site), world)
  else
    match supplier.read world path with
    | (.error cause, world) =>
      (do
        Report.notice (.failure (.unreadableFile path cause))
        Report.raise (.unreadableFile path cause), world)
    | (.ok text, world) => (return text, world)

/-- Opens the file that a line of another file asks for, and tells its path. -/
def follow (supplier : Supplier World) (chain : List Text) (site : Site) (request : Text)
    (world : World) : Report (Text × Text) × World :=
  match supplier.resolve world site.file request with
  | (.error cause, world) =>
    (do
      Report.notice (.failure (.unresolvedInclude request cause))
      Report.raise (.unresolvedInclude request cause), world)
  | (.ok path, world) =>
    let (opened, world) := supplier.openFile chain site path world
    (do return (path, ← opened), world)

/-- The fragments of a file given by its segments, with those of all included files in their places.
They are what `assembleFile` makes of the text of a file that has been opened. -/
def assembleSegments (supplier : Supplier World)
    (assembleFile : (chain : List Text) → (path text : Text) → World →
      Option (Report (List Fragment) × World))
    (chain : List Text) (file : Text) :
    List Inclusion.Segment → World → Option (Report (List Fragment) × World)
  | [], world => some (return [], world)
  | .code offset lines :: rest, world => do
    let (following, world) ← supplier.assembleSegments assembleFile chain file rest world
    some (do return { source := Text.unlines lines, file, offset } :: (← following), world)
  | .request number request :: rest, world =>
    let (opened, world) := supplier.follow chain ⟨file, number⟩ request world
    -- Nothing is asked any more once there is a fault.
    match opened.outcome with
    | .error fault => some (⟨opened.notices, .error fault⟩, world)
    | .ok (path, text) => do
      let (included, world) ← assembleFile (path :: chain) path text world
      match included.outcome with
      | .error _ => some (do let _ ← opened; included, world)
      | .ok _ => do
        let (following, world) ← supplier.assembleSegments assembleFile chain file rest world
        some (do let _ ← opened; return (← included) ++ (← following), world)

/-- The fragments of a file with the given text, where at most `depth` files may be open at once, this
one included. -/
def assembleFile (supplier : Supplier World) : (depth : Nat) → (chain : List Text) →
    (path text : Text) → World → Option (Report (List Fragment) × World)
  | 0, _, _, _, _ => none
  | depth + 1, chain, path, text, world =>
    supplier.assembleSegments (supplier.assembleFile depth) chain path
      (Inclusion.segments text) world

/-- The fragments of the shader at a path, in the order in which its lines are to be read. -/
def assemble (supplier : Supplier World) (depth : Nat) (path : Text) (world : World) :
    Option (Report (List Fragment) × World) :=
  let (opened, world) := supplier.openFile [] ⟨[], 0⟩ path world
  match opened.outcome with
  | .error fault => some (⟨opened.notices, .error fault⟩, world)
  | .ok text => do
    let (included, world) ← supplier.assembleFile depth [path] path text world
    some (do let _ ← opened; included, world)

end Supplier

/-- A provider as a supplier. -/
def Provider.supplier (provider : Provider) : Supplier Unit :=
  .ofFunctions provider.resolve provider.read

/-- The report on the outcome of a walk through the files of a provider. It is the report of the same
walk through the provider as a supplier, where each fault is noticed at the line where it arises. -/
def Report.ofExcept {α : Type} : Except Fault α → Report α
  | .ok result => return result
  | .error fault => do
    Report.notice (.failure fault)
    Report.raise fault

end ShaderInterface
