import ShaderInterface.Macro.Value

/-!
# Macro Tables

A table gives each name at most one value and remembers the order in which the names came. A name
that is given a new value keeps its place; one that is removed and comes again goes to the end.
-/

namespace ShaderInterface.Macro

/-- The names that are defined, in order, with their values. -/
structure Table where
  /-- The names and values, in the order in which the names came. -/
  entries : List (Text × Value)
  /-- No name comes twice. -/
  nodup : (entries.map Prod.fst).Nodup
  deriving DecidableEq

namespace Table

/-- The table without any name. -/
def empty : Table := ⟨[], .nil⟩

/-- The value of a name, if it is defined. -/
def get? (table : Table) (name : Text) : Option Value :=
  table.entries.lookup name

/-- Whether a name is defined. -/
def contains (table : Table) (name : Text) : Bool :=
  (table.get? name).isSome

/-- The names, in order. -/
def names (table : Table) : List Text :=
  table.entries.map Prod.fst

/-- How many names are defined. -/
def size (table : Table) : Nat :=
  table.entries.length

/-- The names that a table contains are those of its entries. -/
theorem contains_iff_mem_names (table : Table) (name : Text) :
    table.contains name ↔ name ∈ table.names := by
  cases found : table.get? name with
  | none =>
    have absent := List.lookup_eq_none_iff.1 found
    simp only [contains, found, names, List.mem_map, Option.isSome_none]
    grind
  | some value =>
    obtain ⟨before, after, heq, _⟩ := List.lookup_eq_some_iff.1 found
    simp [contains, found, names, heq]

/-- Gives a new value to a name that is defined, in place, and leaves any other table as it is. -/
def overwrite (table : Table) (name : Text) (value : Value) : Table where
  entries := table.entries.map fun entry => if entry.1 = name then (name, value) else entry
  nodup := by
    have same : (Prod.fst ∘ fun entry : Text × Value =>
        if entry.1 = name then (name, value) else entry) = Prod.fst := by
      funext entry
      by_cases h : entry.1 = name <;> simp [h]
    simpa [same] using table.nodup

/-- Gives a value to a name: in place when the name is defined, at the end when it is not. -/
def set (table : Table) (name : Text) (value : Value) : Table :=
  if h : table.contains name then table.overwrite name value
  else
    { entries := table.entries ++ [(name, value)]
      nodup := by
        rw [contains_iff_mem_names, names] at h
        simp only [List.map_append, List.nodup_append, table.nodup, true_and]
        grind }

/-- Removes a name, and tells which value it had. -/
def remove (table : Table) (name : Text) : Option Value × Table :=
  match table.entries.findIdx? (·.1 == name) with
  | none => (none, table)
  | some i =>
    (table.entries[i]?.map Prod.snd,
      { entries := table.entries.eraseIdx i
        nodup := ((table.entries.eraseIdx_sublist i).map Prod.fst).nodup table.nodup })

/-- Removes a name, whatever value it had. -/
def erase (table : Table) (name : Text) : Table :=
  (table.remove name).2

/-- The text put in place of a name: none for a flag, and none for a name that is not defined. -/
def replacement? (table : Table) (name : Text) : Option Text :=
  (table.get? name).bind Value.replacement?

end Table

end ShaderInterface.Macro
