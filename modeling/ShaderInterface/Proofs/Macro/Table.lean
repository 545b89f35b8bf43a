import Mathlib.Data.List.Nodup
import ShaderInterface.Macro.Table

/-!
# Values in a Table

A table gives a name the value that stands with the name among its entries. What the operations on
tables do to the value of a name follows from what they do to the entries.
-/

namespace ShaderInterface.Macro.Table

variable (table : Table) (name : Text)

/-- A table is determined by its entries. -/
theorem eq_of_entries_eq {first second : Table} (h : first.entries = second.entries) :
    first = second := by
  cases first
  cases second
  cases h
  rfl

/-- A name has the value with which it is entered. -/
theorem get?_eq_some_iff (value : Value) :
    table.get? name = some value ↔ (name, value) ∈ table.entries := by
  rw [get?, List.lookup_eq_some_iff]
  constructor
  · rintro ⟨before, after, hentries, -⟩
    rw [hentries]
    exact List.mem_append_right _ (List.mem_cons_self ..)
  · intro hmem
    obtain ⟨before, after, hentries⟩ := List.append_of_mem hmem
    refine ⟨before, after, hentries, ?_⟩
    intro entry hentry
    -- No name comes twice, so that the entry found first is the only one.
    have hunique := table.nodup
    rw [hentries, List.map_append, List.map_cons, List.nodup_append] at hunique
    have hne : entry.1 ≠ name :=
      hunique.2.2 _ (List.mem_map_of_mem hentry) _ (List.mem_cons_self ..)
    simpa using hne.symm

/-- The order of the names does not matter for their values. -/
theorem get?_eq_of_perm {first second : Table} (h : first.entries.Perm second.entries) :
    first.get? name = second.get? name := by
  ext value
  rw [get?_eq_some_iff, get?_eq_some_iff, h.mem_iff]

/-- The names stay the same when a value is overwritten. -/
theorem names_overwrite (value : Value) : (table.overwrite name value).names = table.names := by
  simp only [names, overwrite, List.map_map]
  refine List.map_congr_left fun entry _ => ?_
  by_cases h : entry.1 = name <;> simp [h]

/-- A name is defined after it has been given a value. -/
theorem contains_set_self (value : Value) : (table.set name value).contains name := by
  rw [contains_iff_mem_names]
  by_cases h : table.contains name
  · rwa [set, dif_pos h, names_overwrite, ← contains_iff_mem_names]
  · rw [set, dif_neg h, names, List.map_append]
    exact List.mem_append_right _ (List.mem_cons_self ..)

/-- A name has the value that it has been given. -/
theorem get?_set_self (value : Value) : (table.set name value).get? name = some value := by
  rw [get?_eq_some_iff]
  by_cases h : table.contains name
  · -- The entry of the name is the one that is overwritten.
    obtain ⟨entry, hmem, hname⟩ := List.mem_map.1 ((contains_iff_mem_names _ _).1 h)
    rw [set, dif_pos h]
    exact List.mem_map.2 ⟨entry, hmem, if_pos hname⟩
  · rw [set, dif_neg h]
    exact List.mem_append_right _ (List.mem_cons_self ..)

/-- The text put in place of a name is that of the value that it has been given. -/
theorem replacement?_set_self (value : Value) :
    (table.set name value).replacement? name = value.replacement? := by
  rw [replacement?, get?_set_self, Option.bind_some]

/-- Of two values given to a name one after the other, the second one stays. -/
theorem set_set (first second : Value) :
    (table.set name first).set name second = table.set name second := by
  apply eq_of_entries_eq
  rw [set, dif_pos (contains_set_self ..)]
  by_cases h : table.contains name
  · simp only [set, dif_pos h, overwrite, List.map_map]
    refine List.map_congr_left fun entry _ => ?_
    by_cases hname : entry.1 = name <;> simp [hname]
  · simp only [set, dif_neg h, overwrite, List.map_append, List.map_cons, List.map_nil, ↓reduceIte]
    congr 1
    -- The name is new, so that no entry in front of it is overwritten.
    refine (List.map_congr_left fun entry hentry => if_neg ?_).trans (List.map_id _)
    rintro rfl
    exact h ((contains_iff_mem_names _ _).2 (List.mem_map_of_mem hentry))

/-! ## Changes of a table -/

/-- A name that is not defined has no value. -/
theorem get?_eq_none_iff : table.get? name = none ↔ ¬ table.contains name := by
  rw [contains, Bool.not_eq_true, Option.isSome_eq_false_iff, Option.isNone_iff_eq_none]

/-- A defined name is overwritten as it is set. -/
theorem overwrite_eq_set (value : Value) (h : table.contains name) :
    table.overwrite name value = table.set name value := by
  rw [set, dif_pos h]

/-- A name that is not defined cannot be overwritten. -/
theorem overwrite_eq_self (value : Value) (h : ¬ table.contains name) :
    table.overwrite name value = table := by
  refine eq_of_entries_eq ((List.map_congr_left fun entry hentry => if_neg ?_).trans (List.map_id _))
  rintro rfl
  exact h ((contains_iff_mem_names _ _).2 (List.mem_map_of_mem hentry))

/-- The names stay the same when a defined one is set, and a new one comes last. -/
theorem names_set (value : Value) : (table.set name value).names =
    if table.contains name then table.names else table.names ++ [name] := by
  by_cases h : table.contains name
  · rw [set, dif_pos h, names_overwrite, if_pos h]
  · rw [set, dif_neg h, if_neg h, names, List.map_append]
    rfl

variable {name} in
/-- Overwriting a name leaves the values of the others as they are. -/
theorem get?_overwrite_of_ne {other : Text} (value : Value) (h : other ≠ name) :
    (table.overwrite name value).get? other = table.get? other := by
  ext found
  rw [get?_eq_some_iff, get?_eq_some_iff]
  constructor
  · intro hmem
    obtain ⟨entry, hentry, heq⟩ := List.mem_map.1 hmem
    by_cases hname : entry.1 = name
    · rw [if_pos hname] at heq
      exact absurd (congrArg Prod.fst heq).symm h
    · rw [if_neg hname] at heq
      exact heq ▸ hentry
  · intro hmem
    exact List.mem_map.2 ⟨_, hmem, if_neg h⟩

variable {name} in
/-- Setting a name leaves the values of the others as they are. -/
theorem get?_set_of_ne {other : Text} (value : Value) (h : other ≠ name) :
    (table.set name value).get? other = table.get? other := by
  by_cases hname : table.contains name
  · rw [← overwrite_eq_set _ _ _ hname, get?_overwrite_of_ne _ _ h]
  · ext found
    have hnew : (other, found) ≠ (name, value) := fun heq => h (congrArg Prod.fst heq)
    rw [get?_eq_some_iff, get?_eq_some_iff, set, dif_neg hname, List.mem_append,
      List.mem_singleton, or_iff_left hnew]

/-- Removing a name that is not defined changes nothing. -/
theorem remove_eq_self (h : ¬ table.contains name) : table.remove name = (none, table) := by
  have hnone : table.entries.findIdx? (·.1 == name) = none := by
    refine List.findIdx?_eq_none_iff.2 fun entry hentry => beq_eq_false_iff_ne.2 ?_
    rintro rfl
    exact h ((contains_iff_mem_names _ _).2 (List.mem_map_of_mem hentry))
  rw [remove, hnone]

variable {table name} in
/-- Removing a name gives its value, and takes out its entry. -/
theorem remove_of_entries {before after : List (Text × Value)} {value : Value}
    (h : table.entries = before ++ (name, value) :: after) :
    (table.remove name).1 = some value ∧ (table.remove name).2.entries = before ++ after := by
  -- As no name comes twice, the entry is the first one with the name.
  have hfirst : table.entries.findIdx? (·.1 == name) = some before.length := by
    have hunique := table.nodup
    rw [h, List.map_append, List.map_cons, List.nodup_append] at hunique
    have hbefore : before.findIdx? (·.1 == name) = none := by
      refine List.findIdx?_eq_none_iff.2 fun entry hentry => beq_eq_false_iff_ne.2 ?_
      exact hunique.2.2 _ (List.mem_map_of_mem hentry) _ (List.mem_cons_self ..)
    rw [h, List.findIdx?_append, hbefore, List.findIdx?_cons]
    simp
  rw [remove, hfirst]
  constructor
  · show table.entries[before.length]?.map Prod.snd = some value
    rw [h, List.getElem?_append_right (Nat.le_refl _), Nat.sub_self]
    rfl
  · show table.entries.eraseIdx before.length = before ++ after
    rw [h, List.eraseIdx_append_of_length_le (Nat.le_refl _), Nat.sub_self]
    rfl

/-- A defined name has an entry, with names other than it around. -/
theorem exists_entries (h : table.contains name) : ∃ before value after,
    table.entries = before ++ (name, value) :: after ∧
      ∀ entry ∈ before ++ after, entry.1 ≠ name := by
  obtain ⟨⟨found, value⟩, hmem, rfl⟩ := List.mem_map.1 ((contains_iff_mem_names _ _).1 h)
  obtain ⟨before, after, hentries⟩ := List.append_of_mem hmem
  refine ⟨before, value, after, hentries, fun entry hentry => ?_⟩
  have hunique := table.nodup
  rw [hentries, List.map_append, List.map_cons, List.nodup_middle, List.nodup_cons,
    ← List.map_append] at hunique
  intro hname
  exact hunique.1 (hname ▸ List.mem_map_of_mem hentry)

/-- The value that is removed is the one that the name had. -/
theorem fst_remove : (table.remove name).1 = table.get? name := by
  by_cases h : table.contains name
  · obtain ⟨before, value, after, hentries, -⟩ := table.exists_entries name h
    rw [(remove_of_entries hentries).1, eq_comm, get?_eq_some_iff, hentries]
    exact List.mem_append_right _ (List.mem_cons_self ..)
  · rw [remove_eq_self _ _ h, (get?_eq_none_iff _ _).2 h]

/-- Removing a name leaves all other entries as they are, in order. -/
theorem entries_remove :
    (table.remove name).2.entries = table.entries.filter fun entry => entry.1 ≠ name := by
  by_cases h : table.contains name
  · obtain ⟨before, value, after, hentries, hothers⟩ := table.exists_entries name h
    have hkept : ∀ entry ∈ before ++ after, decide (entry.1 ≠ name) = true := fun entry hentry =>
      decide_eq_true (hothers entry hentry)
    rw [(remove_of_entries hentries).2, hentries, List.filter_append, List.filter_cons_of_neg
      (by simp), ← List.filter_append, List.filter_eq_self.2 hkept]
  · rw [remove_eq_self _ _ h, eq_comm, List.filter_eq_self]
    intro entry hentry
    refine decide_eq_true ?_
    rintro rfl
    exact h ((contains_iff_mem_names _ _).2 (List.mem_map_of_mem hentry))

/-- A table without a name: the entries of all others, in order. -/
def without : Table where
  entries := table.entries.filter fun entry => entry.1 ≠ name
  nodup := (List.filter_sublist.map Prod.fst).nodup table.nodup

/-- A name is erased with its entry alone. -/
theorem erase_eq_without : table.erase name = table.without name :=
  eq_of_entries_eq (entries_remove table name)

/-- Removing a name leaves all other names as they are, in order. -/
theorem names_remove : (table.remove name).2.names = table.names.filter (· ≠ name) := by
  rw [names, entries_remove, names, List.filter_map]
  rfl

/-- A value is left by a removal if it is not that of the name. -/
theorem get?_remove_eq_some_iff (other : Text) (value : Value) :
    (table.remove name).2.get? other = some value ↔ table.get? other = some value ∧ other ≠ name := by
  rw [get?_eq_some_iff, get?_eq_some_iff, entries_remove, List.mem_filter, decide_eq_true_iff]

end ShaderInterface.Macro.Table
