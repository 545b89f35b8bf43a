import Mathlib.Data.Set.Card
import ShaderInterface.Proofs.Macro.Table

/-!
# The History of a Table

A table is an ordered map: what it holds is told by the changes that were made to it. A name is
defined from the time it is set until it is removed, it has the value that was written to it last,
and it stands where it was entered, behind the names that were entered before.

A statement on the past has the form "since": at some time something happened, and nothing behind
it undid it. How such a statement comes about from one change to the next is the same for all of
them, so that each result is an induction over the changes.

## Main definitions

* `Table.changeAll`: a table after some changes.
* `Since`: something has happened and was not undone.
* `IsSet`, `LastWritten`, `EnteredAt`: what a history says about a name.
* `Records`: a table holds what a history says.

## Main results

* `records_changeAll`: a table records its changes and, before these, the entries that it started with.
-/

namespace ShaderInterface.Macro

open ShaderInterface.Text

/-! ## Changes -/

/-- A change of a table. -/
inductive Change where
  /-- A name is given a value, whether it is defined or not. -/
  | set (name : Text) (value : Value)
  /-- A name is given another value, if it is defined. -/
  | overwrite (name : Text) (value : Value)
  /-- A name is removed, if it is defined. -/
  | remove (name : Text)
  deriving DecidableEq

/-- The name that a change concerns. -/
def Change.name : Change → Text
  | set name _ => name
  | overwrite name _ => name
  | remove name => name

namespace Table

/-- A table after a change. -/
def change (table : Table) : Change → Table
  | .set name value => table.set name value
  | .overwrite name value => table.overwrite name value
  | .remove name => (table.remove name).2

/-- A table after some changes, one after the other. -/
def changeAll (table : Table) (changes : List Change) : Table :=
  changes.foldl change table

/-- The changes that write the entries of a table, in order. -/
def writes (table : Table) : List Change :=
  table.entries.map fun entry => .set entry.1 entry.2

end Table

/-! ## Histories -/

/-- Something has happened, which is told by a change and those before it, and all changes behind it
have kept it. -/
def Since (history : List Change) (happened : List Change → Change → Prop) (keeps : Change → Prop) :
    Prop :=
  ∃ before change after, history = before ++ change :: after ∧ happened before change ∧
    ∀ later ∈ after, keeps later

/-- A name has been set and was not removed since. -/
def IsSet (history : List Change) (name : Text) : Prop :=
  Since history (fun _ change => ∃ value, change = .set name value) (· ≠ .remove name)

/-- A value has been written to a name, and the name was neither written nor removed since. To
overwrite a name is to write to it only if it is set. -/
def LastWritten (history : List Change) (name : Text) (value : Value) : Prop :=
  Since history
    (fun before change => change = .set name value ∨ change = .overwrite name value ∧ IsSet before name)
    (·.name ≠ name)

/-- The change at a place has set a name that was not set before it, and the name was not removed
since. -/
def EnteredAt (history : List Change) (name : Text) (place : Nat) : Prop :=
  Since history
    (fun before change => before.length = place ∧ ¬ IsSet before name ∧ ∃ value, change = .set name value)
    (· ≠ .remove name)

/-- A table holds what a history says, and each further change does to it what it is meant to do. -/
structure Records (history : List Change) (table : Table) : Prop where
  /-- No name comes twice. -/
  nodup : table.names.Nodup
  /-- The value of a name is the last one written to it. -/
  get? : ∀ name value, table.get? name = some value ↔ LastWritten history name value
  /-- A name has no value if it was never set or was removed since. -/
  get?_eq_none : ∀ name, table.get? name = none ↔ ¬ IsSet history name
  /-- The names that the table contains are those that are set. -/
  contains : ∀ name, table.contains name ↔ IsSet history name
  /-- The names that the table lists are those that are set. -/
  mem_names : ∀ name, name ∈ table.names ↔ IsSet history name
  /-- The size of the table is the number of names that are set. -/
  size : table.size = {name | IsSet history name}.ncard
  /-- The names are listed in the order in which they were entered. -/
  order : table.names.Pairwise fun first second =>
    ∃ i j, EnteredAt history first i ∧ EnteredAt history second j ∧ i < j
  /-- A name that is set again keeps its place. -/
  names_set : ∀ name value, IsSet history name → (table.set name value).names = table.names
  /-- A name that is removed and then set again goes to the end. -/
  names_set_remove : ∀ name value,
    ((table.remove name).2.set name value).names = table.names.filter (· ≠ name) ++ [name]
  /-- Removing a name gives its value. -/
  fst_remove : ∀ name, (table.remove name).1 = table.get? name
  /-- Removing a name leaves the other names and their values as they are, in order. -/
  entries_remove : ∀ name,
    (table.remove name).2.entries = table.entries.filter fun entry => entry.1 ≠ name
  /-- Overwriting a name that is not set changes nothing. -/
  overwrite : ∀ name value, ¬ IsSet history name → table.overwrite name value = table

variable {history : List Change} {change : Change} {name : Text} {value : Value} {place : Nat}

/-! ## One more change -/

/-- Something has happened since if it happens now, or if it had happened before and is kept. -/
theorem since_concat {happened : List Change → Change → Prop} {keeps : Change → Prop} :
    Since (history ++ [change]) happened keeps ↔
      happened history change ∨ Since history happened keeps ∧ keeps change := by
  constructor
  · rintro ⟨before, found, after, heq, hhappened, hkept⟩
    -- What has happened is the last change, or the last change comes behind it.
    rcases List.eq_nil_or_concat after with rfl | ⟨behind, last, rfl⟩
    · obtain ⟨rfl, hlast⟩ := List.append_inj' heq rfl
      cases hlast
      exact .inl hhappened
    · rw [List.concat_eq_append] at heq hkept
      rw [← List.cons_append, ← List.append_assoc] at heq
      obtain ⟨rfl, hlast⟩ := List.append_inj' heq rfl
      cases hlast
      refine .inr ⟨⟨before, found, behind, rfl, hhappened, fun later hlater => ?_⟩, ?_⟩
      · exact hkept later (List.mem_append_left _ hlater)
      · exact hkept _ (List.mem_append_right _ (List.mem_singleton_self _))
  · rintro (hhappened | ⟨⟨before, found, after, rfl, hhappened, hkept⟩, hlast⟩)
    · exact ⟨history, change, [], rfl, hhappened, fun _ hlater => absurd hlater List.not_mem_nil⟩
    · refine ⟨before, found, after ++ [change], by simp, hhappened, fun later hlater => ?_⟩
      rcases List.mem_append.1 hlater with hlater | hlater
      · exact hkept later hlater
      · exact List.mem_singleton.1 hlater ▸ hlast

theorem not_since_nil {happened : List Change → Change → Prop} {keeps : Change → Prop} :
    ¬ Since [] happened keeps := by
  rintro ⟨before, found, after, heq, -⟩
  simp at heq

theorem isSet_concat : IsSet (history ++ [change]) name ↔
    (∃ value, change = .set name value) ∨ IsSet history name ∧ change ≠ .remove name :=
  since_concat

theorem lastWritten_concat : LastWritten (history ++ [change]) name value ↔
    (change = .set name value ∨ change = .overwrite name value ∧ IsSet history name) ∨
      LastWritten history name value ∧ change.name ≠ name :=
  since_concat

/-- A name is entered at a place of the history. -/
theorem EnteredAt.lt (h : EnteredAt history name place) : place < history.length := by
  obtain ⟨before, found, after, rfl, ⟨rfl, -⟩, -⟩ := h
  simp

/-- A name stays where it was entered as long as it is not removed. -/
theorem EnteredAt.concat (h : EnteredAt history name place) (hkept : change ≠ .remove name) :
    EnteredAt (history ++ [change]) name place :=
  since_concat.2 (.inr ⟨h, hkept⟩)

/-- A name that is set was entered somewhere. -/
theorem IsSet.exists_enteredAt (h : IsSet history name) : ∃ place, EnteredAt history name place := by
  induction history using List.reverseRecOn with
  | nil => exact absurd h not_since_nil
  | append_singleton history change ih =>
    by_cases hset : IsSet history name
    · obtain ⟨place, hplace⟩ := ih hset
      -- The name is still set, so that it is not what is removed.
      refine ⟨place, hplace.concat ?_⟩
      rcases isSet_concat.1 h with ⟨value, rfl⟩ | ⟨-, hkept⟩
      · simp
      · exact hkept
    · obtain ⟨value, rfl⟩ := (isSet_concat.1 h).resolve_right fun hboth => hset hboth.1
      exact ⟨history.length, since_concat.2 (.inl ⟨rfl, hset, value, rfl⟩)⟩

namespace Table

variable (table : Table)

/-- A change defines the name that it sets, and keeps all names but the one that it removes. -/
theorem contains_change : (table.change change).contains name ↔
    (∃ value, change = .set name value) ∨ table.contains name ∧ change ≠ .remove name := by
  rw [contains_iff_mem_names, contains_iff_mem_names]
  cases change with
  | set other written =>
    have hnames : name ∈ (table.set other written).names ↔ other = name ∨ name ∈ table.names := by
      rw [names_set, ← contains_iff_mem_names]
      by_cases h : table.contains other
      · rw [if_pos h, ← contains_iff_mem_names]
        exact ⟨.inr, fun hname => hname.elim (fun heq => heq ▸ h) id⟩
      · rw [if_neg h, List.mem_append, ← contains_iff_mem_names, List.mem_singleton, or_comm,
          eq_comm]
    simpa [Table.change] using hnames
  | overwrite other written => simp [Table.change, names_overwrite]
  | remove other =>
    rw [Table.change, names_remove, List.mem_filter]
    simpa using fun _ => ne_comm

/-- A change writes the value that it tells, and keeps the values of all other names. -/
theorem get?_change : (table.change change).get? name = some value ↔
    (change = .set name value ∨ change = .overwrite name value ∧ table.contains name) ∨
      table.get? name = some value ∧ change.name ≠ name := by
  cases change with
  | set other written =>
    by_cases h : name = other
    · subst h
      simp [Table.change, Change.name, get?_set_self]
    · simp [Table.change, Change.name, get?_set_of_ne _ _ h, Ne.symm h]
  | overwrite other written =>
    by_cases h : name = other
    · subst h
      by_cases hname : table.contains name
      · simp [Table.change, Change.name, overwrite_eq_set _ _ _ hname, get?_set_self, hname]
      · simp [Table.change, Change.name, overwrite_eq_self _ _ _ hname,
          (get?_eq_none_iff _ _).2 hname, hname]
    · simp [Table.change, Change.name, get?_overwrite_of_ne _ _ h, Ne.symm h]
  | remove other =>
    rw [Table.change, get?_remove_eq_some_iff]
    simpa [Change.name] using fun _ => ne_comm

/-- A change keeps the order of the names, and a name that it enters comes last. -/
theorem names_change (change : Change) :
    (table.change change).names = table.names.filter (change ≠ .remove ·) ∨
      ∃ name value, change = .set name value ∧ ¬ table.contains name ∧
        (table.change change).names = table.names.filter (change ≠ .remove ·) ++ [name] := by
  cases change with
  | set name value =>
    rw [Table.change, names_set]
    by_cases h : table.contains name
    · simp [h]
    · exact .inr ⟨name, value, rfl, h, by simp [h]⟩
  | overwrite name value => simp [Table.change, names_overwrite]
  | remove name =>
    left
    rw [Table.change, names_remove]
    exact List.filter_congr fun other _ => by simp [ne_comm]

/-! ## All changes -/

theorem changeAll_concat (changes : List Change) :
    table.changeAll (changes ++ [change]) = (table.changeAll changes).change change :=
  List.foldl_concat ..

theorem changeAll_append (first second : List Change) :
    table.changeAll (first ++ second) = (table.changeAll first).changeAll second :=
  List.foldl_append ..

/-- The entries of a table can be written one by one. -/
theorem changeAll_writes : empty.changeAll table.writes = table := by
  -- Every beginning of the entries is a table, to which the next entry is new.
  obtain ⟨entries, hnodup⟩ := table
  induction entries using List.reverseRecOn with
  | nil => rfl
  | append_singleton entries entry ih =>
    have hunique := hnodup
    rw [List.map_append, List.nodup_append] at hunique
    have hnew : ¬ (Table.mk entries hunique.1).contains entry.1 := by
      rw [contains_iff_mem_names]
      intro hmem
      exact hunique.2.2 _ hmem _ (List.mem_singleton_self _) rfl
    rw [writes, List.map_append, List.map_singleton, changeAll_concat]
    refine (congrArg (Table.change · _) (ih hunique.1)).trans (eq_of_entries_eq ?_)
    rw [Table.change, set, dif_neg hnew]

/-- A table contains the names that are set. -/
theorem contains_changeAll : (empty.changeAll history).contains name ↔ IsSet history name := by
  induction history using List.reverseRecOn with
  | nil => exact iff_of_false Bool.false_ne_true not_since_nil
  | append_singleton history change ih =>
    rw [changeAll_concat, contains_change, ih, isSet_concat]

/-- The value of a name is the last one written to it. -/
theorem get?_changeAll :
    (empty.changeAll history).get? name = some value ↔ LastWritten history name value := by
  induction history using List.reverseRecOn with
  | nil => exact iff_of_false (Option.some_ne_none _).symm not_since_nil
  | append_singleton history change ih =>
    rw [changeAll_concat, get?_change, ih, contains_changeAll, lastWritten_concat]

/-- The names are listed in the order in which they were entered. -/
theorem pairwise_names_changeAll : (empty.changeAll history).names.Pairwise fun first second =>
    ∃ i j, EnteredAt history first i ∧ EnteredAt history second j ∧ i < j := by
  induction history using List.reverseRecOn with
  | nil => exact .nil
  | append_singleton history change ih =>
    -- The names that stay were entered where they had been entered before.
    have hkept : ((empty.changeAll history).names.filter (change ≠ .remove ·)).Pairwise
        fun first second => ∃ i j, EnteredAt (history ++ [change]) first i ∧
          EnteredAt (history ++ [change]) second j ∧ i < j := by
      refine (ih.filter _).imp_of_mem ?_
      rintro first second hfirst hsecond ⟨i, j, hi, hj, hlt⟩
      simp only [List.mem_filter, decide_eq_true_iff] at hfirst hsecond
      exact ⟨i, j, hi.concat hfirst.2, hj.concat hsecond.2, hlt⟩
    rw [changeAll_concat]
    rcases names_change (empty.changeAll history) change with
      hnames | ⟨name, value, rfl, hnew, hnames⟩
    · rwa [hnames]
    · -- A new name is entered at the end, behind all others.
      rw [hnames, List.pairwise_append]
      refine ⟨hkept, List.pairwise_singleton _ _, fun first hfirst last hlast => ?_⟩
      obtain rfl := List.mem_singleton.1 hlast
      have hset : IsSet history first :=
        contains_changeAll.1 ((contains_iff_mem_names _ _).2 (List.mem_of_mem_filter hfirst))
      obtain ⟨place, hplace⟩ := hset.exists_enteredAt
      have hentered : EnteredAt (history ++ [.set last value]) last history.length :=
        since_concat.2 (.inl ⟨rfl, mt contains_changeAll.2 hnew, value, rfl⟩)
      exact ⟨place, history.length, hplace.concat (by simp), hentered, hplace.lt⟩

/-- The size of a table is the number of names that are set. -/
theorem size_changeAll : (empty.changeAll history).size = {name | IsSet history name}.ncard := by
  have hnames : {name | IsSet history name} = ((empty.changeAll history).names.toFinset : Set Text) := by
    ext name
    simp [← contains_changeAll, contains_iff_mem_names]
  have hunique : (empty.changeAll history).names.Nodup := Table.nodup _
  rw [hnames, Set.ncard_coe_finset, List.toFinset_card_of_nodup hunique, names, List.length_map, size]

end Table

/-- A table that has been changed holds what the history of its changes says. Before them, the entries
that it had at the start, be they those of arguments or none at all, count as set in order. -/
theorem records_changeAll (start : Table) (changes : List Change) :
    Records (start.writes ++ changes) (start.changeAll changes) := by
  have hstart : start.changeAll changes = Table.empty.changeAll (start.writes ++ changes) := by
    rw [Table.changeAll_append, Table.changeAll_writes]
  rw [hstart]
  generalize start.writes ++ changes = history
  have hcontains (name : Text) :
      (Table.empty.changeAll history).contains name ↔ IsSet history name :=
    Table.contains_changeAll
  exact
    { nodup := Table.nodup _
      get? := fun name value => Table.get?_changeAll
      get?_eq_none := fun name => by rw [Table.get?_eq_none_iff, hcontains]
      contains := hcontains
      mem_names := fun name => by rw [← Table.contains_iff_mem_names, hcontains]
      size := Table.size_changeAll
      order := Table.pairwise_names_changeAll
      names_set := fun name value h => by rw [Table.names_set, if_pos ((hcontains name).2 h)]
      names_set_remove := fun name value => by
        have hnew : ¬ ((Table.empty.changeAll history).remove name).2.contains name := by
          rw [Table.contains_iff_mem_names, Table.names_remove]
          simp
        rw [Table.names_set, if_neg hnew, Table.names_remove]
      fst_remove := Table.fst_remove _
      entries_remove := Table.entries_remove _
      overwrite := fun name value h => Table.overwrite_eq_self _ _ _ (mt (hcontains name).1 h) }

example : (Table.empty.changeAll [.set ['a'] .flag, .set ['b'] .flag, .remove ['a'],
    .set ['a'] .flag]).names = [['b'], ['a']] := by decide

end ShaderInterface.Macro
