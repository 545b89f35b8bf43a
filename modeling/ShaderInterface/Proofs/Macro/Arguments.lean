import Mathlib.Tactic.Common
import ShaderInterface.Macro.Arguments
import ShaderInterface.Proofs.Macro.History
import ShaderInterface.Proofs.Text.Cuts

/-!
# Command Lines

How the arguments of a command line are written, without regard to how they are read. A macro is
defined in one of six spellings: as a flag, with a value behind an equals sign or with a value as the
next argument, each with or without a blank behind the `-D`. What such an argument does to the table is
told by a change of the table, and a command line does these changes in order.

An argument is read up to its end whatever follows, except for a flag: the next argument is its value
unless it starts with a dash.

## Main definitions

* `Argument`, `Argument.words`: an argument and the words that it is written in.
* `Argument.change?`: what an argument does to the table.
* `FlagsEnd`: every flag ends where it should.
* `Separated`: words with blanks between them.

## Main results

* `Table.predefineAll_words`: one argument is read.
* `Table.predefineAll_arguments`: so are all arguments.
* `ofArguments_eq`: the table of a command line.
* `unbroken_names_ofArguments`: the names that any command line defines.
-/

namespace ShaderInterface.Macro

open ShaderInterface.Text

/-! ## Arguments -/

/-- An argument of a command line. The name of a macro is detached if it does not stand right behind
the `-D`. -/
inductive Argument where
  /-- A macro without a value. -/
  | flag (detached : Bool) (name : Text)
  /-- A macro with a value behind an equals sign. -/
  | assigned (detached : Bool) (name value : Text)
  /-- A macro with a value behind a blank. -/
  | valued (detached : Bool) (name value : Text)
  /-- Anything else, which is left to the compiler. -/
  | foreign (argument : Text)
  deriving DecidableEq, Repr

/-- The words that ask for a definition. -/
def definitionWords (detached : Bool) (definition : Text) : List Text :=
  if detached then ["-D".toList, definition] else ["-D".toList ++ definition]

/-- A name that can be defined by an argument. -/
structure IsArgumentName (name : Text) : Prop where
  ne_nil : name ≠ []
  unbroken : Unbroken name
  noEquals : '=' ∉ name

instance (name : Text) : Decidable (IsArgumentName name) :=
  decidable_of_iff (name ≠ [] ∧ Unbroken name ∧ '=' ∉ name)
    ⟨fun h => ⟨h.1, h.2.1, h.2.2⟩, fun h => ⟨h.ne_nil, h.unbroken, h.noEquals⟩⟩

theorem IsArgumentName.cut?_eq_none {name : Text} (h : IsArgumentName name) :
    name.cut? '=' = none := by
  cases hcut : name.cut? '=' with
  | none => rfl
  | some parts =>
    refine absurd ?_ h.noEquals
    rw [(eq_of_cut? hcut).1]
    exact List.mem_append_right _ List.mem_cons_self

namespace Argument

/-- The words that an argument is written in. -/
def words : Argument → List Text
  | flag detached name => definitionWords detached name
  | assigned detached name value => definitionWords detached (name ++ '=' :: value)
  | valued detached name value => definitionWords detached name ++ [value]
  | foreign argument => [argument]

/-- What an argument does to the table. -/
def change? : Argument → Option Change
  | flag _ name => some (.set name .flag)
  | assigned _ name value | valued _ name value => some (.set name (.ofText value))
  | foreign _ => none

/-- Whether an argument defines a macro without a value. -/
def isFlag : Argument → Bool
  | flag .. => true
  | _ => false

/-- No blanks stand in names and values, a value that is an argument of its own is not taken for
another one, and a foreign argument is none that defines a macro. -/
def WellFormed : Argument → Prop
  | flag _ name => IsArgumentName name
  | assigned _ name value => IsArgumentName name ∧ Unbroken value
  | valued _ name value =>
    IsArgumentName name ∧ value ≠ [] ∧ Unbroken value ∧ value.head? ≠ some '-'
  | foreign argument => argument ≠ [] ∧ Unbroken argument ∧ ¬ "-D".toList <+: argument

instance : (argument : Argument) → Decidable argument.WellFormed
  | flag _ name => inferInstanceAs (Decidable (IsArgumentName name))
  | assigned _ name value => inferInstanceAs (Decidable (IsArgumentName name ∧ Unbroken value))
  | valued _ name value => inferInstanceAs (Decidable
    (IsArgumentName name ∧ value ≠ [] ∧ Unbroken value ∧ value.head? ≠ some '-'))
  | foreign argument => inferInstanceAs (Decidable
    (argument ≠ [] ∧ Unbroken argument ∧ ¬ "-D".toList <+: argument))

end Argument

/-- What follows a flag is not taken for its value: nothing, or a word that starts with a dash. -/
def EndsFlag (following : List Text) : Prop :=
  ∀ word ∈ following.head?, word.head? = some '-'

instance (following : List Text) : Decidable (EndsFlag following) :=
  inferInstanceAs (Decidable (∀ word ∈ following.head?, word.head? = some '-'))

/-- Every flag among some arguments with the words `last` behind them ends where it should. -/
def FlagsEnd (last : List Text) : List Argument → Prop
  | [] => True
  | argument :: rest =>
    (argument.isFlag → EndsFlag (rest.flatMap Argument.words ++ last)) ∧ FlagsEnd last rest

instance decidableFlagsEnd (last : List Text) :
    (arguments : List Argument) → Decidable (FlagsEnd last arguments)
  | [] => .isTrue trivial
  | argument :: rest =>
    have := decidableFlagsEnd last rest
    inferInstanceAs (Decidable
      ((argument.isFlag → EndsFlag (rest.flatMap Argument.words ++ last)) ∧ FlagsEnd last rest))

/-- Where there are no flags, nothing is taken for the value of one. -/
theorem flagsEnd_of_forall {arguments : List Argument} {last : List Text}
    (h : ∀ argument ∈ arguments, argument.isFlag = false) : FlagsEnd last arguments := by
  induction arguments with
  | nil => trivial
  | cons argument rest ih =>
    rw [List.forall_mem_cons] at h
    exact ⟨fun hflag => absurd (h.1.symm.trans hflag) Bool.false_ne_true, ih h.2⟩

/-! ## Reading arguments -/

namespace Table

variable (table : Table) {detached : Bool} {name value definition : Text} {following : List Text}

/-- A definition is asked for behind the `-D` or in the next word. -/
theorem predefineAll_definitionWords (h : definition ≠ []) :
    table.predefineAll (definitionWords detached definition ++ following) =
      (table.predefine definition following).1.predefineAll
        (table.predefine definition following).2 := by
  cases detached with
  | true =>
    show table.predefineAll ("-D".toList :: definition :: following) = _
    rw [predefineAll]
    rfl
  | false =>
    obtain ⟨c, rest, rfl⟩ := List.exists_cons_of_ne_nil h
    show table.predefineAll (('-' :: 'D' :: c :: rest) :: following) = _
    rw [predefineAll.eq_def]
    rfl

/-- A value behind an equals sign is found whatever stands in the next word. -/
theorem predefine_assigned (h : IsArgumentName name) :
    table.predefine (name ++ '=' :: value) following = (table.set name (.ofText value), following) := by
  rw [predefine.eq_def, cut?_append h.noEquals]

/-- A definition without an equals sign has its value in the next word. -/
theorem predefine_valued (h : IsArgumentName name) (hvalue : value.head? ≠ some '-') :
    table.predefine name (value :: following) = (table.set name (.ofText value), following) := by
  rw [predefine, h.cut?_eq_none]
  exact if_neg hvalue

/-- A definition has no value if there is no next word, or if that is an argument. -/
theorem predefine_flag (h : IsArgumentName name) (hend : EndsFlag following) :
    table.predefine name following = (table.set name .flag, following) := by
  cases following with
  | nil => rw [predefine, h.cut?_eq_none]
  | cons word rest =>
    rw [predefine, h.cut?_eq_none]
    exact if_pos (hend word rfl)

/-- An argument that defines no macro is passed over. -/
theorem predefineAll_foreign {argument : Text} (h : ¬ "-D".toList <+: argument) :
    table.predefineAll (argument :: following) = table.predefineAll following := by
  have hprefix : "-D".toList.isPrefixOf? argument = none := by
    cases hrest : "-D".toList.isPrefixOf? argument with
    | none => rfl
    | some rest => exact absurd ⟨rest, List.append_eq_of_isPrefixOf?_eq_some hrest⟩ h
  cases following with
  | nil => rw [predefineAll.eq_2, hprefix]
  | cons word rest => rw [predefineAll, hprefix]

/-- The words of an argument change the table as the argument does, and leave the words behind it. -/
theorem predefineAll_words {argument : Argument} (h : argument.WellFormed)
    (hend : argument.isFlag → EndsFlag following) :
    table.predefineAll (argument.words ++ following) =
      (table.changeAll argument.change?.toList).predefineAll following := by
  cases argument with
  | flag detached name =>
    have hname : IsArgumentName name := h
    rw [Argument.words, predefineAll_definitionWords _ hname.ne_nil,
      predefine_flag _ hname (hend rfl)]
    rfl
  | assigned detached name value =>
    have hne : name ++ '=' :: value ≠ [] := by simp
    rw [Argument.words, predefineAll_definitionWords _ hne, predefine_assigned _ h.1]
    rfl
  | valued detached name value =>
    obtain ⟨hname, -, -, hdash⟩ := h
    rw [Argument.words, List.append_assoc, predefineAll_definitionWords _ hname.ne_nil,
      List.singleton_append, predefine_valued _ hname hdash]
    rfl
  | foreign argument => exact predefineAll_foreign _ h.2.2

/-- The words of some arguments change the table as the arguments do, one after the other. -/
theorem predefineAll_arguments {arguments : List Argument} {last : List Text}
    (h : ∀ argument ∈ arguments, argument.WellFormed) (hflags : FlagsEnd last arguments) :
    table.predefineAll (arguments.flatMap Argument.words ++ last) =
      (table.changeAll (arguments.filterMap Argument.change?)).predefineAll last := by
  induction arguments generalizing table with
  | nil => rfl
  | cons argument rest ih =>
    rw [List.forall_mem_cons] at h
    rw [List.flatMap_cons, List.append_assoc, predefineAll_words _ h.1 hflags.1,
      ih _ h.2 hflags.2, ← changeAll_append, List.filterMap_cons]
    cases argument.change? <;> rfl

end Table

/-! ## Names on any command line -/

namespace Table

variable {table : Table} {definition : Text} {arguments : List Text}

/-- A name that is set is the only new one. -/
theorem forall_names_set {name : Text} {holds : Text → Prop} (h : ∀ known ∈ table.names, holds known)
    (hname : holds name) (value : Value) : ∀ known ∈ (table.set name value).names, holds known := by
  rw [names_set]
  split
  next => exact h
  next => exact List.forall_mem_append.2 ⟨h, List.forall_mem_singleton.2 hname⟩

/-- A definition without blanks defines a name without blanks. -/
theorem unbroken_names_predefine (h : ∀ name ∈ table.names, Unbroken name)
    (hdefinition : Unbroken definition) (following : List Text) :
    ∀ name ∈ (table.predefine definition following).1.names, Unbroken name := by
  rw [predefine.eq_def]
  split
  next name value hcut =>
    refine forall_names_set h (fun c hc => hdefinition c ?_) _
    rw [(eq_of_cut? hcut).1]
    exact List.mem_append_left _ hc
  next =>
    split
    next => exact forall_names_set h hdefinition _
    next => split <;> exact forall_names_set h hdefinition _

/-- The arguments that are left behind a definition stood there. -/
theorem predefine_subset (following : List Text) :
    (table.predefine definition following).2 ⊆ following := by
  rw [predefine.eq_def]
  split
  next => exact List.Subset.refl _
  next =>
    split
    next => exact List.Subset.refl _
    next =>
      split
      next => exact List.Subset.refl _
      next => exact List.subset_cons_self ..

/-- Arguments without blanks define names without blanks. -/
theorem unbroken_names_predefineAll (h : ∀ name ∈ table.names, Unbroken name)
    (harguments : ∀ argument ∈ arguments, Unbroken argument) :
    ∀ name ∈ (table.predefineAll arguments).names, Unbroken name := by
  fun_induction predefineAll table arguments with
  | case1 table => exact h
  | case2 table argument rest hforeign ih => exact ih h (List.forall_mem_cons.1 harguments).2
  | case3 table argument hmark => exact h
  | case4 table argument hmark definition following ih =>
    rw [List.forall_mem_cons, List.forall_mem_cons] at harguments
    obtain ⟨-, hdefinition, hfollowing⟩ := harguments
    exact ih (unbroken_names_predefine h hdefinition following) fun argument hargument =>
      hfollowing argument (predefine_subset following hargument)
  | case5 table argument rest definition hne hmark ih =>
    rw [List.forall_mem_cons] at harguments
    have hdefinition : Unbroken definition := fun c hc => harguments.1 c <| by
      rw [← List.append_eq_of_isPrefixOf?_eq_some hmark]
      exact List.mem_append_right _ hc
    exact ih (unbroken_names_predefine h hdefinition rest) fun argument hargument =>
      harguments.2 argument (predefine_subset rest hargument)

/-- The names that a command line defines hold no blanks. -/
theorem unbroken_names_ofArguments (commandLine : Text) :
    ∀ name ∈ (ofArguments commandLine).names, Unbroken name :=
  unbroken_names_predefineAll (List.forall_mem_nil _) fun _ => unbroken_of_mem_words

end Table

/-! ## Writing arguments -/

/-- Words with blanks between them, and with any blanks at the ends. -/
inductive Separated : (words : List Text) → (text : Text) → Prop where
  | nil {blanks : Text} : Blanks blanks → Separated [] blanks
  | cons {before word after : Text} {words : List Text} : Blanks before →
      after.head?.all isBlank = true → Separated words after →
      Separated (word :: words) (before ++ word ++ after)

/-- A word of a command line. -/
def IsArgumentWord (word : Text) : Prop :=
  word ≠ [] ∧ Unbroken word

/-- Words that are separated are told apart. -/
theorem words_separated {words : List Text} {text : Text}
    (hwords : ∀ word ∈ words, IsArgumentWord word) (h : Separated words text) :
    text.words = words := by
  induction h with
  | nil hblanks => exact words_of_blanks hblanks
  | @cons before word after words hbefore hafter _ ih =>
    rw [List.forall_mem_cons] at hwords
    rw [List.append_assoc, words_append_left hbefore, words_append hwords.1.1 hwords.1.2 hafter,
      ih hwords.2]

/-- Blanks may be put in front. -/
theorem Separated.blanks {words : List Text} {before text : Text} (hbefore : Blanks before)
    (h : Separated words text) : Separated words (before ++ text) := by
  cases h with
  | nil hblanks => exact .nil (List.forall_mem_append.2 ⟨hbefore, hblanks⟩)
  | cons hinner hafter hrest =>
    rw [← List.append_assoc, ← List.append_assoc]
    exact .cons (List.forall_mem_append.2 ⟨hbefore, hinner⟩) hafter hrest

/-- Words are separated by the spaces that join them. -/
theorem separated_unwords (words : List Text) : Separated words (unwords words) := by
  have hnone : Blanks [] := List.forall_mem_nil _
  have hspace : Blanks [' '] := by decide
  induction words with
  | nil => exact .nil hnone
  | cons word rest ih =>
    by_cases hnil : rest = []
    · have hsingle : unwords [word] = [] ++ word ++ [] := by
        rw [unwords, List.intercalate_singleton, List.nil_append, List.append_nil]
      rw [hnil, hsingle]
      exact .cons hnone rfl (.nil hnone)
    · rw [unwords_cons word hnil, ← List.nil_append word]
      exact .cons hnone (hspace ' ' List.mem_cons_self) (ih.blanks hspace)

/-- Neither `-D` nor a definition holds blanks. -/
theorem isArgumentWord_of_mem_definitionWords {detached : Bool} {definition word : Text}
    (hne : definition ≠ []) (hunbroken : Unbroken definition)
    (h : word ∈ definitionWords detached definition) : IsArgumentWord word := by
  have hmark : Unbroken "-D".toList := by decide
  cases detached with
  | true =>
    rcases List.mem_cons.1 h with rfl | h
    · exact ⟨List.cons_ne_nil _ _, hmark⟩
    · rw [List.mem_singleton.1 h]
      exact ⟨hne, hunbroken⟩
  | false =>
    rw [List.mem_singleton.1 h]
    exact ⟨List.cons_ne_nil _ _, List.forall_mem_append.2 ⟨hmark, hunbroken⟩⟩

theorem Argument.WellFormed.isArgumentWord {argument : Argument} (h : argument.WellFormed)
    {word : Text} (hword : word ∈ argument.words) : IsArgumentWord word := by
  cases argument with
  | flag detached name =>
    have hname : IsArgumentName name := h
    exact isArgumentWord_of_mem_definitionWords hname.ne_nil hname.unbroken hword
  | assigned detached name value =>
    refine isArgumentWord_of_mem_definitionWords (by simp) ?_ hword
    rw [Unbroken, List.forall_mem_append, List.forall_mem_cons]
    exact ⟨h.1.unbroken, by decide, h.2⟩
  | valued detached name value =>
    rcases List.mem_append.1 hword with hword | hword
    · exact isArgumentWord_of_mem_definitionWords h.1.ne_nil h.1.unbroken hword
    · rw [List.mem_singleton.1 hword]
      exact ⟨h.2.1, h.2.2.1⟩
  | foreign argument =>
    rw [List.mem_singleton.1 hword]
    exact ⟨h.1, h.2.1⟩

/-! ## Command lines -/

/-- The words behind the last argument: a `-D` alone, or none. -/
def danglingWords (dangling : Bool) : List Text :=
  if dangling then ["-D".toList] else []

/-- A command line is read argument by argument, up to the words behind the last one. -/
theorem ofArguments_words {arguments : List Argument} {last : List Text} {commandLine : Text}
    (hformed : ∀ argument ∈ arguments, argument.WellFormed) (hflags : FlagsEnd last arguments)
    (hlast : ∀ word ∈ last, IsArgumentWord word)
    (hline : Separated (arguments.flatMap Argument.words ++ last) commandLine) :
    Table.ofArguments commandLine =
      (Table.empty.changeAll (arguments.filterMap Argument.change?)).predefineAll last := by
  have hwords : ∀ word ∈ arguments.flatMap Argument.words ++ last, IsArgumentWord word := by
    refine List.forall_mem_append.2 ⟨fun word hword => ?_, hlast⟩
    obtain ⟨argument, hargument, hword⟩ := List.mem_flatMap.1 hword
    exact (hformed argument hargument).isArgumentWord hword
  rw [Table.ofArguments, words_separated hwords hline, Table.predefineAll_arguments _ hformed hflags]

/-- The table of a command line is what its arguments make of the empty table, one after the other. A
foreign argument does nothing, nor does a `-D` alone at the end. -/
theorem ofArguments_eq (arguments : List Argument) (dangling : Bool) (commandLine : Text)
    (hformed : ∀ argument ∈ arguments, argument.WellFormed)
    (hflags : FlagsEnd (danglingWords dangling) arguments)
    (hline : Separated (arguments.flatMap Argument.words ++ danglingWords dangling) commandLine) :
    Table.ofArguments commandLine =
      Table.empty.changeAll (arguments.filterMap Argument.change?) := by
  have hlast : ∀ word ∈ danglingWords dangling, IsArgumentWord word := by
    cases dangling with
    | true => exact List.forall_mem_singleton.2 ⟨List.cons_ne_nil _ _, by decide⟩
    | false => exact List.forall_mem_nil _
  rw [ofArguments_words hformed hflags hlast hline]
  -- Nothing is left but a `-D` that has no definition behind it.
  cases dangling with
  | true =>
    rw [danglingWords, if_pos rfl, Table.predefineAll]
    rfl
  | false =>
    rw [danglingWords, if_neg Bool.false_ne_true, Table.predefineAll]

/-- Arguments of all kinds, one of which defines a macro again. -/
def exampleArguments : List Argument :=
  [.flag true "-D".toList, .valued false "B".toList "a=b".toList, .foreign "vulkan1.2".toList,
    .assigned true "C".toList "=x".toList, .foreign "-O".toList, .assigned false "B".toList [],
    .flag false "D".toList]

/-- A detached name may look like an argument, and a flag may be followed by a `-D` alone. -/
theorem ofArguments_exampleArguments :
    (∀ argument ∈ exampleArguments, argument.WellFormed) ∧
    FlagsEnd (danglingWords true) exampleArguments ∧
    Separated (exampleArguments.flatMap Argument.words ++ danglingWords true)
      "-D -D -DB a=b vulkan1.2 -D C==x -O -DB= -DD -D".toList ∧
    (Table.ofArguments "-D -D -DB a=b vulkan1.2 -D C==x -O -DB= -DD -D".toList).entries =
      [("-D".toList, .flag), ("B".toList, .flag), ("C".toList, .text "=x".toList),
        ("D".toList, .flag)] := by
  have hformed : ∀ argument ∈ exampleArguments, argument.WellFormed := by decide
  have hflags : FlagsEnd (danglingWords true) exampleArguments := by decide
  have hline : Separated (exampleArguments.flatMap Argument.words ++ danglingWords true)
      "-D -D -DB a=b vulkan1.2 -D C==x -O -DB= -DD -D".toList :=
    separated_unwords _
  refine ⟨hformed, hflags, hline, ?_⟩
  rw [ofArguments_eq exampleArguments true _ hformed hflags hline]
  decide

end ShaderInterface.Macro
