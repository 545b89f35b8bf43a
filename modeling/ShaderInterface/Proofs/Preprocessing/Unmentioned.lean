import ShaderInterface.Proofs.Macro.Arguments
import ShaderInterface.Proofs.Preprocessing.Idempotence

/-!
# Names That Are Not Mentioned

A shader that mentions none of the names of a command line is left as it is: no name is found in it, so
nothing is put into it. It does not matter which names the arguments define, with which characters and
values; all that counts is that no argument holds a blank, so that no name reaches into another line.

The empty name, which `-D=5` defines, is found at every border of a word. It is mentioned nowhere, and still
it changes every text that holds a word.

## Main results

* `replaceWordFrom_eq_self`: a name that is found nowhere is replaced nowhere.
* `replaceWords_of_unmentioned`: the names of a table are not replaced in a text without them.
* `preprocess_unmentioned`: a command line leaves a shader alone that does not mention its names.
-/

namespace ShaderInterface.Preprocessing

open ShaderInterface.Text

variable {name replacement text : Text} {before : Option Char} {table : Macro.Table}

/-! ## A single name -/

/-- A name that is found nowhere in a text is not replaced. -/
theorem replaceWordFrom_eq_self (h : ∀ front behind, front ++ behind = text →
      wholeWord? name (front.getLast?.or before) behind = none) :
    replaceWordFrom name replacement before text = text := by
  induction text generalizing before with
  | nil =>
    have hnone : wholeWord? name before [] = none := h [] [] rfl
    rw [replaceWordFrom, hnone]
    rfl
  | cons c rest ih =>
    have hnone : wholeWord? name before (c :: rest) = none := h [] (c :: rest) rfl
    rw [replaceWordFrom, hnone]
    refine congrArg (c :: ·) (ih fun front behind hrest => ?_)
    -- What stands in front of the rest has the first character before it.
    rw [← getLast?_cons_or]
    exact h (c :: front) behind (by rw [List.cons_append, hrest])

/-- A name that does not occur in a text is not found there. -/
theorem wholeWord?_of_notInfix (h : ¬ name <:+: text) {front behind : Text}
    (htext : front ++ behind = text) : wholeWord? name before behind = none := by
  refine Option.eq_none_iff_forall_ne_some.2 fun rest hfound => h ⟨front, rest, ?_⟩
  rw [List.append_assoc, ← (of_wholeWord? hfound).1, htext]

/-- The empty name is found only at the border of a word. -/
theorem wholeWord?_nil (hbefore : isWord? before = false) (hbehind : isWord? text.head? = false) :
    wholeWord? [] before text = none := by
  refine Option.eq_none_iff_forall_ne_some.2 fun rest hfound => ?_
  have hborder := (of_wholeWord? hfound).2.1
  rw [isBoundary, hbefore, hbehind] at hborder
  cases hborder

theorem replaceWord_of_notInfix (h : ¬ name <:+: text) : replaceWord name replacement text = text :=
  replaceWordFrom_eq_self fun _ _ htext => wholeWord?_of_notInfix h htext

/-- The empty name changes no text without words. -/
theorem replaceWord_nil_of_marks (h : ∀ c ∈ text, isWord c = false) :
    replaceWord [] replacement text = text := by
  have hmark {neighbour : Option Char} (hmem : ∀ c ∈ neighbour, c ∈ text) :
      isWord? neighbour = false :=
    (Option.any_eq_false ..).2 fun c hc => h c (hmem c hc)
  refine replaceWordFrom_eq_self fun front behind htext => wholeWord?_nil (hmark ?_) (hmark ?_)
  · rw [Option.or_none]
    exact fun c hc => htext ▸ List.mem_append_left _ (List.mem_of_getLast? hc)
  · exact fun c hc => htext ▸ List.mem_append_right _ (List.mem_of_head? hc)

/-! ## The names of a table -/

/-- A text in which no entry replaces anything is left as it is. -/
theorem foldl_replaceEntry_eq_self {entries : List (Text × Macro.Value)}
    (h : ∀ entry ∈ entries, replaceEntry text entry = text) :
    entries.foldl replaceEntry text = text := by
  induction entries with
  | nil => rfl
  | cons entry rest ih =>
    rw [List.forall_mem_cons] at h
    rw [List.foldl_cons, h.1, ih h.2]

/-- The names of a table are not replaced in a text that holds none of them, as long as the empty name puts
nothing between words. -/
theorem replaceWords_of_unmentioned (hnames : ∀ name ∈ table.names, name ≠ [] → ¬ name <:+: text)
    (hempty : table.replacement? [] = none ∨ ∀ c ∈ text, isWord c = false) :
    replaceWords table text = text := by
  refine foldl_replaceEntry_eq_self fun ⟨name, value⟩ hentry => ?_
  cases hvalue : value.replacement? with
  | none => exact replaceEntry_of_none hvalue text
  | some replacement =>
    rw [replaceEntry_of_some hvalue]
    by_cases hname : name = []
    · subst hname
      have hsome : table.replacement? [] = some replacement := by
        rw [Macro.Table.replacement?, (table.get?_eq_some_iff [] value).2 hentry, Option.bind_some, hvalue]
      exact replaceWord_nil_of_marks (hempty.resolve_left (by simp [hsome]))
    · exact replaceWord_of_notInfix (hnames name (List.mem_map_of_mem hentry) hname)

/-! ## Command lines -/

/-- A name without blanks that does not occur in a text does not occur in its lines when they are joined
again. -/
theorem notInfix_append_feed (hname : Unbroken name) (hne : name ≠ []) (h : ¬ name <:+: text) :
    ¬ name <:+: text ++ ['\n'] := by
  rintro ⟨front, behind, hparts⟩
  rcases List.eq_nil_or_concat' behind with rfl | ⟨behind, c, rfl⟩
  · obtain ⟨start, c, rfl⟩ := (List.eq_nil_or_concat' name).resolve_left hne
    rw [List.append_nil, ← List.append_assoc] at hparts
    obtain rfl := List.singleton_inj.1 (List.append_inj_right' hparts rfl)
    cases hname '\n' (List.mem_concat_self ..)
  · rw [← List.append_assoc] at hparts
    exact h ⟨front, behind, List.append_inj_left' hparts rfl⟩

/-- A command line leaves a shader alone that mentions none of its names. No line of it is blank, a comment
line or a directive to obey, and the empty name has no value or there is no word in it. The text is the same
then, with the last line ended, and the macros are those of the command line. -/
theorem preprocess_unmentioned (commandLine text : Text) (hreturn : '\r' ∉ text)
    (hplain : ∀ line ∈ lines text, ¬ Special line)
    (hnames : ∀ name ∈ (Macro.Table.ofArguments commandLine).names, name ≠ [] → ¬ name <:+: text)
    (hempty : (Macro.Table.ofArguments commandLine).replacement? [] = none ∨
      ∀ c ∈ text, isWord c = false) (file : Text) (offset : Nat) :
    (preprocess (.ofArguments commandLine) [⟨text, file, offset⟩]).outcome =
      .ok ⟨if EndsLine text then text else text ++ ['\n'], .ofArguments commandLine⟩ := by
  rw [preprocess_plain _ hplain, unlines_lines hreturn, replaceWords_of_unmentioned]
  -- The line feed that ends the last line is neither part of a name nor a word.
  · intro name hname hne
    split
    next => exact hnames name hname hne
    next =>
      exact notInfix_append_feed (Macro.Table.unbroken_names_ofArguments commandLine name hname) hne
        (hnames name hname hne)
  · refine hempty.imp_right fun hwords => ?_
    split
    next => exact hwords
    next => exact List.forall_mem_append.2 ⟨hwords, List.forall_mem_singleton.2 rfl⟩

/-- Names with punctuation, a value that follows a detached name, and the empty name as a flag. -/
theorem preprocess_exampleUnmentioned :
    '\r' ∉ "int x;\ny += a;".toList ∧
    (∀ line ∈ lines "int x;\ny += a;".toList, ¬ Special line) ∧
    (∀ name ∈ (Macro.Table.ofArguments "-D= -Dy+=a -D x;y 5 -O -D, -DINT=2".toList).names,
      name ≠ [] → ¬ name <:+: "int x;\ny += a;".toList) ∧
    (Macro.Table.ofArguments "-D= -Dy+=a -D x;y 5 -O -D, -DINT=2".toList).replacement? [] = none ∧
    (preprocess (.ofArguments "-D= -Dy+=a -D x;y 5 -O -D, -DINT=2".toList)
        [⟨"int x;\ny += a;".toList, "a".toList, 0⟩]).outcome =
      .ok ⟨"int x;\ny += a;\n".toList, .ofArguments "-D= -Dy+=a -D x;y 5 -O -D, -DINT=2".toList⟩ := by
  have hreturn : '\r' ∉ "int x;\ny += a;".toList := by decide
  have hplain : ∀ line ∈ lines "int x;\ny += a;".toList, ¬ Special line := by
    simp only [special_iff]
    decide
  have hnames : ∀ name ∈ (Macro.Table.ofArguments "-D= -Dy+=a -D x;y 5 -O -D, -DINT=2".toList).names,
      name ≠ [] → ¬ name <:+: "int x;\ny += a;".toList := by
    decide +kernel
  have hempty : (Macro.Table.ofArguments
      "-D= -Dy+=a -D x;y 5 -O -D, -DINT=2".toList).replacement? [] = none := by
    decide +kernel
  exact ⟨hreturn, hplain, hnames, hempty,
    preprocess_unmentioned _ _ hreturn hplain hnames (.inl hempty) "a".toList 0⟩

/-- The empty name is mentioned nowhere, and its value is put around every word. -/
theorem not_forall_preprocess_unmentioned :
    ¬ ∀ commandLine text : Text, '\r' ∉ text →
      (∀ line ∈ lines text,
        line.trim ≠ [] ∧ ¬ "//".toList <+: line.trim ∧ ¬ "#".toList <+: line.trim) →
      (∀ name ∈ (Macro.Table.ofArguments commandLine).names, name ≠ [] → ¬ name <:+: text) →
      ∀ (file : Text) (offset : Nat),
        (preprocess (.ofArguments commandLine) [⟨text, file, offset⟩]).outcome =
          .ok ⟨if EndsLine text then text else text ++ ['\n'], .ofArguments commandLine⟩ := by
  intro hall
  have hsame := hall "-D=5".toList "int x;\n".toList (by decide) (by decide) (by decide +kernel) [] 0
  have hchanged : (preprocess (.ofArguments "-D=5".toList) [⟨"int x;\n".toList, [], 0⟩]).outcome =
      .ok ⟨"5int5 5x5;\n".toList, .ofArguments "-D=5".toList⟩ := by
    decide +kernel
  rw [hchanged] at hsame
  exact absurd hsame (by decide +kernel)

end ShaderInterface.Preprocessing
