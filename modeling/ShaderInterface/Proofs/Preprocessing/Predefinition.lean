import Mathlib.Tactic.Common
import ShaderInterface.Proofs.Macro.Arguments
import ShaderInterface.Proofs.Preprocessing.Relocation
import ShaderInterface.Proofs.Text.Character
import ShaderInterface.Proofs.Text.Pieces

/-!
# Macros Defined Ahead

A macro can be defined by an argument, or by a line in front of a shader. A line is read in more ways than
an argument: it ends before a comment, it may go on in the next line, and its value is computed where it
looks like arithmetic. As far as a definition gives no occasion to any of these, both say the same.

Lines of such definitions keep nothing and leave the table that the arguments make. From there on the
shader is read alike, in lines with other numbers.

## Main definitions

* `Definition.IsVerbatim`: the value is taken as it is written.
* `Definition.line`, `Definition.argument`: the definition on a line and as an argument.

## Main results

* `directiveOf_line`: the line of a definition is read as this definition.
* `run_definitionLines`: lines of definitions change the table as the definitions say.
* `preprocess_predefined`: arguments do what lines in front of the shader do.
-/

namespace ShaderInterface

open ShaderInterface.Text

namespace Definition

/-- The value of a definition is taken as it is written: it is a single word at most, holds no comment, is
not continued on the next line and is not computed. -/
structure IsVerbatim (definition : Definition) : Prop where
  name : IsRun definition.name
  unbroken : Unbroken definition.value
  noComment : ¬ ['/', '/'] <:+: definition.value
  notContinued : definition.value.getLast? ≠ some '\\'
  notComputed : (∀ c ∈ definition.value, Arithmetic.isOperator c = false) ∨
    (Number.ofText? definition.value).isSome = true ∨
    ∃ c ∈ definition.value, isWord c = false ∧ c ≠ '.' ∧ Arithmetic.isOperator c = false

/-- What a line with a definition starts with. -/
def lineStart : Text := "#define ".toList

/-- The line that writes a definition. -/
def line (definition : Definition) : Text :=
  lineStart ++ definition.name ++ ' ' :: definition.value

/-- The argument that writes a definition. -/
def argument (definition : Definition) : Text :=
  "-D".toList ++ (definition.name ++ '=' :: definition.value)

/-- What a definition does to the table where its value is taken as it is written. -/
def change (definition : Definition) : Macro.Change :=
  .set definition.name (.ofText definition.value)

/-- What the directive of a line defines: the name, and behind a blank the value if there is one. -/
def text (definition : Definition) : Text :=
  definition.name ++ if definition.value = [] then [] else ' ' :: definition.value

variable {definition : Definition}

/-! ## The line of a definition -/

/-- A definition ends with the value, or with the name if there is none. -/
theorem exists_concat_text (h : definition.IsVerbatim) :
    ∃ front c, definition.text = front ++ [c] ∧ isBlank c = false ∧ c ≠ '\\' := by
  rw [text]
  split
  next hnil =>
    obtain ⟨front, c, hname⟩ := (List.eq_nil_or_concat' definition.name).resolve_left h.name.ne_nil
    have hc : isWord c = true := h.name.isWord c (by simp [hname])
    refine ⟨front, c, by rw [List.append_nil, hname], isBlank_of_isWord hc, ?_⟩
    rintro rfl
    exact absurd hc (by decide)
  next hne =>
    obtain ⟨front, c, hvalue⟩ := (List.eq_nil_or_concat' definition.value).resolve_left hne
    refine ⟨definition.name ++ ' ' :: front, c, ?_, h.unbroken c (by simp [hvalue]), ?_⟩
    · rw [hvalue, List.append_assoc, List.cons_append]
    · rintro rfl
      exact h.notContinued (by rw [hvalue, List.getLast?_concat])

/-- No comment starts in a definition. -/
theorem noComment_text (h : definition.IsVerbatim) : ¬ ['/', '/'] <:+: definition.text := by
  have hname : '/' ∉ definition.name := fun hmem => absurd (h.name.isWord _ hmem) (by decide)
  refine notInfix_append hname ?_
  split
  · exact fun hmark => List.cons_ne_nil _ _ (List.infix_nil.1 hmark)
  · exact notInfix_append (List.not_mem_cons_of_ne_of_not_mem (by decide) List.not_mem_nil) h.noComment

/-- A definition is read up to the end of its name, behind which there is a blank or nothing. -/
theorem ofText?_append {name rest : Text} (hname : IsRun name) (hrest : rest.head?.all isBlank = true) :
    ofText? (name ++ rest) = some ⟨name, trim rest⟩ := by
  have hstop : isWord? rest.head? = false ∧ rest.head?.any (!isBlank ·) = false := by
    rcases rest with - | ⟨c, rest⟩
    · exact ⟨rfl, rfl⟩
    · have hc : isBlank c = true := hrest
      exact ⟨isWord_of_isBlank hc, by simp [hc]⟩
  rw [ofText?, takeWhile_isWord hname.isWord hstop.1, dropWhile_isWord hname.isWord hstop.1, hstop.2,
    List.isEmpty_eq_false_iff.2 hname.ne_nil]
  rfl

/-- A definition is read back from its text. -/
theorem ofText?_text (h : definition.IsVerbatim) : ofText? definition.text = some definition := by
  have hvalue : trim definition.value = definition.value := Unbroken.trim_eq h.unbroken
  obtain ⟨name, value⟩ := definition
  rw [text]
  split
  next hnil =>
    obtain rfl : value = [] := hnil
    exact ofText?_append h.name rfl
  next hne =>
    have hblank : Blanks [' '] := by decide
    have hspace : trim (' ' :: value) = trim value := congrArg trimEnd (trimStart_append hblank value)
    rw [ofText?_append h.name rfl, hspace, hvalue]

/-- A directive line ends with its definition. -/
theorem trim_line (h : definition.IsVerbatim) :
    definition.line.trim = lineStart ++ definition.text := by
  obtain ⟨front, c, htext, hc, -⟩ := exists_concat_text h
  -- A name without a value has a blank behind it.
  have hline : ∃ after, Blanks after ∧
      definition.line = lineStart ++ definition.text ++ after := by
    by_cases hnil : definition.value = []
    · refine ⟨[' '], by decide, ?_⟩
      rw [line, text, if_pos hnil, hnil, List.append_nil]
    · refine ⟨[], List.forall_mem_nil _, ?_⟩
      rw [line, text, if_neg hnil, List.append_nil, List.append_assoc]
  obtain ⟨after, hafter, hline⟩ := hline
  have htrim := trim_surrounded (List.forall_mem_nil _) hafter (lineStart ++ definition.text)
  rw [List.nil_append, ← hline] at htrim
  rw [htrim, htext, ← List.append_assoc]
  refine trim_eq_self rfl ?_
  rw [List.getLast?_concat, Option.any_some, hc]

/-- The line is not continued on the next one. -/
theorem isContinued_line (h : definition.IsVerbatim) : isContinued definition.line.trim = false := by
  obtain ⟨front, c, htext, -, hc⟩ := exists_concat_text h
  rw [trim_line h, htext, ← List.append_assoc, isContinued, List.getLast?_concat]
  exact beq_eq_false_iff_ne.2 fun heq => hc (Option.some.inj heq)

/-- Nothing is cut off from the line but a blank at its end. -/
theorem directiveText_line (h : definition.IsVerbatim) :
    directiveText definition.line.trim = definition.line.trim := by
  have hcontinued := isContinued_line h
  have hmark : ¬ ['/', '/'] <:+: definition.line.trim := by
    rw [trim_line h]
    exact notInfix_append (by decide) (noComment_text h)
  rw [directiveText, beforeMark_of_notInfix hmark, trimEnd_trim, hcontinued]
  exact trim_trim _

/-- The line defines what it is written for. -/
theorem directiveOf_line (h : definition.IsVerbatim) :
    Preprocessing.directiveOf definition.line = .define definition.text := by
  rw [Preprocessing.directiveOf, Directive.ofLine?, if_pos (by rw [trim_line h]; rfl),
    directiveText_line h, trim_line h]
  -- The keyword is read off, and a blank stands behind it.
  show Directive.define (trimStart (' ' :: definition.text)) = .define definition.text
  obtain ⟨c, tail, hname⟩ := List.exists_cons_of_ne_nil h.name.ne_nil
  have hc : isBlank c = false := isBlank_of_isWord (h.name.isWord c (by simp [hname]))
  have hblank : Blanks [' '] := by decide
  have hspace : trimStart (' ' :: definition.text) = trimStart definition.text :=
    trimStart_append hblank _
  rw [hspace, text, hname, List.cons_append, trimStart_cons hc]

/-- A value that is written as it is does not look like arithmetic. -/
theorem looksArithmetic_eq_false (h : definition.IsVerbatim)
    (hnumber : Number.ofText? definition.value = none) : looksArithmetic definition.value = false := by
  rw [looksArithmetic, Bool.and_eq_false_iff]
  rcases h.notComputed with hoperator | hnumber' | ⟨c, hmem, hword, hpoint, hoperator⟩
  · exact .inl (List.any_eq_false.2 fun c hc => by simp [hoperator c hc])
  · simp [hnumber] at hnumber'
  · refine .inr (List.all_eq_false.2 ⟨c, hmem, ?_⟩)
    simp [isArithmeticChar, hword, hpoint, hoperator, h.unbroken c hmem]

/-- The value is taken as an argument would take it. -/
theorem evaluate_eq (h : definition.IsVerbatim) (table : Macro.Table) :
    definition.evaluate table = .ok (.ofText definition.value) := by
  have htrim : trim definition.value = definition.value := Unbroken.trim_eq h.unbroken
  rw [evaluate, Macro.Value.ofText, htrim]
  by_cases hnil : definition.value.isEmpty = true
  · rw [if_pos hnil]
  · rw [if_neg hnil]
    cases hnumber : Number.ofText? definition.value with
    | some x => rfl
    | none =>
      show (if looksArithmetic definition.value then _ else _) = _
      rw [looksArithmetic_eq_false h hnumber]
      rfl

end Definition

namespace Preprocessing

variable {table : Macro.Table} {definition : Definition} {definitions : List Definition}

/-! ## Definitions on lines and as arguments -/

/-- The line of a definition keeps nothing and changes the table as the definition says. -/
theorem step_line (h : definition.IsVerbatim) (site : Site) :
    ((State.initial table).step site definition.line).outcome =
      .ok (none, State.initial (table.change definition.change)) := by
  rw [State.step_define rfl rfl (definition.directiveOf_line h), definition.ofText?_text h]
  simp only [definition.evaluate_eq h, definition.isContinued_line h]
  rfl

/-- Lines of definitions change the table as the definitions say, one after the other. -/
theorem run_definitionLines (h : ∀ definition ∈ definitions, definition.IsVerbatim)
    {located : List (Site × Text)} (hlines : located.map Prod.snd = definitions.map Definition.line) :
    ((State.initial table).run located).outcome =
      .ok ([], State.initial (table.changeAll (definitions.map Definition.change))) := by
  induction definitions generalizing table located with
  | nil =>
    rw [List.map_nil, List.map_eq_nil_iff] at hlines
    rw [hlines]
    rfl
  | cons definition definitions ih =>
    obtain ⟨⟨site, raw⟩, behind, rfl, rfl, hbehind⟩ := List.map_eq_cons_iff.1 hlines
    rw [List.forall_mem_cons] at h
    rw [State.run_cons_of_step _ (step_line h.1 site)]
    exact ih h.2 hbehind

/-- Arguments with definitions make the table that the definitions make. -/
theorem ofArguments_definitions (h : ∀ definition ∈ definitions, definition.IsVerbatim) :
    Macro.Table.ofArguments (unwords (definitions.map Definition.argument)) =
      Macro.Table.empty.changeAll (definitions.map Definition.change) := by
  -- The value stands behind an equals sign in each of them.
  let assigned (definition : Definition) : Macro.Argument :=
    .assigned false definition.name definition.value
  have hformed : ∀ argument ∈ definitions.map assigned, argument.WellFormed := by
    refine List.forall_mem_map.2 fun definition hmem => ⟨⟨(h definition hmem).name.ne_nil, ?_, ?_⟩,
      (h definition hmem).unbroken⟩
    · exact fun c hc => isBlank_of_isWord ((h definition hmem).name.isWord c hc)
    · exact fun hc => absurd ((h definition hmem).name.isWord _ hc) (by decide)
  have hflags : Macro.FlagsEnd [] (definitions.map assigned) :=
    Macro.flagsEnd_of_forall (List.forall_mem_map.2 fun _ _ => rfl)
  have hwords : definitions.map Definition.argument =
      (definitions.map assigned).flatMap Macro.Argument.words ++ [] := by
    rw [List.append_nil, List.flatMap_map]
    exact List.map_eq_flatMap
  have hchanges : (definitions.map assigned).filterMap Macro.Argument.change? =
      definitions.map Definition.change := by
    rw [List.filterMap_map]
    exact congrFun (List.filterMap_eq_map (f := Definition.change)) definitions
  rw [hwords, Macro.ofArguments_words hformed hflags (List.forall_mem_nil _)
    (Macro.separated_unwords _), hchanges, Macro.Table.predefineAll]

/-! ## Shaders with definitions in front -/

/-- A place with another line of its file. -/
def atLine (line : Nat) (site : Site) : Site :=
  ⟨site.file, line⟩

/-- Where all numbers of lines are the same, lines differ by their text and their file only. -/
theorem map_atLine_numberedLines (line : Nat) (fragments : List Fragment) :
    (numberedLines fragments).map (Prod.map (atLine line) id) =
      fragments.flatMap fun fragment =>
        (lines fragment.source).map fun text => (⟨fragment.file, line⟩, text) := by
  rw [numberedLines, List.map_flatMap]
  refine congrArg (fragments.flatMap ·) (funext fun fragment => ?_)
  rw [Fragment.numberedLines, List.map_map]
  apply List.ext_getElem <;> simp [atLine]

/-- A line with a definition holds no line feed, and no carriage return at its end. -/
theorem line_of_isVerbatim (h : definition.IsVerbatim) :
    '\n' ∉ definition.line ∧ dropReturn definition.line = definition.line := by
  have hvalue {c : Char} (hc : isBlank c = true) : c ∉ definition.value := fun hmem =>
    absurd ((h.unbroken c hmem).symm.trans hc) Bool.false_ne_true
  have hname : '\n' ∉ definition.name := fun hmem => absurd (h.name.isWord _ hmem) (by decide)
  refine ⟨?_, ?_⟩
  · rw [Definition.line, List.mem_append, List.mem_append, List.mem_cons]
    have hstart : '\n' ∉ Definition.lineStart := by decide
    simp [hstart, hname, hvalue (c := '\n') (by decide)]
  · refine if_neg fun hlast => ?_
    -- The last character is the blank behind the name, or one of the value.
    have hmem : '\r' ∈ ' ' :: definition.value := by
      refine List.mem_of_getLast? ?_
      rwa [← List.getLast?_append_of_ne_nil _ (List.cons_ne_nil _ _)]
    rcases List.mem_cons.1 hmem with heq | hmem
    · exact absurd heq (by decide)
    · exact hvalue (by decide) hmem

/-- The lines of a shader with definitions in front are the lines of the definitions and its own. -/
theorem lines_definitions (h : ∀ definition ∈ definitions, definition.IsVerbatim) (source : Text) :
    lines (unlines (definitions.map Definition.line) ++ source) =
      definitions.map Definition.line ++ lines source := by
  have hlines : ∀ line ∈ definitions.map Definition.line, '\n' ∉ line :=
    List.forall_mem_map.2 fun definition hmem => (line_of_isVerbatim (h definition hmem)).1
  rw [lines_unlines_append hlines, List.map_map]
  refine congrArg (· ++ lines source) (List.map_congr_left fun definition hmem => ?_)
  exact (line_of_isVerbatim (h definition hmem)).2

/-- Definitions can be given by arguments or on lines in front of a shader: the result is the same, or the
faults differ in the numbers of lines alone. -/
theorem preprocess_predefined (definitions : List Definition)
    (h : ∀ definition ∈ definitions, definition.IsVerbatim) (first : Fragment) (rest : List Fragment) :
    let predefined := preprocess (.ofArguments (unwords (definitions.map Definition.argument)))
      (first :: rest)
    let defined := preprocess .empty
      ({ first with source := unlines (definitions.map Definition.line) ++ first.source } :: rest)
    (∃ result, predefined.outcome = .ok result ∧ defined.outcome = .ok result) ∨
    ∃ fault other, predefined.outcome = .error fault ∧ defined.outcome = .error other ∧
      ∀ line, fault.relocate (atLine line) = other.relocate (atLine line) := by
  intro predefined defined
  refine agree_of_relocateOutcome_eq fun line => ?_
  show (predefined.relocate (atLine line) id).outcome = (defined.relocate (atLine line) id).outcome
  -- With all numbers of lines the same, the lines of the definitions are all that is different.
  have hlines : (numberedLines
        ({ first with source := unlines (definitions.map Definition.line) ++ first.source } ::
          rest)).map (Prod.map (atLine line) id) =
      ((definitions.map Definition.line).map fun text => (⟨first.file, line⟩, text)) ++
        (numberedLines (first :: rest)).map (Prod.map (atLine line) id) := by
    rw [map_atLine_numberedLines, map_atLine_numberedLines, List.flatMap_cons, List.flatMap_cons,
      lines_definitions h, List.map_append, List.append_assoc]
  have hrun : ((State.initial .empty).run ((definitions.map Definition.line).map fun text =>
        ((⟨first.file, line⟩ : Site), text))).outcome =
      .ok ([], State.initial (Macro.Table.empty.changeAll (definitions.map Definition.change))) := by
    refine run_definitionLines h ?_
    rw [List.map_map]
    exact List.map_id' _
  rw [relocate_preprocess, relocate_preprocess, hlines, Report.outcome_bind, Report.outcome_bind,
    State.run_append_of_run _ hrun, ofArguments_definitions h]

/-- A number, a text that looks like arithmetic up to its last character, and a name without a value. -/
def exampleDefinitions : List Definition :=
  [⟨"A".toList, "-1e3".toList⟩, ⟨"B".toList, "A-1!".toList⟩, ⟨"A".toList, []⟩]

/-- A shader with a branch that is skipped, and with the end of a group too many. -/
def exampleBranches : Fragment :=
  ⟨"B\n#ifndef A\n#else\n#endif\n#endif".toList, "main".toList, 0⟩

/-- The fault is found in both ways. -/
theorem preprocess_exampleDefinitions :
    (∀ definition ∈ exampleDefinitions, definition.IsVerbatim) ∧
    unwords (exampleDefinitions.map Definition.argument) = "-DA=-1e3 -DB=A-1! -DA=".toList ∧
    unlines (exampleDefinitions.map Definition.line) =
      "#define A -1e3\n#define B A-1!\n#define A \n".toList ∧
    ∃ fault, (preprocess .empty [{ exampleBranches with
        source := unlines (exampleDefinitions.map Definition.line) ++
          exampleBranches.source }]).outcome = .error fault ∧
      ∀ line, fault.relocate (atLine line) =
        .unmatchedDirective "endif".toList ⟨"main".toList, line⟩ := by
  have hverbatim : ∀ definition ∈ exampleDefinitions, definition.IsVerbatim := by
    refine List.forall_mem_cons.2 ⟨?_, List.forall_mem_cons.2 ⟨?_, List.forall_mem_singleton.2 ?_⟩⟩
    · exact ⟨by decide, by decide, by decide, by decide, .inr (.inl (by decide +kernel))⟩
    · exact ⟨by decide, by decide, by decide, by decide, .inr (.inr ⟨'!', by decide +kernel⟩)⟩
    · exact ⟨by decide, by decide, by decide, by decide, .inl (List.forall_mem_nil _)⟩
  have hpredefined : (preprocess
      (.ofArguments (unwords (exampleDefinitions.map Definition.argument)))
      [exampleBranches]).outcome =
        .error (.unmatchedDirective "endif".toList ⟨"main".toList, 5⟩) := by
    decide +kernel
  refine ⟨hverbatim, by decide, by decide, ?_⟩
  rcases preprocess_predefined exampleDefinitions hverbatim exampleBranches [] with
    ⟨result, hresult, -⟩ | ⟨fault, other, hfault, hother, hsame⟩
  · cases hpredefined.symm.trans hresult
  · cases hpredefined.symm.trans hfault
    exact ⟨other, hother, fun line => (hsame line).symm⟩

end Preprocessing

end ShaderInterface
