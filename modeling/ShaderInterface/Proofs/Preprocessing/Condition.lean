import Mathlib.Data.List.Forall2
import ShaderInterface.Preprocessing.State
import ShaderInterface.Proofs.Outcome
import ShaderInterface.Proofs.Preprocessing.Term

/-!
# The Meaning of Conditions

A condition is read as it is written: alternatives between `||`, terms between `&&`. Its answer
depends on the values of the arithmetic texts in its terms. All of them are computed, from left to
right, so that the first text without a value is the fault of the condition, whatever the other
terms answer.

## Main definitions

* `Condition.Written`: how a condition is written.
* `Term.texts`, `Condition.texts`: the arithmetic texts, from left to right.
* `Comparison.truth`: what each comparison says about two numbers.
* `Term.truth`: what a term answers, given the values of its texts.
* `AskedInOrder`: an outcome that is found from the values of texts, one after the other.

## Main results

* `Condition.holds_ofText`: a written condition is read as what it writes.
* `Condition.asks`: the answer to a condition is found from the values of its texts.
* `Condition.exists_of_holds`: a condition without an answer has a text without a value.
* `State.conditionHolds_of_written`: the answer to a written condition, or its fault.
-/

namespace ShaderInterface

open ShaderInterface.Text

/-! ## Written conditions -/

/-- A text of which the parts are written with a mark between any two. -/
inductive JoinedBy {α : Type} (mark : Text) (Part : α → Text → Prop) : List α → Text → Prop
  | single {part : α} {text : Text} : Part part text → JoinedBy mark Part [part] text
  | cons {part : α} {parts : List α} {text behind : Text} :
      Part part text → JoinedBy mark Part parts behind →
      JoinedBy mark Part (part :: parts) (text ++ mark ++ behind)

/-- What a comparison says about two numbers. -/
def Comparison.truth (x y : Float) : Comparison → Bool
  | equal => x == y
  | notEqual => x != y
  | atMost => x ≤ y
  | atLeast => x ≥ y
  | less => x < y
  | greater => x > y

theorem Comparison.holds_eq_truth (kind : Comparison) (x y : Float) :
    kind.holds x y = kind.truth x y := by
  cases kind <;> rfl

namespace Term

/-- The arithmetic texts of a term, from left to right. -/
def texts : Term → List Text
  | defined _ _ => []
  | comparison left _ right => [left, right]
  | arithmetic text => [text]

/-- What a term answers when its arithmetic texts have the given values. -/
def truth (table : Macro.Table) (value : Text → Float) : Term → Bool
  | defined negated name => table.contains name != negated
  | comparison left kind right => kind.truth (value left) (value right)
  | arithmetic text => value text != 0.0

end Term

namespace Condition

/-- How a condition is written. -/
def Written (condition : Condition) (text : Text) : Prop :=
  JoinedBy "||".toList (JoinedBy "&&".toList Term.Written) condition text

/-- The arithmetic texts of a condition, from left to right. -/
def texts (condition : Condition) : List Text :=
  condition.flatMap fun terms => terms.flatMap Term.texts

/-- What a condition answers when its arithmetic texts have the given values. -/
def truth (table : Macro.Table) (value : Text → Float) (condition : Condition) : Bool :=
  condition.any fun terms => terms.all (Term.truth table value)

end Condition

/-! ## Asking for values in order -/

/-- An outcome that is found from the values of texts. The texts are evaluated one after the other,
and the first one without a value is the fault. -/
structure AskedInOrder {ε α β : Type} (evaluate : Text → Except ε β) (texts : List Text)
    (result : (Text → β) → α) (outcome : Except ε α) : Prop where
  ok : ∀ value : Text → β, (∀ text ∈ texts, evaluate text = .ok (value text)) →
    outcome = .ok (result value)
  error : ∀ (before : List Text) (text : Text) (after : List Text) (cause : ε),
    texts = before ++ text :: after → (∀ earlier ∈ before, ∃ x, evaluate earlier = .ok x) →
    evaluate text = .error cause → outcome = .error cause

namespace AskedInOrder

variable {ε α β γ : Type} {evaluate : Text → Except ε β}

theorem pure (result : α) : AskedInOrder evaluate [] (fun _ => result) (.ok result) where
  ok _ _ := rfl
  error before _ _ _ htexts := by cases before <;> cases htexts

theorem single (text : Text) :
    AskedInOrder evaluate [text] (fun value => value text) (evaluate text) where
  ok value h := h text (List.mem_singleton_self text)
  error before other after cause htexts _ hcause := by
    rcases before with - | ⟨first, before⟩
    · cases htexts
      exact hcause
    · cases before <;> cases htexts

/-- Texts that all have values have them by one function. -/
theorem exists_value [Inhabited β] {texts : List Text}
    (h : ∀ text ∈ texts, ∃ x, evaluate text = .ok x) :
    ∃ value : Text → β, ∀ text ∈ texts, evaluate text = .ok (value text) := by
  refine ⟨fun text => (evaluate text).toOption.getD default, fun text htext => ?_⟩
  obtain ⟨x, hx⟩ := h text htext
  simp only [hx]
  rfl

/-- A sequence asks for the texts of its first part before those of the second. -/
theorem bind [Inhabited β] {first second : List Text} {result : (Text → β) → α}
    {next : α → (Text → β) → γ} {outcome : Except ε α} {following : α → Except ε γ}
    (hfirst : AskedInOrder evaluate first result outcome)
    (hsecond : ∀ found, AskedInOrder evaluate second (next found) (following found)) :
    AskedInOrder evaluate (first ++ second) (fun value => next (result value) value)
      (outcome >>= following) where
  ok value h := by
    rw [hfirst.ok value fun text htext => h text (List.mem_append_left _ htext)]
    exact (hsecond _).ok value fun text htext => h text (List.mem_append_right _ htext)
  error before text after cause htexts hbefore hcause := by
    have hbehind (middle : List Text) (hmiddle : before = first ++ middle)
        (hsplit : second = middle ++ text :: after) : outcome >>= following = .error cause := by
      rw [hmiddle] at hbefore
      obtain ⟨value, hvalue⟩ := exists_value fun earlier hearlier =>
        hbefore earlier (List.mem_append_left _ hearlier)
      rw [hfirst.ok value hvalue]
      exact (hsecond _).error middle text after cause hsplit
        (fun earlier hearlier => hbefore earlier (List.mem_append_right _ hearlier)) hcause
    -- The text at fault is asked for by the second part or by the first one.
    rcases List.append_eq_append_iff.1 htexts with ⟨middle, hmiddle, hsplit⟩ | ⟨rest, hrest, hsplit⟩
    · exact hbehind middle hmiddle hsplit
    rcases rest with - | ⟨other, rest⟩
    · rw [List.append_nil] at hrest
      exact hbehind [] (hrest ▸ (List.append_nil _).symm) hsplit.symm
    · obtain ⟨rfl, -⟩ := List.cons.inj hsplit
      rw [hfirst.error before text rest cause hrest hbefore hcause]
      rfl

theorem map [Inhabited β] {texts : List Text} {result : (Text → β) → α} {outcome : Except ε α}
    (h : AskedInOrder evaluate texts result outcome) (f : α → γ) :
    AskedInOrder evaluate texts (fun value => f (result value))
      (outcome >>= fun found => .ok (f found)) := by
  have hmap := h.bind fun found => pure (f found)
  rwa [List.append_nil] at hmap

/-- A list of questions asks for the texts of each in turn. -/
theorem mapM [Inhabited β] {items : List γ} {texts : γ → List Text}
    {result : γ → (Text → β) → α} {outcome : γ → Except ε α}
    (h : ∀ item ∈ items, AskedInOrder evaluate (texts item) (result item) (outcome item)) :
    AskedInOrder evaluate (items.flatMap texts) (fun value => items.map (result · value))
      (items.mapM outcome) := by
  induction items with
  | nil => exact .pure []
  | cons item rest ih =>
    rw [List.forall_mem_cons] at h
    rw [List.flatMap_cons, List.mapM_cons]
    exact h.1.bind fun answer => (ih h.2).map (answer :: ·)

end AskedInOrder

/-- A text in a condition has the value that it is evaluated to, or a fault of the line. -/
theorem Term.outcome_value (table : Macro.Table) (line text : Text) :
    (value table line text).outcome =
      (Arithmetic.evaluate table text).mapError (.invalidCondition line) := by
  rw [value]
  cases Arithmetic.evaluate table text <;> rfl

/-- The values that a term asks for. -/
theorem Term.asks (table : Macro.Table) (line : Text) (term : Term) :
    AskedInOrder (fun text => (value table line text).outcome) term.texts (term.truth table)
      (term.holds table line).outcome := by
  cases term with
  | defined negated name => exact .pure _
  | comparison left kind right =>
    simp only [holds, Report.outcome_bind, kind.holds_eq_truth]
    exact (AskedInOrder.single left).bind fun x => (AskedInOrder.single right).map (kind.truth x)
  | arithmetic text =>
    simp only [holds, Report.outcome_bind]
    exact (AskedInOrder.single text).map (· != 0.0)

/-- The values that a condition asks for. -/
theorem Condition.asks (table : Macro.Table) (line : Text) (condition : Condition) :
    AskedInOrder (fun text => (Term.value table line text).outcome) condition.texts
      (condition.truth table) (condition.holds table line).outcome := by
  have hterms := AskedInOrder.mapM fun (terms : List Term) (_ : terms ∈ condition) =>
    AskedInOrder.mapM fun (term : Term) (_ : term ∈ terms) => term.asks table line
  have htruth (value : Text → Float) :
      ((condition.map fun terms => terms.map (Term.truth table value)).any fun answers =>
        answers.all id) = condition.truth table value := by
    simp only [truth, List.any_map, Function.comp_def, List.all_map, id_eq]
  have hany := hterms.map fun answers => answers.any fun terms => terms.all id
  simp only [htruth] at hany
  simp only [holds, Report.outcome_bind, Report.outcome_mapM]
  exact hany

/-- A text that has no value is the fault of its line. -/
theorem Term.exists_of_value {table : Macro.Table} {line text : Text} {fault : Fault}
    (h : (value table line text).outcome = .error fault) :
    ∃ cause, Arithmetic.evaluate table text = .error cause ∧ fault = .invalidCondition line cause := by
  rw [outcome_value] at h
  cases hvalue : Arithmetic.evaluate table text with
  | error cause =>
    rw [hvalue] at h
    cases h
    exact ⟨cause, rfl, rfl⟩
  | ok x =>
    rw [hvalue] at h
    cases h

/-- A condition has no answer because one of its arithmetic texts has no value. -/
theorem Condition.exists_of_holds {table : Macro.Table} {line : Text} {condition : Condition}
    {fault : Fault} (h : (condition.holds table line).outcome = .error fault) :
    ∃ text ∈ condition.texts, ∃ cause,
      Arithmetic.evaluate table text = .error cause ∧ fault = .invalidCondition line cause := by
  rw [holds, Report.outcome_bind, Report.outcome_mapM] at h
  -- All terms are decided before they are combined, so the fault is that of a term.
  rcases fault_of_bind h with hanswers | ⟨answers, -, hany⟩
  · obtain ⟨terms, hterms, hfault⟩ := fault_of_mapM hanswers
    rw [Report.outcome_mapM] at hfault
    obtain ⟨term, hterm, hfault⟩ := fault_of_mapM hfault
    have htext : ∃ text ∈ term.texts, (Term.value table line text).outcome = .error fault := by
      cases term with
      | defined negated name => cases hfault
      | comparison left kind right =>
        simp only [Term.holds, Report.outcome_bind] at hfault
        rcases fault_of_bind hfault with hleft | ⟨y, -, hrest⟩
        · exact ⟨left, List.mem_cons_self .., hleft⟩
        · rcases fault_of_bind hrest with hright | ⟨z, -, hnone⟩
          · exact ⟨right, List.mem_cons_of_mem _ (List.mem_cons_self ..), hright⟩
          · cases hnone
      | arithmetic text =>
        simp only [Term.holds, Report.outcome_bind] at hfault
        rcases fault_of_bind hfault with htext | ⟨y, -, hnone⟩
        · exact ⟨text, List.mem_singleton_self _, htext⟩
        · cases hnone
    obtain ⟨text, htext, hfault⟩ := htext
    exact ⟨text, List.mem_flatMap.2 ⟨terms, hterms, List.mem_flatMap.2 ⟨term, hterm, htext⟩⟩,
      Term.exists_of_value hfault⟩
  · cases hany

/-! ## Reading a condition -/

section JoinedBy

variable {α : Type} {Part : α → Text → Prop} {parts : List α} {text : Text} {c : Char}

/-- A character that is in none of the parts and not in the mark is not in the whole. -/
theorem JoinedBy.notMem {mark : Text} (hmark : c ∉ mark) (hpart : ∀ part text, Part part text → c ∉ text)
    (h : JoinedBy mark Part parts text) : c ∉ text := by
  induction h with
  | single hfirst => exact hpart _ _ hfirst
  | cons hfirst _ ih =>
    simp only [List.mem_append, not_or]
    exact ⟨⟨hpart _ _ hfirst, hmark⟩, ih⟩

/-- A text is split into the parts that it is joined from. -/
theorem JoinedBy.splitOnMark (hpart : ∀ part text, Part part text → c ∉ text)
    (h : JoinedBy [c, c] Part parts text) : List.Forall₂ Part parts (splitOnMark c c text) := by
  induction h with
  | single hfirst =>
    rw [splitOnMark_of_notMem (hpart _ _ hfirst)]
    exact .cons hfirst .nil
  | cons hfirst _ ih =>
    rw [List.append_assoc, List.cons_append, List.singleton_append,
      splitOnMark_append (hpart _ _ hfirst)]
    exact .cons hfirst ih

end JoinedBy

/-- Questions that have the same answers one by one have the same answers together. -/
theorem mapM_eq_of_forall₂ {α β γ : Type} {R : α → β → Prop} {f : α → Report γ} {g : β → Report γ}
    (hR : ∀ a b, R a b → f a = g b) {first : List α} {second : List β}
    (h : List.Forall₂ R first second) : first.mapM f = second.mapM g := by
  induction h with
  | nil => rfl
  | cons hhead _ ih => rw [List.mapM_cons, List.mapM_cons, hR _ _ hhead, ih]

/-- A condition is read as the one that is written. -/
theorem Condition.holds_ofText {condition : Condition} {text : Text} (h : condition.Written text)
    (table : Macro.Table) (line : Text) :
    (ofText text).holds table line = condition.holds table line := by
  have hterm (term : Term) (text : Text) (h : term.Written text) : '&' ∉ text :=
    h.notMem (by decide)
  have halternative (terms : List Term) (text : Text)
      (h : JoinedBy "&&".toList Term.Written terms text) : '|' ∉ text :=
    h.notMem (by decide) fun _ _ hwritten => hwritten.notMem (by decide)
  have hanswers : condition.mapM (fun terms => terms.mapM (Term.holds table line)) =
      (ofText text).mapM fun terms => terms.mapM (Term.holds table line) := by
    rw [ofText, List.mapM_map]
    refine mapM_eq_of_forall₂ (fun terms alternative hwritten => ?_) (h.splitOnMark halternative)
    rw [Function.comp_apply, List.mapM_map]
    refine mapM_eq_of_forall₂ (fun term text hterm => ?_) (hwritten.splitOnMark hterm)
    exact (Term.holds_ofText hterm table line).symm
  rw [holds, holds, hanswers]

/-! ## The answer -/

open Preprocessing in
/-- What a written condition answers. The values of its arithmetic texts are computed from left to
right, and the first text that has none is the fault of the line, whatever the terms before it
answer. If all texts have values, some alternative must have no term that fails. -/
theorem Preprocessing.State.conditionHolds_of_written (state : State) {condition : Condition}
    {text : Text} (h : condition.Written text) (line : Text) :
    (∀ value : Text → Float,
      (∀ written ∈ condition.texts, Arithmetic.evaluate state.table written = .ok (value written)) →
      (state.conditionHolds true text line).outcome =
        .ok (condition.any fun terms => terms.all (Term.truth state.table value))) ∧
    (∀ (before : List Text) (written : Text) (after : List Text) (cause : Arithmetic.Fault),
      condition.texts = before ++ written :: after →
      (∀ earlier ∈ before, ∃ x, Arithmetic.evaluate state.table earlier = .ok x) →
      Arithmetic.evaluate state.table written = .error cause →
      (state.conditionHolds true text line).outcome = .error (.invalidCondition line cause)) := by
  have hasks := condition.asks state.table line
  have hok {written : Text} {x : Float} (hx : Arithmetic.evaluate state.table written = .ok x) :
      (Term.value state.table line written).outcome = .ok x := by
    rw [Term.outcome_value, hx]
    rfl
  rw [State.conditionHolds, if_pos rfl, Condition.holds_ofText h]
  refine ⟨fun value hvalue => hasks.ok value fun written hwritten => hok (hvalue written hwritten),
    fun before written after cause htexts hbefore hcause => ?_⟩
  refine hasks.error before written after _ htexts (fun earlier hearlier => ?_) ?_
  · obtain ⟨x, hx⟩ := hbefore earlier hearlier
    exact ⟨x, hok hx⟩
  · rw [Term.outcome_value, hcause]
    rfl

/-- A table with a flag and the number three. -/
def exampleMacros : Macro.Table :=
  (Macro.Table.empty.set "A".toList .flag).set "N".toList (.number 3)

open Preprocessing in
/-- As `B` is missing and `N` is three, `!defined B&& ( N>=4 )||N < 3.5` holds by its second
alternative. The condition `defined(A)||M == 4` fails for want of a value of `M`, though its first
alternative decides. -/
theorem Preprocessing.State.conditionHolds_unreadName :
    (Arithmetic.evaluate exampleMacros "N".toList = .ok 3 ∧
      Arithmetic.evaluate exampleMacros "4".toList = .ok 4 ∧
      Arithmetic.evaluate exampleMacros "N ".toList = .ok 3 ∧
      Arithmetic.evaluate exampleMacros " 3.5".toList = .ok 3.5 ∧
      ((State.initial exampleMacros).conditionHolds true "!defined B&& ( N>=4 )||N < 3.5".toList
        "#if !defined B&& ( N>=4 )||N < 3.5".toList).outcome = .ok true) ∧
      Arithmetic.evaluate exampleMacros "M ".toList = .error (.unknownName "M".toList) ∧
      ((State.initial exampleMacros).conditionHolds true "defined(A)||M == 4".toList
        "#if defined(A)||M == 4".toList).outcome =
          .error (.invalidCondition "#if defined(A)||M == 4".toList (.unknownName "M".toList)) := by
  have hnil : Blanks [] := List.forall_mem_nil _
  have hspace : Blanks [' '] := by decide
  -- The terms of both conditions, as they are written.
  have hnegated : Term.Written (.defined true ['B']) "!defined B".toList :=
    .plain (.intro hnil (Term.Bare.defined (by decide) (.mark hnil) (.separate hspace (List.cons_ne_nil _ _)))
      hnil)
  have hatLeast : Term.Bare (.comparison "N".toList .atLeast "4".toList) "N>=4".toList :=
    .comparison .atLeast ⟨by decide, by decide⟩ ⟨by decide, by decide⟩
  have hwrapped : Term.Written (.comparison "N".toList .atLeast "4".toList) " ( N>=4 )".toList :=
    .parenthesized (.intro hspace (Parenthesized.intro (Surrounded.intro hspace hatLeast hspace)) hnil)
  have hless : Term.Written (.comparison "N ".toList .less " 3.5".toList) "N < 3.5".toList :=
    .plain (.intro hnil (Term.Bare.comparison .less ⟨by decide, by decide⟩ ⟨by decide, by decide⟩) hnil)
  have hdefined : Term.Written (.defined false ['A']) "defined(A)".toList :=
    .plain (.intro hnil (Term.Bare.defined (by decide) .absent (.parenthesized hnil hnil hnil)) hnil)
  have hequal : Term.Written (.comparison "M ".toList .equal " 4".toList) "M == 4".toList :=
    .plain (.intro hnil (Term.Bare.comparison .equal ⟨by decide, by decide⟩ ⟨by decide, by decide⟩) hnil)
  have hholds : Condition.Written
      [[.defined true ['B'], .comparison "N".toList .atLeast "4".toList],
        [.comparison "N ".toList .less " 3.5".toList]] "!defined B&& ( N>=4 )||N < 3.5".toList :=
    JoinedBy.cons (JoinedBy.cons hnegated (.single hwrapped)) (JoinedBy.single (.single hless))
  have hfails : Condition.Written
      [[.defined false ['A']], [.comparison "M ".toList .equal " 4".toList]]
      "defined(A)||M == 4".toList :=
    JoinedBy.cons (JoinedBy.single hdefined) (JoinedBy.single (.single hequal))
  -- The values of their arithmetic texts.
  have hleft : Arithmetic.evaluate exampleMacros "N".toList = .ok 3 := by decide +kernel
  have hfour : Arithmetic.evaluate exampleMacros "4".toList = .ok 4 := by decide +kernel
  have hleft' : Arithmetic.evaluate exampleMacros "N ".toList = .ok 3 := by decide +kernel
  have hright : Arithmetic.evaluate exampleMacros " 3.5".toList = .ok 3.5 := by decide +kernel
  have hunknown : Arithmetic.evaluate exampleMacros "M ".toList = .error (.unknownName "M".toList) := by
    decide +kernel
  let value (text : Text) : Float :=
    if text = "4".toList then 4 else if text = " 3.5".toList then 3.5 else 3
  refine ⟨⟨hleft, hfour, hleft', hright, ?_⟩, hunknown, ?_⟩
  · refine ((conditionHolds_of_written _ hholds _).1 value ?_).trans (congrArg _ ?_)
    · show ∀ written ∈ ["N".toList, "4".toList, "N ".toList, " 3.5".toList], _
      simp only [List.forall_mem_cons, List.not_mem_nil, false_implies, implies_true, and_true]
      exact ⟨hleft, hfour, hleft', hright⟩
    · decide +kernel
  · exact (conditionHolds_of_written _ hfails _).2 [] "M ".toList [" 4".toList] _ rfl
      (List.forall_mem_nil _) hunknown

end ShaderInterface
