import ShaderInterface.Preprocessing.Condition
import ShaderInterface.Proofs.Arithmetic.Substitution
import ShaderInterface.Proofs.Text.Pieces

/-!
# Terms of Conditions

A term is written with any blanks around it and at most one pair of parentheses. It is a question
for a macro, a comparison of two arithmetic texts, or a single arithmetic text. A term that is
written in one of these ways is read as what it is, up to blanks at the ends of its arithmetic
texts, which make no difference to their values.

## Main definitions

* `IsArithmetic`, `IsSide`: the arithmetic texts of conditions.
* `Comparison.sign`: how a comparison is written.
* `Asked`, `Negation`: how a question is written.
* `Term.Bare`, `Term.Written`: how a term is written, without what is around it and with it.

## Main results

* `Term.definedness?_append`, `Term.definedness?_eq_none`: which texts are questions.
* `Term.split?_comparison`: a comparison is split at its sign.
* `Term.holds_ofText`: a written term is read as what it writes.
-/

namespace ShaderInterface

open ShaderInterface.Text

/-! ## Written terms -/

/-- The characters that join terms and alternatives. -/
def joints : List Char := ['|', '&']

/-- The characters of the signs of comparisons. -/
def signChars : List Char := ['=', '!', '<', '>']

/-- The parentheses. -/
def parentheses : List Char := ['(', ')']

/-- The characters that have a meaning of their own in a condition. -/
def reserved : List Char := joints ++ signChars ++ parentheses

/-- A text that holds no reserved character. -/
def IsArithmetic (text : Text) : Prop :=
  ∀ c ∈ text, c ∉ reserved

instance (text : Text) : Decidable (IsArithmetic text) :=
  decidable_of_iff (text.all (· ∉ reserved) = true) (by simp [IsArithmetic])

/-- One side of a comparison, which is not blank. -/
structure IsSide (text : Text) : Prop where
  isArithmetic : IsArithmetic text
  not_blanks : ¬ Blanks text

/-- The mark that negates a question, or its absence. -/
inductive Negation : Bool → Text → Prop
  | absent : Negation false []
  | mark {gap : Text} : Blanks gap → Negation true ('!' :: gap)

/-- A name behind the word that asks for it. -/
inductive Asked (name : Text) : Text → Prop
  | parenthesized {first second third : Text} : Blanks first → Blanks second → Blanks third →
      Asked name (first ++ '(' :: (second ++ (name ++ (third ++ [')']))))
  | separate {gap : Text} : Blanks gap → gap ≠ [] → Asked name (gap ++ name)

/-- A text with blanks around it. -/
inductive Surrounded (Part : Text → Prop) : Text → Prop
  | intro {before text after : Text} : Blanks before → Part text → Blanks after →
      Surrounded Part (before ++ text ++ after)

/-- A text in parentheses. -/
inductive Parenthesized (Part : Text → Prop) : Text → Prop
  | intro {text : Text} : Part text → Parenthesized Part ('(' :: (text ++ [')']))

/-- The sign that a comparison is written with. -/
def Comparison.sign : Comparison → Text
  | equal => "==".toList
  | notEqual => "!=".toList
  | atMost => "<=".toList
  | atLeast => ">=".toList
  | less => "<".toList
  | greater => ">".toList

namespace Term

/-- How a term is written without anything around it. An arithmetic text that asks for a name would
be a question. -/
inductive Bare : Term → Text → Prop
  | defined {negated : Bool} {name mark question : Text} :
      IsRun name → Negation negated mark → Asked name question →
      Bare (.defined negated name) (mark ++ "defined".toList ++ question)
  | comparison {left right : Text} (kind : Comparison) : IsSide left → IsSide right →
      Bare (.comparison left kind right) (left ++ kind.sign ++ right)
  | arithmetic {text : Text} : IsArithmetic text →
      (∀ name question, IsRun name → Asked name question →
        text.trim ≠ "defined".toList ++ question) →
      Bare (.arithmetic text) text

/-- How a term is written: with blanks around it, and perhaps in parentheses. -/
inductive Written (term : Term) : Text → Prop
  | plain {text : Text} : Surrounded (Bare term) text → Written term text
  | parenthesized {text : Text} :
      Surrounded (Parenthesized (Surrounded (Bare term))) text → Written term text

end Term

/-! ## Reading a term -/

/-- What joins terms or alternatives is neither a blank nor part of a term. -/
theorem of_mem_joints {c : Char} (h : c ∈ joints) : isBlank c = false ∧ isWord c = false ∧
    c ∉ "defined".toList ∧ c ∉ signChars ∧ c ∉ parentheses := by
  simp only [joints, List.mem_cons, List.not_mem_nil, or_false] at h
  rcases h with rfl | rfl <;> decide

/-- What belongs to a sign is neither a blank nor part of a name in a question. -/
theorem of_mem_signChars {c : Char} (h : c ∈ signChars) : isBlank c = false ∧ isWord c = false ∧
    c ∉ "defined".toList ∧ c ∉ parentheses := by
  simp only [signChars, List.mem_cons, List.not_mem_nil, or_false] at h
  rcases h with rfl | rfl | rfl | rfl <;> decide

namespace Comparison

theorem subset_of_mem_signs : ∀ entry ∈ signs, entry.1 ⊆ signChars := by
  decide

theorem sign_mem (kind : Comparison) : (kind.sign, kind) ∈ signs := by
  cases kind <;> decide

/-- No sign is empty. -/
theorem exists_cons_of_mem_signs : ∀ entry ∈ signs, ∃ c rest, entry.1 = c :: rest ∧ c ∈ signChars := by
  have hne : ∀ entry ∈ signs, entry.1 ≠ [] := by decide
  intro entry hentry
  obtain ⟨c, rest, heq⟩ := List.exists_cons_of_ne_nil (hne entry hentry)
  refine ⟨c, rest, heq, subset_of_mem_signs entry hentry ?_⟩
  rw [heq]
  exact List.mem_cons_self ..

/-- No sign starts with a character of an arithmetic text. -/
theorem ofStart?_eq_none {c : Char} (h : c ∉ reserved) (rest : Text) :
    ofStart? (c :: rest) = none := by
  refine List.findSome?_eq_none_iff.2 fun entry hentry => ?_
  obtain ⟨d, tail, htail, hd⟩ := exists_cons_of_mem_signs entry hentry
  have hne : (d == c) = false := by
    refine beq_eq_false_iff_ne.2 fun heq => h ?_
    exact heq ▸ List.mem_append_left _ (List.mem_append_right _ hd)
  simp only [htail, List.isPrefixOf?, hne, Bool.false_eq_true, if_false]

/-- A sign is found where it stands in front of a text that does not add to it. -/
theorem ofStart?_sign (kind : Comparison) {c : Char} (hc : c ≠ '=') (rest : Text) :
    ofStart? (kind.sign ++ c :: rest) = some (kind, c :: rest) := by
  have hne : ('=' == c) = false := beq_eq_false_iff_ne.2 fun heq => hc heq.symm
  cases kind <;> simp [ofStart?, signs, sign, List.isPrefixOf?, hne]

/-- A comparison is found behind an arithmetic text. -/
theorem split?_append {left behind right : Text} {kind : Comparison} (hne : left ≠ [])
    (hleft : IsArithmetic left) (h : ofStart? behind = some (kind, right)) :
    split? (left ++ behind) = some (left, kind, right) := by
  induction left with
  | nil => exact absurd rfl hne
  | cons c rest ih =>
    rw [IsArithmetic, List.forall_mem_cons] at hleft
    rw [List.cons_append, split?]
    -- The sign starts right behind this character, or none starts there.
    rcases rest with - | ⟨d, rest⟩
    · rw [List.nil_append, h]
    · rw [List.cons_append, ofStart?_eq_none (hleft.2 d (List.mem_cons_self ..)),
        ← List.cons_append, ih (List.cons_ne_nil _ _) hleft.2]
      rfl

/-- There is no comparison in an arithmetic text. -/
theorem split?_eq_none {text : Text} (h : IsArithmetic text) : split? text = none := by
  induction text with
  | nil => rfl
  | cons c rest ih =>
    rw [IsArithmetic, List.forall_mem_cons] at h
    have hstart : ofStart? rest = none := by
      rcases rest with - | ⟨d, rest⟩
      · decide
      · exact ofStart?_eq_none (h.2 d (List.mem_cons_self ..)) rest
    rw [split?, hstart, ih h.2]
    rfl

end Comparison

/-- What stands in a question. -/
theorem Asked.mem {name question : Text} (h : Asked name question) (hname : IsRun name) {c : Char}
    (hc : c ∈ question) : isBlank c = true ∨ isWord c = true ∨ c ∈ parentheses := by
  cases h with
  | parenthesized hfirst hsecond hthird =>
    simp only [List.mem_append, List.mem_cons, List.not_mem_nil, or_false] at hc
    obtain hc | rfl | hc | hc | hc | rfl := hc
    · exact .inl (hfirst c hc)
    · decide
    · exact .inl (hsecond c hc)
    · exact .inr (.inl (hname.isWord c hc))
    · exact .inl (hthird c hc)
    · decide
  | separate hgap =>
    rcases List.mem_append.1 hc with hc | hc
    · exact .inl (hgap c hc)
    · exact .inr (.inl (hname.isWord c hc))

namespace Term

/-- A word character does not stand behind a name in front of a closing parenthesis. -/
theorem isWord_head_of_blanks {gap : Text} (h : Blanks gap) :
    isWord? (gap ++ [')']).head? = false := by
  rcases gap with - | ⟨c, rest⟩
  · decide
  · exact isWord_of_isBlank (h c (List.mem_cons_self ..))

/-- The text behind blanks that are followed by a name. -/
theorem trimStart_append_of_isRun {gap name : Text} (hgap : Blanks gap) (hname : IsRun name)
    (rest : Text) : trimStart (gap ++ (name ++ rest)) = name ++ rest := by
  obtain ⟨c, tail, rfl⟩ := List.exists_cons_of_ne_nil hname.ne_nil
  rw [trimStart_append hgap]
  exact trimStart_cons (isBlank_of_isWord (hname.isWord c (List.mem_cons_self ..))) _

theorem trimStart_of_isRun {gap name : Text} (hgap : Blanks gap) (hname : IsRun name) :
    trimStart (gap ++ name) = name := by
  simpa using trimStart_append_of_isRun hgap hname []

/-- A name is read from the parentheses around it. -/
theorem parenthesizedName?_append {first second third name : Text} (hfirst : Blanks first)
    (hsecond : Blanks second) (hthird : Blanks third) (hname : IsRun name) :
    parenthesizedName? (first ++ '(' :: (second ++ (name ++ (third ++ [')'])))) = some name := by
  have hopen : trimStart (first ++ '(' :: (second ++ (name ++ (third ++ [')'])))) =
      '(' :: (second ++ (name ++ (third ++ [')']))) := by
    rw [trimStart_append hfirst, trimStart_cons (by decide)]
  -- The name ends where the blanks or the closing parenthesis start.
  have hrun : (name ++ (third ++ [')'])).dropWhile isWord = (third ++ [')']).dropWhile isWord :=
    List.dropWhile_append_of_pos hname.isWord
  have hstop := (takeWhile_append_of_stop [] (isWord_head_of_blanks hthird)).2
  have hclose : trimStart (third ++ [')']) = [')'] := trimStart_append hthird [')']
  rw [List.nil_append, List.dropWhile_nil, List.nil_append] at hstop
  rw [parenthesizedName?, hopen]
  simp only [List.isPrefixOf?, beq_self_eq_true, if_true, Option.bind_eq_bind, Option.bind_some,
    trimStart_append_of_isRun hsecond hname, hrun, hstop, hclose,
    takeWhile_isWord hname.isWord (isWord_head_of_blanks hthird),
    List.isEmpty_eq_false_iff.2 hname.ne_nil, Bool.not_false, Bool.true_and]

/-- A name that is read from parentheses is written in them. -/
theorem asked_of_parenthesizedName? {text name : Text} (h : parenthesizedName? text = some name) :
    IsRun name ∧ Asked name text := by
  obtain ⟨inner, hopen, hinner⟩ := Option.bind_eq_some_iff.1 h
  simp only [Option.ite_none_right_eq_some, Bool.and_eq_true, Bool.not_eq_true',
    List.isEmpty_eq_false_iff, beq_iff_eq, Option.some_inj] at hinner
  obtain ⟨⟨hne, hclose⟩, rfl⟩ := hinner
  -- The blanks that were skipped are put back.
  obtain ⟨first, hfirst, htext⟩ := exists_append_trimStart text
  obtain ⟨second, hsecond, hbehind⟩ := exists_append_trimStart inner
  obtain ⟨third, hthird, hrest⟩ := exists_append_trimStart ((trimStart inner).dropWhile isWord)
  have hwhole : text = first ++ '(' :: (second ++ ((trimStart inner).takeWhile isWord ++
      (third ++ [')']))) := by
    rw [← hclose, ← hrest, List.takeWhile_append_dropWhile, ← hbehind, ← List.singleton_append,
      List.isPrefixOf?_eq_some_iff_append_eq.1 hopen, ← htext]
  rw [hwhole]
  exact ⟨⟨hne, List.all_eq_true.1 List.all_takeWhile⟩, .parenthesized hfirst hsecond hthird⟩

/-- A name is read behind the blanks in front of it. -/
theorem separateName?_append {gap name : Text} (hgap : Blanks gap) (hne : gap ≠ [])
    (hname : IsRun name) : separateName? (gap ++ name) = some name := by
  obtain ⟨c, rest, rfl⟩ := List.exists_cons_of_ne_nil hne
  have hc : isBlank c = true := hgap c (List.mem_cons_self ..)
  rw [separateName?, trimStart_of_isRun hgap hname, List.cons_append, List.head?_cons, Option.any_some, hc,
    List.isEmpty_eq_false_iff.2 hname.ne_nil, List.all_eq_true.2 hname.isWord]
  rfl

/-- A name that is read alone has blanks in front of it. -/
theorem asked_of_separateName? {text name : Text} (h : separateName? text = some name) :
    IsRun name ∧ Asked name text := by
  simp only [separateName?, Option.ite_none_right_eq_some, Bool.and_eq_true, Bool.not_eq_true',
    List.isEmpty_eq_false_iff, Option.some_inj] at h
  obtain ⟨⟨⟨hblank, hne⟩, hword⟩, rfl⟩ := h
  obtain ⟨gap, hgap, htext⟩ := exists_append_trimStart text
  have hname : IsRun (trimStart text) := ⟨hne, List.all_eq_true.1 hword⟩
  have hgapne : gap ≠ [] := by
    rintro rfl
    rw [List.nil_append] at htext
    have hstop := any_head?_dropWhile isBlank text
    rw [← trimStart, ← htext, hblank] at hstop
    cases hstop
  have hasked : Asked (trimStart text) (gap ++ trimStart text) := .separate hgap hgapne
  rw [← htext] at hasked
  exact ⟨hname, hasked⟩

/-- A name without parentheses is not read from parentheses. -/
theorem parenthesizedName?_separate {gap name : Text} (hgap : Blanks gap) (hname : IsRun name) :
    parenthesizedName? (gap ++ name) = none := by
  have hstart := trimStart_of_isRun hgap hname
  obtain ⟨c, rest, rfl⟩ := List.exists_cons_of_ne_nil hname.ne_nil
  have hne : ('(' == c) = false := by
    refine beq_eq_false_iff_ne.2 ?_
    rintro rfl
    exact absurd (hname.isWord '(' (List.mem_cons_self ..)) (by decide)
  rw [parenthesizedName?, hstart]
  simp only [List.isPrefixOf?, hne, Bool.false_eq_true, if_false]
  rfl

/-- A question is found behind the word that asks it. -/
theorem definedness?_append {negated : Bool} {name mark question : Text} (hname : IsRun name)
    (hmark : Negation negated mark) (hquestion : Asked name question) :
    definedness? (mark ++ "defined".toList ++ question) = some (.defined negated name) := by
  have hfound : (parenthesizedName? question).or (separateName? question) = some name := by
    cases hquestion with
    | parenthesized hfirst hsecond hthird =>
      rw [parenthesizedName?_append hfirst hsecond hthird hname, Option.some_or]
    | separate hgap hne =>
      rw [parenthesizedName?_separate hgap hname, separateName?_append hgap hne hname,
        Option.none_or]
  have hword : "defined".toList.isPrefixOf? ("defined".toList ++ question) = some question :=
    List.isPrefixOf?_eq_some_iff_append_eq.2 rfl
  have hstart : trimStart ("defined".toList ++ question) = "defined".toList ++ question :=
    trimStart_cons (by decide) _
  rw [List.append_assoc]
  -- What the mark tells, and what is left behind it.
  have hparts : ((mark ++ ("defined".toList ++ question)).head? == some '!') = negated ∧
      trimStart (if negated then (mark ++ ("defined".toList ++ question)).drop 1
        else mark ++ ("defined".toList ++ question)) = "defined".toList ++ question := by
    cases hmark with
    | absent => exact ⟨rfl, hstart⟩
    | mark hgap => exact ⟨rfl, (trimStart_append hgap _).trans hstart⟩
  simp only [definedness?, hparts.1, hparts.2, hword, hfound, Option.bind_eq_bind,
    Option.bind_some]
  rfl

/-- A text that asks for no name is no question. -/
theorem definedness?_eq_none {text : Text} (hmark : text.head? ≠ some '!')
    (hstart : text.head?.any isBlank = false)
    (h : ∀ name question, IsRun name → Asked name question → text ≠ "defined".toList ++ question) :
    definedness? text = none := by
  have htrim : trimStart text = text := by
    rcases text with - | ⟨c, rest⟩
    · rfl
    · exact trimStart_cons hstart rest
  have hmark : (text.head? == some '!') = false := beq_eq_false_iff_ne.2 hmark
  simp only [definedness?, hmark, Bool.false_eq_true, if_false, htrim, Option.bind_eq_bind]
  refine Option.bind_eq_none_iff.2 fun question hword => Option.bind_eq_none_iff.2 fun name hname => ?_
  have htext := List.isPrefixOf?_eq_some_iff_append_eq.1 hword
  obtain ⟨hrun, hasked⟩ : IsRun name ∧ Asked name question := by
    rcases Option.or_eq_some_iff.1 hname with hname | ⟨-, hname⟩
    · exact asked_of_parenthesizedName? hname
    · exact asked_of_separateName? hname
  exact absurd htext.symm (h name question hrun hasked)

/-! ## Terms as they are written -/

/-- A question ends with a parenthesis or with a name. -/
theorem exists_concat_of_asked {name question : Text} (hname : IsRun name)
    (h : Asked name question) : ∃ front c, question = front ++ [c] ∧ isBlank c = false := by
  cases h with
  | @parenthesized first second third _ _ _ =>
    refine ⟨first ++ '(' :: (second ++ (name ++ third)), ')', ?_, by decide⟩
    simp only [List.append_assoc, List.cons_append]
  | @separate gap _ _ =>
    obtain rfl | ⟨front, c, rfl⟩ := List.eq_nil_or_concat name
    · exact absurd rfl hname.ne_nil
    · refine ⟨gap ++ front, c, ?_, isBlank_of_isWord (hname.isWord c ?_)⟩
      · rw [List.concat_eq_append, List.append_assoc]
      · rw [List.concat_eq_append]
        exact List.mem_append_right _ (List.mem_singleton_self c)

/-- A question starts with its mark, or with the word that asks it. -/
theorem head_question {negated : Bool} {mark : Text} (h : Negation negated mark) (question : Text) :
    (mark ++ "defined".toList ++ question).head? = some '!' ∨
      (mark ++ "defined".toList ++ question).head? = some 'd' := by
  cases h with
  | absent => exact .inr rfl
  | mark => exact .inl rfl

/-- There are no blanks around a question. -/
theorem trim_question {negated : Bool} {name mark question : Text} (hname : IsRun name)
    (hmark : Negation negated mark) (hquestion : Asked name question) :
    trim (mark ++ "defined".toList ++ question) = mark ++ "defined".toList ++ question := by
  obtain ⟨front, c, rfl, hc⟩ := exists_concat_of_asked hname hquestion
  refine trim_eq_self ?_ ?_
  · rcases head_question hmark (front ++ [c]) with hhead | hhead <;> rw [hhead] <;> decide
  · rw [← List.append_assoc, List.getLast?_concat]
    exact hc

/-- A comparison holds no reserved character but those of its sign. -/
theorem notMem_comparison {left right : Text} (kind : Comparison) (hleft : IsSide left)
    (hright : IsSide right) {c : Char} (hreserved : c ∈ reserved) (hc : c ∉ signChars) :
    c ∉ left ++ kind.sign ++ right := by
  simp only [List.mem_append, not_or]
  exact ⟨⟨fun hmem => hleft.isArithmetic c hmem hreserved,
    fun hmem => hc (Comparison.subset_of_mem_signs _ kind.sign_mem hmem)⟩,
    fun hmem => hright.isArithmetic c hmem hreserved⟩

/-- A term is no text in parentheses. -/
theorem Bare.head_trim {term : Term} {text : Text} (h : Bare term text) :
    text.trim.head? ≠ some '(' := by
  cases h with
  | defined hname hmark hquestion =>
    rw [trim_question hname hmark hquestion]
    rcases head_question hmark _ with hhead | hhead <;> rw [hhead] <;> decide
  | comparison kind hleft hright =>
    intro hhead
    exact notMem_comparison kind hleft hright (by decide) (by decide)
      (mem_of_mem_trim (List.mem_of_head? hhead))
  | arithmetic htext =>
    intro hhead
    exact htext '(' (mem_of_mem_trim (List.mem_of_head? hhead)) (by decide)

/-- What is around a term is taken off. -/
theorem Written.unwrap {term : Term} {text : Text} (h : Written term text) :
    ∃ bare, Bare term bare ∧ unwrap text = bare.trim := by
  cases h with
  | plain h =>
    obtain @⟨before, bare, after, hbefore, hbare, hafter⟩ := h
    refine ⟨bare, hbare, ?_⟩
    -- The parentheses of a question are not around all of it.
    rw [Term.unwrap, trim_surrounded hbefore hafter, if_neg fun hparens => hbare.head_trim hparens.1]
  | parenthesized h =>
    obtain @⟨before, whole, after, hbefore, ⟨hinner⟩, hafter⟩ := h
    obtain @⟨front, bare, behind, hfront, hbare, hbehind⟩ := hinner
    have hlast : ('(' :: (front ++ bare ++ behind ++ [')'])).getLast? = some ')' := by
      rw [← List.cons_append, List.getLast?_concat]
    have htrim : trim ('(' :: (front ++ bare ++ behind ++ [')'])) =
        '(' :: (front ++ bare ++ behind ++ [')']) := by
      refine trim_eq_self (by rw [List.head?_cons]; decide) ?_
      rw [hlast]
      decide
    refine ⟨bare, hbare, ?_⟩
    rw [Term.unwrap, trim_surrounded hbefore hafter, htrim, if_pos ⟨rfl, hlast⟩, List.drop_one,
      List.tail_cons, List.dropLast_concat, trim_surrounded hfront hbehind]

section Comparison

variable {left right : Text} (kind : Comparison)

/-- A comparison is no question, because of its sign. -/
theorem definedness?_comparison (hleft : IsSide left) (hright : IsSide right) :
    definedness? (trim (left ++ kind.sign ++ right)) = none := by
  obtain ⟨c, rest, hstart⟩ := List.exists_cons_of_ne_nil (trimStart_ne_nil hleft.not_blanks)
  have htrim := trim_append hleft.not_blanks hright.not_blanks kind.sign
  refine definedness?_eq_none ?_ (isBlank_head_trim _) fun name question hname hasked heq => ?_
  · -- What a negation would start with belongs to the left text.
    rw [htrim, hstart]
    intro hhead
    obtain rfl : c = '!' := Option.some_inj.1 hhead
    refine hleft.isArithmetic '!' (mem_of_mem_trimStart ?_) (by decide)
    rw [hstart]
    exact List.mem_cons_self ..
  · -- The sign starts with a character that no question holds.
    obtain ⟨d, tail, hsign, hd⟩ : ∃ d tail, kind.sign = d :: tail ∧ d ∈ signChars :=
      Comparison.exists_cons_of_mem_signs _ kind.sign_mem
    obtain ⟨hblank, hword, hdefined, hparens⟩ := of_mem_signChars hd
    have hquestion : d ∈ "defined".toList ++ question := by
      rw [← heq, htrim, hsign]
      exact List.mem_append_left _ (List.mem_append_right _ (List.mem_cons_self ..))
    rcases List.mem_append.1 hquestion with hmem | hmem
    · exact hdefined hmem
    · have hkinds := hasked.mem hname hmem
      simp only [hblank, hword, hparens, Bool.false_eq_true, or_self] at hkinds

/-- A comparison is split at its sign. -/
theorem split?_comparison (hleft : IsSide left) (hright : IsSide right) :
    Comparison.split? (trim (left ++ kind.sign ++ right)) =
      some (left.trimStart, kind, right.trimEnd) := by
  obtain ⟨c, rest, hend⟩ := List.exists_cons_of_ne_nil (trimEnd_ne_nil hright.not_blanks)
  -- The right text does not turn `<` into `<=`, since it holds no character of a sign.
  have hc : c ≠ '=' := by
    rintro rfl
    refine hright.isArithmetic '=' (mem_of_mem_trimEnd ?_) (by decide)
    rw [hend]
    exact List.mem_cons_self ..
  rw [trim_append hleft.not_blanks hright.not_blanks, hend, List.append_assoc]
  exact Comparison.split?_append (trimStart_ne_nil hleft.not_blanks)
    (fun d hd => hleft.isArithmetic d (mem_of_mem_trimStart hd))
    (Comparison.ofStart?_sign kind hc rest)

end Comparison

/-- A term that is read is the one that is written, up to blanks in its texts. -/
theorem Bare.holds {term : Term} {bare text : Text} (h : Bare term bare)
    (hunwrap : Term.unwrap text = bare.trim) (table : Macro.Table) (line : Text) :
    (ofText text).holds table line = term.holds table line := by
  rw [ofText, hunwrap]
  cases h with
  | defined hname hmark hquestion =>
    rw [trim_question hname hmark hquestion, definedness?_append hname hmark hquestion]
  | comparison kind hleft hright =>
    simp only [definedness?_comparison kind hleft hright, split?_comparison kind hleft hright]
    simp only [Term.holds, value, Arithmetic.evaluate_trimStart, Arithmetic.evaluate_trimEnd]
  | arithmetic htext hno =>
    have hno : definedness? bare.trim = none := by
      refine definedness?_eq_none (fun hhead => ?_) (isBlank_head_trim bare) hno
      exact htext '!' (mem_of_mem_trim (List.mem_of_head? hhead)) (by decide)
    have hsplit : Comparison.split? bare.trim = none :=
      Comparison.split?_eq_none fun c hc => htext c (mem_of_mem_trim hc)
    simp only [hno, hsplit]
    simp only [Term.holds, value, Arithmetic.evaluate_trim]

/-- A term is read as the one that is written. -/
theorem holds_ofText {term : Term} {text : Text} (h : Written term text) (table : Macro.Table)
    (line : Text) : (ofText text).holds table line = term.holds table line := by
  obtain ⟨bare, hbare, hunwrap⟩ := h.unwrap
  exact hbare.holds hunwrap table line

/-- A term does not hold what joins terms or alternatives. -/
theorem Bare.notMem {term : Term} {text : Text} (h : Bare term text) {c : Char}
    (hc : c ∈ joints) : c ∉ text := by
  obtain ⟨hblank, hword, hdefined, hsignChars, hparens⟩ := of_mem_joints hc
  have hreserved : c ∈ reserved := List.mem_append_left _ (List.mem_append_left _ hc)
  cases h with
  | defined hname hmark hasked =>
    simp only [List.mem_append, not_or]
    refine ⟨⟨fun hmem => ?_, hdefined⟩, fun hmem => ?_⟩
    · cases hmark with
      | absent => cases hmem
      | mark hgap =>
        rcases List.mem_cons.1 hmem with rfl | hmem
        · exact hsignChars (by decide)
        · exact notMem_of_blanks hgap hblank hmem
    · have hkinds := hasked.mem hname hmem
      simp only [hblank, hword, hparens, Bool.false_eq_true, or_self] at hkinds
  | comparison kind hleft hright =>
    exact notMem_comparison kind hleft hright hreserved hsignChars
  | arithmetic htext => exact fun hmem => htext c hmem hreserved

theorem notMem_of_surrounded {Part : Text → Prop} {c : Char} (hblank : isBlank c = false)
    (hpart : ∀ text, Part text → c ∉ text) {text : Text} (h : Surrounded Part text) : c ∉ text := by
  obtain @⟨before, inner, after, hbefore, hinner, hafter⟩ := h
  simp only [List.mem_append, not_or]
  exact ⟨⟨notMem_of_blanks hbefore hblank, hpart inner hinner⟩, notMem_of_blanks hafter hblank⟩

theorem Written.notMem {term : Term} {text : Text} (h : Written term text) {c : Char}
    (hc : c ∈ joints) : c ∉ text := by
  obtain ⟨hblank, -, -, -, hparens⟩ := of_mem_joints hc
  have hbare (text : Text) (h : Surrounded (Bare term) text) : c ∉ text :=
    notMem_of_surrounded hblank (fun _ hbare => hbare.notMem hc) h
  cases h with
  | plain h => exact hbare text h
  | parenthesized h =>
    refine notMem_of_surrounded hblank ?_ h
    rintro whole ⟨hinner⟩ hmem
    simp only [List.mem_cons, List.mem_append, List.not_mem_nil, or_false] at hmem
    obtain rfl | hmem | rfl := hmem
    · exact hparens (by decide)
    · exact hbare _ hinner hmem
    · exact hparens (by decide)

end Term

end ShaderInterface
