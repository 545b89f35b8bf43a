import ShaderInterface.Interface.Compute
import ShaderInterface.Proofs.Interface.Stripping

/-!
# Sources with Comments

The declarations of a source are those of the source without comments, up to the comments that were
taken with them, if all texts between delimiters hold whole comments only.

What is taken with a block makes no difference to its members. An attribute or an array size is
evaluated with its comments, so that there should be none.

## Main definitions

* `attempts`: where declarations are tried.
* `CommentsApart`: what is taken between delimiters where a declaration is tried is whole.
* `Declaration.Uncommented`: there is no comment mark in what is evaluated.

## Main results

* `declarations_eq_filterMap`: each declaration is read at one of the attempts.
* `attempts_stripComments`: removing comments neither adds an attempt nor takes one away.
* `declarations_stripComments`: the declarations of a source without comments.
* `reflect_stripComments`: the interface of a source without comments.
-/

namespace ShaderInterface.Interface

open ShaderInterface.Text

variable {text : Text}

/-! ## Declarations -/

/-- The variable or block without the comments that were taken with its parts. -/
def Variable.withoutComments (declared : Variable) : Variable :=
  { declared with
    attributes := stripComments declared.attributes
    block := declared.block.map stripComments
    array := declared.array.map stripComments }

/-- The declaration without the comments that were taken with its parts. -/
def Declaration.withoutComments : Declaration → Declaration
  | .stageWide attributes storage => .stageWide (stripComments attributes) storage
  | .interface declared => .interface declared.withoutComments

/-- The text behind the storage qualifier of a variable or block, where a declaration is tried. -/
def behindStorage? (attempt : Text) : Option Text := do
  let opened ← symbol? '(' attempt
  let (_, closed) ← opened.cut? ')'
  let (word, after) ← qualifier? closed
  if (Storage.ofQualifier? word).isSome && (symbol? ';' after).isNone then some after else none

/-- The text behind the type and the name of a variable or block, where its members are looked for. -/
def beforeBlock? (attempt : Text) : Option Text := do
  let (_, after) ← name? (← behindStorage? attempt)
  return (optionalName after).2

/-- The text behind the name of an instance, where the size of an array is looked for. -/
def beforeArray? (attempt : Text) : Option Text := do
  let (_, after) ← optionalEnclosed? '{' '}' (← beforeBlock? attempt)
  return (optionalName after).2

/-- Where a declaration is tried, no delimiter is taken from the inside of a comment. -/
structure CommentsApart (attempt : Text) : Prop where
  attributes : TakesWhole '(' ')' attempt
  block : ∀ text ∈ beforeBlock? attempt, TakesWhole '{' '}' text
  array : ∀ text ∈ beforeArray? attempt, TakesWhole '[' ']' text

instance (attempt : Text) : Decidable (CommentsApart attempt) :=
  decidable_of_iff (TakesWhole '(' ')' attempt ∧
      (∀ text ∈ beforeBlock? attempt, TakesWhole '{' '}' text) ∧
      ∀ text ∈ beforeArray? attempt, TakesWhole '[' ']' text)
    ⟨fun ⟨hattributes, hblock, harray⟩ => ⟨hattributes, hblock, harray⟩,
      fun h => ⟨h.attributes, h.block, h.array⟩⟩

/-- The variable or block that is read without comments is the one that is read with them, without its
comments. -/
theorem declared?_stripComments {attributes : Text} {storage : Storage}
    (hblock : ∀ type after, name? text = some (type, after) →
      TakesWhole '{' '}' (optionalName after).2)
    (harray : ∀ type after block behind, name? text = some (type, after) →
      optionalEnclosed? '{' '}' (optionalName after).2 = some (block, behind) →
      TakesWhole '[' ']' (optionalName behind).2) :
    declared? (stripComments attributes) storage (stripComments text) =
      (declared? attributes storage text).map fun (declared, rest) =>
        (declared.withoutComments, stripComments rest) := by
  rw [declared?, declared?, name?_stripComments]
  cases htype : name? text with
  | none => rfl
  | some found =>
    obtain ⟨type, afterType⟩ := found
    simp only [Option.map_some, Option.bind_eq_bind, Option.bind_some, optionalName_stripComments]
    rw [optionalEnclosed?_stripComments (by decide) (hblock type afterType htype)]
    cases henclosed : optionalEnclosed? '{' '}' (optionalName afterType).2 with
    | none => rfl
    | some found =>
      obtain ⟨block, afterBlock⟩ := found
      simp only [Option.map_some, Option.bind_some, optionalName_stripComments]
      rw [optionalEnclosed?_stripComments (by decide)
        (harray type afterType block afterBlock htype henclosed)]
      cases optionalEnclosed? '[' ']' (optionalName afterBlock).2 <;> rfl

/-- The declaration that is read without comments is the one that is read with them, without its
comments. -/
theorem declaration?_stripComments (h : CommentsApart text) :
    declaration? (stripComments text) =
      (declaration? text).map fun (declaration, rest) =>
        (declaration.withoutComments, stripComments rest) := by
  rw [declaration?, declaration?, symbol?_stripComments]
  cases hopened : symbol? '(' text with
  | none => rfl
  | some opened =>
    simp only [Option.map_some, Option.bind_eq_bind, Option.bind_some]
    have hattributes := h.attributes
    rw [TakesWhole, hopened] at hattributes
    rw [cut?_stripComments (by decide) hattributes]
    cases hcut : opened.cut? ')' with
    | none => rfl
    | some found =>
      obtain ⟨attributes, closed⟩ := found
      simp only [Option.map_some, Option.bind_some, qualifier?_stripComments]
      cases hword : qualifier? closed with
      | none => rfl
      | some found =>
        obtain ⟨word, after⟩ := found
        simp only [Option.map_some, Option.bind_some, symbol?_stripComments]
        cases hstorage : Storage.ofQualifier? word with
        | none => rfl
        | some storage =>
          cases hstop : symbol? ';' after with
          | some rest => rfl
          | none =>
            -- A variable or block is declared: the texts in which it takes a part of are those behind
            -- its type and behind its members.
            have hbehind : behindStorage? text = some after := by
              simp [behindStorage?, hopened, hcut, hword, hstorage, hstop]
            have hdeclared : declared? (stripComments attributes) storage (stripComments after) =
                (declared? attributes storage after).map fun (declared, rest) =>
                  (declared.withoutComments, stripComments rest) := by
              refine declared?_stripComments (fun type afterType htype => ?_)
                fun type afterType block afterBlock htype henclosed => ?_
              · exact h.block _ (by simp [beforeBlock?, hbehind, htype])
              · exact h.array _ (by simp [beforeArray?, beforeBlock?, hbehind, htype, henclosed])
            simp only [Option.map_none, Option.bind_some, hdeclared]
            cases declared? attributes storage after <;> rfl

/-! ## Sources -/

/-- The texts behind the names `layout` at which a declaration is tried. -/
def attempts (source : Text) : List Text :=
  match _hsource : skipTrivia source with
  | [] => []
  | c :: after =>
    match _hname : name? (c :: after) with
    | none => attempts after
    | some (name, rest) =>
      if name = "layout".toList then
        match _h : declaration? rest with
        | some (_, behind) => rest :: attempts behind
        | none => rest :: attempts rest
      else attempts rest
termination_by source.length
decreasing_by
  all_goals have bound := length_skipTrivia_le source
  all_goals rw [_hsource, List.length_cons] at bound
  · omega
  all_goals have := length_lt_of_name? _hname
  all_goals rw [List.length_cons] at this
  · have := length_lt_of_declaration? _h
    omega
  · omega
  · omega

/-- The declarations of a source are those that are read where one is tried. -/
theorem declarations_eq_filterMap (source : Text) :
    declarations source =
      (attempts source).filterMap fun attempt => (declaration? attempt).map Prod.fst := by
  fun_induction attempts source with
  | case1 source hsource =>
    exact (declarations_of_skipTrivia (hsource.trans skipTrivia_nil.symm)).trans declarations_nil
  | case2 source c after hsource hname ih =>
    rw [declarations_mark hsource ((name?_of_skipTrivia hsource).symm.trans hname), ih]
  | case3 source c after hsource rest declaration behind hdeclaration hname ih =>
    rw [declarations_of_name? ((name?_of_skipTrivia hsource).symm.trans hname), if_pos rfl,
      hdeclaration, List.filterMap_cons, hdeclaration, ← ih]
    rfl
  | case4 source c after hsource rest hdeclaration hname ih =>
    rw [declarations_of_name? ((name?_of_skipTrivia hsource).symm.trans hname), if_pos rfl,
      hdeclaration, List.filterMap_cons, hdeclaration, ← ih]
    rfl
  | case5 source c after hsource name rest hname hne ih =>
    rw [declarations_of_name? ((name?_of_skipTrivia hsource).symm.trans hname), if_neg hne, ih]

section Attempts

variable {c : Char} {after name behind : Text}

theorem attempts_nil (h : skipTrivia text = []) : attempts text = [] := by
  rw [attempts, h]

/-- A character that opens no name is passed over. -/
theorem attempts_mark (hskip : skipTrivia text = c :: after) (hname : name? text = none) :
    attempts text = attempts after := by
  rw [attempts, hskip]
  simp only
  split
  next => rfl
  next found _ hfound => cases hfound.symm.trans ((name?_of_skipTrivia hskip).trans hname)

/-- A declaration is tried behind the name `layout` and at no other name. -/
theorem attempts_of_name? (h : name? text = some (name, behind)) :
    attempts text =
      if name = "layout".toList then
        behind :: attempts (((declaration? behind).map Prod.snd).getD behind)
      else attempts behind := by
  rw [attempts]
  split
  next hskip =>
    rw [name?, hskip] at h
    cases h
  next hskip =>
    have hsame := (name?_of_skipTrivia hskip).trans h
    split
    next hnone => cases hnone.symm.trans hsame
    next hsome =>
      obtain ⟨rfl, rfl⟩ := Prod.mk.inj (Option.some_inj.1 (hsome.symm.trans hsame))
      -- The search goes on behind the declaration, or behind the name if there is none.
      split
      · split
        next hread =>
          rw [hread]
          rfl
        next hread =>
          rw [hread]
          rfl
      · rfl

end Attempts

/-- Declarations of a source without comments are tried where those of the source are. -/
theorem attempts_stripComments {source : Text}
    (h : ∀ attempt ∈ attempts source, CommentsApart attempt) :
    attempts (stripComments source) = (attempts source).map stripComments := by
  fun_induction attempts source with
  | case1 source hsource =>
    exact attempts_nil (by rw [skipTrivia_stripComments, hsource, stripComments_nil])
  | case2 source c after hsource hname ih =>
    -- What stands next is the same with and without comments.
    have hskip : skipTrivia (stripComments source) = c :: stripComments after := by
      rw [skipTrivia_stripComments, hsource,
        stripComments_char (afterComment?_of_skipTrivia hsource)]
    have hfound : name? (stripComments source) = none := by
      rw [name?_stripComments, (name?_of_skipTrivia hsource).symm.trans hname]
      rfl
    rw [attempts_mark hskip hfound, ih h]
  | case3 source c after hsource rest declaration behind hdeclaration hname ih =>
    have hfound := (name?_of_skipTrivia hsource).symm.trans hname
    rw [List.forall_mem_cons] at h
    rw [attempts_of_name? (name?_stripComments_of_some hfound), if_pos rfl,
      declaration?_stripComments h.1, hdeclaration]
    exact congrArg (_ :: ·) (ih h.2)
  | case4 source c after hsource rest hdeclaration hname ih =>
    have hfound := (name?_of_skipTrivia hsource).symm.trans hname
    rw [List.forall_mem_cons] at h
    rw [attempts_of_name? (name?_stripComments_of_some hfound), if_pos rfl,
      declaration?_stripComments h.1, hdeclaration]
    exact congrArg (_ :: ·) (ih h.2)
  | case5 source c after hsource name rest hname hne ih =>
    have hfound := (name?_of_skipTrivia hsource).symm.trans hname
    rw [attempts_of_name? (name?_stripComments_of_some hfound), if_neg hne, ih h]

/-- The declarations of a source without comments. -/
theorem declarations_stripComments {source : Text}
    (h : ∀ attempt ∈ attempts source, CommentsApart attempt) :
    declarations (stripComments source) =
      (declarations source).map Declaration.withoutComments := by
  rw [declarations_eq_filterMap, declarations_eq_filterMap, attempts_stripComments h,
    List.filterMap_map, List.map_filterMap]
  refine List.filterMap_congr fun attempt hattempt => ?_
  rw [Function.comp_apply, declaration?_stripComments (h attempt hattempt)]
  cases declaration? attempt <;> rfl

/-! ## Reflection -/

/-- A text without a comment mark. -/
def Uncommented (text : Text) : Prop :=
  ¬ ['/', '/'] <:+: text ∧ ¬ ['/', '*'] <:+: text

instance (text : Text) : Decidable (Uncommented text) :=
  inferInstanceAs (Decidable (¬ ['/', '/'] <:+: text ∧ ¬ ['/', '*'] <:+: text))

/-- A text starts with the mark of a comment. -/
def OpensComment (text : Text) : Prop :=
  ['/', '/'] <+: text ∨ ['/', '*'] <+: text

instance (text : Text) : Decidable (OpensComment text) :=
  inferInstanceAs (Decidable (['/', '/'] <+: text ∨ ['/', '*'] <+: text))

/-- A comment starts at its mark. -/
theorem afterComment?_eq_none_iff : afterComment? text = none ↔ ¬ OpensComment text := by
  constructor
  · rintro hnone (⟨tail, rfl⟩ | ⟨tail, rfl⟩) <;> cases hnone
  · intro hopens
    cases hcomment : afterComment? text with
    | none => rfl
    | some after =>
      refine absurd ?_ hopens
      rcases comment_cases hcomment with ⟨rest, rfl, -⟩ | ⟨rest, rfl, -⟩
      · exact .inl ⟨rest, rfl⟩
      · exact .inr ⟨rest, rfl⟩

/-- A text holds no comment mark if it neither starts with one nor has one behind. -/
theorem uncommented_cons {c : Char} {rest : Text} :
    Uncommented (c :: rest) ↔ afterComment? (c :: rest) = none ∧ Uncommented rest := by
  rw [Uncommented, Uncommented, List.infix_cons_iff, List.infix_cons_iff,
    afterComment?_eq_none_iff, OpensComment]
  tauto

/-- There is nothing to remove from a text without a comment mark. -/
theorem Uncommented.stripComments (h : Uncommented text) :
    Interface.stripComments text = text := by
  induction text with
  | nil => exact stripComments_nil
  | cons c rest ih =>
    rw [uncommented_cons] at h
    rw [stripComments_char h.1, ih h.2]

/-- The members of a block are read without its comments anyway. -/
theorem blockMembers_stripComments (table : Macro.Table) (block : Text) :
    blockMembers table (stripComments block) = blockMembers table block := by
  rw [blockMembers, blockMembers, stripComments_stripComments]

/-- The attributes of a declaration and the size of an array hold no comment mark. -/
def Declaration.Uncommented : Declaration → Prop
  | .stageWide attributes _ => Interface.Uncommented attributes
  | .interface declared =>
    Interface.Uncommented declared.attributes ∧
      ∀ size ∈ declared.array, Interface.Uncommented size

instance : (declaration : Declaration) → Decidable declaration.Uncommented
  | .stageWide attributes _ => inferInstanceAs (Decidable (Interface.Uncommented attributes))
  | .interface declared => inferInstanceAs (Decidable (Interface.Uncommented declared.attributes ∧
      ∀ size ∈ declared.array, Interface.Uncommented size))

/-- Comments among the members make no difference to the slots. -/
theorem Variable.slots_withoutComments (table : Macro.Table) {declared : Variable}
    (h : (Declaration.interface declared).Uncommented) :
    declared.withoutComments.slots table = declared.slots table := by
  obtain ⟨hattributes, harray⟩ := h
  -- Sizes and attributes hold no comment, and the members are read without comments anyway.
  have hsize : declared.array.map stripComments = declared.array := by
    cases hsome : declared.array with
    | none => rfl
    | some size => exact congrArg some (harray size hsome).stripComments
  have hmembers : blockMembers table ((declared.block.map stripComments).getD []) =
      blockMembers table (declared.block.getD []) := by
    cases declared.block with
    | none => rfl
    | some block => exact blockMembers_stripComments table block
  rw [withoutComments, hattributes.stripComments, hsize, slots, slots]
  simp only [hmembers]
  rfl

theorem slotsOf_withoutComments (table : Macro.Table) {declared : List Declaration}
    (h : ∀ declaration ∈ declared, declaration.Uncommented) :
    slotsOf table (declared.map Declaration.withoutComments) = slotsOf table declared := by
  induction declared with
  | nil => rfl
  | cons declaration rest ih =>
    rw [List.forall_mem_cons] at h
    cases declaration with
    | stageWide => exact ih h.2
    | interface found =>
      rw [List.map_cons, Declaration.withoutComments, slotsOf, slotsOf,
        Variable.slots_withoutComments table h.1, ih h.2]

/-- The attributes of the input as a whole state the work group, if one is about an axis. -/
theorem WorkGroup.ofDeclarations?_input (table : Macro.Table) (attributes : Text)
    (rest : List Declaration) :
    ofDeclarations? table (.stageWide attributes .input :: rest) =
      if (attributePairs attributes).any fun pair => pair.1 ∈ axisKeys then
        some <$> (attributePairs attributes).foldlM (assign table) single
      else ofDeclarations? table rest :=
  rfl

theorem WorkGroup.ofDeclarations?_withoutComments (table : Macro.Table)
    {declared : List Declaration} (h : ∀ declaration ∈ declared, declaration.Uncommented) :
    ofDeclarations? table (declared.map Declaration.withoutComments) =
      ofDeclarations? table declared := by
  induction declared with
  | nil => rfl
  | cons declaration rest ih =>
    rw [List.forall_mem_cons] at h
    cases declaration with
    | stageWide attributes storage =>
      have hattributes : Interface.Uncommented attributes := h.1
      rw [List.map_cons, Declaration.withoutComments, hattributes.stripComments]
      -- Only the input as a whole states the work group.
      cases storage with
      | input => rw [ofDeclarations?_input, ofDeclarations?_input, ih h.2]
      | output | uniform | buffer | storageBuffer => exact ih h.2
    | interface found => exact ih h.2

/-- Comments make no difference to the interface of a source and to its work group, as long as no
delimiter is taken from the inside of a comment, and no attribute and no size of an array is written
with a comment. -/
theorem reflect_stripComments {source : Text}
    (hapart : ∀ attempt ∈ attempts source, CommentsApart attempt)
    (huncommented : ∀ declaration ∈ declarations source, declaration.Uncommented)
    (table : Macro.Table) :
    reflect table (stripComments source) = reflect table source ∧
      reflectWorkGroup table (stripComments source) = reflectWorkGroup table source := by
  rw [reflect, reflect, reflectWorkGroup, reflectWorkGroup, declarations_stripComments hapart,
    slotsOf_withoutComments table huncommented,
    WorkGroup.ofDeclarations?_withoutComments table huncommented]
  exact ⟨rfl, rfl⟩

/-- A block with comments outside of its attributes. -/
def commentedBlock : Text := "layout(binding = 0) /*x*/ uniform U {vec4 a;/*y*/} u;".toList

theorem reflect_commentedBlock :
    (∀ attempt ∈ attempts commentedBlock, CommentsApart attempt) ∧
      (∀ declaration ∈ declarations commentedBlock, declaration.Uncommented) ∧
      reflect .empty (stripComments commentedBlock) = reflect .empty commentedBlock ∧
      reflectWorkGroup .empty (stripComments commentedBlock) =
        reflectWorkGroup .empty commentedBlock := by
  have hapart : ∀ attempt ∈ attempts commentedBlock, CommentsApart attempt := by decide +kernel
  have huncommented : ∀ declaration ∈ declarations commentedBlock, declaration.Uncommented := by
    decide +kernel
  exact ⟨hapart, huncommented, reflect_stripComments hapart huncommented .empty⟩

/-- A comment among the attributes is taken for a part of the value. -/
theorem not_forall_reflect : ¬ ∀ (table : Macro.Table) (source : Text),
    (reflect table (stripComments source)).outcome = (reflect table source).outcome := by
  intro h
  have hslot := h .empty "layout(location = 0 /* slot */) in vec3 a;".toList
  exact absurd hslot (by decide +kernel)

end ShaderInterface.Interface
