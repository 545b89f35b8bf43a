import ShaderInterface.Proofs.Interface.Progress

/-!
# The Search for Declarations

The declarations of a source are searched one after the other. Each search passes over the source up
to a name `layout` behind which a declaration can be read, and the next one starts where it has
stopped. A declaration that cannot be read is given up, however far it was read, and the search goes on
right behind the name.

Which names are met does not depend on what is tried at them. The search for the next declaration is
compared with a walk that meets all names and tries nothing.

## Main definitions

* `pass`: what is done at one place of the search.
* `nextDeclaration?`: the next declaration, and where the search stops.
* `Searched`: a search that is over after some passes.
* `Meets`: the names that a walk over a text meets.
* `IsFirst`: the first declaration that can be read at one of some names.

## Main results

* `behind_of_onward`, `behind_of_found`: each pass advances.
* `declarations_eq_next`: the declarations of a source are found by one search after the other.
* `Meets.nextDeclaration?_eq`: a search finds the first declaration that can be read on the walk.
* `search_finds_first`: a search ends, advances and misses nothing.
-/

namespace ShaderInterface.Interface

open ShaderInterface.Text

variable {c : Char} {text rest name behind stop : Text} {declaration : Declaration}

/-! ## The search -/

/-- Where the search stands when a declaration has been read that `behind` follows. The size of an array
has been looked for behind the blanks and comments that follow, even if there is none. -/
def Declaration.stopBehind : (declaration : Declaration) → (behind : Text) → Text
  -- The other optional parts leave no trace: what is read behind them skips the same once more.
  | .interface declared, behind => if declared.array.isNone then skipTrivia behind else behind
  | .stageWide .., behind => behind

/-- The declaration that can be read at a name that `behind` follows, and where the search then
stands. -/
def declarationAt? : (met : Text × Text) → Option (Declaration × Text)
  | (name, behind) =>
    if name = "layout".toList then
      (declaration? behind).map fun (declaration, after) => (declaration, declaration.stopBehind after)
    else none

theorem declarationAt?_eq_none_iff : declarationAt? (name, behind) = none ↔
    (name = "layout".toList → declaration? behind = none) := by
  rw [declarationAt?]
  split
  next hname => rw [Option.map_eq_none_iff, forall_prop_of_true hname]
  next hname => exact iff_of_true rfl fun h => absurd h hname

theorem declarationAt?_eq_some_iff : declarationAt? (name, behind) = some (declaration, stop) ↔
    name = "layout".toList ∧ ∃ after, declaration? behind = some (declaration, after) ∧
      stop = declaration.stopBehind after := by
  rw [declarationAt?]
  split
  next hname =>
    rw [Option.map_eq_some_iff]
    constructor
    · rintro ⟨⟨found, after⟩, hfound, heq⟩
      cases heq
      exact ⟨hname, after, hfound, rfl⟩
    · rintro ⟨-, after, hfound, rfl⟩
      exact ⟨_, hfound, rfl⟩
  next hname => exact iff_of_false nofun fun h => hname h.1

/-- What a pass of the search comes to. -/
inductive Pass where
  /-- There is nothing left. -/
  | ended
  /-- A declaration has been read, and the search stops. -/
  | found (declaration : Declaration) (stop : Text)
  /-- The search goes on with another text. -/
  | onward (rest : Text)

/-- One pass of the search: blanks and comments are skipped, and a name is tried or a character that
belongs to no name is passed over. -/
def pass (text : Text) : Pass :=
  match skipTrivia text with
  | [] => .ended
  | c :: after =>
    match name? (c :: after) with
    | none => .onward after
    | some (name, behind) =>
      match declarationAt? (name, behind) with
      | some (declaration, stop) => .found declaration stop
      -- However far the declaration was read, the search is taken back to the end of the name.
      | none => .onward behind

/-- Only what stands behind blanks and comments counts for a pass. -/
theorem pass_of_skipTrivia {first second : Text} (h : skipTrivia first = skipTrivia second) :
    pass first = pass second := by
  rw [pass, pass, h]

theorem pass_nil : pass [] = .ended := by
  rw [pass, skipTrivia_nil]

/-- A character that opens no name is passed over. -/
theorem pass_mark (hskip : skipTrivia text = c :: rest) (hname : name? text = none) :
    pass text = .onward rest := by
  rw [pass, hskip]
  simp only [name?_of_skipTrivia hskip, hname]

/-- A name is tried. -/
theorem pass_name (h : name? text = some (name, behind)) :
    pass text =
      match declarationAt? (name, behind) with
      | some (declaration, stop) => .found declaration stop
      | none => .onward behind := by
  rcases hskip : skipTrivia text with - | ⟨c, rest⟩
  · rw [name?, hskip] at h
    cases h
  · rw [pass, hskip]
    simp only [name?_of_skipTrivia hskip, h]

/-- What a pass can do: come to the end, pass over a character, or try a name. -/
theorem pass_cases (text : Text) :
    (skipTrivia text = [] ∧ pass text = .ended) ∨
      (∃ c rest, skipTrivia text = c :: rest ∧ name? text = none ∧ pass text = .onward rest) ∨
      ∃ name behind, name? text = some (name, behind) ∧
        ((∃ declaration stop, declarationAt? (name, behind) = some (declaration, stop) ∧
            pass text = .found declaration stop) ∨
          (declarationAt? (name, behind) = none ∧ pass text = .onward behind)) := by
  cases hname : name? text with
  | some met =>
    refine .inr (.inr ⟨met.1, met.2, rfl, ?_⟩)
    have hpass := pass_name hname
    cases htried : declarationAt? (met.1, met.2) with
    | none => exact .inr ⟨rfl, by rw [hpass, htried]⟩
    | some found => exact .inl ⟨found.1, found.2, rfl, by rw [hpass, htried]⟩
  | none =>
    rcases hskip : skipTrivia text with - | ⟨c, rest⟩
    · exact .inl ⟨rfl, (pass_of_skipTrivia (hskip.trans skipTrivia_nil.symm)).trans pass_nil⟩
    · exact .inr (.inl ⟨c, rest, rfl, rfl, pass_mark hskip hname⟩)

theorem stopBehind_suffix (declaration : Declaration) (behind : Text) :
    declaration.stopBehind behind <:+ behind := by
  cases declaration with
  | stageWide => exact List.suffix_rfl
  | interface declared =>
    rw [Declaration.stopBehind]
    split
    · exact skipTrivia_suffix behind
    · exact List.suffix_rfl

theorem behind_of_declarationAt? (h : declarationAt? (name, behind) = some (declaration, stop)) :
    Behind stop behind := by
  obtain ⟨-, after, hread, rfl⟩ := declarationAt?_eq_some_iff.1 h
  exact (behind_of_declaration? hread).of_rest (stopBehind_suffix declaration after)

/-- A pass that finds nothing goes on behind the place where it started. -/
theorem behind_of_onward (h : pass text = .onward rest) : Behind rest text := by
  rcases pass_cases text with ⟨-, hended⟩ | ⟨c, after, hskip, -, honward⟩ |
      ⟨name, behind, hname, ⟨_, _, -, hfound⟩ | ⟨-, honward⟩⟩
  · cases h.symm.trans hended
  · cases h.symm.trans honward
    exact behind_of_skipTrivia hskip List.suffix_rfl
  · cases h.symm.trans hfound
  · cases h.symm.trans honward
    exact behind_of_name? hname

/-- A pass that finds a declaration stops behind the place where it started. -/
theorem behind_of_found (h : pass text = .found declaration stop) : Behind stop text := by
  rcases pass_cases text with ⟨-, hended⟩ | ⟨c, after, -, -, honward⟩ |
      ⟨name, behind, hname, ⟨_, _, htried, hfound⟩ | ⟨-, honward⟩⟩
  · cases h.symm.trans hended
  · cases h.symm.trans honward
  · cases h.symm.trans hfound
    exact (behind_of_declarationAt? htried).of_suffix (behind_of_name? hname).isSuffix
  · cases h.symm.trans honward

/-- The next declaration of a text, and where the search stops. -/
def nextDeclaration? (text : Text) : Option (Declaration × Text) :=
  match _h : pass text with
  | .ended => none
  | .found declaration stop => some (declaration, stop)
  | .onward rest => nextDeclaration? rest
termination_by text.length
decreasing_by exact (behind_of_onward _h).lt

theorem nextDeclaration?_eq (text : Text) :
    nextDeclaration? text =
      match pass text with
      | .ended => none
      | .found declaration stop => some (declaration, stop)
      | .onward rest => nextDeclaration? rest := by
  rw [nextDeclaration?]
  split <;> simp only [*]

theorem nextDeclaration?_of_skipTrivia {first second : Text}
    (h : skipTrivia first = skipTrivia second) :
    nextDeclaration? first = nextDeclaration? second := by
  rw [nextDeclaration?_eq, pass_of_skipTrivia h, ← nextDeclaration?_eq]

/-- A search that starts with a text is over after so many passes, and has a result. -/
inductive Searched : (passes : Nat) → (text : Text) → (result : Option (Declaration × Text)) → Prop where
  | ended {text : Text} : pass text = .ended → Searched 1 text none
  | found {text stop : Text} {declaration : Declaration} : pass text = .found declaration stop →
      Searched 1 text (some (declaration, stop))
  | onward {passes : Nat} {text rest : Text} {result : Option (Declaration × Text)} :
      pass text = .onward rest → Searched passes rest result → Searched (passes + 1) text result

/-- Every search comes to an end, after no more passes than there are characters and one. -/
theorem exists_searched (text : Text) :
    ∃ passes ≤ text.length + 1, Searched passes text (nextDeclaration? text) := by
  fun_induction nextDeclaration? text with
  | case1 text hended => exact ⟨1, Nat.le_add_left .., .ended hended⟩
  | case2 text declaration stop hfound => exact ⟨1, Nat.le_add_left .., .found hfound⟩
  | case3 text rest honward ih =>
    obtain ⟨passes, hle, hsearched⟩ := ih
    have hlt := (behind_of_onward honward).lt
    exact ⟨passes + 1, by omega, .onward honward hsearched⟩

/-- A declaration is found behind the place where the search started. -/
theorem behind_of_nextDeclaration? (h : nextDeclaration? text = some (declaration, stop)) :
    Behind stop text := by
  fun_induction nextDeclaration? text with
  | case1 => cases h
  | case2 text _ _ hfound =>
    cases h
    exact behind_of_found hfound
  | case3 text rest honward ih => exact (ih h).of_suffix (behind_of_onward honward).isSuffix

/-! ## One search after the other -/

theorem declarations_stopBehind (declaration : Declaration) (behind : Text) :
    declarations (declaration.stopBehind behind) = declarations behind := by
  cases declaration with
  | stageWide => rfl
  | interface declared =>
    rw [Declaration.stopBehind]
    split
    · exact declarations_of_skipTrivia (skipTrivia_skipTrivia behind)
    · rfl

/-- The declarations of a text are those that its first pass leaves, and the one that it finds. -/
theorem declarations_of_pass (text : Text) :
    declarations text =
      match pass text with
      | .ended => []
      | .found declaration stop => declaration :: declarations stop
      | .onward rest => declarations rest := by
  rcases pass_cases text with ⟨hskip, hpass⟩ | ⟨c, after, hskip, hname, hpass⟩ |
      ⟨name, behind, hname, ⟨declaration, stop, htried, hpass⟩ | ⟨htried, hpass⟩⟩
  · rw [hpass, declarations_of_skipTrivia (hskip.trans skipTrivia_nil.symm), declarations_nil]
  · rw [hpass, declarations_mark hskip hname]
  · obtain ⟨hlayout, after, hread, rfl⟩ := declarationAt?_eq_some_iff.1 htried
    rw [hpass, declarations_of_name? hname, if_pos hlayout, hread]
    simp only [declarations_stopBehind]
  · rw [hpass, declarations_of_name? hname]
    split
    next hlayout => rw [declarationAt?_eq_none_iff.1 htried hlayout]
    next => rfl

/-- The declarations of a source are found by one search after the other. -/
theorem declarations_eq_next (text : Text) :
    declarations text =
      match nextDeclaration? text with
      | none => []
      | some (declaration, stop) => declaration :: declarations stop := by
  fun_induction nextDeclaration? text with
  | case1 text hended => rw [declarations_of_pass, hended]
  | case2 text declaration stop hfound => rw [declarations_of_pass, hfound]
  | case3 text rest honward ih =>
    rw [declarations_of_pass, honward]
    exact ih

/-! ## The walk -/

/-- A walk over a text meets some names, each with what stands behind it. Blanks and comments are
skipped, a name is taken as far as it goes, and anything else is passed over one character at a time. -/
inductive Meets : (text : Text) → (names : List (Text × Text)) → Prop where
  | done : Meets [] []
  | blank {c : Char} {text : Text} {names : List (Text × Text)} : isBlank c = true →
      Meets text names → Meets (c :: text) names
  | comment {text after : Text} {names : List (Text × Text)} : CommentAhead text after →
      Meets after names → Meets text names
  | name (name : Text) {rest : Text} {names : List (Text × Text)} : isName name = true →
      continues rest = false → Meets rest names → Meets (name ++ rest) ((name, rest) :: names)
  | mark {c : Char} {text : Text} {names : List (Text × Text)} : isBlank c = false →
      opensName c = false → ¬ OpensComment (c :: text) → Meets text names → Meets (c :: text) names

/-- There is a walk over every text. -/
theorem exists_meets (text : Text) : ∃ names, Meets text names := by
  induction hlength : text.length using Nat.strongRecOn generalizing text with
  | ind length ih =>
    subst hlength
    rcases text with - | ⟨c, rest⟩
    · exact ⟨[], .done⟩
    cases hcomment : afterComment? (c :: rest) with
    | some after =>
      obtain ⟨names, hnames⟩ := ih _ (length_lt_of_afterComment? hcomment) after rfl
      exact ⟨names, .comment (afterComment?_eq_some_iff.1 hcomment) hnames⟩
    | none =>
      obtain ⟨names, hnames⟩ := ih _ (Nat.lt_succ_self _) rest rfl
      by_cases hblank : isBlank c = true
      · exact ⟨names, .blank hblank hnames⟩
      by_cases hopens : opensName c = true
      · -- The name is taken as a whole, so that the walk goes on behind it.
        have hsplit : c :: rest = c :: rest.takeWhile continuesName ++ rest.dropWhile continuesName := by
          rw [List.cons_append, List.takeWhile_append_dropWhile]
        have hname : isName (c :: rest.takeWhile continuesName) = true := by
          rw [isName, hopens, List.all_takeWhile]
          rfl
        have hshorter : (rest.dropWhile continuesName).length < (c :: rest).length :=
          Nat.lt_succ_of_le (List.dropWhile_suffix _).length_le
        obtain ⟨names, hnames⟩ := ih _ hshorter _ rfl
        rw [hsplit]
        exact ⟨_, .name _ hname (any_head?_dropWhile continuesName rest) hnames⟩
      · rw [Bool.not_eq_true] at hblank hopens
        exact ⟨names, .mark hblank hopens (afterComment?_eq_none_iff.1 hcomment) hnames⟩

/-- A name is read as far as it goes. -/
theorem name?_append (hname : isName name = true) (hrest : continues rest = false) :
    name? (name ++ rest) = some (name, rest) := by
  have hspelled : Spelled [.word name] (name ++ rest) rest := .cons hname (.done _) hrest (.nil rest)
  obtain ⟨after, hfound, hnil⟩ := hspelled.name?
  cases hnil
  exact hfound

/-- A search finds the first declaration that can be read at one of the names that a walk meets. -/
theorem Meets.nextDeclaration?_eq {names : List (Text × Text)} (h : Meets text names) :
    nextDeclaration? text = names.findSome? declarationAt? := by
  -- A step of the walk over a name or a mark is a pass of the search. Steps over blanks and comments
  -- are none: they are skipped at the beginning of the next pass.
  induction h with
  | done => rw [Interface.nextDeclaration?_eq, pass_nil, List.findSome?_nil]
  | blank hblank _ ih => rw [nextDeclaration?_of_skipTrivia (skipTrivia_blank hblank), ih]
  | comment hcomment _ ih =>
    rw [nextDeclaration?_of_skipTrivia (skipTrivia_comment (afterComment?_eq_some_iff.2 hcomment)), ih]
  | name name hname hrest _ ih =>
    rw [Interface.nextDeclaration?_eq, pass_name (name?_append hname hrest), List.findSome?_cons]
    cases declarationAt? (name, _) with
    | none => exact ih
    | some found => rfl
  | @mark c text _ hblank hopens hcomment _ ih =>
    have hskip := skipTrivia_of_none (afterComment?_eq_none_iff.2 hcomment) hblank
    have hname : name? (c :: text) = none := by
      rw [name?, hskip]
      simp only [hopens, Bool.false_eq_true, if_false]
    rw [Interface.nextDeclaration?_eq, pass_mark hskip hname]
    exact ih

/-- The first declaration that can be read at one of some names, and where the search stands behind it. -/
def IsFirst (names : List (Text × Text)) (declaration : Declaration) (stop : Text) : Prop :=
  ∃ earlier attempt later after, names = earlier ++ ("layout".toList, attempt) :: later ∧
    (∀ failed, ("layout".toList, failed) ∈ earlier → declaration? failed = none) ∧
    declaration? attempt = some (declaration, after) ∧ stop = declaration.stopBehind after

theorem findSome?_declarationAt?_eq_none_iff {names : List (Text × Text)} :
    names.findSome? declarationAt? = none ↔
      ∀ attempt, ("layout".toList, attempt) ∈ names → declaration? attempt = none := by
  rw [List.findSome?_eq_none_iff]
  refine ⟨fun h attempt hmem => declarationAt?_eq_none_iff.1 (h _ hmem) rfl, ?_⟩
  rintro h ⟨name, behind⟩ hmem
  exact declarationAt?_eq_none_iff.2 fun hlayout => h behind (hlayout ▸ hmem)

theorem findSome?_declarationAt?_eq_some_iff {names : List (Text × Text)} :
    names.findSome? declarationAt? = some (declaration, stop) ↔ IsFirst names declaration stop := by
  rw [List.findSome?_eq_some_iff]
  constructor
  · rintro ⟨earlier, ⟨name, attempt⟩, later, rfl, hfound, hfailed⟩
    obtain ⟨rfl, after, hread, rfl⟩ := declarationAt?_eq_some_iff.1 hfound
    exact ⟨earlier, attempt, later, after, rfl,
      fun failed hmem => declarationAt?_eq_none_iff.1 (hfailed _ hmem) rfl, hread, rfl⟩
  · rintro ⟨earlier, attempt, later, after, rfl, hfailed, hread, rfl⟩
    refine ⟨earlier, _, later, rfl, declarationAt?_eq_some_iff.2 ⟨rfl, after, hread, rfl⟩, ?_⟩
    rintro ⟨name, behind⟩ hmem
    exact declarationAt?_eq_none_iff.2 fun hlayout => hfailed behind (hlayout ▸ hmem)

/-! ## Places of a source -/

/-- The place behind a text, counted in bytes. -/
def placeBehind (before : Text) : Nat :=
  (String.ofList before).utf8ByteSize

theorem placeBehind_append (first second : Text) :
    placeBehind (first ++ second) = placeBehind first + placeBehind second := by
  rw [placeBehind, String.ofList_append, String.utf8ByteSize_append]
  rfl

theorem placeBehind_pos (h : text ≠ []) : 0 < placeBehind text := by
  rw [placeBehind, Nat.pos_iff_ne_zero, ne_eq, String.utf8ByteSize_eq_zero_iff,
    String.ofList_eq_empty_iff]
  exact h

/-- From every place of every source, the search for the next declaration comes to an end. If it finds
one, it stops at a later place of the source. It has then found the first declaration that can be read
behind a name `layout`, among all that are met on the way over the text; if it finds none, none of them
can be read. -/
theorem search_finds_first (before text : Text) :
    (∃ passes ≤ text.length + 1, Searched passes text (nextDeclaration? text)) ∧
      (∀ declaration stop, nextDeclaration? text = some (declaration, stop) →
        ∃ read, text = read ++ stop ∧ placeBehind before < placeBehind (before ++ read) ∧
          placeBehind (before ++ read) ≤ placeBehind (before ++ text)) ∧
      (∃ names, Meets text names) ∧
      (∀ names, Meets text names →
        (∀ declaration stop, nextDeclaration? text = some (declaration, stop) ↔
          IsFirst names declaration stop) ∧
        (nextDeclaration? text = none ↔
          ∀ attempt, ("layout".toList, attempt) ∈ names → declaration? attempt = none)) ∧
      declarations text =
        match nextDeclaration? text with
        | none => []
        | some (declaration, stop) => declaration :: declarations stop := by
  refine ⟨exists_searched text, fun declaration stop hfound => ?_, exists_meets text,
    fun names hnames => ⟨fun declaration stop => ?_, ?_⟩, declarations_eq_next text⟩
  · obtain ⟨⟨read, rfl⟩, hlt⟩ := behind_of_nextDeclaration? hfound
    have hread : read ≠ [] := by
      rintro rfl
      exact Nat.lt_irrefl _ hlt
    have hpos := placeBehind_pos hread
    simp only [placeBehind_append]
    exact ⟨read, rfl, by omega, by omega⟩
  · rw [hnames.nextDeclaration?_eq, findSome?_declarationAt?_eq_some_iff]
  · rw [hnames.nextDeclaration?_eq, findSome?_declarationAt?_eq_none_iff]

/-- The size that is not closed has been looked for up to the end of the source. -/
example : nextDeclaration? "layout(a) in vec4 b[2; layout(c) out; d".toList =
    some (.stageWide "c".toList .output, " d".toList) := by decide +kernel

end ShaderInterface.Interface
