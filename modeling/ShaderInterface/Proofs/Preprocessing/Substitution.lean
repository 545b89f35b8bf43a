import ShaderInterface.Preprocessing.WholeWord
import ShaderInterface.Proofs.Macro.Table
import ShaderInterface.Proofs.Text.Cuts
import ShaderInterface.Proofs.Text.Pieces

/-!
# Replacing All Names at Once

The names of a table are replaced one after the other, each in the text that the names before it
have left. As long as no replacement holds the name of another macro, this is the same as replacing
every word of the text once: a replacement neither joins nor tears the words around it, and the words
that it brings in are left alone. Then the order of the table does not matter.

## Main results

* `replaceWord_eq_mapPieces`: replacing one name is replacing the words that are this name.
* `replaceWords_eq_flatMap`: replacing the names of a table is replacing the words of a text by what
  the table says, in whatever order the names stand.
-/

namespace ShaderInterface.Preprocessing

open ShaderInterface.Text

variable {name replacement word rest : Text} {before : Option Char}

/-! ## A single name -/

/-- A name lies between word boundaries when no word character touches it. -/
theorem boundaries_of_isRun (hname : IsRun name) :
    (isBoundary before (name ++ rest).head? && isBoundary (name.getLast?.or before) rest.head?) =
      (!isWord? before && !isWord? rest.head?) := by
  have hlast : isWord? (name.getLast?.or before) = true := by
    rw [List.getLast?_eq_some_getLast hname.ne_nil, Option.some_or,
      ← List.getLast?_eq_some_getLast hname.ne_nil]
    exact hname.isWord_getLast
  rw [isBoundary, isBoundary, hname.isWord_head, hlast]
  cases isWord? before <;> cases isWord? rest.head? <;> rfl

/-- A name stands as a whole word in front of a text where no word character touches it. -/
theorem wholeWord?_eq_some_iff (hname : IsRun name) {text : Text} :
    wholeWord? name before text = some rest ↔
      text = name ++ rest ∧ isWord? before = false ∧ isWord? rest.head? = false := by
  rw [wholeWord?, Option.bind_eq_bind, Option.bind_eq_some_iff]
  simp only [List.isPrefixOf?_eq_some_iff_append_eq]
  constructor
  · rintro ⟨tail, rfl, h⟩
    -- Between word characters there is no boundary, so that both neighbours are none.
    rw [boundaries_of_isRun hname] at h
    simp only [Option.ite_none_right_eq_some, Bool.and_eq_true, Bool.not_eq_true',
      Option.some_inj] at h
    obtain ⟨⟨hbefore, htail⟩, rfl⟩ := h
    exact ⟨rfl, hbefore, htail⟩
  · rintro ⟨rfl, hbefore, hrest⟩
    refine ⟨rest, rfl, ?_⟩
    rw [boundaries_of_isRun hname, hbefore, hrest]
    rfl

/-- A name is no whole word behind a word character. -/
theorem wholeWord?_behind_word (hname : IsRun name) (h : isWord? before = true) (text : Text) :
    wholeWord? name before text = none := by
  apply Option.eq_none_iff_forall_ne_some.2
  intro rest hrest
  rw [wholeWord?_eq_some_iff hname, h] at hrest
  cases hrest.2.1

/-- A name is no whole word in front of a text that starts with no word character. -/
theorem wholeWord?_of_mark (hname : IsRun name) {text : Text} (h : isWord? text.head? = false) :
    wholeWord? name before text = none := by
  apply Option.eq_none_iff_forall_ne_some.2
  intro rest hrest
  obtain ⟨rfl, -⟩ := (wholeWord?_eq_some_iff hname).1 hrest
  rw [hname.isWord_head] at h
  cases h

/-- The only whole word in front of a text is its first one. -/
theorem wholeWord?_of_word (hname : IsRun name) (hword : IsRun word)
    (hrest : isWord? rest.head? = false) :
    wholeWord? name none (word ++ rest) = if word = name then some rest else none := by
  ext tail
  rw [wholeWord?_eq_some_iff hname]
  split
  next h =>
    subst h
    rw [List.append_cancel_left_eq, Option.some_inj]
    constructor
    · exact fun h => h.1
    · rintro rfl
      exact ⟨rfl, rfl, hrest⟩
  next h =>
    -- Two ways to cut the same word off would make the word and the name equal.
    refine iff_of_false (fun ⟨heq, _, htail⟩ => h ?_) (Option.some_ne_none tail).symm
    exact (append_inj_of_isWord hword.isWord hrest hname.isWord htail heq).1

/-- What stands before a text matters only where it makes a word longer. -/
theorem wholeWord?_eq_none_before (hname : IsRun name) {text : Text}
    (h : isWord? before = false ∨ isWord? text.head? = false) :
    wholeWord? name before text = wholeWord? name none text := by
  rcases h with hbefore | htext
  · ext tail
    rw [wholeWord?_eq_some_iff hname, wholeWord?_eq_some_iff hname, hbefore]
    rfl
  · rw [wholeWord?_of_mark hname htext, wholeWord?_of_mark hname htext]

/-- For the replacement in a text, too, what stands before it matters only where it makes a word longer. -/
theorem replaceWordFrom_eq_replaceWord (hname : IsRun name) {text : Text}
    (h : isWord? before = false ∨ isWord? text.head? = false) :
    replaceWordFrom name replacement before text = replaceWord name replacement text := by
  rw [replaceWord]
  cases text with
  | nil => rw [replaceWordFrom, replaceWordFrom, wholeWord?_eq_none_before hname h]
  | cons c rest => rw [replaceWordFrom, replaceWordFrom, wholeWord?_eq_none_before hname h]

theorem replaceWord_nil (hname : IsRun name) : replaceWord name replacement [] = [] := by
  rw [replaceWord, replaceWordFrom, wholeWord?_of_mark hname rfl]
  rfl

/-- A character outside of words is kept. -/
theorem replaceWord_mark (hname : IsRun name) {c : Char} (hc : isWord c = false) :
    replaceWord name replacement (c :: rest) = c :: replaceWord name replacement rest := by
  have hmark : isWord? (c :: rest).head? = false := hc
  rw [replaceWord, replaceWordFrom, wholeWord?_of_mark hname hmark]
  exact congrArg (c :: ·) (replaceWordFrom_eq_replaceWord hname (.inl hc))

/-- The word characters behind a word character are kept. -/
theorem replaceWordFrom_inside (hname : IsRun name) (hbefore : isWord? before = true)
    (hword : ∀ c ∈ word, isWord c = true) (hrest : isWord? rest.head? = false) :
    replaceWordFrom name replacement before (word ++ rest) =
      word ++ replaceWord name replacement rest := by
  induction word generalizing before with
  | nil => exact replaceWordFrom_eq_replaceWord hname (.inr hrest)
  | cons c tail ih =>
    rw [List.forall_mem_cons] at hword
    have hc : isWord? (some c) = true := hword.1
    rw [List.cons_append, replaceWordFrom, wholeWord?_behind_word hname hbefore]
    exact congrArg (c :: ·) (ih hc hword.2)

/-- A word is replaced when it is the name. -/
theorem replaceWord_word (hname : IsRun name) (hword : IsRun word)
    (hrest : isWord? rest.head? = false) :
    replaceWord name replacement (word ++ rest) =
      (if word = name then replacement else word) ++ replaceWord name replacement rest := by
  obtain ⟨c, tail, rfl⟩ := List.exists_cons_of_ne_nil hword.ne_nil
  have hfound := wholeWord?_of_word hname hword hrest
  rw [List.cons_append] at hfound
  rw [replaceWord, List.cons_append, replaceWordFrom, hfound]
  by_cases h : c :: tail = name
  · -- The search goes on behind the name, which counts as the neighbour on the left.
    have hbehind : (tail ++ rest).drop (name.length - 1) = rest := by
      rw [← h, List.length_cons, Nat.add_sub_cancel, List.drop_left]
    have hcontinue : replaceWordFrom name replacement name.getLast? rest =
        replaceWord name replacement rest :=
      replaceWordFrom_eq_replaceWord hname (.inr hrest)
    simp only [if_pos h, List.isEmpty_eq_false_iff.2 hname.ne_nil, hbehind, hcontinue]
    rfl
  · -- The search goes on inside the word, where no name can start.
    have hc : isWord? (some c) = true := hword.isWord c (List.mem_cons_self ..)
    simp only [if_neg h, List.cons_append]
    exact congrArg (c :: ·) (replaceWordFrom_inside hname hc
      (fun d hd => hword.isWord d (List.mem_cons_of_mem _ hd)) hrest)

/-- Replacing a name is replacing the words that are this name. -/
theorem replaceWord_eq_mapPieces (hname : IsRun name) (text : Text) :
    replaceWord name replacement text =
      mapPieces (fun piece => if piece = name then replacement else piece) text := by
  induction text using pieces_induction with
  | nil => exact replaceWord_nil hname
  | mark c rest hc ih =>
    have hne : [c] ≠ name := by
      rintro rfl
      simp [hname.isWord c (List.mem_singleton_self c)] at hc
    rw [replaceWord_mark hname hc, mapPieces_mark _ _ hc, if_neg hne, ih, List.singleton_append]
  | word word rest hword hrest ih =>
    rw [replaceWord_word hname hword hrest, mapPieces_append _ hrest, mapPieces_of_isRun _ hword, ih]

/-- A name is replaced on either side of a border between words as if the other side were not there. -/
theorem replaceWord_append (hname : IsRun name) {first second : Text}
    (h : isWord? second.head? = false) :
    replaceWord name replacement (first ++ second) =
      replaceWord name replacement first ++ replaceWord name replacement second := by
  rw [replaceWord_eq_mapPieces hname, replaceWord_eq_mapPieces hname, replaceWord_eq_mapPieces hname,
    mapPieces_append _ h]

/-- A text that is a word is replaced when it is the name. -/
theorem replaceWord_of_isRun (hname : IsRun name) (hword : IsRun word) :
    replaceWord name replacement word = if word = name then replacement else word := by
  rw [replaceWord_eq_mapPieces hname, mapPieces_of_isRun _ hword]

/-! ## The names of a table -/

/-- The replacement of the name of one entry, if the entry has a replacement. -/
def replaceEntry (text : Text) (entry : Text × Macro.Value) : Text :=
  match entry.2.replacement? with
  | some replacement => replaceWord entry.1 replacement text
  | none => text

/-- What entries put in the place of a piece: the piece itself unless it is a name with a
replacement. -/
def substitute (entries : List (Text × Macro.Value)) (piece : Text) : Text :=
  ((entries.lookup piece).bind Macro.Value.replacement?).getD piece

variable {entries : List (Text × Macro.Value)} {value : Macro.Value} {piece : Text}

theorem replaceEntry_of_none (h : value.replacement? = none) (text : Text) :
    replaceEntry text (name, value) = text := by
  simp only [replaceEntry, h]

theorem replaceEntry_of_some (h : value.replacement? = some replacement) (text : Text) :
    replaceEntry text (name, value) = replaceWord name replacement text := by
  simp only [replaceEntry, h]

theorem substitute_cons_self :
    substitute ((name, value) :: entries) name = value.replacement?.getD name := by
  rw [substitute, List.lookup_cons_self, Option.bind_some]

theorem substitute_cons_of_ne (h : piece ≠ name) :
    substitute ((name, value) :: entries) piece = substitute entries piece := by
  rw [substitute, List.lookup_cons, beq_false_of_ne h, ← substitute]

/-- A piece is kept when it is no name with a replacement. -/
theorem substitute_of_forall
    (h : ∀ entry ∈ entries, entry.2.replacement?.isSome → entry.1 ≠ piece) :
    substitute entries piece = piece := by
  induction entries with
  | nil => rfl
  | cons entry rest ih =>
    rw [List.forall_mem_cons] at h
    -- The piece may be a name, but then of a flag, which stands for itself.
    by_cases hpiece : piece = entry.1
    · subst hpiece
      rw [substitute_cons_self, Option.not_isSome_iff_eq_none.1 fun hsome => h.1 hsome rfl,
        Option.getD_none]
    · rw [substitute_cons_of_ne hpiece]
      exact ih h.2

/-- The names of entries are replaced as if it happened all at once, when no replacement holds the
name of another entry with a replacement. -/
theorem foldl_replaceEntry (hnames : ∀ entry ∈ entries, IsRun entry.1)
    (hnodup : (entries.map Prod.fst).Nodup)
    (hfree : ∀ first ∈ entries, ∀ second ∈ entries, first.1 ≠ second.1 →
      second.2.replacement?.isSome → ∀ replacement, first.2.replacement? = some replacement →
        second.1 ∉ pieces replacement) (text : Text) :
    entries.foldl replaceEntry text = mapPieces (substitute entries) text := by
  induction entries generalizing text with
  | nil => exact (mapPieces_of_forall fun piece _ => rfl).symm
  | cons entry rest ih =>
    obtain ⟨name, value⟩ := entry
    rw [List.forall_mem_cons] at hnames
    rw [List.map_cons, List.nodup_cons] at hnodup
    have hnew : ∀ entry ∈ rest, entry.1 ≠ name := by
      intro entry hentry hname
      exact hnodup.1 (List.mem_map.2 ⟨entry, hentry, hname⟩)
    -- The names behind are replaced in the text that this name has left.
    have hrest := ih hnames.2 hnodup.2 fun first hfirst second hsecond =>
      hfree first (List.mem_cons_of_mem _ hfirst) second (List.mem_cons_of_mem _ hsecond)
    rw [List.foldl_cons, hrest]
    cases hvalue : value.replacement? with
    | none =>
      rw [replaceEntry_of_none hvalue]
      apply mapPieces_congr
      intro piece _
      by_cases hpiece : piece = name
      · subst hpiece
        rw [substitute_cons_self, hvalue, Option.getD_none]
        exact substitute_of_forall fun entry hentry _ => hnew entry hentry
      · rw [substitute_cons_of_ne hpiece]
    | some replacement =>
      have hmark : ∀ c, isWord c = false →
          (if [c] = name then replacement else [c]) = [c] := by
        intro c hc
        refine if_neg ?_
        rintro rfl
        simp [hnames.1.isWord c (List.mem_singleton_self c)] at hc
      rw [replaceEntry_of_some hvalue, replaceWord_eq_mapPieces hnames.1,
        mapPieces_mapPieces _ _ hmark]
      apply mapPieces_congr
      intro piece hpiece
      by_cases h : piece = name
      · subst h
        rw [if_pos rfl, substitute_cons_self, hvalue, Option.getD_some]
        -- The replacement holds no name that comes later.
        refine mapPieces_of_forall fun inner hinner => substitute_of_forall ?_
        rintro entry hentry hsome rfl
        exact hfree _ (List.mem_cons_self ..) entry (List.mem_cons_of_mem _ hentry)
          (hnew entry hentry).symm hsome replacement hvalue hinner
      · rw [if_neg h, mapPieces_of_mem _ hpiece, substitute_cons_of_ne h]

variable {table : Macro.Table}

/-- The names of a table are replaced as if it happened all at once. -/
theorem replaceWords_eq_mapPieces (hnames : ∀ name ∈ table.names, IsRun name)
    (hfree : ∀ name ∈ table.names, ∀ other ∈ table.names, name ≠ other →
      (table.replacement? other).isSome → ∀ replacement ∈ table.replacement? name,
        other ∉ pieces replacement) (text : Text) :
    replaceWords table text =
      mapPieces (fun piece => (table.replacement? piece).getD piece) text := by
  -- As no name comes twice, the table says about a name what its entry says.
  have hreplacement : ∀ entry ∈ table.entries,
      table.replacement? entry.1 = entry.2.replacement? := by
    intro entry hentry
    rw [Macro.Table.replacement?, (table.get?_eq_some_iff entry.1 entry.2).2 hentry,
      Option.bind_some]
  refine foldl_replaceEntry (fun entry hentry => hnames _ (List.mem_map_of_mem hentry))
    table.nodup ?_ text
  intro first hfirst second hsecond hne hsome replacement hfound
  rw [← hreplacement second hsecond] at hsome
  rw [← hreplacement first hfirst] at hfound
  exact hfree _ (List.mem_map_of_mem hfirst) _ (List.mem_map_of_mem hsecond) hne hsome _ hfound

/-- The names of a table are replaced all at once and word by word: every word that is a name with a
replacement gives way to it, and every other word and character is kept. The order of the names does
not matter. It is required that names are made of word characters and that no replacement holds, as a
word, another name with a replacement. -/
theorem replaceWords_eq_flatMap (table : Macro.Table) (text : Text)
    (hnames : ∀ name ∈ table.names, IsRun name)
    (hfree : ∀ name ∈ table.names, ∀ other ∈ table.names, name ≠ other →
      (table.replacement? other).isSome → ∀ replacement ∈ table.replacement? name,
        other ∉ pieces replacement) :
    replaceWords table text =
        (pieces text).flatMap (fun piece => (table.replacement? piece).getD piece) ∧
      ∀ other : Macro.Table, other.entries.Perm table.entries →
        replaceWords other text = replaceWords table text := by
  refine ⟨replaceWords_eq_mapPieces hnames hfree text, fun other hperm => ?_⟩
  have hmem : ∀ name, name ∈ other.names ↔ name ∈ table.names :=
    fun name => (hperm.map Prod.fst).mem_iff
  have hsame : ∀ name, other.replacement? name = table.replacement? name := by
    intro name
    rw [Macro.Table.replacement?, Macro.Table.get?_eq_of_perm name hperm, ← Macro.Table.replacement?]
  -- What is required of the table holds of the other one, and the pieces become the same.
  rw [replaceWords_eq_mapPieces hnames hfree, replaceWords_eq_mapPieces]
  · simp only [hsame]
  · simpa only [hmem] using hnames
  · simpa only [hmem, hsame] using hfree

/-- A table in which one replacement holds its own name and the name of a flag. -/
def substitutionTable : Macro.Table where
  entries :=
    [("LIGHTS".toList, .text "(8 + N_0)".toList), ("GAMMA".toList, .flag), ("N".toList, .text []),
      ("mode".toList, .text "mode.GAMMA".toList)]
  nodup := by decide

theorem replaceWords_substitutionTable :
    replaceWords substitutionTable "mode N-LIGHTS_2, LIGHTS[GAMMA]".toList =
        "mode.GAMMA -LIGHTS_2, (8 + N_0)[GAMMA]".toList ∧
      ∀ other : Macro.Table, other.entries.Perm substitutionTable.entries →
        replaceWords other "mode N-LIGHTS_2, LIGHTS[GAMMA]".toList =
          replaceWords substitutionTable "mode N-LIGHTS_2, LIGHTS[GAMMA]".toList := by
  obtain ⟨hall, horder⟩ := replaceWords_eq_flatMap substitutionTable
    "mode N-LIGHTS_2, LIGHTS[GAMMA]".toList (by decide) (by decide)
  exact ⟨hall.trans (by decide), horder⟩

end ShaderInterface.Preprocessing
