import Mathlib.Tactic.Common
import ShaderInterface.Proofs.Arithmetic.Substitution

/-!
# Words and Tokens

Before names are replaced, a text is cut into words, with every operator a word of its own. Cutting a
text into words does not change how it is read: its words, joined by spaces, have the tokens of the text.
This is why the words may be replaced one by one, and why a text that is cut at a blank or an operator is
evaluated part by part.

## Main results

* `separated_induction`: induction on the words of a text.
* `tokens_unwords_words_spaceOut`: the words of a text, joined by spaces, are read as the text is.
* `tokens_substitute_append`: what stands in front of a separator is replaced and read on its own.
* `evaluate_substitute`: once names are replaced, the value of a text no longer depends on a table.
* `exists_fault_of_unwords`: if joined words cannot be read, one of them is to blame.
-/

namespace ShaderInterface.Arithmetic

open ShaderInterface.Text

variable {table : Macro.Table} {first second text word rest : Text} {found : List Token}

/-! ## The words of a text with operators spaced out -/

/-- Characters that are no separators belong to one word, with those up to the next separator. -/
theorem exists_word_of_append {front : Text} (hne : front ≠ [])
    (hfront : ∀ c ∈ front, isSeparator c = false) (tail : Text) : ∃ more behind, tail = more ++ behind ∧
      IsOperandWord (front ++ more) ∧ behind.head?.all isSeparator = true := by
  have hmore : ∀ c ∈ tail.takeWhile (!isSeparator ·), isSeparator c = false := by
    simpa using List.all_eq_true.1 (List.all_takeWhile (l := tail) (p := (!isSeparator ·)))
  have hall : ∀ c ∈ front ++ tail.takeWhile (!isSeparator ·), isSeparator c = false :=
    List.forall_mem_append.2 ⟨hfront, hmore⟩
  refine ⟨tail.takeWhile (!isSeparator ·), tail.dropWhile (!isSeparator ·),
    List.takeWhile_append_dropWhile.symm, ⟨?_, ?_, ?_⟩, ?_⟩
  · exact fun hnil => hne (List.append_eq_nil_iff.1 hnil).1
  · exact fun c hc => (Bool.or_eq_false_iff.1 (hall c hc)).1
  · exact fun c hc => (Bool.or_eq_false_iff.1 (hall c hc)).2
  · have hstop := any_head?_dropWhile (!isSeparator ·) tail
    cases hhead : (tail.dropWhile (!isSeparator ·)).head? with
    | none => rfl
    | some c => simpa [hhead] using hstop

/-- A text is either empty, or it starts with a blank, an operator, or a word of neither that goes up to
the next separator. -/
theorem separated_induction {motive : Text → Prop} (nil : motive [])
    (blank : ∀ c text, isBlank c = true → motive text → motive (c :: text))
    (operator : ∀ (op : Operator) text, motive text → motive (op.sign :: text))
    (word : ∀ word rest, IsOperandWord word → rest.head?.all isSeparator = true → motive rest →
      motive (word ++ rest)) (text : Text) : motive text := by
  -- A word is cut off as a whole, so that the induction is on the length.
  induction hlength : text.length using Nat.strongRecOn generalizing text with
  | ind length ih =>
    subst hlength
    rcases text with - | ⟨c, tail⟩
    · exact nil
    by_cases hblank : isBlank c = true
    · exact blank c tail hblank (ih _ (Nat.lt_succ_self _) _ rfl)
    cases hsign : Operator.ofSign? c with
    | some op =>
      rw [← Operator.sign_of_ofSign? hsign]
      exact operator op tail (ih _ (Nat.lt_succ_self _) _ rfl)
    | none =>
      have hc : isSeparator c = false := by
        rw [isSeparator, isOperator, hsign, Bool.eq_false_iff.2 hblank]
        rfl
      obtain ⟨more, behind, htail, hword, hstop⟩ := exists_word_of_append (List.cons_ne_nil c [])
        (List.forall_mem_singleton.2 hc) tail
      rw [htail]
      refine word _ behind hword hstop (ih _ ?_ _ rfl)
      rw [htail, List.length_cons, List.length_append]
      exact Nat.lt_succ_of_le (Nat.le_add_left ..)

theorem spaceOut_blank {c : Char} (h : isBlank c = true) (text : Text) :
    spaceOut (c :: text) = c :: spaceOut text := by
  rw [spaceOut, List.flatMap_cons, isOperator_of_isBlank h]
  rfl

/-- A blank in front of a text is no word. -/
theorem words_spaceOut_blank {c : Char} (h : isBlank c = true) (text : Text) :
    (spaceOut (c :: text)).words = (spaceOut text).words := by
  rw [spaceOut_blank h, words_blank h]

/-- An operator in front of a text is a word of its own. -/
theorem words_spaceOut_operator (op : Operator) (text : Text) :
    (spaceOut (op.sign :: text)).words = [op.sign] :: (spaceOut text).words := by
  have hspace : isBlank ' ' = true := by decide
  have hsign : ∀ c ∈ [op.sign], isBlank c = false := List.forall_mem_singleton.2 op.of_sign.1
  rw [spaceOut_sign, words_blank hspace, ← words_blank hspace (spaceOut text)]
  exact words_append (List.cons_ne_nil _ _) hsign hspace

/-- A word in front of a separator is a word. -/
theorem words_spaceOut_word (hword : IsOperandWord word) (hrest : rest.head?.all isSeparator = true) :
    (spaceOut (word ++ rest)).words = word :: (spaceOut rest).words := by
  -- An operator has a space in front, so that the word ends there as it does at a blank.
  have hhead : (spaceOut rest).head?.all isBlank = true := by
    rcases rest with - | ⟨c, rest⟩
    · rfl
    · rcases Bool.or_eq_true_iff.1 hrest with hblank | hsign
      · rw [spaceOut_blank hblank]
        exact hblank
      · obtain ⟨op, hop⟩ := Option.isSome_iff_exists.1 hsign
        rw [← Operator.sign_of_ofSign? hop, spaceOut_sign]
        rfl
  rw [spaceOut_append, spaceOut_of_forall hword.isOperator,
    words_append hword.ne_nil hword.isBlank hhead]

/-- No word reaches over a separator. -/
theorem words_spaceOut_append (first : Text) (h : second.head?.all isSeparator = true) :
    (spaceOut (first ++ second)).words = (spaceOut first).words ++ (spaceOut second).words := by
  induction first using separated_induction with
  | nil => rfl
  | blank c text hc ih => rw [List.cons_append, words_spaceOut_blank hc, words_spaceOut_blank hc, ih]
  | operator op text ih =>
    rw [List.cons_append, words_spaceOut_operator, words_spaceOut_operator, ih, List.cons_append]
  | word word rest hword hrest ih =>
    have hbehind : (rest ++ second).head?.all isSeparator = true := by
      cases rest with
      | nil => exact h
      | cons => exact hrest
    rw [List.append_assoc, words_spaceOut_word hword hbehind, words_spaceOut_word hword hrest, ih,
      List.cons_append]

/-- The characters of words are those of the text. -/
theorem mem_of_mem_words_spaceOut {c : Char} (hword : word ∈ (spaceOut text).words) (hc : c ∈ word) :
    isBlank c = false ∧ c ∈ text := by
  induction text using separated_induction with
  | nil => cases hword
  | blank d text hd ih =>
    rw [words_spaceOut_blank hd] at hword
    exact (ih hword).imp_right (List.mem_cons_of_mem _)
  | operator op text ih =>
    rw [words_spaceOut_operator, List.mem_cons] at hword
    rcases hword with rfl | hword
    · obtain rfl := List.mem_singleton.1 hc
      exact ⟨op.of_sign.1, List.mem_cons_self ..⟩
    · exact (ih hword).imp_right (List.mem_cons_of_mem _)
  | word front rest hfront hrest ih =>
    rw [words_spaceOut_word hfront hrest, List.mem_cons] at hword
    rcases hword with rfl | hword
    · exact ⟨hfront.isBlank c hc, List.mem_append_left _ hc⟩
    · exact (ih hword).imp_right (List.mem_append_right _)

/-- The characters of a text that are no blanks are those of its words. -/
theorem exists_mem_words_spaceOut {c : Char} (hc : c ∈ text) (hblank : isBlank c = false) :
    ∃ word ∈ (spaceOut text).words, c ∈ word := by
  induction text using separated_induction with
  | nil => cases hc
  | blank d text hd ih =>
    rcases List.mem_cons.1 hc with rfl | hc
    · cases hblank.symm.trans hd
    · rw [words_spaceOut_blank hd]
      exact ih hc
  | operator op text ih =>
    rw [words_spaceOut_operator]
    rcases List.mem_cons.1 hc with rfl | hc
    · exact ⟨[op.sign], List.mem_cons_self .., List.mem_singleton_self _⟩
    · obtain ⟨word, hword, hmem⟩ := ih hc
      exact ⟨word, List.mem_cons_of_mem _ hword, hmem⟩
  | word front rest hfront hrest ih =>
    rw [words_spaceOut_word hfront hrest]
    rcases List.mem_append.1 hc with hc | hc
    · exact ⟨front, List.mem_cons_self .., hc⟩
    · obtain ⟨word, hword, hmem⟩ := ih hc
      exact ⟨word, List.mem_cons_of_mem _ hword, hmem⟩

/-! ## Reading the words -/

theorem tokens_nil : tokens [] = .ok [] :=
  tokens_eq_ok_iff.2 .nil

theorem unwords_singleton (word : Text) : unwords [word] = word :=
  List.intercalate_singleton ..

/-- If two parts can be read one behind the other, both can be read. -/
theorem exists_of_append_ok {first second : Except Fault (List Token)}
    (h : (first >>= fun front => second.map (front ++ ·)) = .ok found) :
    ∃ front behind, first = .ok front ∧ second = .ok behind ∧ found = front ++ behind := by
  obtain ⟨front, hfront, hbehind⟩ := result_of_bind h
  cases second with
  | error fault => cases hbehind
  | ok behind =>
    cases hbehind
    exact ⟨front, behind, hfront, rfl, rfl⟩

/-- Joined words are read as the words of one part and the words of the other. -/
theorem tokens_unwords_append (before behind : List Text) :
    tokens (unwords (before ++ behind)) =
      tokens (unwords before) >>= fun found => (tokens (unwords behind)).map (found ++ ·) := by
  have hnil : tokens (unwords []) = .ok [] := tokens_nil
  by_cases hbefore : before = []
  · rw [hbefore, List.nil_append, hnil]
    cases tokens (unwords behind) <;> rfl
  by_cases hbehind : behind = []
  · rw [hbehind, List.append_nil, hnil]
    cases tokens (unwords before) with
    | error fault => rfl
    | ok found => exact congrArg Except.ok (List.append_nil found).symm
  rw [unwords_append hbefore hbehind, tokens_append (by decide)]

/-- The first of several words is read on its own. -/
theorem tokens_unwords_cons (word : Text) (behind : List Text) :
    tokens (unwords (word :: behind)) =
      tokens word >>= fun found => (tokens (unwords behind)).map (found ++ ·) := by
  rw [← List.singleton_append, tokens_unwords_append, unwords_singleton]

/-- The words of a text, joined by spaces, are read as the text is. -/
theorem tokens_unwords_words_spaceOut (text : Text) :
    tokens (unwords (spaceOut text).words) = tokens text := by
  induction text using separated_induction with
  | nil => rfl
  | blank c text hc ih => rw [words_spaceOut_blank hc, tokens_blank hc, ih]
  | operator op text ih =>
    have hop : tokens [op.sign] = .ok [.operator op] := tokens_eq_ok_iff.2 (.operator op .nil)
    rw [words_spaceOut_operator, tokens_unwords_cons, hop, ih, tokens_operator]
    rfl
  | word word rest hword hrest ih =>
    rw [words_spaceOut_word hword hrest, tokens_unwords_cons, ih,
      tokens_append_of_separator word hrest]

/-! ## Replacing the words -/

/-- The word that stands for a word once names are replaced. -/
def replaced (table : Macro.Table) (word : Text) : Text :=
  (table.replacement? word).getD word

theorem substitute_eq (table : Macro.Table) (text : Text) :
    substitute table text = unwords ((spaceOut text).words.map (replaced table)) := rfl

/-- A blank in front of a text is passed over. -/
theorem tokens_substitute_blank {c : Char} (h : isBlank c = true) (text : Text) :
    tokens (substitute table (c :: text)) = tokens (substitute table text) := by
  rw [substitute_eq, words_spaceOut_blank h, ← substitute_eq]

/-- An operator in front of a text is replaced and read on its own. -/
theorem tokens_substitute_operator (op : Operator) (text : Text) :
    tokens (substitute table (op.sign :: text)) =
      tokens (replaced table [op.sign]) >>= fun found =>
        (tokens (substitute table text)).map (found ++ ·) := by
  rw [substitute_eq, words_spaceOut_operator, List.map_cons, tokens_unwords_cons, ← substitute_eq]

/-- What stands in front of a separator is replaced and read on its own. -/
theorem tokens_substitute_append (table : Macro.Table) (first : Text)
    (h : second.head?.all isSeparator = true) :
    tokens (substitute table (first ++ second)) =
      tokens (substitute table first) >>= fun found =>
        (tokens (substitute table second)).map (found ++ ·) := by
  rw [substitute_eq, words_spaceOut_append first h, List.map_append, tokens_unwords_append,
    ← substitute_eq, ← substitute_eq]

/-- A single word is replaced as a whole. -/
theorem substitute_word (table : Macro.Table) (hword : IsOperandWord word) :
    substitute table word = replaced table word := by
  have hwords : (spaceOut (word ++ [])).words = [word] := words_spaceOut_word hword rfl
  rw [List.append_nil] at hwords
  rw [substitute_eq, hwords]
  exact unwords_singleton _

/-- Where no word is a name, operators are spaced out and words are joined, and that is all. -/
theorem substitute_eq_unwords
    (h : ∀ word ∈ (spaceOut text).words, table.replacement? word = none) :
    substitute table text = unwords (spaceOut text).words := by
  have hkept : (spaceOut text).words.map (replaced table) = (spaceOut text).words := by
    refine (List.map_congr_left fun word hword => ?_).trans (List.map_id' _)
    rw [replaced, h word hword, Option.getD_none]
  rw [substitute_eq, hkept]

/-- A text none of whose words is a name is read as it is. -/
theorem tokens_substitute_of_forall
    (h : ∀ word ∈ (spaceOut text).words, table.replacement? word = none) :
    tokens (substitute table text) = tokens text := by
  rw [substitute_eq_unwords h, tokens_unwords_words_spaceOut]

/-- A text whose names have been replaced is evaluated under the table without names as the text itself
is under the table that gave the replacements. Whatever these contain, spacing out their operators and
joining the words a second time makes no difference to what is read, be it tokens or a fault. -/
theorem evaluate_substitute (table : Macro.Table) (text : Text) :
    evaluate .empty (substitute table text) = evaluate table text ∧
      ∀ written, substitute .empty written = unwords (spaceOut written).words ∧
        tokens (substitute .empty written) = tokens written := by
  -- The table without names has a replacement for no word.
  have hread (written : Text) : tokens (substitute .empty written) = tokens written :=
    tokens_substitute_of_forall fun _ _ => rfl
  refine ⟨?_, fun written => ⟨substitute_eq_unwords fun _ _ => rfl, hread written⟩⟩
  rw [evaluate, evaluate, hread]

/-- A fault in joined words is a fault of one of them. -/
theorem exists_fault_of_unwords {joined : List Text} {fault : Fault}
    (h : tokens (unwords joined) = .error fault) : ∃ word ∈ joined, tokens word = .error fault := by
  induction joined with
  | nil => cases tokens_nil.symm.trans h
  | cons word rest ih =>
    rw [tokens_unwords_cons] at h
    rcases fault_of_bind h with hword | ⟨found, -, hrest⟩
    · exact ⟨word, List.mem_cons_self .., hword⟩
    · cases hfault : tokens (unwords rest) with
      | ok behind =>
        rw [hfault] at hrest
        cases hrest
      | error cause =>
        rw [hfault] at hrest
        cases hrest
        obtain ⟨other, hother, hcause⟩ := ih hfault
        exact ⟨other, List.mem_cons_of_mem _ hother, hcause⟩

/-- A text that can be read holds separators, digits and points only. -/
theorem isSeparator_or_isNumeral (h : tokens text = .ok found) {c : Char} (hc : c ∈ text) :
    isSeparator c = true ∨ isNumeral c = true := by
  have hsplits := tokens_eq_ok_iff.1 h
  induction hsplits with
  | nil => cases hc
  | blank hblank hrest ih =>
    rcases List.mem_cons.1 hc with rfl | hc
    · exact .inl (isSeparator_of_isBlank hblank)
    · exact ih (tokens_eq_ok_iff.2 hrest) hc
  | operator op hrest ih =>
    rcases List.mem_cons.1 hc with rfl | hc
    · exact .inl (isSeparator_sign op)
    · exact ih (tokens_eq_ok_iff.2 hrest) hc
  | number _ hdigits _ _ hrest ih =>
    rcases List.mem_append.1 hc with hc | hc
    · exact .inr (hdigits c hc)
    · exact ih (tokens_eq_ok_iff.2 hrest) hc

end ShaderInterface.Arithmetic
