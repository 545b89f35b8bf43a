import ShaderInterface.Number.Numeral
import ShaderInterface.Proofs.Number.Sign
import ShaderInterface.Proofs.Text.Character
import ShaderInterface.Proofs.Text.Cuts

/-!
# How Numbers Are Written

A number is written as a size behind a sign, which may be missing. A size is a run of digits and points,
behind which an `e` may announce a power of ten, or it is a word of letters. A minus sign in front of
digits and points gives the negative of the number that they write.

## Main definitions

* `Unsigned`: the numbers without a sign.

## Main results

* `exists_of_ofText?`: a text that writes a number is a number without a sign, behind a sign or none.
* `ofText?_minus`, `ofText?_plus`: digits and points behind a sign.
-/

namespace ShaderInterface.Number

open ShaderInterface.Text

variable {text run : Text} {size : Size} {x : Float}

/-! ## Signs -/

/-- A run of digits and points. -/
def IsDecimalRun (run : Text) : Prop :=
  run ≠ [] ∧ ∀ c ∈ run, c.isDigit = true ∨ c = '.'

/-- A sign is split off, or there is none. -/
theorem splitSign_cases (text : Text) : text = '-' :: (splitSign text).2 ∨
    text = '+' :: (splitSign text).2 ∨ text = (splitSign text).2 := by
  unfold splitSign
  split
  next => exact .inl rfl
  next => exact .inr (.inl rfl)
  next => exact .inr (.inr rfl)

/-- A text that does not start with a sign has none. -/
theorem splitSign_cons {c : Char} (h : c ≠ '-' ∧ c ≠ '+') (rest : Text) :
    splitSign (c :: rest) = (false, c :: rest) := by
  rw [splitSign]
  · rintro _ ⟨rfl, -⟩
    exact h.1 rfl
  · rintro _ ⟨rfl, -⟩
    exact h.2 rfl

/-- Digits and points have no sign, whatever stands behind them. -/
theorem splitSign_run (h : IsDecimalRun run) (behind : Text) :
    splitSign (run ++ behind) = (false, run ++ behind) := by
  obtain ⟨c, rest, rfl⟩ := List.exists_cons_of_ne_nil h.1
  exact splitSign_cons (of_isDigit_or_point (p := fun c => c ≠ '-' ∧ c ≠ '+') (by decide)
    (h.2 c (List.mem_cons_self ..))) _

/-! ## Powers of ten -/

variable {c : Char} {power : Int} {digits rest : Text}

/-- A power of ten is an `e` and digits, with a sign between them or none. -/
theorem exists_of_powerOfTen? (h : powerOfTen? (c :: rest) = some power) : c.toLower = 'e' ∧
    ∃ digits, (rest = '-' :: digits ∨ rest = '+' :: digits ∨ rest = digits) ∧
      ∀ d ∈ digits, d.isDigit = true := by
  simp only [powerOfTen?] at h
  split at h
  next hall =>
    rw [Bool.and_eq_true, Bool.and_eq_true, beq_iff_eq] at hall
    exact ⟨hall.1.1, _, splitSign_cases rest, List.all_eq_true.1 hall.2⟩
  next => cases h

/-- An `e` and digits are a power of ten. -/
theorem isSome_powerOfTen? (hmark : c.toLower = 'e') (hne : digits ≠ [])
    (hdigits : ∀ d ∈ digits, d.isDigit = true) : (powerOfTen? (c :: digits)).isSome := by
  have hsign := splitSign_run ⟨hne, fun d hd => .inl (hdigits d hd)⟩ []
  rw [List.append_nil] at hsign
  have hall : digits.all Char.isDigit = true := List.all_eq_true.2 hdigits
  have hnonempty : digits.isEmpty = false := List.isEmpty_eq_false_iff.2 hne
  simp [powerOfTen?, hsign, hmark, hall, hnonempty]

/-- No digit and no point starts a power of ten. -/
theorem not_isDecimal_of_powerOfTen? (h : powerOfTen? text = some power) :
    ∀ c ∈ text.head?, c.isDigit = false ∧ c ≠ '.' := by
  rcases text with - | ⟨c, rest⟩
  · nofun
  · rintro _ ⟨⟩
    have hlower := (exists_of_powerOfTen? h).1
    have hnone (hc : c.isDigit = true ∨ c = '.') : c.toLower ≠ 'e' :=
      of_isDigit_or_point (p := fun c => c.toLower ≠ 'e') (by decide) hc
    exact ⟨Bool.eq_false_iff.2 fun hdigit => hnone (.inl hdigit) hlower,
      fun hpoint => hnone (.inr hpoint) hlower⟩

/-! ## Sizes -/

/-- What stands behind the digits in front of a point: the point and the digits behind it, or nothing. -/
theorem splitFraction_append (text : Text) : ∃ point, text = point ++ (splitFraction text).2 ∧
    (point = [] ∧ (splitFraction text).1 = [] ∨ point = '.' :: (splitFraction text).1) ∧
    ∀ c ∈ (splitFraction text).1, c.isDigit = true := by
  unfold splitFraction
  split
  next rest =>
    refine ⟨'.' :: rest.takeWhile Char.isDigit, ?_, .inr rfl, List.all_eq_true.1 List.all_takeWhile⟩
    rw [List.cons_append, List.takeWhile_append_dropWhile]
  next => exact ⟨[], rfl, .inl ⟨rfl, rfl⟩, List.forall_mem_nil _⟩

/-- What stands behind digits and points does not change how they are split. -/
theorem splitFraction_of_append {point other : Text}
    (hpoint : point = [] ∧ digits = [] ∨ point = '.' :: digits) (hdigits : ∀ c ∈ digits, c.isDigit = true)
    (hother : powerOfTen? other = some power) :
    splitFraction (point ++ other) = (digits, other) ∧ (point ++ other).head?.any Char.isDigit = false := by
  have hhead := not_isDecimal_of_powerOfTen? hother
  have hstop : other.head?.any Char.isDigit = false := by
    rcases other with - | ⟨c, rest⟩
    · rfl
    · exact (hhead c rfl).1
  rcases hpoint with ⟨rfl, rfl⟩ | rfl
  · refine ⟨?_, hstop⟩
    rw [List.nil_append, splitFraction]
    rintro rest rfl
    exact (hhead '.' rfl).2 rfl
  · refine ⟨?_, rfl⟩
    rw [List.cons_append, splitFraction]
    obtain ⟨htake, hdrop⟩ := takeWhile_append_of_stop [] hstop
    rw [List.nil_append, List.takeWhile_nil] at htake
    rw [List.nil_append, List.dropWhile_nil, List.nil_append] at hdrop
    rw [List.takeWhile_append_of_pos hdigits, List.dropWhile_append_of_pos hdigits, htake, hdrop,
      List.append_nil]

/-- A size in digits is a run of digits and points with a power of ten, and the run may have any other
power of ten behind it. -/
theorem exists_of_decimalSize? (h : decimalSize? text = some size) :
    (∃ digits exponent, size = .finite digits exponent) ∧
    ∃ run behind, text = run ++ behind ∧ IsDecimalRun run ∧ (powerOfTen? behind).isSome ∧
      ∀ other, (powerOfTen? other).isSome → (decimalSize? (run ++ other)).isSome := by
  obtain ⟨point, hrest, hpoint, hfraction⟩ := splitFraction_append (text.dropWhile Char.isDigit)
  simp only [decimalSize?] at h
  split at h
  next => cases h
  next hempty =>
    obtain ⟨power, hpower, hsize⟩ := Option.map_eq_some_iff.1 h
    have hwhole : ∀ c ∈ text.takeWhile Char.isDigit, c.isDigit = true :=
      List.all_eq_true.1 List.all_takeWhile
    refine ⟨⟨_, _, hsize.symm⟩, text.takeWhile Char.isDigit ++ point,
      (splitFraction (text.dropWhile Char.isDigit)).2, ?_, ⟨fun hnil => ?_, fun c hc => ?_⟩,
      Option.isSome_of_eq_some hpower, fun other hother => ?_⟩
    · rw [List.append_assoc, ← hrest, List.takeWhile_append_dropWhile]
    · -- There are digits on one side of the point.
      obtain ⟨hnone, hnopoint⟩ := List.append_eq_nil_iff.1 hnil
      rcases hpoint with ⟨-, hnofraction⟩ | hpoint
      · exact hempty (by rw [hnone, hnofraction]; rfl)
      · cases hnopoint.symm.trans hpoint
    · rcases List.mem_append.1 hc with hc | hc
      · exact .inl (hwhole c hc)
      · rcases hpoint with ⟨rfl, -⟩ | rfl
        · cases hc
        · exact (List.mem_cons.1 hc).elim .inr fun hc => .inl (hfraction c hc)
    · obtain ⟨otherPower, hother⟩ := Option.isSome_iff_exists.1 hother
      obtain ⟨hsplit, hstop⟩ := splitFraction_of_append hpoint hfraction hother
      obtain ⟨htake, hdrop⟩ := takeWhile_append_of_stop (text.takeWhile Char.isDigit) hstop
      have htakeWhole : (text.takeWhile Char.isDigit).takeWhile Char.isDigit =
          text.takeWhile Char.isDigit := by simpa using hwhole
      have hdropWhole : (text.takeWhile Char.isDigit).dropWhile Char.isDigit = [] :=
        List.dropWhile_eq_nil_iff.2 hwhole
      rw [htakeWhole] at htake
      rw [hdropWhole, List.nil_append] at hdrop
      simp only [decimalSize?, List.append_assoc, htake, hdrop, hsplit]
      rw [if_neg hempty, hother]
      rfl

/-- The small letters of the words that write sizes. -/
def nameLetters : Text := ['i', 'n', 'f', 't', 'y', 'a']

/-- A size in words is made of letters. -/
theorem forall_mem_of_namedSize? (h : namedSize? text = some size) :
    text ≠ [] ∧ ∀ c ∈ text, c.toLower ∈ nameLetters := by
  -- There are three such words, in capital or small letters.
  have hletters {word : Text} (hne : word ≠ []) (hall : ∀ c ∈ word, c ∈ nameLetters)
      (heq : text.map Char.toLower = word) : text ≠ [] ∧ ∀ c ∈ text, c.toLower ∈ nameLetters := by
    refine ⟨fun hnil => hne (by rw [← heq, hnil]; rfl), fun c hc => hall _ ?_⟩
    rw [← heq]
    exact List.mem_map_of_mem hc
  simp only [namedSize?] at h
  split at h
  next hinfinite =>
    rcases hinfinite with hshort | hlong
    · exact hletters (by simp) (by simp [nameLetters]) hshort
    · exact hletters (by simp) (by simp [nameLetters]) hlong
  next =>
    split at h
    next hnan => exact hletters (by simp) (by simp [nameLetters]) hnan
    next => cases h

/-! ## Numbers -/

/-- A text writes a number when what stands behind its sign writes a size. -/
theorem ofText?_eq (text : Text) :
    ofText? text = ((decimalSize? (splitSign text).2).or (namedSize? (splitSign text).2)).map
      fun size => Numeral.value ⟨(splitSign text).1, size⟩ :=
  Option.map_map ..

/-- Digits and points that write a number with any power of ten behind them. -/
def WritesNumber (run : Text) : Prop :=
  ∀ other, (powerOfTen? other).isSome → (ofText? (run ++ other)).isSome

/-- A number without a sign: digits and points with a power of ten, which may be missing, or a word of
letters. -/
inductive Unsigned : Text → Prop
  | decimal {run behind : Text} : IsDecimalRun run → WritesNumber run → (powerOfTen? behind).isSome →
      Unsigned (run ++ behind)
  | named {word : Text} : word ≠ [] → (∀ c ∈ word, c.toLower ∈ nameLetters) → (ofText? word).isSome →
      Unsigned word

/-- A text that writes a number is a number without a sign, behind a sign or none. -/
theorem exists_of_ofText? (h : ofText? text = some x) : ∃ rest,
    (text = '-' :: rest ∨ text = '+' :: rest ∨ text = rest) ∧ Unsigned rest := by
  rw [ofText?_eq] at h
  obtain ⟨size, hsize, -⟩ := Option.map_eq_some_iff.1 h
  refine ⟨(splitSign text).2, splitSign_cases text, ?_⟩
  generalize (splitSign text).2 = rest at hsize
  cases hdecimal : decimalSize? rest with
  | some decimal =>
    obtain ⟨-, run, behind, rfl, hrun, hbehind, hall⟩ := exists_of_decimalSize? hdecimal
    refine .decimal hrun (fun other hother => ?_) hbehind
    obtain ⟨size, hsize⟩ := Option.isSome_iff_exists.1 (hall other hother)
    rw [ofText?_eq, splitSign_run hrun, hsize]
    rfl
  | none =>
    have hnamed := hsize
    rw [hdecimal, Option.none_or] at hnamed
    obtain ⟨hne, hletters⟩ := forall_mem_of_namedSize? hnamed
    refine .named hne hletters ?_
    -- A word that starts with a letter has no sign to split off.
    have hsign : splitSign rest = (false, rest) := by
      obtain ⟨c, tail, rfl⟩ := List.exists_cons_of_ne_nil hne
      have hc := hletters c (List.mem_cons_self ..)
      refine splitSign_cons ⟨?_, ?_⟩ _ <;> rintro rfl <;> simp [nameLetters, Char.toLower] at hc
    rw [ofText?_eq, hsign, hsize]
    rfl

/-- Digits and points write no size in words. -/
theorem namedSize?_run (h : IsDecimalRun run) : namedSize? run = none := by
  by_contra hsome
  obtain ⟨size, hsize⟩ := Option.ne_none_iff_exists'.1 hsome
  obtain ⟨c, rest, rfl⟩ := List.exists_cons_of_ne_nil h.1
  have hc : c.toLower ∉ nameLetters :=
    of_isDigit_or_point (p := fun c => c.toLower ∉ nameLetters) (by decide)
      (h.2 c (List.mem_cons_self ..))
  exact hc ((forall_mem_of_namedSize? hsize).2 c (List.mem_cons_self ..))

/-- A plus sign in front of digits and points makes no difference. -/
theorem ofText?_plus (h : IsDecimalRun run) : ofText? ('+' :: run) = ofText? run := by
  have hsign : splitSign ('+' :: run) = (false, run) := rfl
  have hnone := splitSign_run h []
  rw [List.append_nil] at hnone
  rw [ofText?_eq, ofText?_eq, hsign, hnone]

/-- A minus sign in front of digits and points gives the negative. -/
theorem ofText?_minus (h : IsDecimalRun run) : ofText? ('-' :: run) = (ofText? run).map (-·) := by
  have hsign : splitSign ('-' :: run) = (true, run) := rfl
  have hnone := splitSign_run h []
  rw [List.append_nil] at hnone
  rw [ofText?_eq, ofText?_eq, hsign, hnone, namedSize?_run h, Option.or_none]
  cases hsize : decimalSize? run with
  | none => rfl
  | some size =>
    obtain ⟨⟨digits, exponent, rfl⟩, -⟩ := exists_of_decimalSize? hsize
    exact congrArg some (neg_ofMagnitude _).symm

end ShaderInterface.Number
