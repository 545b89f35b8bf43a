import ShaderInterface.Report

/-!
# Outcomes of Reports

The outcome of a report is found without its notices: taking outcomes turns the sequence of two
reports into the sequence of their outcomes. Statements about results and faults alone are proved
through the equations below, and the notices never come up.
-/

namespace ShaderInterface

/-- The fault of an outcome, if it has one. -/
def faultOf? {ε α : Type} : Except ε α → Option ε
  | .error fault => some fault
  | .ok _ => none

theorem faultOf?_eq_some {ε α : Type} {outcome : Except ε α} {fault : ε}
    (h : faultOf? outcome = some fault) : outcome = .error fault := by
  cases outcome with
  | error cause =>
    cases h
    rfl
  | ok result => cases h

theorem exists_of_faultOf?_eq_none {ε α : Type} {outcome : Except ε α} (h : faultOf? outcome = none) :
    ∃ result, outcome = .ok result := by
  cases outcome with
  | error fault => cases h
  | ok result => exact ⟨result, rfl⟩

/-- A sequence fails where one of its parts fails. -/
theorem fault_of_bind {ε α β : Type} {first : Except ε α} {next : α → Except ε β} {fault : ε}
    (h : first >>= next = .error fault) :
    first = .error fault ∨ ∃ result, first = .ok result ∧ next result = .error fault := by
  cases first with
  | error cause =>
    cases h
    exact Or.inl rfl
  | ok result => exact Or.inr ⟨result, rfl, h⟩

/-- A sequence has a result where both of its parts have one. -/
theorem result_of_bind {ε α β : Type} {first : Except ε α} {next : α → Except ε β} {result : β}
    (h : first >>= next = .ok result) :
    ∃ found, first = .ok found ∧ next found = .ok result := by
  cases first with
  | error fault => cases h
  | ok found => exact ⟨found, rfl, h⟩

/-- A list of parts fails where one of them fails. -/
theorem fault_of_mapM {ε α β : Type} {outcome : α → Except ε β} {items : List α} {fault : ε}
    (h : items.mapM outcome = .error fault) : ∃ item ∈ items, outcome item = .error fault := by
  induction items with
  | nil => cases h
  | cons item rest ih =>
    rw [List.mapM_cons] at h
    rcases fault_of_bind h with hitem | ⟨first, -, hbehind⟩
    · exact ⟨item, List.mem_cons_self .., hitem⟩
    · rcases fault_of_bind hbehind with hrest | ⟨others, -, hnone⟩
      · obtain ⟨other, hother, hfault⟩ := ih hrest
        exact ⟨other, List.mem_cons_of_mem _ hother, hfault⟩
      · cases hnone

namespace Report

variable {α β : Type}

theorem bind_mk_ok (notices : List Notice) (result : α) (next : α → Report β) :
    (⟨notices, .ok result⟩ : Report α) >>= next =
      ⟨notices ++ (next result).notices, (next result).outcome⟩ := rfl

/-- Reports can be sequenced from either side, as notices are put behind each other. -/
instance : LawfulMonad Report := .mk' Report
  (fun ⟨notices, outcome⟩ => by
    cases outcome with
    | error fault => rfl
    | ok result => exact congrArg (Report.mk · (.ok result)) (List.append_nil notices))
  (fun _ _ => rfl)
  (fun ⟨notices, outcome⟩ next last => by
    cases outcome with
    | error fault => rfl
    | ok result =>
      rw [bind_mk_ok, bind_mk_ok]
      obtain ⟨behind, outcome⟩ := next result
      cases outcome with
      | error fault => rfl
      | ok found => rw [bind_mk_ok, bind_mk_ok, List.append_assoc])

@[simp]
theorem outcome_pure (result : α) : (pure result : Report α).outcome = .ok result := rfl

@[simp]
theorem outcome_notice (n : Notice) : (notice n).outcome = .ok () := rfl

@[simp]
theorem outcome_raise (fault : Fault) : (raise fault : Report α).outcome = .error fault := rfl

/-- The outcome of a sequence is the sequence of the outcomes. -/
@[simp]
theorem outcome_bind (report : Report α) (next : α → Report β) :
    (report >>= next).outcome = report.outcome >>= fun result => (next result).outcome := by
  show (report.andThen next).outcome = _
  cases h : report.outcome with
  | error fault => simp only [andThen, h]; rfl
  | ok result => simp only [andThen, h]; rfl

@[simp]
theorem outcome_map (f : α → β) (report : Report α) :
    (f <$> report).outcome = report.outcome.map f := by
  obtain ⟨notices, outcome⟩ := report
  cases outcome <;> rfl

/-- The outcome for a list is that of its items, one after the other. -/
theorem outcome_mapM (f : α → Report β) (items : List α) :
    (items.mapM f).outcome = items.mapM fun item => (f item).outcome := by
  induction items with
  | nil => rfl
  | cons item rest ih =>
    rw [List.mapM_cons, List.mapM_cons, outcome_bind]
    simp only [outcome_bind, ih, outcome_pure]
    rfl

end Report

end ShaderInterface
