import ShaderInterface.Proofs.Outcome
import ShaderInterface.Shader

/-!
# Walks That Come to an End

The walk through the files of a supplier may go on forever. A walk that comes to an end is a finite
affair all the same: it was put together from walks that came to an end. This makes it a tree, and every
statement about it an induction over the tree. The bound on the files that are open at once only tells
how deep the tree may be.

## Main definitions

* `Supplier.Walk`: a walk that comes to an end, and its report.

## Main results

* `Supplier.walk_of_assembleFile`, `Supplier.assembleSegments_of_walk`: the reports are those of walks that
  come to an end.
* `Supplier.assemble_unique`: they do not depend on the bound.
* `Provider.supplier_assemble`: the walk through the files of a provider always comes to an end, and
  gives what the provider gives.
-/

namespace ShaderInterface

open ShaderInterface.Inclusion

namespace Supplier

variable {World : Type} {supplier : Supplier World} {chain : List Text} {site : Site}
  {request path text : Text} {world : World}

/-! ## Questions -/

/-- A file that is opened has been read. -/
theorem of_openFile (h : (supplier.openFile chain site path world).1.outcome = .ok text) :
    (supplier.read world path).1 = .ok text := by
  rw [openFile] at h
  split at h
  · cases h
  · split at h
    next => cases h
    next found last hread =>
      cases h
      rw [hread]

/-- A file that is opened by request is the one that was asked for, and has been read. -/
theorem of_follow (h : (supplier.follow chain site request world).1.outcome = .ok (path, text)) :
    (supplier.resolve world site.file request).1 = .ok path ∧
      (supplier.read (supplier.resolve world site.file request).2 path).1 = .ok text := by
  rw [follow] at h
  split at h
  next => cases h
  next found world' hresolve =>
    rw [Report.outcome_bind] at h
    obtain ⟨content, hcontent, hpair⟩ := result_of_bind h
    obtain ⟨rfl, rfl⟩ := Prod.mk.inj (Except.ok.inj hpair)
    rw [hresolve]
    exact ⟨rfl, of_openFile hcontent⟩

/-! ## Walks -/

/-- A walk through segments that comes to an end. No segment is left, lines are put in front of what
the segments behind give, an include line is refused, the file that it opens has a fault, or this file
comes before the segments behind. -/
inductive Walk (supplier : Supplier World) : (chain : List Text) → (file : Text) →
    (parts : List Segment) → (world : World) → (report : Report (List Fragment)) →
    (last : World) → Prop where
  | nil {chain file world} : Walk supplier chain file [] world (pure []) world
  | code {chain file offset lines rest world following last} :
      Walk supplier chain file rest world following last →
      Walk supplier chain file (.code offset lines :: rest) world
        (do return { source := Text.unlines lines, file, offset } :: (← following)) last
  | refused {chain file number request rest world opened last fault} :
      supplier.follow chain ⟨file, number⟩ request world = (opened, last) →
      opened.outcome = .error fault →
      Walk supplier chain file (.request number request :: rest) world
        ⟨opened.notices, .error fault⟩ last
  | failed {chain file number request rest world opened next path text included last fault} :
      supplier.follow chain ⟨file, number⟩ request world = (opened, next) →
      opened.outcome = .ok (path, text) →
      Walk supplier (path :: chain) path (segments text) next included last →
      included.outcome = .error fault →
      Walk supplier chain file (.request number request :: rest) world
        (do let _ ← opened; included) last
  | opened {chain file number request rest world opened next path text included behind fragments
        following last} :
      supplier.follow chain ⟨file, number⟩ request world = (opened, next) →
      opened.outcome = .ok (path, text) →
      Walk supplier (path :: chain) path (segments text) next included behind →
      included.outcome = .ok fragments →
      Walk supplier chain file rest behind following last →
      Walk supplier chain file (.request number request :: rest) world
        (do let _ ← opened; return (← included) ++ (← following)) last

section

variable {file : Text} {parts : List Segment} {result : Report (List Fragment) × World}

/-- A report on segments is that of a walk, if the reports on the files that are opened are. -/
theorem walk_of_assembleSegments
    {assembleFile : List Text → Text → Text → World → Option (Report (List Fragment) × World)}
    (hfile : ∀ chain path text world result, assembleFile chain path text world = some result →
      supplier.Walk chain path (segments text) world result.1 result.2)
    (h : supplier.assembleSegments assembleFile chain file parts world = some result) :
    supplier.Walk chain file parts world result.1 result.2 := by
  induction parts generalizing world result with
  | nil =>
    obtain rfl := Option.some_inj.1 h
    exact .nil
  | cons part rest ih =>
    cases part with
    | code offset lines =>
      obtain ⟨⟨following, last⟩, hrest, h⟩ := Option.bind_eq_some_iff.1 h
      obtain rfl := Option.some_inj.1 h
      exact .code (ih hrest)
    | request number request =>
      obtain ⟨opened, next, hfollow⟩ :
          ∃ opened next, supplier.follow chain ⟨file, number⟩ request world = (opened, next) :=
        ⟨_, _, rfl⟩
      simp only [assembleSegments, hfollow] at h
      cases hopened : opened.outcome with
      | error fault =>
        rw [hopened] at h
        obtain rfl := Option.some_inj.1 h
        exact .refused hfollow hopened
      | ok found =>
        rw [hopened] at h
        obtain ⟨⟨included, behind⟩, hinside, h⟩ := Option.bind_eq_some_iff.1 h
        have hwalk := hfile _ _ _ _ _ hinside
        cases hincluded : included.outcome with
        | error fault =>
          rw [hincluded] at h
          obtain rfl := Option.some_inj.1 h
          exact .failed hfollow hopened hwalk hincluded
        | ok fragments =>
          rw [hincluded] at h
          obtain ⟨⟨following, last⟩, hrest, h⟩ := Option.bind_eq_some_iff.1 h
          obtain rfl := Option.some_inj.1 h
          exact .opened hfollow hopened hwalk hincluded (ih hrest)

/-- Every report on a file is that of a walk through its segments. -/
theorem walk_of_assembleFile {depth : Nat}
    (h : supplier.assembleFile depth chain path text world = some result) :
    supplier.Walk chain path (segments text) world result.1 result.2 := by
  induction depth generalizing chain path text world result with
  | zero => cases h
  | succ depth ih => exact walk_of_assembleSegments (fun _ _ _ _ _ => ih) h

/-- A file is assembled with a bound that is greater than one for its segments. -/
theorem assembleFile_of_gt {bound : Nat}
    (h : ∀ depth ≥ bound, supplier.assembleSegments (supplier.assembleFile depth) chain path
      (segments text) world = some result) {depth : Nat} (hdepth : bound < depth) :
    supplier.assembleFile depth chain path text world = some result := by
  obtain ⟨more, rfl⟩ := Nat.exists_eq_add_of_lt hdepth
  exact h (bound + more) (Nat.le_add_right bound more)

/-- Every walk gives its report, as long as the bound is not too low. -/
theorem assembleSegments_of_walk {report : Report (List Fragment)} {last : World}
    (h : supplier.Walk chain file parts world report last) :
    ∃ bound, ∀ depth ≥ bound,
      supplier.assembleSegments (supplier.assembleFile depth) chain file parts world =
        some (report, last) := by
  induction h with
  | nil => exact ⟨0, fun _ _ => rfl⟩
  | code _ ih =>
    obtain ⟨bound, hbound⟩ := ih
    refine ⟨bound, fun depth hdepth => ?_⟩
    simp only [assembleSegments, hbound depth hdepth]
    rfl
  | refused hfollow hopened =>
    refine ⟨0, fun depth _ => ?_⟩
    simp only [assembleSegments, hfollow, hopened]
  | failed hfollow hopened _ hincluded ih =>
    obtain ⟨bound, hbound⟩ := ih
    refine ⟨bound + 1, fun depth hdepth => ?_⟩
    have hinside := assembleFile_of_gt hbound hdepth
    simp only [assembleSegments, hfollow, hopened, hinside, Option.bind_eq_bind, Option.bind_some,
      hincluded]
  | opened hfollow hopened _ hincluded _ ihinside ih =>
    obtain ⟨bound, hbound⟩ := ihinside
    obtain ⟨bound', hbound'⟩ := ih
    refine ⟨max (bound + 1) bound', fun depth hdepth => ?_⟩
    have hinside := assembleFile_of_gt hbound (Nat.le_trans (Nat.le_max_left _ _) hdepth)
    have hrest := hbound' depth (Nat.le_trans (Nat.le_max_right _ _) hdepth)
    simp only [assembleSegments, hfollow, hopened, hinside, Option.bind_eq_bind, Option.bind_some,
      hincluded, hrest]

end

/-! ## The assembly of a shader -/

section

variable {depth : Nat} {report : Report (List Fragment)} {last : World}

/-- The assembly of a shader ends with the fault of opening it, or walks through its lines. -/
theorem assemble_cases (h : supplier.assemble depth path world = some (report, last)) :
    (∃ opened fault, supplier.openFile [] ⟨[], 0⟩ path world = (opened, last) ∧
      opened.outcome = .error fault ∧ report = ⟨opened.notices, .error fault⟩) ∨
    ∃ opened next text included, supplier.openFile [] ⟨[], 0⟩ path world = (opened, next) ∧
      opened.outcome = .ok text ∧
      supplier.Walk [path] path (segments text) next included last ∧
      report = (do let _ ← opened; included) := by
  obtain ⟨opened, next, hopen⟩ :
      ∃ opened next, supplier.openFile [] ⟨[], 0⟩ path world = (opened, next) := ⟨_, _, rfl⟩
  simp only [assemble, hopen] at h
  cases hopened : opened.outcome with
  | error fault =>
    rw [hopened] at h
    obtain ⟨rfl, rfl⟩ := Prod.mk.inj (Option.some_inj.1 h)
    exact .inl ⟨opened, fault, hopen, hopened, rfl⟩
  | ok text =>
    rw [hopened] at h
    obtain ⟨⟨included, behind⟩, hinside, h⟩ := Option.bind_eq_some_iff.1 h
    obtain ⟨rfl, rfl⟩ := Prod.mk.inj (Option.some_inj.1 h)
    exact .inr ⟨opened, next, text, included, hopen, hopened, walk_of_assembleFile hinside, rfl⟩

/-- A report on a shader is given with every bound that is not too low. -/
theorem assemble_eventually (h : supplier.assemble depth path world = some (report, last)) :
    ∃ bound, ∀ depth ≥ bound, supplier.assemble depth path world = some (report, last) := by
  rcases assemble_cases h with
    ⟨opened, fault, hopen, hopened, rfl⟩ | ⟨opened, next, text, included, hopen, hopened, hwalk, rfl⟩
  · refine ⟨0, fun depth _ => ?_⟩
    simp only [assemble, hopen, hopened]
  · obtain ⟨bound, hbound⟩ := assembleSegments_of_walk hwalk
    refine ⟨bound + 1, fun depth hdepth => ?_⟩
    have hinside := assembleFile_of_gt hbound hdepth
    simp only [assemble, hopen, hopened, hinside, Option.bind_eq_bind, Option.bind_some]

/-- The report on a shader does not depend on the bound. -/
theorem assemble_unique {depth' : Nat} {result result' : Report (List Fragment) × World}
    (h : supplier.assemble depth path world = some result)
    (h' : supplier.assemble depth' path world = some result') : result = result' := by
  obtain ⟨bound, hbound⟩ := assemble_eventually h
  obtain ⟨bound', hbound'⟩ := assemble_eventually h'
  -- With the greater one of two bounds both reports are given.
  have hmax := hbound (max bound bound') (Nat.le_max_left bound bound')
  have hmax' := hbound' (max bound bound') (Nat.le_max_right bound bound')
  exact Option.some_inj.1 (hmax.symm.trans hmax')

end

end Supplier

/-! ## Providers -/

@[simp]
theorem Report.outcome_ofExcept {α : Type} (outcome : Except Fault α) :
    (ofExcept outcome).outcome = outcome := by
  cases outcome <;> rfl

namespace Provider

variable (provider : Provider)

theorem supplier_openFile (chain : List Text) (site : Site) (path : Text) :
    provider.supplier.openFile chain site path () =
      (.ofExcept (provider.openFile chain site path), ()) := by
  have hread : provider.supplier.read () path = (provider.read path, ()) := rfl
  rw [Supplier.openFile, openFile, hread]
  cases provider.read path <;> split <;> rfl

theorem supplier_follow (chain : List Text) (site : Site) (request : Text) :
    provider.supplier.follow chain site request () =
      (.ofExcept (provider.follow chain site request), ()) := by
  have hresolve : provider.supplier.resolve () site.file request =
    (provider.resolve site.file request, ()) := rfl
  rw [Supplier.follow, follow, hresolve]
  cases provider.resolve site.file request with
  | error cause => rfl
  | ok path =>
    simp only [supplier_openFile]
    cases provider.openFile chain site path <;> rfl

/-- The walk through the files of a provider comes to an end, and gives what the provider gives. -/
theorem supplier_walk (chain : List Text) (file : Text) (parts : List Segment) :
    provider.supplier.Walk chain file parts ()
      (.ofExcept (provider.assembleSegments chain file parts)) () := by
  fun_induction assembleSegments provider chain file parts with
  | case1 => exact .nil
  | case2 chain file offset lines rest ih =>
    cases hrest : provider.assembleSegments chain file rest <;> rw [hrest] at ih <;> exact .code ih
  | case3 chain file number request rest fault hfollow =>
    have hopened := provider.supplier_follow chain ⟨file, number⟩ request
    rw [hfollow] at hopened
    exact .refused hopened rfl
  | case4 chain file number request rest path text hfollow ihinside ih =>
    have hopened := provider.supplier_follow chain ⟨file, number⟩ request
    rw [hfollow] at hopened
    cases hinside : provider.assembleSegments (path :: chain) path (segments text) with
    | error fault =>
      rw [hinside] at ihinside
      exact .failed hopened rfl ihinside rfl
    | ok included =>
      rw [hinside] at ihinside
      cases hrest : provider.assembleSegments chain file rest <;> rw [hrest] at ih <;>
        exact .opened hopened rfl ihinside rfl ih

/-- The assembly of a shader from the files of a provider, with any bound that is not too low. -/
theorem supplier_assemble (path : Text) : ∃ bound, ∀ depth ≥ bound,
    provider.supplier.assemble depth path () = some (.ofExcept (provider.assemble path), ()) := by
  obtain ⟨opened, hopen⟩ : ∃ opened, provider.openFile [] ⟨[], 0⟩ path = opened := ⟨_, rfl⟩
  cases opened with
  | error fault =>
    refine ⟨0, fun depth _ => ?_⟩
    rw [Supplier.assemble, supplier_openFile, assemble, hopen]
    rfl
  | ok text =>
    obtain ⟨bound, hbound⟩ :=
      Supplier.assembleSegments_of_walk (provider.supplier_walk [path] path (segments text))
    refine ⟨bound + 1, fun depth hdepth => ?_⟩
    have hinside := Supplier.assembleFile_of_gt hbound hdepth
    rw [Supplier.assemble, supplier_openFile, assemble, hopen]
    simp only [Report.outcome_ofExcept, hinside]
    rfl

/-- Any bound with which there is a report gives what the provider gives. -/
theorem assemble_eq_of_supplier {depth : Nat} {path : Text} {report : Report (List Fragment)}
    (h : provider.supplier.assemble depth path () = some (report, ())) :
    provider.assemble path = report.outcome := by
  obtain ⟨bound, hbound⟩ := provider.supplier_assemble path
  have hsame := Supplier.assemble_unique h (hbound bound (Nat.le_refl bound))
  rw [(Prod.mk.inj hsame).1, Report.outcome_ofExcept]

/-- A shader is read from the files of a provider as it is from those of the supplier. -/
theorem supplier_readFrom (path commandLine : Text) : ∃ bound, ∀ depth ≥ bound,
    Shader.readFrom provider.supplier depth path commandLine () =
      some (Shader.read provider path commandLine, ()) := by
  obtain ⟨bound, hbound⟩ := provider.supplier_assemble path
  refine ⟨bound, fun depth hdepth => ?_⟩
  rw [Shader.readFrom, hbound depth hdepth]
  rfl

end Provider

end ShaderInterface
