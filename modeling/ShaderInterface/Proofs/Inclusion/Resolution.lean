import Mathlib.Data.List.Chain
import Mathlib.Data.List.Nodup
import ShaderInterface.Proofs.Inclusion.Walk
import ShaderInterface.Proofs.Outcome

/-!
# What Assembling a Shader Gives

Assembling succeeds for the shaders whose include lines can all be followed and never lead back to a
file that is open, and gives the text with everything inlined. Otherwise it gives the fault of the
include line that is refused first.

## Main results

* `Provider.inlinedLines_of_walk`: the walk gives the text with everything inlined.
* `Provider.not_failsAt_of_walk`, `Provider.isFirstFailure_of_walk`: the walk fails at the first
  include line that is refused.
* `Provider.assemble_resolves`: all of this for the assembly of a shader.
-/

namespace ShaderInterface.Provider

open ShaderInterface.Text ShaderInterface.Inclusion

variable {provider : Provider} {chain : List Text} {file line request path text result : Text}
  {rest : List Text} {numbered : List (Text × Nat)} {offset number : Nat} {trace : List Nat}
  {fault : Fault}

/-! ## The text -/

/-- The walk gives the text with everything inlined. -/
theorem inlinedLines_of_walk {lines : List Text}
    (h : provider.walk chain file offset lines = .ok result) :
    provider.InlinedLines file lines result := by
  induction chain, file, offset, lines using walk_induction provider generalizing result with
  | nil =>
    rw [walk_nil] at h
    cases h
    exact .nil
  | keep chain file offset line rest hline ih =>
    rw [walk_keep hline] at h
    obtain ⟨following, hrest, hresult⟩ := result_of_bind h
    cases hresult
    exact .keep hline (ih hrest)
  | refused chain file offset line rest request fault hline hrefused =>
    rw [walk_refused hline hrefused] at h
    cases h
  | opened chain file offset line rest request path text hline hopened ihinside ih =>
    -- The lines of the file and the lines behind are walked through one after the other.
    rw [walk_opened hline hopened] at h
    obtain ⟨included, hinside, h⟩ := result_of_bind h
    obtain ⟨following, hrest, hresult⟩ := result_of_bind h
    cases hresult
    exact .inline hline hopened.resolve hopened.read (ihinside hinside) (ih hrest)

/-! ## The first line that is refused -/

/-- An include line is refused in the first line or in one of those behind it. -/
theorem failsAt_cons_iff :
    provider.FailsAt chain file ((line, number) :: numbered) trace fault ↔
      provider.FailsAt chain file [(line, number)] trace fault ∨
        provider.FailsAt chain file numbered trace fault := by
  -- A failure speaks of one line, which is the first one or one of the others.
  constructor
  · rintro (⟨hmem, hline, hrefused⟩ | ⟨hmem, hline, hopened, hinside⟩)
    · rcases List.mem_cons.1 hmem with hhead | htail
      · exact .inl (.refused (List.mem_singleton.2 hhead) hline hrefused)
      · exact .inr (.refused htail hline hrefused)
    · rcases List.mem_cons.1 hmem with hhead | htail
      · exact .inl (.inside (List.mem_singleton.2 hhead) hline hopened hinside)
      · exact .inr (.inside htail hline hopened hinside)
  · rintro (h | h) <;> rcases h with ⟨hmem, hline, hrefused⟩ | ⟨hmem, hline, hopened, hinside⟩
    · exact .refused (List.mem_cons.2 (.inl (List.mem_singleton.1 hmem))) hline hrefused
    · exact .inside (List.mem_cons.2 (.inl (List.mem_singleton.1 hmem))) hline hopened hinside
    · exact .refused (List.mem_cons_of_mem _ hmem) hline hrefused
    · exact .inside (List.mem_cons_of_mem _ hmem) hline hopened hinside

/-- A single line fails by being refused itself or by what fails in the file that it opens. -/
theorem failsAt_singleton_iff :
    provider.FailsAt chain file [(line, number)] trace fault ↔
      ∃ request, request? line = some request ∧
        (trace = [number] ∧ provider.Refused chain ⟨file, number⟩ request fault ∨
          ∃ path text inner, trace = number :: inner ∧
            provider.Opened chain ⟨file, number⟩ request path text ∧
            provider.FailsAt (path :: chain) path ((lines text).zipIdx 1) inner fault) := by
  constructor
  · rintro (⟨hmem, hline, hrefused⟩ | ⟨hmem, hline, hopened, hinside⟩)
    all_goals obtain ⟨rfl, rfl⟩ := Prod.mk.inj (List.mem_singleton.1 hmem)
    · exact ⟨_, hline, .inl ⟨rfl, hrefused⟩⟩
    · exact ⟨_, hline, .inr ⟨_, _, _, rfl, hopened, hinside⟩⟩
  · rintro ⟨request, hline, ⟨rfl, hrefused⟩ | ⟨path, text, inner, rfl, hopened, hinside⟩⟩
    · exact .refused (List.mem_singleton_self _) hline hrefused
    · exact .inside (List.mem_singleton_self _) hline hopened hinside

/-- A line that asks for nothing is not refused. -/
theorem not_failsAt_keep (hline : request? line = none) :
    ¬ provider.FailsAt chain file [(line, number)] trace fault := by
  rw [failsAt_singleton_iff]
  rintro ⟨request, hrequest, -⟩
  exact Option.some_ne_none request (hrequest.symm.trans hline)

/-- A line that is refused does not open a file as well. -/
theorem failsAt_refused_iff {cause : Fault} (hline : request? line = some request)
    (hrefused : provider.Refused chain ⟨file, number⟩ request cause) :
    provider.FailsAt chain file [(line, number)] trace fault ↔ trace = [number] ∧ fault = cause := by
  -- Both outcomes of the line are outcomes of `follow`, which has only one.
  have hfollow := follow_eq_error_iff.2 hrefused
  rw [failsAt_singleton_iff]
  constructor
  · rintro ⟨request', hrequest, h⟩
    obtain rfl : request = request' := Option.some_inj.1 (hline.symm.trans hrequest)
    rcases h with ⟨htrace, hrefused'⟩ | ⟨_, _, _, -, hopened, -⟩
    · have hsame := hfollow.symm.trans (follow_eq_error_iff.2 hrefused')
      exact ⟨htrace, (Except.error.inj hsame).symm⟩
    · cases hfollow.symm.trans (follow_eq_ok_iff.2 hopened)
  · rintro ⟨htrace, rfl⟩
    exact ⟨request, hline, .inl ⟨htrace, hrefused⟩⟩

/-- A line that opens a file fails where the file does. -/
theorem failsAt_opened_iff (hline : request? line = some request)
    (hopened : provider.Opened chain ⟨file, number⟩ request path text) :
    provider.FailsAt chain file [(line, number)] trace fault ↔
      ∃ inner, trace = number :: inner ∧
        provider.FailsAt (path :: chain) path ((lines text).zipIdx 1) inner fault := by
  have hfollow := follow_eq_ok_iff.2 hopened
  rw [failsAt_singleton_iff]
  constructor
  · rintro ⟨request', hrequest, h⟩
    obtain rfl : request = request' := Option.some_inj.1 (hline.symm.trans hrequest)
    rcases h with ⟨-, hrefused⟩ | ⟨path', text', inner, htrace, hopened', hinside⟩
    · cases hfollow.symm.trans (follow_eq_error_iff.2 hrefused)
    · have hsame := hfollow.symm.trans (follow_eq_ok_iff.2 hopened')
      obtain ⟨rfl, rfl⟩ := Prod.mk.inj (Except.ok.inj hsame)
      exact ⟨inner, htrace, hinside⟩
  · rintro ⟨inner, htrace, hinside⟩
    exact ⟨request, hline, .inr ⟨path, text, inner, htrace, hopened, hinside⟩⟩

/-- The failures in lines that are numbered from `number` on come behind the lines before. -/
theorem FailsAt.lt {lines : List Text} {start : Nat} {inner : List Nat} (hstart : number < start)
    (h : provider.FailsAt chain file (lines.zipIdx start) trace fault) :
    number :: inner < trace := by
  -- Whichever way a line fails, its own number comes first in the trace.
  rcases h with ⟨hmem, -, -⟩ | ⟨hmem, -, -, -⟩
  all_goals
    have hle := List.le_snd_of_mem_zipIdx hmem
    exact List.cons_lt_cons_iff.2 (.inl (Nat.lt_of_lt_of_le hstart hle))

/-- Where the walk gives a text no include line is refused. -/
theorem not_failsAt_of_walk {lines : List Text}
    (h : provider.walk chain file offset lines = .ok result) :
    ¬ provider.FailsAt chain file (lines.zipIdx (offset + 1)) trace fault := by
  -- The walk has come past every line, and through every file that a line opens.
  induction chain, file, offset, lines using walk_induction provider
    generalizing result trace with
  | nil =>
    rintro (⟨hmem, -, -⟩ | ⟨hmem, -, -, -⟩) <;> cases hmem
  | keep chain file offset line rest hline ih =>
    rw [walk_keep hline] at h
    obtain ⟨following, hrest, -⟩ := result_of_bind h
    rw [List.zipIdx_cons, failsAt_cons_iff]
    rintro (hfirst | hbehind)
    · exact not_failsAt_keep hline hfirst
    · exact ih hrest hbehind
  | refused chain file offset line rest request fault hline hrefused =>
    rw [walk_refused hline hrefused] at h
    cases h
  | opened chain file offset line rest request path text hline hopened ihinside ih =>
    rw [walk_opened hline hopened] at h
    obtain ⟨included, hinside, h⟩ := result_of_bind h
    obtain ⟨following, hrest, -⟩ := result_of_bind h
    rw [List.zipIdx_cons, failsAt_cons_iff, failsAt_opened_iff hline hopened]
    rintro (⟨inner, -, hfirst⟩ | hbehind)
    · exact ihinside hinside hfirst
    · exact ih hrest hbehind

/-- Where the walk fails an include line is refused for this reason, and any other one comes later. -/
theorem isFirstFailure_of_walk {lines : List Text}
    (h : provider.walk chain file offset lines = .error fault) :
    IsFirstFailure (provider.FailsAt chain file (lines.zipIdx (offset + 1))) fault := by
  induction chain, file, offset, lines using walk_induction provider with
  | nil =>
    rw [walk_nil] at h
    cases h
  | keep chain file offset line rest hline ih =>
    rw [walk_keep hline] at h
    -- The line that is kept is on no trace, so that nothing changes in front of the others.
    rcases fault_of_bind h with hrest | ⟨following, -, h⟩
    · obtain ⟨trace, hfails, hfirst⟩ := ih hrest
      refine ⟨trace, failsAt_cons_iff.2 (.inr hfails), ?_⟩
      intro other fault' hother
      rcases failsAt_cons_iff.1 hother with hline' | hbehind
      · exact absurd hline' (not_failsAt_keep hline)
      · exact hfirst other fault' hbehind
    · cases h
  | refused chain file offset line rest request cause hline hrefused =>
    rw [walk_refused hline hrefused] at h
    cases h
    have hfails := (failsAt_refused_iff hline hrefused).2 ⟨rfl, rfl⟩
    refine ⟨[offset + 1], failsAt_cons_iff.2 (.inl hfails), ?_⟩
    intro other fault' hother
    rcases failsAt_cons_iff.1 hother with hline' | hbehind
    · obtain ⟨rfl, rfl⟩ := (failsAt_refused_iff hline hrefused).1 hline'
      exact .inr ⟨rfl, rfl⟩
    · exact .inl (hbehind.lt (Nat.lt_succ_self _))
  | opened chain file offset line rest request path text hline hopened ihinside ih =>
    rw [walk_opened hline hopened] at h
    rcases fault_of_bind h with hinside | ⟨included, hinside, h⟩
    · -- The fault comes from the file that the line opens, before the lines behind are looked at.
      obtain ⟨inner, hfails, hfirst⟩ := ihinside hinside
      have hfails' := (failsAt_opened_iff hline hopened).2 ⟨inner, rfl, hfails⟩
      refine ⟨(offset + 1) :: inner, failsAt_cons_iff.2 (.inl hfails'), ?_⟩
      intro other fault' hother
      rcases failsAt_cons_iff.1 hother with hline' | hbehind
      · obtain ⟨inner', rfl, hinner'⟩ := (failsAt_opened_iff hline hopened).1 hline'
        rcases hfirst inner' fault' hinner' with hlt | ⟨rfl, rfl⟩
        · exact .inl (List.cons_lt_cons_iff.2 (.inr ⟨rfl, hlt⟩))
        · exact .inr ⟨rfl, rfl⟩
      · exact .inl (hbehind.lt (Nat.lt_succ_self _))
    · rcases fault_of_bind h with hrest | ⟨following, -, h⟩
      · obtain ⟨trace, hfails, hfirst⟩ := ih hrest
        refine ⟨trace, failsAt_cons_iff.2 (.inr hfails), ?_⟩
        intro other fault' hother
        rcases failsAt_cons_iff.1 hother with hline' | hbehind
        · -- The file that the line opens was walked through without a failure.
          obtain ⟨inner', -, hinner'⟩ := (failsAt_opened_iff hline hopened).1 hline'
          exact absurd hinner' (not_failsAt_of_walk hinside)
        · exact hfirst other fault' hbehind
      · cases h

/-! ## The shaders that can be assembled -/

/-- A file can be read and walked through while the other files of a chain are open. -/
def Walks (provider : Provider) (chain : List Text) (file : Text) : Prop :=
  ∃ text result, provider.read file = .ok text ∧
    provider.walk chain file 0 (lines text) = .ok result

/-- Every include line of a walk that succeeds opens a file, and the walk through this file
succeeds. -/
theorem walks_of_walk {lines : List Text} (h : provider.walk chain file offset lines = .ok result)
    (hmem : line ∈ lines) (hline : request? line = some request) :
    ∃ path, provider.resolve file request = .ok path ∧ path ∉ chain ∧
      provider.Walks (path :: chain) path := by
  induction chain, file, offset, lines using walk_induction provider generalizing result with
  | nil => cases hmem
  | keep chain file offset head rest hhead ih =>
    rw [walk_keep hhead] at h
    obtain ⟨following, hrest, -⟩ := result_of_bind h
    rcases List.mem_cons.1 hmem with rfl | hmem
    · cases hhead.symm.trans hline
    · exact ih hrest hmem
  | refused chain file offset head rest _ fault hhead hrefused =>
    rw [walk_refused hhead hrefused] at h
    cases h
  | opened chain file offset head rest _ path text hhead hopened _ ih =>
    rw [walk_opened hhead hopened] at h
    obtain ⟨included, hinside, h⟩ := result_of_bind h
    obtain ⟨following, hrest, -⟩ := result_of_bind h
    rcases List.mem_cons.1 hmem with rfl | hmem
    · -- The line itself: the walk through its file is a part of this one.
      obtain rfl := Option.some_inj.1 (hhead.symm.trans hline)
      exact ⟨path, hopened.resolve, hopened.notMem, text, included, hopened.read, hinside⟩
    · exact ih hrest hmem

/-- A file that is walked through can be read and its include lines resolved. -/
theorem Walks.isComplete (h : provider.Walks chain file) : provider.IsComplete file := by
  obtain ⟨text, result, hread, hwalk⟩ := h
  refine ⟨text, hread, ?_⟩
  intro line hmem request hline
  obtain ⟨path, hresolve, -⟩ := walks_of_walk hwalk hmem hline
  exact ⟨path, hresolve⟩

/-- A file that is asked for by one that is walked through is not open, and is walked through. -/
theorem Walks.includes (h : provider.Walks chain file) (hincludes : provider.Includes file path) :
    path ∉ chain ∧ provider.Walks (path :: chain) path := by
  obtain ⟨text, result, hread, hwalk⟩ := h
  obtain ⟨text', line, request, hread', hmem, hline, hresolve⟩ := hincludes
  cases hread.symm.trans hread'
  obtain ⟨path', hresolve', hnew, hwalks⟩ := walks_of_walk hwalk hmem hline
  cases hresolve.symm.trans hresolve'
  exact ⟨hnew, hwalks⟩

/-- Every file that is reached from one that is walked through is walked through. -/
theorem Walks.reaches (h : provider.Walks chain file)
    (hreach : Relation.ReflTransGen provider.Includes file path) :
    ∃ opened, provider.Walks opened path := by
  -- The chain of open files grows along the way, and is forgotten in the end.
  induction hreach with
  | refl => exact ⟨chain, h⟩
  | tail _ hincludes ih =>
    obtain ⟨opened, hwalks⟩ := ih
    exact ⟨_, (hwalks.includes hincludes).2⟩

/-- No include chain from a file that is walked through comes back to an open file. -/
theorem Walks.nodup {files : List Text} (h : provider.Walks chain file)
    (hfiles : List.IsChain provider.Includes (file :: files)) :
    files.Nodup ∧ ∀ path ∈ files, path ∉ chain := by
  induction files generalizing file chain with
  | nil => exact ⟨.nil, fun path hmem => by cases hmem⟩
  | cons next files ih =>
    rw [List.isChain_cons_cons] at hfiles
    obtain ⟨hnew, hwalks⟩ := h.includes hfiles.1
    obtain ⟨hnodup, hnotMem⟩ := ih hwalks hfiles.2
    -- The next file is on the chain of the walk through it, which the files behind avoid.
    have hnext : next ∉ files := by
      intro hmem
      exact hnotMem next hmem (List.mem_cons_self ..)
    refine ⟨List.nodup_cons.2 ⟨hnext, hnodup⟩, ?_⟩
    intro path hmem
    rcases List.mem_cons.1 hmem with rfl | hmem
    · exact hnew
    · intro hopen
      exact hnotMem path hmem (List.mem_cons_of_mem _ hopen)

/-- The files that are open, with another one that the innermost of them asks for, are again an
include chain. -/
theorem isChain_reverse_cons {outer : List Text}
    (hchain : List.IsChain provider.Includes (file :: outer).reverse)
    (hincludes : provider.Includes file path) :
    List.IsChain provider.Includes (path :: file :: outer).reverse := by
  rw [List.reverse_cons]
  -- The two parts meet in the innermost open file and the one that it asks for.
  refine List.isChain_append.2 ⟨hchain, .singleton path, ?_⟩
  intro last hlast next hnext
  rw [List.getLast?_reverse, List.head?_cons, Option.mem_some_iff] at hlast
  rw [List.head?_cons, Option.mem_some_iff] at hnext
  rwa [← hlast, ← hnext]

/-- Nothing is refused in a shader whose files can all be read and resolved, when no include chain
comes back to a file. -/
theorem not_failsAt_of_nodup {entry : Text} {outer : List Text}
    (hcomplete : ∀ file, Relation.ReflTransGen provider.Includes entry file →
      provider.IsComplete file)
    (hnodup : ∀ files, List.IsChain provider.Includes (entry :: files) → (entry :: files).Nodup)
    (hread : provider.read file = .ok text)
    (hreach : Relation.ReflTransGen provider.Includes entry file)
    (hentry : (file :: outer).reverse.head? = some entry)
    (hchain : List.IsChain provider.Includes (file :: outer).reverse) :
    ¬ provider.FailsAt (file :: outer) file ((lines text).zipIdx 1) trace fault := by
  intro h
  -- Each number of the trace leads into one more file. The open files are an include chain from the
  -- entry, and with one of them asked for again they would be one that comes back to a file.
  induction trace generalizing file outer text with
  | nil => cases h
  | cons number trace ih =>
    have hentry' (path) : (path :: file :: outer).reverse.head? = some entry := by
      rwa [List.head?_reverse, List.getLast?_cons_cons, ← List.head?_reverse]
    have hnew {path} (hincludes : provider.Includes file path) : path ∉ file :: outer := by
      obtain ⟨files, hfiles⟩ := List.head?_eq_some_iff.1 (hentry' path)
      have hdistinct := hnodup files (hfiles ▸ isChain_reverse_cons hchain hincludes)
      rw [← hfiles, List.nodup_reverse, List.nodup_cons] at hdistinct
      exact hdistinct.1
    have hincludes {line request path} (hmem : (line, number) ∈ (lines text).zipIdx 1)
        (hline : request? line = some request)
        (hresolve : provider.resolve file request = .ok path) : provider.Includes file path :=
      ⟨text, line, request, hread, List.fst_mem_of_mem_zipIdx hmem, hline, hresolve⟩
    rcases h with ⟨hmem, hline, hrefused⟩ | ⟨hmem, hline, hopened, hinside⟩
    · rcases hrefused with hresolve | ⟨hresolve, hopen⟩ | ⟨hresolve, -, hunread⟩
      · obtain ⟨text', hread', hresolves⟩ := hcomplete file hreach
        obtain rfl := Except.ok.inj (hread.symm.trans hread')
        obtain ⟨path, hresolve'⟩ := hresolves _ (List.fst_mem_of_mem_zipIdx hmem) _ hline
        cases hresolve.symm.trans hresolve'
      · exact hnew (hincludes hmem hline hresolve) hopen
      · obtain ⟨text', hread', -⟩ := hcomplete _ (hreach.tail (hincludes hmem hline hresolve))
        cases hunread.symm.trans hread'
    · have hnext := hincludes hmem hline hopened.resolve
      exact ih hopened.read (hreach.tail hnext) (hentry' _) (isChain_reverse_cons hchain hnext)
        hinside

/-! ## The assembly of a shader -/

/-- The text of the fragments of a shader is that of a walk through its lines. -/
theorem map_assemble_of_read {entry : Text} (hread : provider.read entry = .ok text) :
    (provider.assemble entry).map (List.flatMap Fragment.source) =
      provider.walk [entry] entry 0 (lines text) := by
  simp only [assemble, openFile_of_not_mem List.not_mem_nil, hread]
  rfl

theorem assemble_of_unread {entry cause : Text} (hread : provider.read entry = .error cause) :
    provider.assemble entry = .error (.unreadableFile entry cause) := by
  simp only [assemble, openFile_of_not_mem List.not_mem_nil, hread]
  rfl

/-- A shader is assembled when it can be read and walked through. -/
theorem exists_assemble_iff {entry : Text} :
    (∃ fragments, provider.assemble entry = .ok fragments) ↔ provider.Walks [entry] entry := by
  constructor
  · rintro ⟨fragments, h⟩
    cases hread : provider.read entry with
    | error cause => cases h.symm.trans (assemble_of_unread hread)
    | ok text =>
      have hwalk := map_assemble_of_read hread
      rw [h] at hwalk
      exact ⟨text, _, hread, hwalk.symm⟩
  · rintro ⟨text, result, hread, hwalk⟩
    -- Where the fragments have a text there are fragments.
    have hsame := map_assemble_of_read hread
    rw [hwalk] at hsame
    cases h : provider.assemble entry with
    | error fault =>
      rw [h] at hsame
      cases hsame
    | ok fragments => exact ⟨fragments, rfl⟩

/-- The failures of a shader that can be read are those of its lines. -/
theorem assemblyFails_eq_of_read {entry : Text} (hread : provider.read entry = .ok text) :
    provider.AssemblyFails entry = provider.FailsAt [entry] entry ((lines text).zipIdx 1) := by
  ext trace fault
  constructor
  · rintro (hread' | ⟨hread', hfails⟩)
    · cases hread.symm.trans hread'
    · obtain rfl := Except.ok.inj (hread.symm.trans hread')
      exact hfails
  · intro hfails
    exact .within hread hfails

/-- A shader that cannot be read has no other failure. -/
theorem assemblyFails_iff_of_unread {entry cause : Text}
    (hread : provider.read entry = .error cause) :
    provider.AssemblyFails entry trace fault ↔
      trace = [] ∧ fault = .unreadableFile entry cause := by
  constructor
  · rintro (hread' | ⟨hread', -⟩)
    · obtain rfl := Except.error.inj (hread.symm.trans hread')
      exact ⟨rfl, rfl⟩
    · cases hread.symm.trans hread'
  · rintro ⟨rfl, rfl⟩
    exact .unreadable hread

/-- When a shader is not assembled, the fault is that of the failure that comes first. -/
theorem isFirstFailure_of_assemble {entry : Text} (h : provider.assemble entry = .error fault) :
    IsFirstFailure (provider.AssemblyFails entry) fault := by
  cases hread : provider.read entry with
  | error cause =>
    have hfault := h.symm.trans (assemble_of_unread hread)
    refine ⟨[], (assemblyFails_iff_of_unread hread).2 ⟨rfl, Except.error.inj hfault⟩, ?_⟩
    intro other fault' hother
    obtain ⟨rfl, rfl⟩ := (assemblyFails_iff_of_unread hread).1 hother
    exact .inr ⟨rfl, Except.error.inj hfault⟩
  | ok text =>
    have hwalk := map_assemble_of_read hread
    rw [h] at hwalk
    rw [assemblyFails_eq_of_read hread]
    exact isFirstFailure_of_walk hwalk.symm

/-- A shader that is assembled has no failures. -/
theorem not_assemblyFails_of_walks {entry : Text} (h : provider.Walks [entry] entry) :
    ¬ provider.AssemblyFails entry trace fault := by
  obtain ⟨text, result, hread, hwalk⟩ := h
  rw [assemblyFails_eq_of_read hread]
  exact not_failsAt_of_walk hwalk

/-- What assembling a shader gives, for every provider and every entry. It succeeds exactly when all
files that the include lines reach can be read, all that they ask for can be resolved, and no include
chain from the entry comes to a file twice. Then the fragments make up the text with everything
inlined. Otherwise the fault is that of the include line that is refused first. -/
theorem assemble_resolves (provider : Provider) (entry : Text) :
    ((∃ fragments, provider.assemble entry = .ok fragments) ↔
      (∀ file, Relation.ReflTransGen provider.Includes entry file → provider.IsComplete file) ∧
        ∀ files, List.IsChain provider.Includes (entry :: files) → (entry :: files).Nodup) ∧
    (∀ fragments, provider.assemble entry = .ok fragments →
      ∀ result, provider.Inlined entry result ↔ result = fragments.flatMap Fragment.source) ∧
    (∀ fault, provider.assemble entry = .error fault ↔
      IsFirstFailure (provider.AssemblyFails entry) fault) := by
  refine ⟨⟨fun h => ?_, fun ⟨hcomplete, hnodup⟩ => ?_⟩, fun fragments h result => ?_,
    fun fault => ⟨isFirstFailure_of_assemble, fun h => ?_⟩⟩
  · -- The walk has come to every file that is reached, and never to one that was open.
    have hwalks := exists_assemble_iff.1 h
    refine ⟨fun file hreach => ?_, fun files hfiles => ?_⟩
    · obtain ⟨opened, hfile⟩ := hwalks.reaches hreach
      exact hfile.isComplete
    · obtain ⟨hdistinct, hnew⟩ := hwalks.nodup hfiles
      exact List.nodup_cons.2 ⟨fun hmem => hnew entry hmem (List.mem_singleton_self _), hdistinct⟩
  · cases h : provider.assemble entry with
    | ok fragments => exact ⟨fragments, rfl⟩
    | error fault =>
      -- A fault would have a line that is refused.
      obtain ⟨text, hread, -⟩ := hcomplete entry .refl
      obtain ⟨trace, hfails, -⟩ := isFirstFailure_of_assemble h
      rw [assemblyFails_eq_of_read hread] at hfails
      exact absurd hfails (not_failsAt_of_nodup hcomplete hnodup hread .refl rfl (.singleton entry))
  · obtain ⟨text, found, hread, hwalk⟩ := exists_assemble_iff.1 ⟨fragments, h⟩
    have hfound := map_assemble_of_read hread
    rw [h, hwalk] at hfound
    cases hfound
    have hinlined : provider.Inlined entry (fragments.flatMap Fragment.source) :=
      ⟨text, hread, inlinedLines_of_walk hwalk⟩
    constructor
    · intro hresult
      exact hresult.unique hinlined
    · rintro rfl
      exact hinlined
  · cases hassemble : provider.assemble entry with
    | ok fragments =>
      obtain ⟨trace, hfails, -⟩ := h
      exact absurd hfails (not_assemblyFails_of_walks (exists_assemble_iff.1 ⟨fragments, hassemble⟩))
    | error fault' => rw [(isFirstFailure_of_assemble hassemble).unique h]

end ShaderInterface.Provider
