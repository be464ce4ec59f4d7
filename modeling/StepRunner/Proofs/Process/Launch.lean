import StepRunner.Process.Launch
import StepRunner.Proofs.Action

namespace StepRunner.Launch

variable {t : FileTree} {here : Location} {files : ℕ} {path : String} {arguments : List String}
  {launch : Launch} {e failure : IoError}

/-- `Lacks t here e files path` says that the file at `path` cannot be executed because it is not
    there, or an interpreter that scripts lead to from it is not: looking that up fails with `e`. -/
inductive Lacks (t : FileTree) (here : Location) (e : IoError) : ℕ → String → Prop
  | file {files : ℕ} {path : String} (hstat : t.stat here path = .error e) : Lacks t here e files path
  | interpreter {files : ℕ} {path : String} {found : List UInt8} {name : List Char}
      {argument : Option String} (hfound : contents t here path = .ok found)
      (hnative : ProgramCall.nativeProgram? found = none)
      (hheader : header? found = some (name, argument))
      (hlacks : Lacks t here e files (String.ofList name)) : Lacks t here e (files + 1) path

theorem contents_eq_error_iff (hforbidden : e ≠ .permissionDenied) :
    contents t here path = .error e ↔ t.stat here path = .error e := by
  rw [contents]
  rcases t.stat here path with e' | ⟨place, _ | data | text⟩
  · simp
  · simp [hforbidden.symm]
  · cases hexecutable : data.executable <;> simp [hexecutable, hforbidden.symm]
  · simp [hforbidden.symm]

/-- An execution that fails for another reason than that a file may not be executed, has no known
    format or is one interpreter too many lacks a file, whatever its arguments are. -/
theorem resolve_eq_error_iff (hforbidden : e ≠ .permissionDenied) (hunknown : e ≠ .cannotExecute)
    (hlinks : e ≠ .tooManyLinks) :
    resolve t here files path arguments = .error e ↔ Lacks t here e files path := by
  induction files generalizing path arguments with
  | zero =>
    rw [resolve, bind_eq_error_iff, contents_eq_error_iff hforbidden]
    constructor
    · rintro (hstat | ⟨_, _, ⟨⟩⟩)
      · exact .file hstat
      · exact absurd rfl hlinks
    · rintro ⟨hstat⟩
      exact Or.inl hstat
  | succ files ih =>
    rw [resolve, bind_eq_error_iff, contents_eq_error_iff hforbidden]
    constructor
    · rintro (hstat | ⟨found, hfound, hrest⟩)
      · exact .file hstat
      cases hnative : ProgramCall.nativeProgram? found with
      | some program =>
        rw [hnative] at hrest
        cases hrest
      | none =>
        cases hheader : header? found with
        | none =>
          rw [hnative, hheader] at hrest
          exact absurd (Except.error.inj hrest).symm hunknown
        | some header =>
          rw [hnative, hheader] at hrest
          exact .interpreter hfound hnative hheader (ih.1 hrest)
    · intro h
      cases h with
      | file hstat => exact Or.inl hstat
      | interpreter hfound hnative hheader hname =>
        refine Or.inr ⟨_, hfound, ?_⟩
        rw [hnative, hheader]
        exact ih.2 hname

section First

variable {resolveAt : String → Except IoError (String × List String)} {paths : List String}

/-- The first path of a search leads nowhere and is passed over, or it is forbidden, or the search
    ends with it for another reason. -/
theorem firstOf_cons_cases (resolveAt : String → Except IoError (String × List String))
    (failure : IoError) (path : String) (rest : List String) :
    (∃ e, resolveAt path = .error e ∧ (e = .notFound ∨ e = .notADirectory) ∧
      firstOf resolveAt failure (path :: rest) =
        firstOf resolveAt (if failure = .permissionDenied then failure else e) rest) ∨
    (resolveAt path = .error .permissionDenied ∧
      firstOf resolveAt failure (path :: rest) = firstOf resolveAt .permissionDenied rest) ∨
    ∀ e, e = .notFound ∨ e = .notADirectory ∨ e = .permissionDenied →
      resolveAt path ≠ .error e ∧ firstOf resolveAt failure (path :: rest) ≠ .error e := by
  rw [firstOf]
  cases hpath : resolveAt path with
  | ok found => exact Or.inr (Or.inr fun e _ => ⟨nofun, nofun⟩)
  | error e =>
    by_cases hnowhere : e = .notFound ∨ e = .notADirectory
    · have hknown : e ≠ .cannotExecute := by rcases hnowhere with rfl | rfl <;> decide
      have hallowed : e ≠ .permissionDenied := by rcases hnowhere with rfl | rfl <;> decide
      refine Or.inl ⟨e, rfl, hnowhere, ?_⟩
      simp only [if_neg hknown, if_neg hallowed, if_pos hnowhere]
    by_cases hforbidden : e = .permissionDenied
    · subst hforbidden
      exact Or.inr (Or.inl ⟨rfl, rfl⟩)
    · refine Or.inr (Or.inr fun e' he' => ?_)
      have hne : e ≠ e' := by
        rintro rfl
        rcases he' with h | h | h
        · exact hnowhere (Or.inl h)
        · exact hnowhere (Or.inr h)
        · exact hforbidden h
      simp only [if_neg hforbidden, if_neg hnowhere]
      refine ⟨fun h => hne (Except.error.inj h), ?_⟩
      split
      · exact nofun
      · exact fun h => hne (Except.error.inj h)

/-- Once a forbidden path is met, the search does not end in that nothing is found. -/
theorem firstOf_forbidden_ne (paths : List String) :
    firstOf resolveAt .permissionDenied paths ≠ .error .notFound := by
  induction paths with
  | nil => exact fun h => absurd (Except.error.inj h) (by decide)
  | cons path rest ih =>
    rcases firstOf_cons_cases resolveAt .permissionDenied path rest with
      ⟨e, _, _, hstep⟩ | ⟨_, hstep⟩ | hends
    · rw [hstep, if_pos rfl]
      exact ih
    · rw [hstep]
      exact ih
    · exact (hends _ (Or.inl rfl)).2

/-- Nothing is found exactly if every path leads nowhere, and the last of them, or the search as it
    was before them, says that it does not find anything. -/
theorem firstOf_eq_notFound_iff (hfailure : failure ≠ .permissionDenied) :
    firstOf resolveAt failure paths = .error .notFound ↔
      (∀ path ∈ paths,
        resolveAt path = .error .notFound ∨ resolveAt path = .error .notADirectory) ∧
      (paths.getLast?.map resolveAt).getD (.error failure) = .error .notFound := by
  -- What a path fails with is what the search of the rest starts with, so the last one decides.
  induction paths generalizing failure with
  | nil => simp [firstOf]
  | cons path rest ih =>
    have hlast : (((path :: rest).getLast?).map resolveAt).getD (.error failure) =
        ((rest.getLast?).map resolveAt).getD (resolveAt path) := by
      rw [List.getLast?_cons]
      cases rest.getLast? <;> rfl
    rw [hlast, List.forall_mem_cons]
    rcases firstOf_cons_cases resolveAt failure path rest with
      ⟨e, hpath, hnowhere, hstep⟩ | ⟨hpath, hstep⟩ | hends
    · have hallowed : e ≠ .permissionDenied := by rcases hnowhere with rfl | rfl <;> decide
      rw [hstep, if_neg hfailure, ih hallowed, hpath, Except.error.injEq, Except.error.injEq,
        and_iff_right hnowhere]
    · rw [hstep, hpath]
      exact iff_of_false (firstOf_forbidden_ne rest) (by rintro ⟨⟨⟨⟨⟩⟩ | ⟨⟨⟩⟩, _⟩, _⟩)
    · refine iff_of_false (hends _ (Or.inl rfl)).2 fun h => ?_
      exact h.1.1.elim (hends _ (Or.inl rfl)).1 (hends _ (Or.inr (Or.inl rfl))).1

/-- If no path can be executed and one of them is forbidden, that is what the search ends in. -/
theorem firstOf_eq_permissionDenied
    (hall : ∀ path ∈ paths, resolveAt path = .error .permissionDenied ∨
      resolveAt path = .error .notFound ∨ resolveAt path = .error .notADirectory)
    (hforbidden : failure = .permissionDenied ∨
      ∃ path ∈ paths, resolveAt path = .error .permissionDenied) :
    firstOf resolveAt failure paths = .error .permissionDenied := by
  induction paths generalizing failure with
  | nil =>
    rcases hforbidden with rfl | ⟨_, hmem, _⟩
    · rfl
    · cases hmem
  | cons path rest ih =>
    obtain ⟨hfails, hrest⟩ := List.forall_mem_cons.1 hall
    rw [List.exists_mem_cons_iff] at hforbidden
    rcases firstOf_cons_cases resolveAt failure path rest with
      ⟨e, hpath, hnowhere, hstep⟩ | ⟨_, hstep⟩ | hends
    · rw [hstep]
      refine ih hrest ?_
      rcases hforbidden with hfailure | hcontra | hlater
      · exact Or.inl ((if_pos hfailure).trans hfailure)
      · rw [hpath] at hcontra
        cases hcontra
        rcases hnowhere with ⟨⟨⟩⟩ | ⟨⟨⟩⟩
      · exact Or.inr hlater
    · rw [hstep]
      exact ih hrest (Or.inl rfl)
    · rcases hfails with hfails | hfails | hfails
      · exact absurd hfails (hends _ (Or.inr (Or.inr rfl))).1
      · exact absurd hfails (hends _ (Or.inl rfl)).1
      · exact absurd hfails (hends _ (Or.inr (Or.inl rfl))).1

end First

/-- A path is passed over if what is to be executed there, or its interpreter, is not there. -/
def PassesOver (launch : Launch) (t : FileTree) (path : String) : Prop :=
  Lacks t launch.workDir .notFound (maxInterpreters + 1) path ∨
    Lacks t launch.workDir .notADirectory (maxInterpreters + 1) path

/-- The name of the executable is not too long to be looked up. -/
def Fits (launch : Launch) : Prop :=
  launch.isPath = true ∨ Text.utf8Length launch.executable.toList ≤ FileTree.maxName

/-- `launch.IsLost t` says that the search for the executable comes to the end of the places
    without finding anything. A way through what is no directory ends the search elsewhere. -/
structure IsLost (launch : Launch) (t : FileTree) : Prop where
  fits : launch.Fits
  passesOver : ∀ path ∈ launch.places, launch.PassesOver t path
  last : ∀ path ∈ launch.places.getLast?,
    Lacks t launch.workDir .notFound (maxInterpreters + 1) path

theorem resolveAt_eq_notFound_iff : launch.resolveAt t path = .error .notFound ↔
    Lacks t launch.workDir .notFound (maxInterpreters + 1) path :=
  resolve_eq_error_iff (by decide) (by decide) (by decide)

theorem passesOver_iff : launch.PassesOver t path ↔
    launch.resolveAt t path = .error .notFound ∨ launch.resolveAt t path = .error .notADirectory :=
  (or_congr resolveAt_eq_notFound_iff
    (resolve_eq_error_iff (by decide) (by decide) (by decide))).symm

theorem find_of_fits (h : launch.Fits) :
    launch.find t = firstOf (launch.resolveAt t) .notFound launch.places := by
  rw [find, if_neg]
  rcases h with hpath | hfits
  · simp [hpath]
  · simp [hfits]

theorem find_of_not_fits (h : ¬launch.Fits) : launch.find t = .error .nameTooLong := by
  obtain ⟨hpath, hlong⟩ := not_or.1 h
  rw [find, if_pos]
  simpa [hpath] using hlong

theorem find_eq_notFound_iff : launch.find t = .error .notFound ↔ launch.IsLost t := by
  constructor
  · intro h
    by_cases hfits : launch.Fits
    · rw [find_of_fits hfits, firstOf_eq_notFound_iff (by decide)] at h
      refine ⟨hfits, fun path hpath => passesOver_iff.2 (h.1 path hpath), fun path hlast => ?_⟩
      rw [← resolveAt_eq_notFound_iff, ← h.2, Option.mem_def.1 hlast]
      rfl
    · rw [find_of_not_fits hfits] at h
      exact absurd (Except.error.inj h) (by decide)
  · rintro ⟨hfits, hover, hlast⟩
    rw [find_of_fits hfits, firstOf_eq_notFound_iff (by decide)]
    refine ⟨fun path hpath => passesOver_iff.1 (hover path hpath), ?_⟩
    cases hplace : launch.places.getLast? with
    | none => rfl
    | some path => exact resolveAt_eq_notFound_iff.2 (hlast path hplace)

/-- A path is forbidden if what stands there is a directory or a file that may not be executed. -/
def Forbids (launch : Launch) (t : FileTree) (path : String) : Prop :=
  contents t launch.workDir path = .error .permissionDenied

theorem find_eq_permissionDenied (hfits : launch.Fits)
    (hall : ∀ path ∈ launch.places, launch.Forbids t path ∨ launch.PassesOver t path)
    (hforbidden : ∃ path ∈ launch.places, launch.Forbids t path) :
    launch.find t = .error .permissionDenied := by
  have hresolve {path : String} (h : launch.Forbids t path) :
      launch.resolveAt t path = .error .permissionDenied := by
    rw [resolveAt, resolve, bind_eq_error_iff]
    exact Or.inl h
  rw [find_of_fits hfits]
  refine firstOf_eq_permissionDenied (fun path hpath => ?_) (Or.inr ?_)
  · exact (hall path hpath).imp hresolve passesOver_iff.1
  · obtain ⟨path, hpath, h⟩ := hforbidden
    exact ⟨path, hpath, hresolve h⟩

/-- A launch fails because something is not found exactly if that is the executable, or the shell
    that is to run what it has found. -/
theorem programCall_eq_notFound_iff {byShell : Bool} {timeLimit : Option ℕ} :
    launch.programCall t byShell timeLimit = .error .notFound ↔ launch.IsLost t ∨
      byShell = true ∧ (∃ path, launch.find t = .ok (.unknown path)) ∧
        Lacks t launch.workDir .notFound (maxInterpreters + 1) shellPath := by
  rw [← find_eq_notFound_iff, programCall, bind_eq_error_iff]
  refine or_congr_right ?_
  constructor
  · rintro ⟨⟨program, arguments⟩ | path, hfind, hcall⟩
    · cases hcall
    cases byShell with
    | false => exact absurd (Except.error.inj hcall) (by decide)
    | true =>
      rcases bind_eq_error_iff.1 hcall with hshell | ⟨_, _, ⟨⟩⟩
      exact ⟨rfl, ⟨path, hfind⟩,
        (resolve_eq_error_iff (by decide) (by decide) (by decide)).1 hshell⟩
  · rintro ⟨rfl, ⟨path, hfind⟩, hshell⟩
    exact ⟨_, hfind, bind_eq_error_iff.2 (Or.inl
      ((resolve_eq_error_iff (by decide) (by decide) (by decide)).2 hshell))⟩

end StepRunner.Launch
