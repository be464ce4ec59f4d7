import StepRunner.Proofs.FileTree.Find
import StepRunner.Proofs.Sync.Place

namespace StepRunner.FileTree

/-- Where steps lead from a place if there is no link on their way. -/
def endOf (here : Location) : List String → Location
  | [] => here
  | step :: rest =>
    if step = "." then endOf here rest
    else if step = ".." then endOf here.tail rest
    else endOf (step :: here) rest

/-- Where a path leads if there is no link on its way. -/
def pathEnd (here : Location) (path : String) : Location :=
  endOf (wayStart here path) (wayNames path)

/-- Whether steps that begin `depth` names below some place never lead above that place. -/
def staysBelow : (depth : Nat) → List String → Bool
  | _, [] => true
  | depth, step :: rest =>
    if step = "." then staysBelow depth rest
    else if step = ".." then 0 < depth && staysBelow (depth - 1) rest
    else staysBelow (depth + 1) rest

variable {t : FileTree} {follow : Bool} {here dir root : Location} {steps : List String}
  {target : Target} {links : Nat} {path : String}

theorem endOf_append (here : Location) (first second : List String) :
    endOf here (first ++ second) = endOf (endOf here first) second := by
  induction first generalizing here with
  | nil => rfl
  | cons step rest ih =>
    simp only [List.cons_append, endOf]
    split
    · exact ih here
    split
    · exact ih here.tail
    · exact ih (step :: here)

/-- Dots lead nowhere else. -/
theorem endOf_filter_dots (here : Location) (steps : List String) :
    endOf here (steps.filter (· ≠ ".")) = endOf here steps := by
  induction steps generalizing here with
  | nil => rfl
  | cons step rest ih =>
    by_cases hdot : step = "."
    · rw [List.filter_cons_of_neg (by simp [hdot]), ih, endOf, if_pos hdot]
    · rw [List.filter_cons_of_pos (by simpa using hdot), endOf, endOf, if_neg hdot, if_neg hdot,
        ih, ih]

/-- In a tree without links a way leads where its steps say, wherever they turn back. -/
theorem Leads.place_eq_endOf (h : t.Leads follow here steps target links)
    (hlinks : t.HasNoLinks []) : target.place = endOf here steps := by
  induction h with
  | here dir => rfl
  | dot next ih => rw [endOf, if_pos rfl, ih]
  | up next ih => rw [endOf, if_neg (by decide), if_pos rfl, ih]
  | vacant isName free => rw [endOf, if_neg isName.1, if_neg isName.2.1]; rfl
  | enter isName found next ih => rw [endOf, if_neg isName.1, if_neg isName.2.1, ih]
  | file isName found => rw [endOf, if_neg isName.1, if_neg isName.2.1]; rfl
  | stay isName last found => exact absurd found (hlinks _ _ List.nil_suffix)
  | jump isName found goesOn next ih => exact absurd found (hlinks _ _ List.nil_suffix)

theorem place_eq_pathEnd (hlinks : t.HasNoLinks [])
    (hfind : t.find here follow path = .ok target) : target.place = pathEnd here path := by
  obtain ⟨_, _, _, hleads⟩ := find_eq_ok_iff.1 hfind
  rw [hleads.place_eq_endOf hlinks, pathEnd, wayNames, endOf_filter_dots]

/-- Steps that stay below a place lead to it or to a place below it. -/
theorem suffix_endOf (names : List String) (h : staysBelow names.length steps = true)
    (root : Location) : root <:+ endOf (names ++ root) steps := by
  induction steps generalizing names with
  | nil => exact List.suffix_append names root
  | cons step rest ih =>
    rw [staysBelow] at h
    rw [endOf]
    by_cases hdot : step = "."
    · rw [if_pos hdot] at h ⊢
      exact ih names h
    rw [if_neg hdot] at h ⊢
    by_cases hup : step = ".."
    · rw [if_pos hup] at h ⊢
      cases names with
      | nil => simp at h
      | cons name names => exact ih names (by simpa using h)
    · rw [if_neg hup] at h ⊢
      exact ih (step :: names) h

end StepRunner.FileTree
