import StepRunner.Proofs.FileTree.Leads
import StepRunner.Proofs.Text

namespace StepRunner.FileTree

/-- The steps of the way of a path without the dots: those that lead to another place. -/
def wayNames (path : String) : List String := (waySteps path).filter (· ≠ ".")

/-- The segments of a path that mean a step. -/
def stepping (segments : List (List Char)) : List (List Char) :=
  segments.filter fun s => (Path.segmentComponent s).isSome

theorem stepping_append (first second : List (List Char)) :
    stepping (first ++ second) = stepping first ++ stepping second :=
  List.filter_append ..

/-- The steps of a path without the dot for a slash at its end. -/
def segmentSteps (chars : List Char) : List String :=
  ((Path.segments chars).filter (· ≠ [])).map String.ofList

theorem waySteps_eq (path : String) : waySteps path =
    segmentSteps path.toList ++ if path.toList.getLast? = some '/' then ["."] else [] := rfl

theorem segmentSteps_append (before after : List Char) :
    segmentSteps (before ++ '/' :: after) = segmentSteps before ++ segmentSteps after := by
  simp [segmentSteps, Path.segments, Text.pieces_append]

theorem filter_trailing (chars : List Char) :
    (if chars.getLast? = some '/' then ["."] else []).filter (· ≠ ".") = [] := by
  split <;> simp

theorem wayNames_eq_stepping (path : String) :
    wayNames path = (stepping (Path.segments path.toList)).map String.ofList := by
  rw [wayNames, waySteps_eq, List.filter_append, filter_trailing, List.append_nil, segmentSteps,
    List.filter_map, List.filter_filter, stepping]
  congr 1
  apply List.filter_congr
  intro segment _
  have hdot : String.ofList segment = "." ↔ segment = ['.'] := by
    rw [show "." = String.ofList ['.'] from rfl, String.ofList_inj]
  by_cases hempty : segment = []
  · simp [hempty, Path.segmentComponent]
  by_cases hcurrent : segment = ['.']
  · simp [hcurrent, Path.segmentComponent]
  by_cases hparent : segment = ['.', '.'] <;>
    simp [hempty, hcurrent, hdot, hparent, Path.segmentComponent]

/-- Whether a path leads from the root. -/
def IsRooted (path : String) : Prop := path.toList.head? = some '/'

theorem wayStart_of_isRooted {path : String} (h : IsRooted path) (here : Location) :
    wayStart here path = [] :=
  if_pos (decide_eq_true (p := path.toList.head? = some '/') h)

theorem wayStart_of_not_isRooted {path : String} (h : ¬IsRooted path) (here : Location) :
    wayStart here path = here :=
  if_neg fun hrooted => h (of_decide_eq_true (p := path.toList.head? = some '/') hrooted)

theorem wayStart_eq_of_isRooted_iff {first second : String} (h : IsRooted first ↔ IsRooted second)
    (here : Location) : wayStart here first = wayStart here second := by
  by_cases hsecond : IsRooted second
  · rw [wayStart_of_isRooted hsecond, wayStart_of_isRooted (h.2 hsecond)]
  · rw [wayStart_of_not_isRooted hsecond, wayStart_of_not_isRooted (mt h.1 hsecond)]

theorem wayNames_empty : wayNames "" = [] := by
  simp [wayNames_eq_stepping, Path.segments, Text.pieces, stepping, Path.segmentComponent]

private theorem stepping_slash (chars : List Char) :
    stepping (Path.segments (chars ++ ['/'])) = stepping (Path.segments chars) := by
  rw [Path.segments, Text.pieces_append, stepping_append]
  simp [stepping, Path.segments, Text.pieces, Path.segmentComponent]

/-- Slashes at the end of a path do not change the names on its way. -/
theorem wayNames_slashes {path bare : String} {count : Nat}
    (h : path.toList = bare.toList ++ List.replicate count '/') : wayNames path = wayNames bare := by
  rw [wayNames_eq_stepping, wayNames_eq_stepping, h]
  clear h
  induction count with
  | zero => simp
  | succ count ih => rw [List.replicate_succ', ← List.append_assoc, stepping_slash, ih]

/-- The steps of a way are the parts of its path between slashes, but for empty ones. -/
theorem mem_waySteps {path step : String} (h : step ∈ waySteps path) :
    '/' ∉ step.toList ∧ step ≠ "" := by
  rw [waySteps_eq, List.mem_append] at h
  rcases h with h | h
  · rw [segmentSteps, List.mem_map] at h
    obtain ⟨segment, hmem, rfl⟩ := h
    obtain ⟨hsegment, hne⟩ := List.mem_filter.1 hmem
    rw [String.toList_ofList]
    refine ⟨Text.not_mem_of_mem_pieces hsegment, fun hempty => ?_⟩
    rw [← String.toList_eq_nil_iff, String.toList_ofList] at hempty
    simp [hempty] at hne
  · split at h
    · rw [List.mem_singleton.1 h]
      decide
    · cases h

/-- A text without slashes is a way of one step. -/
theorem waySteps_of_not_mem {name : String} (hslash : '/' ∉ name.toList) (hne : name ≠ "") :
    waySteps name = [name] := by
  have hpieces : Path.segments name.toList = [name.toList] := Text.pieces_of_not_mem hslash
  have hlast : name.toList.getLast? ≠ some '/' := fun h =>
    hslash (List.mem_of_getLast? h)
  rw [waySteps_eq, if_neg hlast, segmentSteps, hpieces]
  simp [hne]

/-- A path whose last segment means a step ends with that step. -/
theorem waySteps_of_getLast? {path : String} {last : List Char}
    (h : (Path.segments path.toList).getLast? = some last) (hne : last ≠ []) :
    ∃ first, waySteps path = first ++ [String.ofList last] := by
  obtain ⟨front, hfront⟩ := List.getLast?_eq_some_iff.1 h
  have hslash : path.toList.getLast? ≠ some '/' := by
    intro hslash
    obtain ⟨before, hbefore⟩ := List.getLast?_eq_some_iff.1 hslash
    rw [hbefore, Path.segments, Text.pieces_append,
      List.getLast?_append_of_ne_nil _ (by simp [Text.pieces])] at h
    exact hne (Option.some.inj h).symm
  refine ⟨(front.filter (· ≠ [])).map String.ofList, ?_⟩
  rw [waySteps_eq, if_neg hslash, segmentSteps, hfront]
  simp [hne]

/-- The last step of a way is the last segment of its path. -/
theorem getLast?_segments {path last : String} {first : List String}
    (h : waySteps path = first ++ [last]) (hdot : last ≠ ".") :
    (Path.segments path.toList).getLast? = some last.toList := by
  have hslash : path.toList.getLast? ≠ some '/' := by
    intro hslash
    rw [waySteps_eq, if_pos hslash] at h
    exact hdot (List.cons.inj (List.append_inj' h rfl).2).1.symm
  have hend := Text.getLast?_pieces '/' path.toList
  rw [waySteps_eq, if_neg hslash, List.append_nil] at h
  rw [Path.segments, hend]
  obtain ⟨front, hfront⟩ := List.getLast?_eq_some_iff.1 hend
  by_cases hempty : (path.toList.reverse.takeWhile (· ≠ '/')).reverse = []
  · -- Nothing comes after the last slash, but the path does not end with one: it is empty.
    rw [List.reverse_eq_nil_iff] at hempty
    cases hrev : path.toList.reverse with
    | nil =>
      rw [List.reverse_eq_nil_iff] at hrev
      rw [segmentSteps, hrev] at h
      simp [Path.segments, Text.pieces] at h
    | cons c before =>
      rw [List.getLast?_eq_head?_reverse, hrev] at hslash
      rw [hrev, List.takeWhile_cons_of_pos (by simpa using hslash)] at hempty
      cases hempty
  · rw [segmentSteps, Path.segments, hfront, List.filter_append,
      List.filter_cons_of_pos (by simpa using hempty), List.map_append] at h
    have hlast := (List.cons.inj (List.append_inj' h rfl).2).1
    rw [← hlast, String.toList_ofList]

end StepRunner.FileTree
