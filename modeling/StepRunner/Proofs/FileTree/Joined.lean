import StepRunner.Proofs.FileTree.Components

namespace StepRunner.FileTree

/-- A path that is joined to another one ends it, unless it begins at the root. -/
theorem toList_join (first : String) : ∃ front, ∀ second, ¬IsRooted second →
    (Path.join first second).toList = front ++ second.toList := by
  by_cases hempty : first.toList = []
  · exact ⟨[], fun second _ => by simp [Path.join, hempty]⟩
  by_cases hslash : first.toList.getLast? = some '/'
  · refine ⟨first.toList, ?_⟩
    intro second hrel
    simp [Path.join, hempty, hslash, show second.toList.head? ≠ some '/' from hrel]
  · refine ⟨first.toList ++ ['/'], ?_⟩
    intro second hrel
    simp [Path.join, hempty, hslash, show second.toList.head? ≠ some '/' from hrel]

theorem isPrefix_join (first : String) {second : String} (hrel : ¬IsRooted second) :
    first.toList <+: (Path.join first second).toList := by
  by_cases hempty : first.toList = []
  · rw [hempty]
    exact List.nil_prefix
  by_cases hslash : first.toList.getLast? = some '/'
  · simp [Path.join, hempty, hslash, show second.toList.head? ≠ some '/' from hrel]
  · simp [Path.join, hempty, hslash, show second.toList.head? ≠ some '/' from hrel]

/-- A relative path that is joined to another one leads on from there. -/
theorem isRooted_join_iff (first : String) {second : String} (hrel : ¬IsRooted second) :
    IsRooted (Path.join first second) ↔ IsRooted first := by
  by_cases hempty : first.toList = []
  · have hjoin : Path.join first second = second := by simp [Path.join, hempty]
    rw [hjoin]
    exact iff_of_false hrel (by simp [IsRooted, hempty])
  · obtain ⟨rest, hrest⟩ := isPrefix_join first hrel
    rw [IsRooted, IsRooted, ← hrest, List.head?_append_of_ne_nil _ hempty]

/-- The way of a joined path goes on by the way of its second part, unless that one begins at the
    root. -/
theorem waySteps_join (first : String) {second : String} (hrel : ¬IsRooted second)
    (hne : second ≠ "") : ∃ front, waySteps (Path.join first second) = front ++ waySteps second ∧
      front.filter (· ≠ ".") = wayNames first := by
  have hchars : second.toList ≠ [] := by simpa using hne
  have hlast (before : List Char) :
      (before ++ second.toList).getLast? = second.toList.getLast? :=
    List.getLast?_append_of_ne_nil before hchars
  by_cases hfirst : first.toList = []
  · have hempty : first = "" := by simpa using hfirst
    subst hempty
    have hjoin : Path.join "" second = second := by simp [Path.join]
    exact ⟨[], by rw [hjoin, List.nil_append], by rw [wayNames_empty, List.filter_nil]⟩
  by_cases hslash : first.toList.getLast? = some '/'
  · obtain ⟨before, hbefore⟩ := List.getLast?_eq_some_iff.1 hslash
    have hjoin : (Path.join first second).toList = before ++ '/' :: second.toList := by
      simp [Path.join, show second.toList.head? ≠ some '/' from hrel, hbefore]
    refine ⟨segmentSteps before, ?_, ?_⟩
    · rw [waySteps_eq, hjoin, segmentSteps_append, waySteps_eq, List.append_assoc]
      have htrailing := hlast (before ++ ['/'])
      rw [List.append_assoc, List.singleton_append] at htrailing
      rw [htrailing]
    · rw [wayNames, waySteps_eq, hbefore, segmentSteps_append, List.filter_append,
        List.filter_append, filter_trailing]
      simp [segmentSteps, Path.segments, Text.pieces]
  · have hjoin : (Path.join first second).toList = first.toList ++ '/' :: second.toList := by
      simp [Path.join, hfirst, hslash, show second.toList.head? ≠ some '/' from hrel]
    refine ⟨segmentSteps first.toList, ?_, ?_⟩
    · rw [waySteps_eq, hjoin, segmentSteps_append, waySteps_eq, List.append_assoc]
      have htrailing := hlast (first.toList ++ ['/'])
      rw [List.append_assoc, List.singleton_append] at htrailing
      rw [htrailing]
    · rw [wayNames, waySteps_eq, List.filter_append, filter_trailing, List.append_nil]

/-- An empty path that is joined to another one adds at most a slash. -/
private theorem wayNames_join_empty (first : String) :
    wayNames (Path.join first "") = wayNames first := by
  by_cases hempty : first.toList = []
  · rw [String.toList_eq_nil_iff] at hempty
    subst hempty
    rfl
  by_cases hslash : first.toList.getLast? = some '/'
  · have hjoin : Path.join first "" = first := by simp [Path.join, hempty, hslash]
    rw [hjoin]
  · have hjoin : (Path.join first "").toList = first.toList ++ List.replicate 1 '/' := by
      simp [Path.join, hempty, hslash]
    exact wayNames_slashes hjoin

/-- The names on the way of a joined path. -/
theorem wayNames_join (first : String) {second : String} (hrel : ¬IsRooted second) :
    wayNames (Path.join first second) = wayNames first ++ wayNames second := by
  by_cases hne : second = ""
  · rw [hne, wayNames_join_empty, wayNames_empty, List.append_nil]
  obtain ⟨front, hsteps, hfront⟩ := waySteps_join first hrel hne
  rw [wayNames, hsteps, List.filter_append, hfront]
  rfl

/-- A joined path starts as its first part does. -/
private theorem start_join {first second : String} (hne : first ≠ "") (hrel : ¬IsRooted second) :
    Path.start (Path.join first second).toList = Path.start first.toList := by
  have hfirst : first.toList ≠ [] := String.toList_eq_nil_iff.not.2 hne
  have hrel : second.toList.head? ≠ some '/' := hrel
  rw [start_eq, start_eq first.toList]
  by_cases hslash : first.toList.getLast? = some '/'
  · have hjoin : (Path.join first second).toList = first.toList ++ second.toList := by
      simp [Path.join, hfirst, hslash, hrel]
    obtain ⟨before, hbefore⟩ := List.getLast?_eq_some_iff.1 hslash
    have hsegments : (Path.segments (first.toList ++ second.toList)).head? =
        (Path.segments first.toList).head? := by
      rw [hbefore, List.append_assoc, List.singleton_append, head?_segments_append,
        head?_segments_append]
    rw [hjoin, hsegments, List.head?_append_of_ne_nil _ hfirst]
  · have hjoin : (Path.join first second).toList = first.toList ++ '/' :: second.toList := by
      simp [Path.join, hfirst, hslash, hrel]
    rw [hjoin, head?_segments_append, List.head?_append_of_ne_nil _ hfirst]

/-- A path that is made of names adds its components to those of the path that it is joined to. -/
theorem components_join (first : String) {second : String}
    (h : ∀ component ∈ Path.components second, ∃ name, component = .normal name) :
    Path.components (Path.join first second) =
      Path.components first ++ Path.components second := by
  obtain ⟨hrel, hdot, _⟩ := forall_components_iff.1 h
  have hstart : Path.start second.toList = ([], 0) := by
    rw [start_eq, if_neg (show second.toList.head? ≠ some '/' from hrel), if_neg hdot]
  by_cases hfirst : first = ""
  · have hjoin : Path.join first second = second := by simp [Path.join, hfirst]
    rw [hjoin, hfirst]
    rfl
  · rw [components_eq_append, components_eq_append first, components_eq_append second, hstart,
      start_join hfirst hrel, wayNames_join first hrel, List.map_append, List.append_assoc,
      List.nil_append]

end StepRunner.FileTree
