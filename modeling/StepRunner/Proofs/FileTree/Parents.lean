import StepRunner.Proofs.FileTree.Components

namespace StepRunner.FileTree

private theorem stepping_dropWhile (segments : List (List Char)) :
    stepping (segments.dropWhile fun s => (Path.segmentComponent s).isNone) = stepping segments := by
  induction segments with
  | nil => rfl
  | cons segment rest ih =>
    rw [List.dropWhile_cons]
    cases hc : Path.segmentComponent segment with
    | none => simp [stepping, hc] at ih ⊢; exact ih
    | some component => simp

private theorem stepping_significant (segments : List (List Char)) :
    stepping (Path.significant segments) = stepping segments := by
  rw [Path.significant, stepping, List.filter_reverse, ← stepping, stepping_dropWhile, stepping,
    List.filter_reverse, List.reverse_reverse, stepping]

private theorem significant_isPrefix (segments : List (List Char)) :
    Path.significant segments <+: segments := by
  rw [Path.significant, ← List.reverse_suffix, List.reverse_reverse]
  exact List.dropWhile_suffix _

/-- What is left of segments without the last step begins them. -/
private theorem significant_dropLast_isPrefix (segments : List (List Char)) :
    Path.significant (Path.significant segments).dropLast <+: segments :=
  (significant_isPrefix _).trans ((List.dropLast_prefix _).trans (significant_isPrefix _))

/-- What is left of segments ends with one that means a step. -/
private theorem isSome_of_significant {segments front : List (List Char)} {last : List Char}
    (h : Path.significant segments = front ++ [last]) : (Path.segmentComponent last).isSome := by
  rw [Path.significant, List.reverse_eq_append_iff] at h
  have hhead := List.head?_dropWhile_not
    (fun s => (Path.segmentComponent s).isNone) segments.reverse
  rw [h] at hhead
  simpa [← Option.not_isSome] using hhead

private theorem stepping_dropLast {segments kept : List (List Char)}
    (h : Path.significant segments = kept) :
    stepping kept.dropLast = (stepping kept).dropLast := by
  obtain rfl | ⟨front, last, rfl⟩ := kept.eq_nil_or_concat'
  · rfl
  rw [List.dropLast_concat, stepping_append]
  simp [stepping, isSome_of_significant h]

private theorem stepping_joinPieces {kept : List (List Char)} {chars : List Char}
    (hkept : kept <+: Path.segments chars) :
    stepping (Path.segments (Text.joinPieces '/' kept)) = stepping kept := by
  by_cases hne : kept = []
  · subst hne
    simp [stepping, Path.segments, Text.pieces, Text.joinPieces, Path.segmentComponent]
  · rw [Path.segments, Text.pieces_joinPieces hne fun segment hsegment =>
      Text.not_mem_of_mem_pieces (hkept.subset hsegment)]

private theorem significant_eq_nil {segments : List (List Char)}
    (h : Path.significant segments = []) : stepping segments = [] := by
  rw [← stepping_significant, h]
  rfl

private theorem parent?_eq (path : String) : Path.parent? path =
    if Path.significant (Path.segments (path.toList.drop (Path.start path.toList).2)) = [] then
      if (Path.start path.toList).1 = [.current] then some "" else none
    else some (String.ofList (path.toList.take (Path.start path.toList).2 ++
      Text.joinPieces '/' (Path.significant (Path.significant
        (Path.segments (path.toList.drop (Path.start path.toList).2))).dropLast))) := by
  rw [Path.parent?]
  generalize Path.start path.toList = start
  obtain ⟨first, length⟩ := start
  simp only
  split
  · next hnil => rw [if_pos hnil]
  · next hne => rw [if_neg hne]

/-- The path without its last step is a beginning of it and has a step less. -/
theorem parent?_eq_some {path above : String} (h : Path.parent? path = some above) :
    above.toList <+: path.toList ∧ wayNames above = (wayNames path).dropLast ∧
      (IsRooted above ↔ IsRooted path) := by
  rw [parent?_eq] at h
  split at h
  · next hnone =>
    split at h
    · next hcurrent =>
      cases h
      refine ⟨List.nil_prefix, ?_, ?_⟩
      · rw [wayNames_empty, wayNames_eq_start path, significant_eq_nil hnone]
        rfl
      · exact iff_of_false (by simp [IsRooted]) (isRooted_of_start hcurrent)
    · cases h
  · next hsome =>
    injection h with h
    subst h
    have hkept := significant_dropLast_isPrefix
      (Path.segments (path.toList.drop (Path.start path.toList).2))
    have hjoined := joinPieces_isPrefix_of_segments hkept
    have hwhole := (List.prefix_append_right_inj
      (path.toList.take (Path.start path.toList).2)).2 hjoined
    rw [List.take_append_drop] at hwhole
    rw [String.toList_ofList]
    refine ⟨hwhole, ?_, ?_⟩
    · rw [wayNames_eq_stepping, String.toList_ofList, stepping_take_start hjoined,
        stepping_joinPieces hkept, stepping_significant, stepping_dropLast rfl,
        stepping_significant, wayNames_eq_start path, List.map_dropLast]
    · rw [IsRooted, IsRooted, String.toList_ofList]
      constructor
      · intro hhead
        obtain ⟨rest, hrest⟩ := List.head?_eq_some_iff.1 hhead
        obtain ⟨more, hmore⟩ := hwhole
        rw [← hmore, hrest]
        rfl
      · intro hhead
        obtain ⟨rest, hrest⟩ := List.head?_eq_some_iff.1 hhead
        rw [hrest]
        rfl

/-- A path that is above another one ends with a step that is no dot, if there is one. -/
theorem exists_last_of_parent? {path above : String} (h : Path.parent? path = some above)
    (hne : wayNames above ≠ []) : ∃ first last, waySteps above = first ++ [last] ∧ last ≠ "." := by
  rw [parent?_eq] at h
  split at h
  · split at h
    · cases h
      exact absurd wayNames_empty hne
    · cases h
  injection h with h
  subst h
  have hkept := significant_dropLast_isPrefix
    (Path.segments (path.toList.drop (Path.start path.toList).2))
  have hjoined := joinPieces_isPrefix_of_segments hkept
  generalize hsegments : (Path.significant
    (Path.segments (path.toList.drop (Path.start path.toList).2))).dropLast = segments at *
  obtain hnil | ⟨front, last, hlast⟩ := (Path.significant segments).eq_nil_or_concat'
  · rw [wayNames_eq_stepping, String.toList_ofList, stepping_take_start hjoined,
      stepping_joinPieces hkept, hnil] at hne
    exact absurd rfl hne
  have hlastNe : last ≠ [] ∧ last ≠ ['.'] := by
    have hsome := isSome_of_significant hlast
    refine ⟨?_, ?_⟩ <;> rintro rfl <;> simp [Path.segmentComponent] at hsome
  have hpieces : Path.segments (Text.joinPieces '/' (Path.significant segments)) =
      Path.significant segments :=
    Text.pieces_joinPieces (by simp [hlast]) fun segment hmem =>
      Text.not_mem_of_mem_pieces (hkept.subset hmem)
  have hafter : Text.joinPieces '/' (Path.significant segments) ≠ [] := by
    intro hempty
    rw [hempty, hlast] at hpieces
    have hend := congrArg List.getLast? hpieces
    rw [List.getLast?_concat] at hend
    exact hlastNe.1 (Option.some.inj hend).symm
  have hend : (Path.segments (String.ofList (path.toList.take (Path.start path.toList).2 ++
      Text.joinPieces '/' (Path.significant segments))).toList).getLast? = some last := by
    rw [String.toList_ofList, getLast?_take_start hjoined hafter, hpieces, hlast,
      List.getLast?_concat]
  obtain ⟨first, hsteps⟩ := waySteps_of_getLast? hend hlastNe.1
  refine ⟨first, String.ofList last, hsteps, fun hdot => hlastNe.2 ?_⟩
  rw [show "." = String.ofList ['.'] from rfl, String.ofList_inj] at hdot
  exact hdot

/-- Only a path without a step has no path above it. -/
theorem exists_parent? {path : String} (h : wayNames path ≠ []) :
    ∃ above, Path.parent? path = some above := by
  rw [parent?_eq]
  split
  · next hnone =>
    rw [wayNames_eq_start path, significant_eq_nil hnone] at h
    exact absurd rfl h
  · exact ⟨_, rfl⟩

/-- The path above another one has its components, but for the last. -/
theorem components_parent? {path above : String} (h : Path.parent? path = some above) :
    Path.components above = (Path.components path).dropLast := by
  obtain ⟨_, hnames, _⟩ := parent?_eq_some h
  rw [parent?_eq] at h
  split at h
  · next hnone =>
    split at h
    · next hcurrent =>
      cases h
      rw [components_eq_append path, hcurrent, wayNames_eq_start path, significant_eq_nil hnone]
      rfl
    · cases h
  · next hsome =>
    injection h with h
    have hkept := significant_dropLast_isPrefix
      (Path.segments (path.toList.drop (Path.start path.toList).2))
    have hstart : (Path.start above.toList).1 = (Path.start path.toList).1 := by
      rw [← h, String.toList_ofList, start_take_start hkept]
    have hne : wayNames path ≠ [] := by
      obtain ⟨front, last, hlast⟩ := (List.eq_nil_or_concat' _).resolve_left hsome
      rw [wayNames_eq_start path, ← stepping_significant, hlast, stepping_append]
      simp [stepping, isSome_of_significant hlast]
    rw [components_eq_append, components_eq_append path, hnames, hstart,
      List.dropLast_append_of_ne_nil (by simpa using hne), List.map_dropLast]

theorem length_parent?_lt {path above : String} (h : Path.parent? path = some above)
    (hne : wayNames path ≠ []) : above.length < path.length := by
  obtain ⟨hchars, hnames, _⟩ := parent?_eq_some h
  have hle := hchars.length_le
  have hneq : above.toList.length ≠ path.toList.length := by
    intro heq
    have hsame := String.toList_injective (hchars.eq_of_length heq)
    rw [hsame] at hnames
    have hlength := congrArg List.length hnames
    rw [List.length_dropLast] at hlength
    have hpos := List.length_pos_of_ne_nil hne
    omega
  simp only [String.length_toList] at hle hneq
  omega

end StepRunner.FileTree
