import StepRunner.Proofs.FileTree.Start

namespace StepRunner.FileTree

/-- The steps of a path without a start of its own are those of its segments. -/
theorem components_eq_filterMap {path : String} (hroot : ¬IsRooted path)
    (hdot : (Path.segments path.toList).head? ≠ some ['.']) :
    Path.components path = (Path.segments path.toList).filterMap Path.segmentComponent := by
  have hstart : Path.start path.toList = ([], 0) := by
    rcases start_cases path.toList with ⟨h, _⟩ | ⟨h, _⟩ | ⟨_, _, hstart⟩
    · exact absurd h hroot
    · exact absurd h hdot
    · exact hstart
  rw [Path.components]
  simp only [hstart, List.nil_append, List.drop_zero]

/-- Which paths are made of names alone. -/
theorem forall_components_iff {path : String} :
    (∀ component ∈ Path.components path, ∃ name, component = .normal name) ↔
      ¬IsRooted path ∧ (Path.segments path.toList).head? ≠ some ['.'] ∧
        ['.', '.'] ∉ Path.segments path.toList := by
  have hcomponents : Path.components path = (Path.start path.toList).1 ++
      (Path.segments (path.toList.drop (Path.start path.toList).2)).filterMap
        Path.segmentComponent := rfl
  rcases start_cases path.toList with ⟨hroot, hstart⟩ | ⟨hdot, hstart⟩ | ⟨hroot, hdot, _⟩
  · rw [hcomponents, hstart]
    exact ⟨fun h => by simpa using h .root (by simp), fun h => absurd hroot h.1⟩
  · rw [hcomponents, hstart]
    exact ⟨fun h => by simpa using h .current (by simp), fun h => absurd hdot h.2.1⟩
  rw [components_eq_filterMap hroot hdot]
  constructor
  · intro h
    refine ⟨hroot, hdot, fun hup => ?_⟩
    simpa using h .parent (List.mem_filterMap.2 ⟨_, hup, by decide⟩)
  · rintro ⟨_, _, hup⟩ component hmem
    obtain ⟨segment, hsegment, heq⟩ := List.mem_filterMap.1 hmem
    have hne : segment ≠ ['.', '.'] := by
      rintro rfl
      exact hup hsegment
    rw [Path.segmentComponent, if_neg hne] at heq
    split at heq
    · cases heq
    · exact ⟨segment, (Option.some.inj heq).symm⟩

private theorem filterMap_segmentComponent {segments : List (List Char)}
    (h : ∀ component ∈ segments.filterMap Path.segmentComponent, ∃ name, component = .normal name) :
    segments.filterMap Path.segmentComponent = (stepping segments).map .normal ∧
      ['.', '.'] ∉ stepping segments := by
  induction segments with
  | nil => simp [stepping]
  | cons segment rest ih =>
    cases hc : Path.segmentComponent segment with
    | none =>
      rw [List.filterMap_cons_none hc] at h ⊢
      simpa [stepping, hc] using ih h
    | some component =>
      rw [List.filterMap_cons_some hc] at h ⊢
      obtain ⟨name, rfl⟩ := h component List.mem_cons_self
      have hsegment : segment = name ∧ segment ≠ ['.', '.'] := by
        unfold Path.segmentComponent at hc
        split at hc
        · cases hc
        split at hc
        · cases hc
        · next hup => injection hc with hc; injection hc with hc; exact ⟨hc, hup⟩
      obtain ⟨hrest, hnot⟩ := ih fun component hmem => h component (List.mem_cons_of_mem _ hmem)
      obtain ⟨rfl, hup⟩ := hsegment
      rw [hrest]
      simp [stepping, hc, Ne.symm hup] at hnot ⊢
      exact hnot

/-- The components of a path that is made of names are its segments that are neither empty nor a
    dot. -/
theorem components_eq_map_segments {path : String}
    (h : ∀ component ∈ Path.components path, ∃ name, component = .normal name) :
    Path.components path = ((Path.segments path.toList).filter fun segment =>
      segment ≠ [] ∧ segment ≠ ['.']).map .normal := by
  obtain ⟨hroot, hdot, _⟩ := forall_components_iff.1 h
  rw [components_eq_filterMap hroot hdot] at h ⊢
  rw [(filterMap_segmentComponent h).1, stepping]
  refine congrArg _ (List.filter_congr fun segment _ => ?_)
  rw [Path.segmentComponent]
  by_cases hnothing : segment = [] ∨ segment = ['.']
  · rw [if_pos hnothing]
    exact (decide_eq_false (by rwa [← not_or, not_not])).symm
  · rw [if_neg hnothing]
    split <;> exact (decide_eq_true (not_or.1 hnothing)).symm

/-- A path that is made of names alone begins and stays where it is seen from. Its components are
    the names on its way, of which there is one unless it is empty. -/
theorem components_eq_map {path : String}
    (h : ∀ component ∈ Path.components path, ∃ name, component = .normal name) :
    ¬IsRooted path ∧ ".." ∉ wayNames path ∧ (path ≠ "" → wayNames path ≠ []) ∧
      Path.components path = (wayNames path).map fun name => .normal name.toList := by
  have hcomponents : Path.components path = (Path.start path.toList).1 ++
      (Path.segments (path.toList.drop (Path.start path.toList).2)).filterMap
        Path.segmentComponent := rfl
  have hstart : Path.start path.toList = ([], 0) := by
    have hfirst : ∀ component ∈ (Path.start path.toList).1, ∃ name, component = .normal name :=
      fun component hmem => h component (hcomponents ▸ List.mem_append_left _ hmem)
    unfold Path.start at hfirst ⊢
    split at hfirst <;> first | rfl | (simp at hfirst)
  rw [hstart, List.nil_append, List.drop_zero] at hcomponents
  obtain ⟨hmap, hup⟩ := filterMap_segmentComponent (hcomponents ▸ h)
  have hrooted : ¬IsRooted path := by
    intro hrooted
    obtain ⟨rest, hrest⟩ := List.head?_eq_some_iff.1 hrooted
    rw [hrest] at hstart
    cases hstart
  refine ⟨hrooted, ?_, fun hne => ?_, ?_⟩
  · rw [wayNames_eq_stepping, List.mem_map]
    rintro ⟨segment, hmem, hsegment⟩
    rw [show ".." = String.ofList ['.', '.'] from rfl, String.ofList_inj] at hsegment
    exact hup (hsegment ▸ hmem)
  · -- The first piece is no empty one, for the path is not rooted, and no dot, for it would be the
    -- start of the path.
    obtain ⟨c, rest, hcons⟩ := List.exists_cons_of_ne_nil (String.toList_eq_nil_iff.not.2 hne)
    have hc : c ≠ '/' := by
      rintro rfl
      exact hrooted (by rw [IsRooted, hcons]; rfl)
    rw [wayNames_eq_stepping, hcons, Path.segments, Text.pieces, if_neg hc]
    cases hp : Text.pieces '/' rest with
    | nil => exact absurd hp (Text.pieces_ne_nil '/' rest)
    | cons first others =>
      have hdot : ¬(c = '.' ∧ first = []) := by
        rintro ⟨rfl, rfl⟩
        have hjoin := Text.joinPieces_pieces '/' rest
        rw [hp] at hjoin
        rw [hcons] at hstart
        cases others with
        | nil => rw [← hjoin] at hstart; cases hstart
        | cons second others => rw [← hjoin] at hstart; cases hstart
      have hsome : (Path.segmentComponent (c :: first)).isSome := by
        rw [Path.segmentComponent, if_neg (by simpa using hdot)]
        split <;> rfl
      simp [stepping, hsome]
  · rw [hcomponents, hmap, wayNames_eq_stepping, List.map_map]
    exact List.map_congr_left fun segment _ => by simp

/-- The component of a step that leads to another place. -/
def stepComponent (name : String) : Component :=
  if name = ".." then .parent else .normal name.toList

private theorem filterMap_eq_map_stepping (segments : List (List Char)) :
    segments.filterMap Path.segmentComponent =
      (stepping segments).map fun segment => stepComponent (String.ofList segment) := by
  induction segments with
  | nil => rfl
  | cons segment rest ih =>
    cases hc : Path.segmentComponent segment with
    | none =>
      rw [List.filterMap_cons_none hc, ih, stepping, stepping,
        List.filter_cons_of_neg (by simp [hc])]
    | some component =>
      have hstep : component = stepComponent (String.ofList segment) := by
        have hup : String.ofList segment = ".." ↔ segment = ['.', '.'] := by
          rw [show ".." = String.ofList ['.', '.'] from rfl, String.ofList_inj]
        rw [Path.segmentComponent] at hc
        rw [stepComponent, String.toList_ofList]
        simp only [hup]
        split at hc
        · cases hc
        · split at hc <;> simp_all
      rw [List.filterMap_cons_some hc, ih, hstep, stepping, stepping,
        List.filter_cons_of_pos (by simp [hc]), List.map_cons]

/-- The components of a path are those of its start and one for each name on its way. -/
theorem components_eq_append (path : String) : Path.components path =
    (Path.start path.toList).1 ++ (wayNames path).map stepComponent := by
  rw [wayNames_eq_start, List.map_map]
  exact congrArg _ (filterMap_eq_map_stepping _)

end StepRunner.FileTree
