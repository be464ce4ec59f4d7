import StepRunner.Proofs.FileTree.Way

namespace StepRunner.FileTree

/-- A path of which the first segment is a dot is a dot, or goes on after it. -/
private theorem eq_dot_of_head?_segments {chars : List Char}
    (h : (Path.segments chars).head? = some ['.']) :
    chars = ['.'] ∨ ∃ rest, chars = '.' :: '/' :: rest := by
  obtain ⟨others, hsegments⟩ := List.head?_eq_some_iff.1 h
  have hjoin := Text.joinPieces_pieces '/' chars
  rw [Path.segments] at hsegments
  rw [hsegments] at hjoin
  cases others with
  | nil => exact Or.inl hjoin.symm
  | cons second others => exact Or.inr ⟨_, hjoin.symm⟩

/-- A path has a start of its own if it begins at the root or with a dot as a segment. -/
theorem start_cases (chars : List Char) :
    (chars.head? = some '/' ∧ Path.start chars = ([.root], 1)) ∨
    ((Path.segments chars).head? = some ['.'] ∧ Path.start chars = ([.current], 1)) ∨
    (chars.head? ≠ some '/' ∧ (Path.segments chars).head? ≠ some ['.'] ∧
      Path.start chars = ([], 0)) := by
  unfold Path.start
  split
  · exact Or.inl ⟨rfl, rfl⟩
  · exact Or.inr (Or.inl ⟨rfl, rfl⟩)
  · exact Or.inr (Or.inl ⟨rfl, rfl⟩)
  · next hroot hdot hdotSlash =>
    refine Or.inr (Or.inr ⟨fun hhead => ?_, fun hhead => ?_, rfl⟩)
    · obtain ⟨rest, rfl⟩ := List.head?_eq_some_iff.1 hhead
      exact hroot rest rfl
    · rcases eq_dot_of_head?_segments hhead with rfl | ⟨rest, rfl⟩
      · exact hdot rfl
      · exact hdotSlash rest rfl

/-- What a path starts with depends on its first character and its first segment. -/
theorem start_eq (chars : List Char) : Path.start chars =
    if chars.head? = some '/' then ([.root], 1)
    else if (Path.segments chars).head? = some ['.'] then ([.current], 1)
    else ([], 0) := by
  rcases start_cases chars with ⟨hroot, heq⟩ | ⟨hdot, heq⟩ | ⟨hroot, hdot, heq⟩
  · rw [if_pos hroot, heq]
  · have hroot : chars.head? ≠ some '/' := by
      intro hroot
      obtain ⟨rest, rfl⟩ := List.head?_eq_some_iff.1 hroot
      simp [Path.segments] at hdot
    rw [if_neg hroot, if_pos hdot, heq]
  · rw [if_neg hroot, if_neg hdot, heq]

theorem isRooted_of_start {path : String} (h : (Path.start path.toList).1 = [.current]) :
    ¬IsRooted path := by
  unfold IsRooted
  unfold Path.start at h
  split at h
  · simp at h
  · next heq => simp [heq]
  · next heq => simp [heq]
  · simp at h

theorem head?_segments_append (before after : List Char) :
    (Path.segments (before ++ '/' :: after)).head? = (Path.segments before).head? := by
  rw [Path.segments, Text.pieces_append,
    List.head?_append_of_ne_nil _ (Text.pieces_ne_nil '/' before)]
  rfl

/-- The start of a path does not count for its steps, also when what follows it is cut. -/
theorem stepping_take_start {chars after : List Char}
    (h : after <+: chars.drop (Path.start chars).2) :
    stepping (Path.segments (chars.take (Path.start chars).2 ++ after)) =
      stepping (Path.segments after) := by
  have hslash (rest : List Char) :
      stepping (Path.segments ('/' :: rest)) = stepping (Path.segments rest) := by
    simp [Path.segments, Text.pieces, stepping, Path.segmentComponent]
  have hdotSlash (rest : List Char) :
      stepping (Path.segments ('.' :: '/' :: rest)) = stepping (Path.segments rest) := by
    have hpieces := Text.pieces_append '/' ['.'] rest
    simp only [List.singleton_append] at hpieces
    have hdot : stepping (Text.pieces '/' ['.']) = [] := by decide
    rw [Path.segments, hpieces, stepping_append, hdot]
    rfl
  unfold Path.start at h ⊢
  split at h
  · next rest => simpa using hslash after
  · next =>
    simp only [List.drop_succ_cons, List.drop_zero, List.prefix_nil] at h
    subst h
    simp [stepping, Path.segments, Text.pieces, Path.segmentComponent]
  · next rest =>
    simp only [List.drop_succ_cons, List.drop_zero] at h
    cases after with
    | nil => simp [stepping, Path.segments, Text.pieces, Path.segmentComponent]
    | cons c after =>
      obtain ⟨rfl, _⟩ := List.cons_prefix_cons.1 h
      simpa [hslash] using hdotSlash after
  · simp

theorem wayNames_eq_start (path : String) : wayNames path =
    (stepping (Path.segments (path.toList.drop (Path.start path.toList).2))).map String.ofList := by
  rw [wayNames_eq_stepping, ← stepping_take_start (List.prefix_refl _), List.take_append_drop]

/-- What the start of a path is does not matter for the last segment of what follows it. -/
theorem getLast?_take_start {chars after : List Char}
    (h : after <+: chars.drop (Path.start chars).2) (hne : after ≠ []) :
    (Path.segments (chars.take (Path.start chars).2 ++ after)).getLast? =
      (Path.segments after).getLast? := by
  have hpieces (text : List Char) : Text.pieces '/' text ≠ [] := Text.pieces_ne_nil '/' text
  unfold Path.start at h ⊢
  split at h
  · simp [Path.segments, List.getLast?_cons_of_ne_nil (hpieces after)]
  · simp only [List.drop_succ_cons, List.drop_zero, List.prefix_nil] at h
    exact absurd h hne
  · simp only [List.drop_succ_cons, List.drop_zero] at h
    cases after with
    | nil => exact absurd rfl hne
    | cons c after =>
      obtain ⟨rfl, _⟩ := List.cons_prefix_cons.1 h
      have hdot := Text.pieces_append '/' ['.'] after
      simp only [List.singleton_append] at hdot
      simp [Path.segments, hdot, Text.pieces, List.getLast?_cons_of_ne_nil (hpieces after)]
  · simp

theorem joinPieces_isPrefix_of_segments {kept : List (List Char)} {chars : List Char}
    (h : kept <+: Path.segments chars) : Text.joinPieces '/' kept <+: chars := by
  obtain ⟨others, hothers⟩ := h
  have hinit := Text.joinPieces_isPrefix '/' kept others
  rwa [hothers, Path.segments, Text.joinPieces_pieces] at hinit

/-- A path starts as before when it is cut between segments after its start. -/
theorem start_take_start {chars : List Char} {kept : List (List Char)}
    (h : kept <+: Path.segments (chars.drop (Path.start chars).2)) :
    (Path.start (chars.take (Path.start chars).2 ++ Text.joinPieces '/' kept)).1 =
      (Path.start chars).1 := by
  have hjoined := joinPieces_isPrefix_of_segments h
  rcases start_cases chars with ⟨hroot, _⟩ | ⟨hdot, _⟩ | ⟨hroot, hdot, heq⟩
  · obtain ⟨rest, rfl⟩ := List.head?_eq_some_iff.1 hroot
    rfl
  · rcases eq_dot_of_head?_segments hdot with rfl | ⟨rest, rfl⟩
    · rw [List.prefix_nil.1 hjoined]
      rfl
    · generalize Text.joinPieces '/' kept = after at hjoined ⊢
      cases after with
      | nil => rfl
      | cons c after =>
        obtain ⟨rfl, _⟩ := List.cons_prefix_cons.1 hjoined
        rfl
  · rw [heq, List.drop_zero] at h hjoined
    rw [heq, List.take_zero, List.nil_append, start_eq, if_neg, if_neg]
    · by_cases hne : kept = []
      · rw [hne]
        decide
      · obtain ⟨others, hothers⟩ := h
        rw [Path.segments, Text.pieces_joinPieces hne fun segment hmem =>
          Text.not_mem_of_mem_pieces (hothers ▸ List.mem_append_left _ hmem)]
        rwa [← hothers, List.head?_append_of_ne_nil _ hne] at hdot
    · intro hhead
      obtain ⟨more, hmore⟩ := hjoined
      rw [← hmore, List.head?_append, hhead] at hroot
      exact hroot rfl

end StepRunner.FileTree
