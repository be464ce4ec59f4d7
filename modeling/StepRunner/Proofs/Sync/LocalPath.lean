import StepRunner.Proofs.Sync.Confinement

namespace StepRunner.Sync

open FileTree

variable {localDir relativePath destination parent : String}

/-- The segments of a path that name something: those that are neither empty nor a dot. -/
def namingSegments (relativePath : String) : List (List Char) :=
  (Path.segments relativePath.toList).filter fun segment => segment ≠ [] ∧ segment ≠ ['.']

/-- `IsBelow localDir destination names` says that a path has the components of a directory and,
    after them, some names, at least one, so that the path above it still begins as the
    directory. -/
structure IsBelow (localDir destination : String) (names : List (List Char)) : Prop where
  components_eq : Path.components destination = Path.components localDir ++ names.map .normal
  names_ne_nil : names ≠ []
  exists_parent : ∃ parent, Path.parent? destination = some parent ∧
    Path.components parent = Path.components localDir ++ names.dropLast.map .normal

theorem isBelow_of_localPath (h : localPath localDir relativePath = .ok destination) :
    IsBelow localDir destination (namingSegments relativePath) := by
  obtain ⟨hne, hnormal, rfl⟩ := localPath_eq_ok_iff.1 h
  have hnames : Path.components relativePath = (namingSegments relativePath).map .normal :=
    components_eq_map_segments hnormal
  have hsome : namingSegments relativePath ≠ [] := by
    intro hnil
    rw [hnil, (components_eq_map hnormal).2.2.2, List.map_nil, List.map_eq_nil_iff] at hnames
    exact (components_eq_map hnormal).2.2.1 hne hnames
  have hjoin : Path.components (Path.join localDir relativePath) =
      Path.components localDir ++ (namingSegments relativePath).map .normal := by
    rw [components_join localDir hnormal, hnames]
  obtain ⟨parent, hparent⟩ := (liesBelow_of_localPath h).exists_parent
  refine ⟨hjoin, hsome, parent, hparent, ?_⟩
  rw [components_parent? hparent, hjoin, List.dropLast_append_of_ne_nil (by simpa using hsome),
    List.map_dropLast]

/-- An object has a local path exactly if its own path is not empty, does not begin at the root or
    with a dot as a segment, and has no two dots as a segment. The local path then goes on from the
    directory, whatever that is, by the names in the object's path; without one, the error tells the
    object's path. -/
theorem localPath_staysBelow (localDir relativePath : String) :
    ((∃ destination, localPath localDir relativePath = .ok destination) ↔
      relativePath ≠ "" ∧ relativePath.toList.head? ≠ some '/' ∧
        (Path.segments relativePath.toList).head? ≠ some ['.'] ∧
        ['.', '.'] ∉ Path.segments relativePath.toList) ∧
    (∀ destination, localPath localDir relativePath = .ok destination →
      IsBelow localDir destination (namingSegments relativePath)) ∧
    ∀ e, localPath localDir relativePath = .error e → e = .invalidObjectPath relativePath := by
  refine ⟨?_, fun _ => isBelow_of_localPath, fun e h => (localPath_eq_error_iff.1 h).2⟩
  have hescapes : ¬Escapes relativePath ↔ relativePath ≠ "" ∧
      relativePath.toList.head? ≠ some '/' ∧
      (Path.segments relativePath.toList).head? ≠ some ['.'] ∧
      ['.', '.'] ∉ Path.segments relativePath.toList := by
    simp only [Escapes, IsRooted, not_or, ne_eq]
  rw [← hescapes]
  rcases hresult : localPath localDir relativePath with e | destination
  · refine iff_of_false ?_ (not_not.2 (localPath_eq_error_iff.1 hresult).1)
    rintro ⟨_, ⟨⟩⟩
  · refine iff_of_true ⟨destination, rfl⟩ fun h => ?_
    rw [localPath_eq_error_iff.2 ⟨h, rfl⟩] at hresult
    cases hresult

/-- Dots and slashes inside a path and at its end do not count, and neither does it count that the
    directory has no components. -/
example : localPath "" "a/./b//c/." = .ok "a/./b//c/." ∧
    Path.components "a/./b//c/." = [.normal ['a'], .normal ['b'], .normal ['c']] ∧
    localPath "d" "./a" = .error (.invalidObjectPath "./a") := by
  decide +kernel

end StepRunner.Sync
