import StepRunner.FileTree.Disk
import StepRunner.Proofs.FileTree.Directories
import StepRunner.Proofs.FileTree.Names

namespace StepRunner

namespace FileTree

variable {t : FileTree} {here dir : Location} {directory name : String}

/-- The path from the root to a place goes by the names of the place. -/
theorem wayNames_pathTo (hnames : ∀ name ∈ dir, IsEntryName name) :
    wayNames (pathTo dir) = dir.reverse := by
  have hsegments : Path.segments (pathTo dir).toList =
      [] :: Path.segments (Text.joinPieces '/' (dir.reverse.map String.toList)) := by
    rw [pathTo, String.toList_ofList, ← List.nil_append ('/' :: _), Path.segments, Text.pieces_append]
    rfl
  rw [wayNames_eq_stepping, hsegments]
  by_cases hroot : dir = []
  · rw [hroot]
    decide
  have hstep (name : String) (hmem : name ∈ dir) :
      (Path.segmentComponent name.toList).isSome = true := by
    obtain ⟨_, hne, hdot, _⟩ := hnames name hmem
    have hcurrent : name.toList ≠ ['.'] := fun heq => hdot (String.toList_injective heq)
    rw [Path.segmentComponent, if_neg (by simp [hne, hcurrent])]
    split <;> rfl
  rw [Path.segments, Text.pieces_joinPieces (by simpa using hroot) fun segment hmem => ?_]
  · have hall : stepping ([] :: dir.reverse.map String.toList) = dir.reverse.map String.toList := by
      rw [stepping, List.filter_cons_of_neg (by decide), List.filter_eq_self]
      intro segment hmem
      obtain ⟨name, hname, rfl⟩ := List.mem_map.1 hmem
      exact hstep name (List.mem_reverse.1 hname)
    rw [hall]
    simp
  · obtain ⟨name, hname, rfl⟩ := List.mem_map.1 hmem
    exact (hnames name (List.mem_reverse.1 hname)).1

theorem isRooted_pathTo (dir : Location) : IsRooted (pathTo dir) := by
  rw [IsRooted, pathTo, String.toList_ofList, List.head?_cons]

/-- A directory is named by its path from the root too, if that one can be looked up. -/
theorem NamesDirectory.fromRoot (h : t.NamesDirectory here directory dir)
    (hhere : t.get? here = some .directory)
    (husable : Path.join (pathTo here) directory = "" ∨
      IsUsable (Path.join (pathTo here) directory)) :
    t.NamesDirectory here (Path.join (pathTo here) directory) dir := by
  by_cases hrooted : IsRooted directory
  · have hjoin : Path.join (pathTo here) directory = directory := by
      simp [Path.join, show directory.toList.head? = some '/' from hrooted]
    rwa [hjoin]
  obtain ⟨_, links, hle, hreaches⟩ := h
  have hsome : t.get? (here ++ []) ≠ none := by simp [hhere]
  have hway : wayNames (Path.join (pathTo here) directory) = here.reverse ++ wayNames directory := by
    rw [wayNames_join _ hrooted, wayNames_pathTo fun name hmem => isEntryName_of_mem hsome hmem]
  have hroot : t.Reaches [] here.reverse (here.reverse.reverse ++ []) 0 :=
    reaches_of_directory (by simpa using hhere)
  rw [List.reverse_reverse, List.append_nil] at hroot
  rw [wayStart_of_not_isRooted hrooted] at hreaches
  refine ⟨husable, 0 + links, by omega, ?_⟩
  rw [hway, wayStart_of_isRooted ((isRooted_join_iff _ hrooted).2 (isRooted_pathTo here))]
  exact hroot.append hreaches (Or.inr rfl)

/-- A name in a directory leads to the place that it says. -/
theorem find_join (h : t.NamesDirectory here directory dir) (hslash : '/' ∉ name.toList) (hne : name ≠ "")
    (hname : IsName name) (husable : IsUsable (Path.join directory name)) :
    t.find here false (Path.join directory name) = .ok (t.targetAt (name :: dir)) := by
  have hrel : ¬IsRooted name := fun hrooted => hslash (List.mem_of_head? hrooted)
  obtain ⟨front, hsteps, hfront⟩ := waySteps_join directory hrel hne
  obtain ⟨_, links, hle, hreaches⟩ := h
  rw [← hfront, reaches_filter_dots,
    ← wayStart_eq_of_isRooted_iff (isRooted_join_iff directory hrel) here] at hreaches
  refine find_eq_ok_iff.2 ⟨husable, links, hle, ?_⟩
  rw [hsteps, waySteps_of_not_mem hslash hne]
  exact hreaches.leads_targetAt hname (Or.inl rfl)

end FileTree

namespace Disk

open FileTree

variable {t t' : FileTree} {here : Location} {path directory : String} {names : List String}
  {now : Instant} {e : IoError}

theorem makeFirstFree_cons (now : Instant) (here : Location) (directory name : String)
    (others : List String) (t : FileTree) :
    (makeFirstFree now here directory (name :: others)).run t =
      match t.find here false (Path.join directory name) with
      | .ok (.entry ..) => (makeFirstFree now here directory others).run t
      | .ok (.vacant place) =>
        (.ok (Path.join directory name), t.put place (.file ⟨[], now, false⟩))
      | .error e => (.error (atPath (Path.join directory name) e), t) := by
  rw [makeFirstFree, run_bind, run_get]
  simp only
  rcases t.find here false (Path.join directory name) with e | ⟨_, _⟩ | place <;> rfl

/-- A temporary file is an empty one at a place that was vacant. -/
theorem makeTemporary_ok (h : (makeTemporary now here directory names).run t = (.ok path, t'))
    (hhere : t.get? here = some .directory) :
    ∃ name place, name ∈ names ∧ path = Path.join (Path.join (pathTo here) directory) name ∧
      t.find here false path = .ok (.vacant place) ∧ t.get? place = none ∧ SameOff place t t' ∧
      t'.stat here path = .ok (place, .file ⟨[], now, false⟩) := by
  rw [makeTemporary] at h
  induction names with
  | nil => cases h
  | cons name others ih =>
    rw [makeFirstFree_cons] at h
    split at h
    · obtain ⟨other, place, hmem, hrest⟩ := ih h
      exact ⟨other, place, List.mem_cons_of_mem _ hmem, hrest⟩
    · next place hvacant =>
      cases h
      obtain ⟨hfree, hoff, hnew⟩ := put_vacant hvacant hhere (.file ⟨[], now, false⟩)
      have hstat := stat_of_vacant hvacant hoff hnew hhere (by simp)
      exact ⟨name, place, List.mem_cons_self, rfl, hvacant, hfree, hoff, hstat⟩
    · cases h

theorem makeTemporary_error
    (h : (makeTemporary now here directory names).run t = (.error e, t')) : t' = t := by
  rw [makeTemporary] at h
  induction names with
  | nil => cases h; rfl
  | cons name others ih =>
    rw [makeFirstFree_cons] at h
    split at h
    · exact ih h
    · cases h
    · cases h; rfl

/-- What names of temporary files are like: they are names, and one is as long as the other. -/
structure AreTemporary (names : List String) : Prop where
  not_mem : ∀ name ∈ names, '/' ∉ name.toList ∧ '\x00' ∉ name.toList ∧ name ≠ ""
  isName : ∀ name ∈ names, IsName name
  length_eq : ∀ name ∈ names, ∀ other ∈ names,
    Text.utf8Length name.toList = Text.utf8Length other.toList

theorem AreTemporary.tail {name : String} {others : List String}
    (h : AreTemporary (name :: others)) : AreTemporary others where
  not_mem other hmem := h.not_mem other (List.mem_cons_of_mem _ hmem)
  isName other hmem := h.isName other (List.mem_cons_of_mem _ hmem)
  length_eq first hfirst second hsecond :=
    h.length_eq first (List.mem_cons_of_mem _ hfirst) second (List.mem_cons_of_mem _ hsecond)

/-- One name can be looked up in a directory if another one can. -/
theorem AreTemporary.isUsable_join {directory name other : String} (h : AreTemporary names)
    (hname : name ∈ names) (hother : other ∈ names) (husable : IsUsable (Path.join directory name)) :
    IsUsable (Path.join directory other) := by
  obtain ⟨hslash, _, _⟩ := h.not_mem name hname
  obtain ⟨hslash', hnul', hne'⟩ := h.not_mem other hother
  have hlength := h.length_eq name hname other hother
  obtain ⟨front, hjoin⟩ := toList_join directory
  have hname := hjoin name fun hrooted => hslash (List.mem_of_head? hrooted)
  have hother := hjoin other fun hrooted => hslash' (List.mem_of_head? hrooted)
  obtain ⟨hnul, _, hlong⟩ := husable
  rw [hname] at hnul hlong
  refine ⟨?_, ?_, ?_⟩
  · rw [hother, List.mem_append, not_or]
    exact ⟨fun hmem => hnul (List.mem_append_left _ hmem), hnul'⟩
  · intro hempty
    rw [hempty, eq_comm] at hother
    exact hne' (String.toList_eq_nil_iff.1 (List.append_eq_nil_iff.1 hother).2)
  · rw [hother]
    rw [Text.utf8Length_append] at hlong ⊢
    omega

/-- A temporary file can be made in a directory if its path is not too long and some name is
    free. -/
theorem makeTemporary_succeeds (now : Instant) {dir : Location} (h : AreTemporary names)
    (hdir : t.NamesDirectory here directory dir) (hhere : t.get? here = some .directory)
    (husable : ∀ name ∈ names, IsUsable (Path.join (Path.join (pathTo here) directory) name))
    (hfree : ∃ name ∈ names, t.get? (name :: dir) = none) :
    ∃ path t', (makeTemporary now here directory names).run t = (.ok path, t') := by
  rw [makeTemporary]
  induction names with
  | nil =>
    obtain ⟨_, hmem, _⟩ := hfree
    cases hmem
  | cons name others ih =>
    obtain ⟨hslash, _, hne⟩ := h.not_mem name List.mem_cons_self
    have hfirst := husable name List.mem_cons_self
    have hrel : ¬IsRooted name := fun hrooted => hslash (List.mem_of_head? hrooted)
    have hfrom : t.NamesDirectory here (Path.join (pathTo here) directory) dir :=
      hdir.fromRoot hhere (hfirst.of_isPrefix (isPrefix_join _ hrel))
    rw [makeFirstFree_cons, find_join hfrom hslash hne (h.isName name List.mem_cons_self) hfirst,
      targetAt]
    cases hentry : t.get? (name :: dir) with
    | none => exact ⟨_, _, rfl⟩
    | some entry =>
      refine ih h.tail (fun other hmem => husable other (List.mem_cons_of_mem _ hmem)) ?_
      obtain ⟨free, hmem, hnone⟩ := hfree
      rcases List.mem_cons.1 hmem with rfl | hmem
      · rw [hentry] at hnone
        cases hnone
      · exact ⟨free, hmem, hnone⟩

end Disk

end StepRunner
