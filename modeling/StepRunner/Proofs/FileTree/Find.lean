import StepRunner.Proofs.FileTree.Change
import StepRunner.Proofs.FileTree.Joined
import StepRunner.Proofs.FileTree.Parents

namespace StepRunner.FileTree

/-- Whether a path can be looked up at all. -/
def IsUsable (path : String) : Prop :=
  '\x00' ∉ path.toList ∧ path ≠ "" ∧ Text.utf8Length path.toList ≤ maxPath

instance (path : String) : Decidable (IsUsable path) :=
  inferInstanceAs (Decidable (_ ∧ _ ∧ _))

/-- `t.NamesDirectory here path dir` says that `path` names the directory `dir`. The empty path
    names the directory that it is seen from, though it cannot be looked up. -/
def NamesDirectory (t : FileTree) (here : Location) (path : String) (dir : Location) : Prop :=
  (path = "" ∨ IsUsable path) ∧
    ∃ links, links ≤ maxLinks ∧ t.Reaches (wayStart here path) (wayNames path) dir links

variable {t t' : FileTree} {follow : Bool} {here dir other place : Location} {path above : String}
  {entry : Entry} {target : Target}

theorem find_eq_ok_iff : t.find here follow path = .ok target ↔ IsUsable path ∧
    ∃ links, links ≤ maxLinks ∧
      t.Leads follow (wayStart here path) (waySteps path) target links := by
  unfold find
  by_cases hnul : '\x00' ∈ path.toList
  · simp [hnul, IsUsable]
  by_cases hempty : path = ""
  · simp [hempty, IsUsable]
  by_cases hlong : maxPath < Text.utf8Length path.toList
  · simp [hnul, hempty, hlong, IsUsable, Nat.not_le.2 hlong]
  have husable : IsUsable path := ⟨hnul, hempty, Nat.not_lt.1 hlong⟩
  simp only [hnul, hlong, String.toList_eq_nil_iff, hempty, if_false, husable, true_and]
  constructor
  · exact leads_of_walk
  · rintro ⟨links, hle, hleads⟩
    have hwalk := hleads.walk_eq maxLinks
    rw [if_pos hle] at hwalk
    exact hwalk

/-- A walk that does not find anything for want of an entry would do so however many links it
    could follow. -/
theorem not_leads_of_find {links : Nat} (h : t.find here follow path = .error .notFound)
    (husable : IsUsable path) :
    ¬t.Leads follow (wayStart here path) (waySteps path) target links := by
  intro hleads
  obtain ⟨hnul, hempty, hlong⟩ := husable
  have hwalk := hleads.walk_eq maxLinks
  rw [find] at h
  simp only [hnul, Nat.not_lt.2 hlong, String.toList_eq_nil_iff, hempty, if_false] at h
  simp only [wayStart, waySteps] at hwalk
  rw [h] at hwalk
  split at hwalk <;> simp [IoError.notFound, IoError.tooManyLinks] at hwalk

theorem isUsable_of_find (h : t.find here follow path = .error .notFound) (hne : path ≠ "") :
    IsUsable path := by
  rw [find] at h
  split at h
  · simp [IoError.nulInPath, IoError.notFound] at h
  next hnul =>
  split at h
  · next hempty => exact absurd (String.toList_eq_nil_iff.1 hempty) hne
  split at h
  · simp [IoError.nameTooLong, IoError.notFound] at h
  · next hlong => exact ⟨hnul, hne, Nat.not_lt.1 hlong⟩

theorem stat_eq_ok_iff :
    t.stat here path = .ok (place, entry) ↔ t.find here true path = .ok (.entry place entry) := by
  unfold stat
  split
  · next heq => simp [heq]
  · next heq => simp [heq]
  · next heq => simp [heq]

/-- Entries that are kept are found as before. -/
theorem find_mono (h : t.find here follow path = .ok (.entry place entry)) (hkeeps : t.Keeps t') :
    t'.find here follow path = .ok (.entry place entry) := by
  obtain ⟨husable, links, hle, hleads⟩ := find_eq_ok_iff.1 h
  exact find_eq_ok_iff.2 ⟨husable, links, hle, hleads.mono hkeeps⟩

/-- Following the last link makes no difference where there is none. -/
theorem find_follows (h : t.find here false path = .ok (.entry place entry))
    (hnot : ∀ text, entry ≠ .link text) : t.find here true path = .ok (.entry place entry) := by
  obtain ⟨husable, links, hle, hleads⟩ := find_eq_ok_iff.1 h
  refine find_eq_ok_iff.2 ⟨husable, links, hle, hleads.follows ?_⟩
  rintro _ text ⟨⟩
  exact hnot text rfl

/-- Nothing is found where a path leads to a vacant place or to no place. -/
theorem stat_eq_notFound_iff : t.stat here path = .error .notFound ↔
    (∃ place, t.find here true path = .ok (.vacant place)) ∨
      t.find here true path = .error .notFound := by
  unfold stat
  split
  · next heq => simp [heq]
  · next heq => simp [heq]
  · next heq => simp [heq]

private theorem utf8Length_le_of_isPrefix {first second : List Char} (h : first <+: second) :
    Text.utf8Length first ≤ Text.utf8Length second := by
  obtain ⟨rest, rfl⟩ := h
  simp [Text.utf8Length_append]

/-- A beginning of a path can be looked up if the path can, but for the empty one. -/
theorem IsUsable.of_isPrefix (h : IsUsable path) (hinit : above.toList <+: path.toList) :
    above = "" ∨ IsUsable above := by
  obtain ⟨hnul, _, hlong⟩ := h
  by_cases hempty : above = ""
  · exact Or.inl hempty
  · exact Or.inr ⟨fun hmem => hnul (hinit.subset hmem), hempty,
      Nat.le_trans (utf8Length_le_of_isPrefix hinit) hlong⟩

theorem stat_eq_directory_iff (hne : path ≠ "") :
    t.stat here path = .ok (dir, .directory) ↔ t.NamesDirectory here path dir := by
  rw [stat_eq_ok_iff, find_eq_ok_iff, NamesDirectory, or_iff_right hne]
  simp only [wayNames, reaches_filter_dots]

theorem isDirectory_iff (hne : path ≠ "") :
    t.isDirectory here path = true ↔ ∃ dir, t.NamesDirectory here path dir := by
  unfold isDirectory
  simp only [← stat_eq_directory_iff hne]
  split
  · next heq => simp [heq]
  · next hnot => simpa using fun dir hdir => hnot dir hdir

theorem NamesDirectory.unique (h : t.NamesDirectory here path dir)
    (h' : t.NamesDirectory here path other) : dir = other := by
  obtain ⟨_, _, _, hreaches⟩ := h
  obtain ⟨_, _, _, hreaches'⟩ := h'
  injection (hreaches.unique hreaches').1

theorem NamesDirectory.mono (h : t.NamesDirectory here path dir) (hkeeps : t.Keeps t') :
    t'.NamesDirectory here path dir := by
  obtain ⟨husable, links, hle, hreaches⟩ := h
  exact ⟨husable, links, hle, hreaches.mono hkeeps⟩

theorem NamesDirectory.of_files (h : t.NamesDirectory here path dir)
    (hsame : ∀ other, t'.get? other = t.get? other ∨ ∃ data, t.get? other = some (.file data)) :
    t'.NamesDirectory here path dir := by
  obtain ⟨husable, links, hle, hreaches⟩ := h
  exact ⟨husable, links, hle, hreaches.of_files hsame (Or.inl rfl)⟩

/-- A change at a place that is not open does not touch directories that are named. -/
theorem NamesDirectory.of_sameOff (h : t.NamesDirectory here path dir)
    (hoff : SameOff place t t') (hclosed : ¬t.IsOpen place) :
    t'.NamesDirectory here path dir := by
  obtain ⟨husable, links, hle, hreaches⟩ := h
  exact ⟨husable, links, hle, hreaches.of_sameOff hoff hclosed⟩

theorem NamesDirectory.get?_eq (h : t.NamesDirectory here path dir)
    (hhere : t.get? here = some .directory) : t.get? dir = some .directory := by
  obtain ⟨_, _, _, hreaches⟩ := h
  exact hreaches.get?_place (get?_wayStart hhere path)

theorem namesDirectory_empty : t.NamesDirectory here "" dir ↔ dir = here := by
  constructor
  · rintro ⟨_, _, _, hreaches⟩
    rw [wayNames_empty] at hreaches
    cases hreaches
    rfl
  · rintro rfl
    refine ⟨Or.inl rfl, 0, Nat.zero_le _, ?_⟩
    rw [wayNames_empty]
    exact .here dir

theorem find_eq_targetAt (h : t.find here follow path = .ok target)
    (hhere : t.get? here = some .directory) :
    t.find here follow path = .ok (t.targetAt target.place) := by
  obtain ⟨_, _, _, hleads⟩ := find_eq_ok_iff.1 h
  rw [h, ← hleads.eq_targetAt (get?_wayStart hhere path)]

/-- A path whose last link is not followed leads to the same place after a change at a place that
    is not open. -/
theorem find_of_sameOff {changed : Location} (h : t.find here false path = .ok (t.targetAt place))
    (hentry : t.get? place ≠ some .directory) (hoff : SameOff changed t t')
    (hclosed : ¬t.IsOpen changed) (hstay : follow = false ∨ ∀ text, t'.get? place ≠ some (.link text)) :
    t'.find here follow path = .ok (t'.targetAt place) := by
  obtain ⟨husable, links, hle, hleads⟩ := find_eq_ok_iff.1 h
  obtain ⟨first, name, dir, hsteps, hname, hfirst, hplace⟩ := hleads.last_step (by simpa using hentry)
  rw [place_targetAt] at hplace
  subst hplace
  rw [find_eq_ok_iff]
  refine ⟨husable, links, hle, ?_⟩
  rw [hsteps]
  exact (hfirst.of_sameOff hoff hclosed).leads_targetAt hname hstay

/-- No way goes on at a place where there is nothing or a file. -/
theorem not_isOpen_of_none (h : t.get? place = none) : ¬t.IsOpen place := by
  rintro (hdir | ⟨text, _, _, hlink, _⟩)
  · rw [h] at hdir; cases hdir
  · rw [h] at hlink; cases hlink

theorem not_isOpen_of_file {data : FileData} (h : t.get? place = some (.file data)) :
    ¬t.IsOpen place := by
  rintro (hdir | ⟨text, _, _, hlink, _⟩)
  · rw [h] at hdir; cases hdir
  · rw [h] at hlink; cases hlink

/-- What is put at a vacant place is found by the path that led there. -/
theorem find_of_vacant (h : t.find here false path = .ok (.vacant place))
    (hoff : SameOff place t t') (hnew : t'.get? place = some entry)
    (hhere : t.get? here = some .directory)
    (hstay : follow = false ∨ ∀ text, entry ≠ .link text) :
    t'.find here follow path = .ok (.entry place entry) := by
  have htarget := find_eq_targetAt h hhere
  obtain ⟨_, _, _, hleads⟩ := find_eq_ok_iff.1 h
  have hfree := hleads.get?_place (get?_wayStart hhere path)
  simp only [Target.place, Target.standing?] at htarget hfree
  have hnoLink : follow = false ∨ ∀ text, t'.get? place ≠ some (.link text) := by
    rw [hnew]
    exact hstay.imp_right fun hnot text heq => hnot text (Option.some.inj heq)
  have hfind : t'.find here follow path = .ok (t'.targetAt place) :=
    find_of_sameOff htarget (by simp [hfree]) hoff (not_isOpen_of_none hfree) hnoLink
  rw [hfind, targetAt, hnew]

theorem stat_of_vacant (h : t.find here false path = .ok (.vacant place))
    (hoff : SameOff place t t') (hnew : t'.get? place = some entry)
    (hhere : t.get? here = some .directory) (hentry : ∀ text, entry ≠ .link text) :
    t'.stat here path = .ok (place, entry) :=
  stat_eq_ok_iff.2 (find_of_vacant h hoff hnew hhere (Or.inr hentry))

end StepRunner.FileTree
