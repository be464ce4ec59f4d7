import StepRunner.Proofs.FileTree.Files
import StepRunner.Storage.Sync

namespace StepRunner.Sync

open FileTree

variable {t t' : FileTree} {here dir place : Location} {entry : Entry} {target : Target}
  {localDir relativePath destination parent : String} {names : List String} {updated : Instant}

/-- `LiesBelow localDir destination names` says that the way of `destination` is the one of
    `localDir` and, after it, some names, but no dots that lead back. -/
structure LiesBelow (localDir destination : String) (names : List String) : Prop where
  wayNames_eq : wayNames destination = wayNames localDir ++ names
  isRooted_iff : IsRooted destination ↔ IsRooted localDir
  names_ne_nil : names ≠ []
  not_mem : ".." ∉ names

theorem localPath_eq_ok_iff : localPath localDir relativePath = .ok destination ↔
    relativePath ≠ "" ∧ (∀ component ∈ Path.components relativePath, ∃ name,
      component = .normal name) ∧ destination = Path.join localDir relativePath := by
  have hall (isName : Component → Bool)
      (hname : ∀ component, isName component = true ↔ ∃ name, component = .normal name) :
      (Path.components relativePath).all isName = true ↔
        ∀ component ∈ Path.components relativePath, ∃ name, component = .normal name := by
    rw [List.all_eq_true]
    exact forall₂_congr fun component _ => hname component
  rw [localPath]
  split
  · next h =>
    rw [hall _ fun component => by cases component <;> simp] at h
    rw [Except.ok.injEq, eq_comm]
    exact ⟨fun heq => ⟨h.1, h.2, heq⟩, fun hall => hall.2.2⟩
  · next h =>
    rw [hall _ fun component => by cases component <;> simp] at h
    constructor
    · nofun
    · rintro ⟨hne, hnormal, _⟩
      exact absurd ⟨hne, hnormal⟩ h

/-- The copy of an object lies below the local directory. -/
theorem liesBelow_of_localPath (h : localPath localDir relativePath = .ok destination) :
    LiesBelow localDir destination (wayNames relativePath) := by
  obtain ⟨hne, hnormal, rfl⟩ := localPath_eq_ok_iff.1 h
  obtain ⟨hrel, hup, hnames, _⟩ := components_eq_map hnormal
  exact ⟨wayNames_join localDir hrel, isRooted_join_iff localDir hrel, hnames hne, hup⟩

namespace LiesBelow

theorem ne_empty (h : LiesBelow localDir destination names) : destination ≠ "" := by
  rintro rfl
  have hnames := h.wayNames_eq
  rw [wayNames_empty, eq_comm, List.append_eq_nil_iff] at hnames
  exact h.names_ne_nil hnames.2

theorem exists_parent (h : LiesBelow localDir destination names) :
    ∃ parent, Path.parent? destination = some parent :=
  exists_parent? (by simp [h.wayNames_eq, h.names_ne_nil])

/-- The path above the destination leads from the local directory by all names but the last. -/
theorem parent_eq (h : LiesBelow localDir destination names)
    (hparent : Path.parent? destination = some parent) :
    wayNames parent = wayNames localDir ++ names.dropLast ∧ (IsRooted parent ↔ IsRooted localDir) := by
  obtain ⟨_, hnames, hrooted⟩ := parent?_eq_some hparent
  rw [hnames, h.wayNames_eq, List.dropLast_append_of_ne_nil h.names_ne_nil]
  exact ⟨rfl, hrooted.trans h.isRooted_iff⟩

/-- Making the directory that the destination lies in leaves all as it is, or the directory is new
    and the destination leads to nothing. -/
theorem makeDirectories_cases {result : Except IoError Unit}
    (h : LiesBelow localDir destination names) (hbase : t.NamesDirectory here localDir dir)
    (husable : IsUsable destination) (hhere : t.get? here = some .directory)
    (hparent : Path.parent? destination = some parent)
    (hmake : (Disk.makeDirectories here parent).run t = (result, t')) :
    t' = t ∨ ∀ follow place entry, t'.find here follow destination ≠ .ok (.entry place entry) := by
  obtain ⟨hchars, _, _⟩ := parent?_eq_some hparent
  obtain ⟨hnames, hrooted⟩ := h.parent_eq hparent
  have hup : ".." ∉ names.dropLast := fun hmem => h.not_mem (List.dropLast_subset names hmem)
  have hclimbs := Disk.climbs_ancestry hbase (husable.of_isPrefix hchars) hrooted hnames hup
    (Nat.lt_succ_self _)
  rcases hclimbs.bare hhere hmake with heq | hbare
  · exact Or.inl heq
  right
  intro follow place entry hfind
  obtain ⟨front, last, hlast⟩ := names.eq_nil_or_concat'.resolve_left h.names_ne_nil
  have hname : (wayNames destination).getLast? = some last := by simp [h.wayNames_eq, hlast]
  have hnotUp : last ≠ ".." := by
    rintro rfl
    exact h.not_mem (by simp [hlast])
  obtain ⟨dir, hdir, hinside⟩ := Disk.exists_inside hfind hparent hname hnotUp
  exact hinside (hbare dir hdir last)

end LiesBelow

/-- `IsStale t here destination updated` says that the file that a path leads to is older than an
    object, or that there is nothing at the end of the path. -/
def IsStale (t : FileTree) (here : Location) (destination : String) (updated : Instant) : Prop :=
  IsUsable destination ∧ (t.stat here destination = .error .notFound ∨
    ∃ place data, t.stat here destination = .ok (place, .file data) ∧ data.modified < updated)

theorem isCurrent_eq_true_iff {m : Machine} {object : RemoteObject} :
    isCurrent m destination object = .ok true ↔ ∃ place data,
      m.tree.stat m.workDir destination = .ok (place, .file data) ∧
        object.updated.toInstant ≤ data.modified := by
  unfold isCurrent
  split
  · next heq => simp [heq]
  · next heq => simp [heq]
  · next heq => simp [heq]
  · next heq =>
    split <;> simp [heq]

/-- A copy that is not current is older than its object or missing. -/
theorem isStale_of_isCurrent {m : Machine} {object : RemoteObject}
    (h : isCurrent m destination object = .ok false) (hne : destination ≠ "") :
    IsStale m.tree m.workDir destination object.updated.toInstant := by
  unfold isCurrent at h
  split at h
  · next place data hstat =>
    have hnewer : ¬object.updated.toInstant ≤ data.modified := by simpa using h
    exact ⟨(find_eq_ok_iff.1 (stat_eq_ok_iff.1 hstat)).1,
      Or.inr ⟨place, data, hstat, Int.not_le.1 hnewer⟩⟩
  · cases h
  · cases h
  · next hstat =>
    split at h
    · next hmissing =>
      subst hmissing
      refine ⟨?_, Or.inl hstat⟩
      rcases stat_eq_notFound_iff.1 hstat with ⟨place, hvacant⟩ | hnot
      · exact (find_eq_ok_iff.1 hvacant).1
      · exact isUsable_of_find hnot hne
    · cases h

namespace IsStale

theorem leads {links : Nat} (h : IsStale t here destination updated)
    (hleads : t.Leads true (wayStart here destination) (waySteps destination) (.entry place entry)
      links) : ∃ data, entry = .file data ∧ data.modified < updated := by
  obtain ⟨husable, hmissing | ⟨_, data, hstat, hlt⟩⟩ := h
  · rcases stat_eq_notFound_iff.1 hmissing with ⟨_, hvacant⟩ | hnot
    · obtain ⟨_, _, _, hleads'⟩ := find_eq_ok_iff.1 hvacant
      cases (hleads.unique hleads').1
    · exact absurd hleads (not_leads_of_find hnot husable)
  · obtain ⟨_, _, _, hleads'⟩ := find_eq_ok_iff.1 (stat_eq_ok_iff.1 hstat)
    cases (hleads.unique hleads').1
    exact ⟨data, rfl, hlt⟩

end IsStale

/-- `Readies t t' here destination` says that nothing was done to `t` or that, in what it has
    become, a path leads to nothing. -/
def Readies (t t' : FileTree) (here : Location) (destination : String) : Prop :=
  t' = t ∨ ∀ follow place entry, t'.find here follow destination ≠ .ok (.entry place entry)

namespace Readies

/-- Where a path leads to a place, what it leads to by its last link is as before. -/
theorem leads {links : Nat} (h : Readies t t' here destination)
    (hstale : IsStale t here destination updated)
    (hfind : t'.find here false destination = .ok target)
    (hleads : t'.Leads true (wayStart here destination) (waySteps destination)
      (.entry place entry) links) : ∃ data, entry = .file data ∧ data.modified < updated := by
  rcases h with rfl | hvoid
  · exact hstale.leads hleads
  cases target with
  | entry other found => exact absurd hfind (hvoid false other found)
  | vacant free =>
    obtain ⟨_, _, _, hleads'⟩ := find_eq_ok_iff.1 hfind
    cases (hleads.unique (hleads'.follows (by simp))).1

/-- No way goes on at the place that the copy of a stale object takes. -/
theorem not_isOpen (h : Readies t t' here destination)
    (hstale : IsStale t here destination updated)
    (hfind : t'.find here false destination = .ok (t'.targetAt place))
    (hentry : t'.get? place ≠ some .directory) : ¬t'.IsOpen place := by
  obtain ⟨_, links, _, hleads⟩ := find_eq_ok_iff.1 hfind
  rintro (hdir | ⟨text, dir, more, hlink, hreaches⟩)
  · exact hentry hdir
  · obtain ⟨first, name, above, hsteps, hname, hfirst, hplace⟩ :=
      hleads.last_step (by simpa using hentry)
    rw [place_targetAt] at hplace
    rw [hplace] at hlink hreaches
    have hjump : t'.Leads true above [name] (.entry dir .directory) (more + 1) :=
      .jump hname hlink (Or.inr rfl) (by rw [List.append_nil]; exact hreaches)
    have hall := hfirst.append hjump (Or.inr rfl)
    rw [← hsteps] at hall
    obtain ⟨_, hfile, _⟩ := h.leads hstale hfind hall
    cases hfile

/-- The copy of a stale object takes the place of older files only. -/
theorem modified_lt {found : Location} {data : FileData} (h : Readies t t' here destination)
    (hstale : IsStale t here destination updated)
    (hfind : t'.find here false destination = .ok (t'.targetAt place))
    (hentry : t'.get? place ≠ some .directory) (hstands : t'.StandsFor place found data)
    (hfile : t'.get? found = some (.file data)) : data.modified < updated := by
  obtain ⟨_, links, _, hleads⟩ := find_eq_ok_iff.1 hfind
  obtain ⟨first, name, dir, hsteps, hname, hfirst, hplace⟩ :=
    hleads.last_step (by simpa using hentry)
  rw [place_targetAt] at hplace
  have hdata : ∃ more, t'.Leads true dir [name] (.entry found (.file data)) more := by
    rcases hstands with rfl | ⟨text, more, hlink, hnext⟩
    · rw [hplace] at hfile ⊢
      exact ⟨0, .file hname hfile⟩
    · rw [hplace] at hlink hnext
      exact ⟨more + 1, .jump hname hlink (Or.inr rfl) (by rw [List.append_nil]; exact hnext)⟩
  obtain ⟨more, hlast⟩ := hdata
  have hall := hfirst.append hlast (Or.inr rfl)
  rw [← hsteps] at hall
  obtain ⟨_, heq, hlt⟩ := h.leads hstale hfind hall
  cases heq
  exact hlt

end Readies

end StepRunner.Sync
