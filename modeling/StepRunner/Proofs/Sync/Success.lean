import StepRunner.Proofs.FileTree.Ancestors
import StepRunner.Proofs.FileTree.Temporary
import StepRunner.Proofs.Sync.Place

namespace StepRunner.Sync

open FileTree

variable {σ : Type} {storage : Storage σ} {base dir localDir destination parent : String}
  {object : RemoteObject} {w : World σ} {t grown : FileTree} {here root place : Location}
  {listed : List RemoteObject} {bytes : RemoteObject → List UInt8} {steady : σ → Prop}

/-- Directories above a destination that were missing lie between the local directory and the place
    of the copy, if there are no links below the local directory. -/
theorem between_of_isAbove {relativePath : String}
    (hpath : localPath localDir relativePath = .ok destination)
    (hnames : t.NamesDirectory here localDir root) (hhere : t.get? here = some .directory)
    (hkeeps : t.Keeps grown) (hlinks : grown.HasNoLinks root) (hnew : t.get? place = none)
    (habove : IsAbove grown here destination place) :
    root <:+ place ∧ place <:+ copyPlace root relativePath := by
  obtain ⟨parent, hparent, above, hmem, _, links, _, hreaches⟩ := habove
  have hbelow := liesBelow_of_localPath hpath
  obtain ⟨hparentNames, hparentRooted⟩ := hbelow.parent_eq hparent
  obtain ⟨_, hinit, hrooted⟩ := Disk.of_mem_ancestry hmem
  rw [wayStart_eq_of_isRooted_iff (hrooted.trans hparentRooted)] at hreaches
  have hinit : wayNames above <+: wayNames localDir ++ wayNames relativePath := by
    rw [hparentNames] at hinit
    exact hinit.trans ((List.prefix_append_right_inj _).2 (List.dropLast_prefix _))
  obtain ⟨_, more, _, hroot⟩ := hnames
  rcases List.prefix_or_prefix_of_prefix hinit (List.prefix_append _ _) with hshort | hlong
  · -- A directory on the way to the local one was there before.
    obtain ⟨rest, hrest⟩ := hshort
    rw [← hrest] at hroot
    obtain ⟨mid, before, _, hmid, _, _⟩ := reaches_append.1 hroot
    cases (hreaches.unique (hmid.mono hkeeps)).1
    have hdir : t.get? place = some .directory := hmid.get?_place (get?_wayStart hhere localDir)
    rw [hnew] at hdir
    cases hdir
  · obtain ⟨inner, hinner⟩ := hlong
    rw [← hinner] at hreaches hinit
    obtain ⟨mid, _, after, hmid, hinside, _⟩ := reaches_append.1 hreaches
    cases (hmid.unique (hroot.mono hkeeps)).1
    have hsub : inner <+: wayNames relativePath := (List.prefix_append_right_inj _).1 hinit
    have hfilter : inner.filter (· ≠ ".") = inner := by
      apply List.filter_eq_self.2
      intro name hname
      exact (List.mem_filter.1 (hsub.subset hname)).2
    have hplace := Leads.place_eq hinside hlinks fun hup => hbelow.not_mem (hsub.subset hup)
    simp only [Target.place, hfilter] at hplace
    rw [hplace]
    obtain ⟨rest, hrest⟩ := hsub
    refine ⟨List.suffix_append _ _, rest.reverse, ?_⟩
    rw [copyPlace, ← hrest, List.reverse_append, List.append_assoc]

/-- `Fits t root localDir destination object` says that nothing is in the way of the copy of an
    object: its path can be looked up, there are no files or links where there must be directories,
    and there is no directory where the copy lies. -/
structure Fits (t : FileTree) (root : Location) (localDir destination : String)
    (object : RemoteObject) : Prop where
  path : localPath localDir object.relativePath = .ok destination
  plain : IsPlain localDir destination (wayNames object.relativePath)
  free : t.IsFree root (wayNames object.relativePath)
  not_directory : t.get? (copyPlace root object.relativePath) ≠ some .directory

/-- The directory of a copy can be made if nothing is in the way. -/
theorem Fits.makeDirectories {front : List String} {last : String}
    (h : Fits t root localDir destination object) (hnames : t.NamesDirectory here localDir root)
    (hhere : t.get? here = some .directory) (hparent : Path.parent? destination = some parent)
    (hsplit : wayNames object.relativePath = front ++ [last]) :
    ∃ grown, (Disk.makeDirectories here parent).run t = (.ok (), grown) ∧
      grown.NamesDirectory here parent (front.reverse ++ root) := by
  obtain ⟨hchars, _, _⟩ := parent?_eq_some hparent
  by_cases hfront : front = []
  · subst hfront
    obtain ⟨hway, hrooted⟩ := (liesBelow_of_localPath h.path).parent_eq hparent
    rw [hsplit, List.dropLast_concat, List.append_nil] at hway
    obtain ⟨_, links, hle, hreaches⟩ := hnames
    have hnames' : t.NamesDirectory here parent root := by
      refine ⟨h.plain.isUsable.of_isPrefix hchars, links, hle, ?_⟩
      rwa [hway, wayStart_eq_of_isRooted_iff hrooted]
    exact ⟨t, Disk.makeWithAncestors_of_namesDirectory hnames', hnames'⟩
  have hplain := h.plain
  have hfree := h.free
  rw [hsplit] at hplain hfree
  have habove := hplain.parent hparent hfront
  obtain ⟨grown, hmake⟩ := Disk.makeWithAncestors_succeeds habove hnames hhere hfree.of_append
    (hfree front last [] rfl) (Nat.lt_succ_self _)
  obtain ⟨dir, hdir⟩ := Disk.namesDirectory_of_makeWithAncestors hhere hmake
  have hgrows := Disk.makeWithAncestors_grows hhere hmake
  have hnames' := hnames.mono hgrows.keeps
  have hend := habove.get?_eq hnames' (hgrows.keeps _ _ hhere) (hfree.of_append.of_grows hgrows)
    (hgrows.none_or_directory (hfree front last [] rfl)) hdir
  exact ⟨grown, hmake, habove.namesDirectory hnames' hend⟩

/-- Whether nothing in a directory or below it has a name. -/
def IsUnused (t : FileTree) (root : Location) (name : String) : Prop :=
  ∀ dir, root <:+ dir → t.get? (name :: dir) = none

theorem mem_wayNames_of_suffix {relativePath name : String} {dir : Location}
    (hdir : root <:+ dir) (h : name :: dir <:+ copyPlace root relativePath) :
    name ∈ wayNames relativePath := by
  obtain ⟨inner, rfl⟩ := hdir
  rw [← List.cons_append, copyPlace, List.suffix_append_inj_of_length_eq rfl] at h
  exact List.mem_reverse.1 (h.1.subset List.mem_cons_self)

/-- A name that is not used stays so when the directories above a destination are made. -/
theorem Fits.get?_temporary {name : String} {dir : Location}
    (h : Fits t root localDir destination object) (hnames : t.NamesDirectory here localDir root)
    (hhere : t.get? here = some .directory) (hlinks : t.HasNoLinks root)
    (hgrows : t.Grows (IsAbove grown here destination) grown) (hfree : IsUnused t root name)
    (hname : name ∉ wayNames object.relativePath) (hdir : root <:+ dir) :
    grown.get? (name :: dir) = none := by
  rcases hgrows (name :: dir) with hsame | ⟨_, _, habove⟩
  · rw [hsame, hfree dir hdir]
  · obtain ⟨_, hsuffix⟩ := between_of_isAbove h.path hnames hhere hgrows.keeps
      (hlinks.of_grows hgrows) (hfree dir hdir) habove
    exact absurd (mem_wayNames_of_suffix hdir hsuffix) hname

/-- The place of the copy, once the directories above it are made, is where its path leads, and
    there is no directory. -/
theorem Fits.find_eq {front : List String} {last : String}
    (h : Fits t root localDir destination object) (hnames : grown.NamesDirectory here localDir root)
    (hreadies : Readies t grown here destination)
    (hsplit : wayNames object.relativePath = front ++ [last])
    (hdir : grown.get? (front.reverse ++ root) = some .directory) :
    grown.find here false destination =
        .ok (grown.targetAt (copyPlace root object.relativePath)) ∧
      grown.get? (copyPlace root object.relativePath) ≠ some .directory := by
  have hway : grown.HasWay root (wayNames object.relativePath) := by
    rw [hsplit]
    exact .concat hdir
  have hfind : grown.find here false destination =
      .ok (grown.targetAt (copyPlace root object.relativePath)) :=
    h.plain.find_eq hnames hway (Or.inl rfl)
  refine ⟨hfind, ?_⟩
  rcases hreadies with rfl | hnothing
  · exact h.not_directory
  · intro hentry
    rw [targetAt, hentry] at hfind
    exact hnothing _ _ _ hfind

/-- A file that was staged at a vacant place can be moved to a destination that leads to a place
    without a directory, and be given a time there. -/
theorem renameFile_of_staged {staged : FileTree} {staging : String} {origin : Location}
    {new : FileData} {updated : Instant} (hreadies : Readies t grown here destination)
    (hstale : IsStale t here destination updated) (hhere : grown.get? here = some .directory)
    (hfind : grown.find here false destination = .ok (grown.targetAt place))
    (hentry : grown.get? place ≠ some .directory)
    (hvacant : grown.find here false staging = .ok (.vacant origin))
    (hoff : SameOff origin grown staged) (hstaged : staged.get? origin = some (.file new)) :
    ∃ moved stamped, (Disk.renameFile here staging destination).run staged = (.ok (), moved) ∧
      (Disk.setModified here destination updated).run moved = (.ok (), stamped) := by
  have hnone : grown.get? origin = none := by
    obtain ⟨_, _, _, hleads⟩ := find_eq_ok_iff.1 hvacant
    exact hleads.get?_place (get?_wayStart hhere staging)
  have hsource := find_of_vacant hvacant hoff hstaged hhere (Or.inl rfl)
  have hdestination : staged.find here false destination = .ok (staged.targetAt place) :=
    find_of_sameOff hfind hentry hoff (not_isOpen_of_none hnone) (Or.inl rfl)
  have hentry' : staged.get? place ≠ some .directory := by
    by_cases heq : place = origin
    · simp [heq, hstaged]
    · rwa [hoff _ heq]
  obtain ⟨_, _, _, hleads⟩ := find_eq_ok_iff.1 hdestination
  obtain ⟨first, final, _, hlast, hfinal, _, _⟩ := hleads.last_step (by simpa using hentry')
  obtain ⟨moved, hrename⟩ :=
    Disk.renameFile_succeeds hsource (by simp) hdestination hentry' hlast hfinal
  obtain ⟨_, hlands⟩ :=
    lands_of_renameFile hreadies hstale hhere hvacant hoff hstaged hrename
  obtain ⟨stamped, hset, _⟩ := Disk.setModified_ok hlands.stat_eq updated
  exact ⟨moved, stamped, hrename, hset⟩

/-- A fetch succeeds if nothing is in the way and the download does. -/
theorem fetch_succeeds (hdelivers : storage.Delivers base dir steady listed bytes)
    (hobject : object ∈ listed) (hsteady : steady w.remote)
    (hready : IsReady here root localDir w.machine) (hlinks : w.machine.tree.HasNoLinks root)
    (hfits : Fits w.machine.tree root localDir destination object)
    (hstale : IsStale w.machine.tree here destination object.updated.toInstant)
    (htemporary : Disk.AreTemporary w.machine.temporaryNames)
    (hstage : CanStage here w.machine.temporaryNames destination)
    (hunused : ∃ name ∈ w.machine.temporaryNames, IsUnused w.machine.tree root name ∧
      name ∉ wayNames object.relativePath) :
    ∃ w', (fetch storage base dir object destination).run w = (.ok (), w') ∧
      steady w'.remote ∧ w'.machine.temporaryNames = w.machine.temporaryNames := by
  obtain ⟨rfl, hhere, hnames⟩ := hready
  obtain ⟨parent, hparent, known, hknown, husable⟩ := hstage
  obtain ⟨front, last, hsplit⟩ :=
    (wayNames object.relativePath).eq_nil_or_concat'.resolve_left hfits.plain.names_ne_nil
  obtain ⟨grown, hmake, hdir⟩ := hfits.makeDirectories hnames hhere hparent hsplit
  have hgrows : w.machine.tree.Grows (IsAbove grown w.machine.workDir destination) grown :=
    (Disk.makeWithAncestors_grows hhere hmake).imp fun _ hnames => ⟨parent, hparent, hnames⟩
  have hhere' := hgrows.keeps _ _ hhere
  have hreadies : Readies w.machine.tree grown w.machine.workDir destination :=
    (liesBelow_of_localPath hfits.path).makeDirectories_cases hnames hstale.1 hhere hparent hmake
  obtain ⟨name, hname, hfree, hnot⟩ := hunused
  have hvacant := hfits.get?_temporary hnames hhere hlinks hgrows hfree hnot
    (List.suffix_append front.reverse root)
  obtain ⟨staging, staged, htemp⟩ := Disk.makeTemporary_succeeds w.machine.now
    htemporary hdir hhere' (fun other hmem => htemporary.isUsable_join hknown hmem husable)
    ⟨name, hname, hvacant⟩
  obtain ⟨_, origin, _, _, hvoid, _, hoff, hstat⟩ := Disk.makeTemporary_ok htemp hhere'
  obtain ⟨w₁, modified, hdownload, hsteady₁, ⟨hwork, hwrites⟩, htemps, hwritten⟩ :=
    hdelivers.download (w := ⟨{ w.machine with tree := staged }, w.remote⟩) hobject hsteady hstat
  simp only at hwork hwrites htemps
  obtain ⟨hfind, hentry⟩ := hfits.find_eq (hnames.mono hgrows.keeps) hreadies hsplit
    (hdir.get?_eq hhere')
  obtain ⟨moved, stamped, hrename, hset⟩ := renameFile_of_staged hreadies hstale hhere' hfind
    hentry hvoid (hoff.trans hwrites) hwritten
  rw [← hwork] at hrename hset
  refine ⟨⟨{ w₁.machine with tree := stamped }, w₁.remote⟩, ?_, hsteady₁, htemps⟩
  simp only [fetch, hparent]
  refine Action.run_bind_eq_ok.2 ⟨(), _, Action.run_onDisk_eq_ok.2 ⟨grown, hmake, rfl⟩, ?_⟩
  rw [Action.run_bind, Action.run_machine]
  refine Action.run_bind_eq_ok.2 ⟨staging, _, Action.run_onDisk_eq_ok.2 ⟨staged, htemp, rfl⟩, ?_⟩
  refine Action.run_bind_eq_ok.2 ⟨(), w₁, orDiscard_eq_ok.2 hdownload, ?_⟩
  refine Action.run_bind_eq_ok.2 ⟨(), ⟨{ w₁.machine with tree := moved }, w₁.remote⟩, ?_, ?_⟩
  · exact orDiscard_eq_ok.2 (Action.run_onDisk_eq_ok.2 ⟨moved, hrename, rfl⟩)
  · exact Action.run_onDisk_eq_ok.2 ⟨stamped, hset, rfl⟩

end StepRunner.Sync
