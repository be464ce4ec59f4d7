import StepRunner.Proofs.Storage.Memory
import StepRunner.Proofs.Sync.Merge

namespace StepRunner.Sync

open FileTree

variable {σ τ : Type} {storage : Storage σ} {again : Storage τ}
  {base dir base' dir' localDir destination : String} {object : RemoteObject} {w w₁ w' : World σ}
  {report report' : SyncReport} {t t' : FileTree} {here root place : Location}
  {listed done rest : List RemoteObject} {bytes : RemoteObject → List UInt8} {steady : σ → Prop}
  {m m' : Machine}

/-- If nothing is in the way of a copy, it is current just if it is new enough. -/
theorem Fits.isCurrent_eq (h : Fits m.tree root localDir destination object)
    (hready : IsReady here root localDir m) (hlinks : m.tree.HasNoLinks root) :
    isCurrent m destination object = .ok (newEnough? m.tree root object).isSome := by
  rw [isCurrent, hready.workDir]
  cases hplace : m.tree.get? (copyPlace root object.relativePath) with
  | none =>
    have hmissing : m.tree.stat here destination = .error .notFound := by
      rw [stat_eq_notFound_iff]
      refine (h.plain.find_missing hready.names hready.isDirectory h.free hplace).imp_left ?_
      exact fun hvacant => ⟨_, hvacant⟩
    simp [hmissing, newEnough?, hplace]
  | some entry =>
    cases entry with
    | directory => exact absurd hplace h.not_directory
    | link text => exact absurd hplace (hlinks _ text (suffix_copyPlace root _))
    | file data =>
      rw [stat_of_isPlain h.plain hready.names hplace, newEnough?, hplace]
      by_cases hle : object.updated.toInstant ≤ data.modified <;> simp [hle]

/-- A name that no copy has on its way stays unused. -/
theorem Merged.isUnused {name : String} (h : Merged bytes t here root localDir done m)
    (hunused : IsUnused t root name) (hnot : ∀ object ∈ done, name ∉ wayNames object.relativePath) :
    IsUnused m.tree root name := by
  intro dir hdir
  rw [h.get?_eq fun object hmem hway => hnot object hmem (mem_wayNames_of_suffix hdir hway.2)]
  exact hunused dir hdir

/-- The names for temporary files, of which one is used neither in the local directory nor by the
    objects of a listing. -/
structure HasTemporary (t : FileTree) (root : Location) (listed : List RemoteObject)
    (names : List String) : Prop where
  areTemporary : Disk.AreTemporary names
  exists_unused : ∃ name ∈ names, IsUnused t root name ∧
    ∀ object ∈ listed, name ∉ wayNames object.relativePath

/-- After some objects another one is synced, if nothing is in its way and it is apart from them. -/
theorem Merged.object_succeeds (hdelivers : storage.Delivers base dir steady listed bytes)
    (hlinks : t.HasNoLinks root) (h : Merged bytes t here root localDir done w.machine)
    (hdone : ∀ other ∈ done, other ∈ listed) (hobject : object ∈ listed) (hsteady : steady w.remote)
    (hmergeable : IsMergeable t here w.machine.temporaryNames root localDir object)
    (hapart : ∀ other ∈ done, IsApart root other object)
    (htemporary : HasTemporary t root listed w.machine.temporaryNames) :
    ∃ report' w', (Sync.object storage base dir localDir report object).run w =
      (.ok report', w') := by
  obtain ⟨destination, hfits, hstage⟩ := hmergeable
  have hfits' := (h.fits_iff hapart).2 hfits
  have hnoLinks := h.hasNoLinks hlinks
  have hcurrent := hfits'.isCurrent_eq h.ready hnoLinks
  rw [h.newEnough?_eq hapart] at hcurrent
  cases hnew : newEnough? t root object with
  | some data =>
    rw [hnew] at hcurrent
    obtain ⟨log, hrun⟩ := object_of_current storage base dir report hfits.path hcurrent
    exact ⟨_, _, hrun⟩
  | none =>
    rw [hnew] at hcurrent
    obtain ⟨hnames, name, hmem, hunused, hnot⟩ := htemporary
    have hstale := isStale_of_isCurrent hcurrent hfits.plain.ne_empty
    rw [h.ready.workDir] at hstale
    obtain ⟨w₁, hfetch, _, _⟩ := fetch_succeeds hdelivers hobject hsteady h.ready hnoLinks hfits'
      hstale hnames (hstage hnew)
      ⟨name, hmem, h.isUnused hunused fun other hother => hnot other (hdone other hother),
        hnot object hobject⟩
    obtain ⟨log, hrun⟩ := object_of_fetch report hfits.path hcurrent hfetch
    exact ⟨_, _, hrun⟩

/-- What is true after each object that was synced: those so far are merged and reported, nothing was
    in their way, and they are apart. -/
structure MergedInTurn (bytes : RemoteObject → List UInt8) (steady : σ → Prop) (names : List String)
    (t : FileTree) (here root : Location) (localDir : String) (done : List RemoteObject)
    (report : SyncReport) (w : World σ) : Prop where
  merged : Merged bytes t here root localDir done w.machine
  report_eq : report = mergeReport t root done
  holds : steady w.remote
  names_eq : w.machine.temporaryNames = names
  mergeable : ∀ object ∈ done, IsMergeable t here names root localDir object
  apart : done.Pairwise (IsApart root)

theorem MergedInTurn.step {names : List String}
    (hdelivers : storage.Delivers base dir steady listed bytes) (hlinks : t.HasNoLinks root)
    (h : MergedInTurn bytes steady names t here root localDir done report w)
    (hobject : object ∈ listed)
    (hdistinct : ∀ other ∈ done,
      Path.components other.relativePath ≠ Path.components object.relativePath)
    (hrun : (Sync.object storage base dir localDir report object).run w = (.ok report', w')) :
    MergedInTurn bytes steady names t here root localDir (done ++ [object]) report' w' := by
  obtain ⟨hmerged, rfl, hsteady, rfl, hmergeable, hapart⟩ := h
  obtain ⟨destination, hpath, _⟩ := object_ok hrun
  have hplaces : ∀ other ∈ done,
      copyPlace root other.relativePath ≠ copyPlace root object.relativePath := by
    intro other hmem hsame
    obtain ⟨_, hfits, _⟩ := hmergeable other hmem
    exact hdistinct other hmem ((copyPlace_inj (localPath_eq_ok_iff.1 hfits.path).2.1
      (localPath_eq_ok_iff.1 hpath).2.1).1 hsame)
  obtain ⟨hmerged', hreport, hsteady', hnames, hobject', hapart'⟩ :=
    hmerged.step hdelivers hlinks hobject hsteady hplaces hrun
  refine ⟨hmerged', hreport, hsteady', hnames, fun other hmem => ?_, ?_⟩
  · rcases List.mem_append.1 hmem with hdone | hlast
    · exact hmergeable other hdone
    · rwa [List.mem_singleton.1 hlast]
  · refine List.pairwise_append.2 ⟨hapart, List.pairwise_singleton _ _, ?_⟩
    intro other hmem last hlast
    rw [List.mem_singleton.1 hlast]
    exact hapart' other hmem

/-- Objects that were synced were merged. -/
theorem mergedInTurn_of_objects (hdelivers : storage.Delivers base dir steady listed bytes)
    (hlinks : t.HasNoLinks root) (hmerged : Merged bytes t here root localDir [] w.machine)
    (hsteady : steady w.remote)
    (hdistinct : listed.Pairwise fun first second =>
      Path.components first.relativePath ≠ Path.components second.relativePath)
    (hrun : (objects storage base dir localDir ⟨[], []⟩ listed).run w = (.ok report, w')) :
    MergedInTurn bytes steady w.machine.temporaryNames t here root localDir listed report w' := by
  refine objects_ok
    (MergedInTurn bytes steady w.machine.temporaryNames t here root localDir)
    (fun hsplit hinv hobject => ?_) hrun (List.nil_append _).symm
    ⟨hmerged, rfl, hsteady, rfl, by simp, .nil⟩
  apply hinv.step hdelivers hlinks (by simp [hsplit]) ?_ hobject
  intro other hmem
  rw [hsplit] at hdistinct
  exact (List.pairwise_append.1 hdistinct).2.2 other hmem _ List.mem_cons_self

/-- Objects that are apart are synced in any order, if nothing is in their way. -/
theorem Merged.objects_succeed (hdelivers : storage.Delivers base dir steady listed bytes)
    (hlinks : t.HasNoLinks root) (h : Merged bytes t here root localDir done w.machine)
    (hlisted : ∀ object ∈ done ++ rest, object ∈ listed) (hsteady : steady w.remote)
    (hmergeable : ∀ object ∈ rest, IsMergeable t here w.machine.temporaryNames root localDir object)
    (hapart : (done ++ rest).Pairwise (IsApart root))
    (htemporary : HasTemporary t root listed w.machine.temporaryNames) :
    ∃ w', (objects storage base dir localDir (mergeReport t root done) rest).run w =
        (.ok (mergeReport t root (done ++ rest)), w') ∧
      Merged bytes t here root localDir (done ++ rest) w'.machine := by
  induction rest generalizing done w with
  | nil => exact ⟨w, by rw [List.append_nil]; rfl, by rwa [List.append_nil]⟩
  | cons first rest ih =>
    have hfirst : ∀ other ∈ done, IsApart root other first := fun other hmem =>
      (List.pairwise_append.1 hapart).2.2 other hmem first List.mem_cons_self
    obtain ⟨report', w₁, hobject⟩ := h.object_succeeds hdelivers hlinks
      (fun other hmem => hlisted other (List.mem_append_left _ hmem)) (hlisted first (by simp)) hsteady
      (hmergeable first List.mem_cons_self) hfirst htemporary
    have hplaces : ∀ other ∈ done,
        copyPlace root other.relativePath ≠ copyPlace root first.relativePath :=
      fun other hmem hsame => (hfirst other hmem).1 (hsame ▸ List.suffix_rfl)
    obtain ⟨h', rfl, hsteady', hnames, _, _⟩ :=
      h.step hdelivers hlinks (hlisted first (by simp)) hsteady hplaces hobject
    rw [← hnames] at hmergeable htemporary
    rw [← List.singleton_append, ← List.append_assoc] at hlisted hapart ⊢
    obtain ⟨w', hrest, hmerged⟩ := ih h' hlisted hsteady'
      (fun other hmem => hmergeable other (List.mem_cons_of_mem _ hmem)) hapart htemporary
    refine ⟨w', ?_, hmerged⟩
    rw [List.singleton_append, objects_cons]
    exact Action.run_bind_eq_ok.2 ⟨_, w₁, hobject, hrest⟩

/-- A storage that delivers lists what it does as soon as the local directory can be made. -/
theorem listing_of_delivers {tree : FileTree}
    (hdelivers : storage.Delivers base dir steady listed bytes) (hsteady : steady w.remote)
    (hmake : (Disk.makeDirectories w.machine.workDir localDir).run w.machine.tree =
      (.ok (), tree)) :
    ∃ w₁, (listing storage base dir localDir).run w = (.ok listed, w₁) ∧ steady w₁.remote ∧
      tree.Same w₁.machine.tree ∧ w₁.machine.workDir = w.machine.workDir ∧
      w₁.machine.temporaryNames = w.machine.temporaryNames := by
  have hlist (log : List Log.Event) :=
    hdelivers.list (w := ⟨{ w.machine with tree, log }, w.remote⟩) hsteady
  obtain ⟨w₁, hlisting⟩ := listing_of_list hmake fun log => (hlist log).imp fun _ h => h.1
  obtain ⟨log, tree', hmake', hrun⟩ := listing_ok hlisting
  rw [hmake] at hmake'
  cases hmake'
  obtain ⟨_, hrun', hsteady₁, ⟨hwork, hsame⟩, hnames⟩ := hlist log
  rw [hrun] at hrun'
  cases hrun'
  exact ⟨w₁, hlisting, hsteady₁, hsame, hwork, hnames⟩

/-- A temporary name that is used nowhere after a merge is one that can be used meanwhile. -/
theorem Merged.exists_unused {names : List String}
    (h : Merged bytes t here root localDir listed m)
    (hunused : ∃ name ∈ names, IsUnused m.tree root name) :
    ∃ name ∈ names, IsUnused t root name ∧
      ∀ object ∈ listed, name ∉ wayNames object.relativePath := by
  obtain ⟨name, hmem, hfree⟩ := hunused
  refine ⟨name, hmem, fun dir hdir => ?_, fun object hobject hname => ?_⟩
  · by_contra hplace
    exact h.get?_ne_none hplace (hfree dir hdir)
  · obtain ⟨front, back, hsplit⟩ := List.append_of_mem hname
    have hfile := h.copies object hobject
    have hnone := hfree (front.reverse ++ root) (List.suffix_append _ _)
    rw [copyPlace, hsplit, List.reverse_append, List.reverse_cons, List.append_assoc,
      List.append_assoc, List.singleton_append] at hfile
    have hsome : m.tree.get? (back.reverse ++ name :: (front.reverse ++ root)) ≠ none := by
      simp [hfile]
    by_cases hback : back = []
    · subst hback
      exact hsome hnone
    · rw [get?_above hsome (by simpa using hback)] at hnone
      cases hnone

theorem newEnough?_of_grows {allowed : Location → Prop} (h : t.Grows allowed t') :
    newEnough? t' root = newEnough? t root := by
  funext object
  exact newEnough?_congr fun data => ⟨h.get?_eq (by simp), h.keeps _ _⟩

/-- Objects of a sync that succeeded were merged with the files that were there once the local
    directory was made. -/
theorem mergedInTurn_of_directory (hdelivers : storage.Delivers base dir steady listed bytes)
    (hsteady : steady w.remote)
    (hwork : w.machine.tree.get? w.machine.workDir = some .directory)
    (hrun : (directory storage base dir localDir).run w = (.ok report, w'))
    (hroot : w'.machine.tree.NamesDirectory w.machine.workDir localDir root)
    (hlinks : w.machine.tree.HasNoLinks root)
    (hdistinct : listed.Pairwise fun first second =>
      Path.components first.relativePath ≠ Path.components second.relativePath) :
    ∃ made, (Disk.makeDirectories w.machine.workDir localDir).run w.machine.tree = (.ok (), made) ∧
      w.machine.tree.Grows (IsOnWay w'.machine.tree w.machine.workDir localDir) made ∧
      made.NamesDirectory w.machine.workDir localDir root ∧
      MergedInTurn bytes steady w.machine.temporaryNames made w.machine.workDir root localDir listed
        report w' := by
  obtain ⟨listed', w₁, w₂, log, hlisting, hobjects, rfl⟩ := directory_ok hrun
  obtain ⟨_, made, hmake, _⟩ := listing_ok hlisting
  obtain ⟨_, hlisting', hsteady₁, hsame, hwork₁, hnames₁⟩ :=
    listing_of_delivers hdelivers hsteady hmake
  rw [hlisting] at hlisting'
  cases hlisting'
  have hgrows := Disk.makeWithAncestors_grows hwork hmake
  obtain ⟨root', hnames⟩ := Disk.namesDirectory_of_makeWithAncestors hwork hmake
  have hready : IsReady w.machine.workDir root' localDir w₁.machine :=
    ⟨hwork₁, hsame.keeps _ _ (hgrows.keeps _ _ hwork), hnames.mono hsame.keeps⟩
  have hstays {path : String} {place : Location}
      (h : made.NamesDirectory w.machine.workDir path place) :
      w₂.machine.tree.NamesDirectory w.machine.workDir path place :=
    objects_namesDirectory hdelivers.writesOnlyGiven hready (h.mono hsame.keeps) hobjects
  obtain rfl : root' = root := (hstays hnames).unique hroot
  have hnone : Merged bytes made w.machine.workDir root' localDir [] w₁.machine :=
    ⟨hready, by simp, fun place _ => Or.inl (hsame place)⟩
  have hmerged := mergedInTurn_of_objects hdelivers (hlinks.of_grows hgrows) hnone hsteady₁ hdistinct
    hobjects
  rw [hnames₁] at hmerged
  refine ⟨made, hmake, hgrows.imp fun place ⟨above, hmem, habove⟩ => ⟨above, hmem, hstays habove⟩,
    hnames, { hmerged with merged := { hmerged.merged with ready := ?_ } }⟩
  exact hmerged.merged.ready.of_sameFiles ⟨rfl, .refl _⟩

/-- Objects that were merged in turn are merged in any other order on a machine with the same
    files. -/
theorem MergedInTurn.directory_succeeds {made : FileTree} {names : List String}
    {steady' : τ → Prop} {permuted : List RemoteObject} {w₂ : World τ}
    (h : MergedInTurn bytes steady names made here root localDir listed report w)
    (hhere : made.get? here = some .directory) (hnames : made.NamesDirectory here localDir root)
    (hlinks : made.HasNoLinks root) (hunused : ∃ name ∈ names, IsUnused w.machine.tree root name)
    (htemporary : Disk.AreTemporary names) (hperm : permuted.Perm listed)
    (hagain : again.Delivers base' dir' steady' permuted bytes) (hsteady : steady' w₂.remote)
    (hmake : (Disk.makeDirectories w₂.machine.workDir localDir).run w₂.machine.tree =
      (.ok (), made))
    (hwork : w₂.machine.workDir = here) (hsameNames : w₂.machine.temporaryNames = names) :
    ∃ w₃, (directory again base' dir' localDir).run w₂ = (.ok (mergeReport made root permuted), w₃) ∧
      w.machine.tree.Same w₃.machine.tree := by
  obtain ⟨w₃, hlisting, hsteady₃, hsame, hwork₃, hnames₃⟩ :=
    listing_of_delivers hagain hsteady hmake
  have hnone : Merged bytes made here root localDir [] w₃.machine :=
    ⟨⟨hwork₃.trans hwork, hsame.keeps _ _ hhere, hnames.mono hsame.keeps⟩, by simp,
      fun place _ => Or.inl (hsame place)⟩
  obtain rfl : w₃.machine.temporaryNames = names := hnames₃.trans hsameNames
  obtain ⟨name, hmem, hfree, hnot⟩ := h.merged.exists_unused hunused
  have hfreeName : HasTemporary made root permuted w₃.machine.temporaryNames :=
    ⟨htemporary, name, hmem, hfree, fun object hobject => hnot object (hperm.mem_iff.1 hobject)⟩
  obtain ⟨w₄, hobjects, hmerged⟩ := hnone.objects_succeed hagain hlinks (by simp) hsteady₃
    (fun object hobject => h.mergeable object (hperm.mem_iff.1 hobject))
    (hperm.symm.pairwise h.apart fun hapart => hapart.symm) hfreeName
  obtain ⟨log, hdirectory⟩ := directory_of_listing hlisting hobjects
  have hsame₄ : w.machine.tree.Same w₄.machine.tree := h.merged.same_of_perm hmerged hperm.symm
  exact ⟨_, hdirectory, hsame₄⟩

/-- A sync is a merge in which the newer one wins, whatever the order of the listing. If there are no
    links below the local directory, and the storage delivers what it lists, which are objects with
    different copies, then a sync that succeeds leaves each copy as the merge has it and makes some
    directories on the way to them; it reports, in the order of the listing, which objects it
    downloaded, each of them once, and which it did not need to. A sync of the same objects in any
    other order succeeds as well, on the same files, and leaves the same ones. -/
theorem directory_merges {steady' : τ → Prop}
    (hdelivers : storage.Delivers base dir steady listed bytes) (hsteady : steady w.remote)
    (hwork : w.machine.tree.get? w.machine.workDir = some .directory)
    (hrun : (directory storage base dir localDir).run w = (.ok report, w'))
    (hroot : w'.machine.tree.NamesDirectory w.machine.workDir localDir root)
    (hlinks : w.machine.tree.HasNoLinks root)
    (hdistinct : listed.Pairwise fun first second =>
      Path.components first.relativePath ≠ Path.components second.relativePath) :
    (∀ object ∈ listed, ∃ destination, localPath localDir object.relativePath = .ok destination ∧
      w'.machine.tree.stat w.machine.workDir destination =
        .ok (copyPlace root object.relativePath, .file (merged bytes w.machine.tree root object))) ∧
    (∀ place, (∀ object ∈ listed, place ≠ copyPlace root object.relativePath) →
      w'.machine.tree.get? place = w.machine.tree.get? place ∨
        (w.machine.tree.get? place = none ∧ w'.machine.tree.get? place = some .directory ∧
          (IsOnWay w'.machine.tree w.machine.workDir localDir place ∨
            ∃ object ∈ listed, IsOnWayTo root object place))) ∧
    report = mergeReport w.machine.tree root listed ∧
    (∃ calls, (directory storage.recording base dir localDir).run (recorded w []) =
      (.ok report, recorded w' calls) ∧ calls.map (·.relativePath) = report.downloaded) ∧
    ∀ (permuted : List RemoteObject) (w₂ : World τ), permuted.Perm listed →
      again.Delivers base' dir' steady' permuted bytes → steady' w₂.remote →
      w₂.machine.tree = w.machine.tree → w₂.machine.workDir = w.machine.workDir →
      w₂.machine.temporaryNames = w.machine.temporaryNames →
      Disk.AreTemporary w.machine.temporaryNames →
      (∃ name ∈ w.machine.temporaryNames, IsUnused w'.machine.tree root name) →
      ∃ w₃, (directory again base' dir' localDir).run w₂ =
          (.ok (mergeReport w.machine.tree root permuted), w₃) ∧
        w'.machine.tree.Same w₃.machine.tree := by
  obtain ⟨made, hmake, hgrows, hnames, hturn⟩ :=
    mergedInTurn_of_directory hdelivers hsteady hwork hrun hroot hlinks hdistinct
  have hnewEnough : newEnough? made root = newEnough? w.machine.tree root :=
    newEnough?_of_grows hgrows
  have hreport (objects : List RemoteObject) :
      mergeReport made root objects = mergeReport w.machine.tree root objects := by
    rw [mergeReport, hnewEnough, mergeReport]
  refine ⟨fun object hmem => ?_, fun place hne => ?_, hturn.report_eq.trans (hreport listed),
    directory_recording hrun, ?_⟩
  · obtain ⟨destination, hfits, _⟩ := hturn.mergeable object hmem
    have hfile := hturn.merged.copies object hmem
    rw [merged, hnewEnough] at hfile
    exact ⟨destination, hfits.path, stat_of_isPlain hfits.plain hturn.merged.ready.names hfile⟩
  · rcases hgrows place with hsame | ⟨hnone, hnew, hon⟩
    · rw [← hsame]
      rcases hturn.merged.others place hne with hsame' | ⟨hnone, hdir, hon⟩
      · exact Or.inl hsame'
      · exact Or.inr ⟨hnone, hdir, Or.inr hon⟩
    · rcases hturn.merged.others place hne with hsame | ⟨hnone', _⟩
      · exact Or.inr ⟨hnone, hsame.trans hnew, Or.inl hon⟩
      · rw [hnew] at hnone'
        cases hnone'
  · intro permuted w₂ hperm hagain hsteady₂ htree hdir hnames₂ htemporary hunused
    rw [← htree, ← hdir] at hmake
    rw [← hreport]
    exact hturn.directory_succeeds (hgrows.keeps _ _ hwork) hnames (hlinks.of_grows hgrows) hunused
      htemporary hperm hagain hsteady₂ hmake hdir hnames₂

/-- The storage with its listings in the opposite order. -/
def backwards (storage : Storage σ) : Storage σ :=
  { storage with list := fun base dir => return (← storage.list base dir).reverse }

theorem backwards_delivers (h : storage.Delivers base dir steady listed bytes) :
    (backwards storage).Delivers base dir steady listed.reverse bytes where
  writesOnlyGiven :=
    { list := by
        intro base dir objects w w' run
        obtain ⟨_, _, hlist, h'⟩ := Action.run_bind_eq_ok.1 run
        cases h'
        exact h.writesOnlyGiven.list hlist
      download := h.writesOnlyGiven.download }
  list := by
    intro w holds
    obtain ⟨w', hlist, hrest⟩ := h.list holds
    exact ⟨w', Action.run_bind_eq_ok.2 ⟨listed, w', hlist, rfl⟩, hrest⟩
  download hmem := h.download (List.mem_reverse.1 hmem)

/-- A world in which one copy of three is there and new enough. -/
def mixed : World ObjectStore :=
  ObjectStore.trial
    ((FileTree.empty.put ["x"] .directory).put ["a", "x"]
      (.file ⟨[7], (ObjectStore.atSecond 3).toInstant, false⟩))
    [("gs://b/d/a", ⟨[1], ObjectStore.atSecond 1⟩), ("gs://b/d/b/c", ⟨[2], ObjectStore.atSecond 1⟩),
      ("gs://b/d/e", ⟨[3], ObjectStore.atSecond 2⟩)]

/-- One copy is new enough and two are downloaded, in either order. -/
theorem directory_merges_backwards : ∃ w' w₃ : World ObjectStore,
    (directory ObjectStore.storage "gs://b" "d" "x").run mixed = (.ok ⟨["b/c", "e"], ["a"]⟩, w') ∧
    (directory (backwards ObjectStore.storage) "gs://b" "d" "x").run mixed =
      (.ok ⟨["e", "b/c"], ["a"]⟩, w₃) ∧ w'.machine.tree.Same w₃.machine.tree := by
  obtain ⟨w', hrun, hstat, hnames⟩ : ∃ w',
      (directory ObjectStore.storage "gs://b" "d" "x").run mixed = (.ok ⟨["b/c", "e"], ["a"]⟩, w') ∧
      w'.machine.tree.stat [] "x" = .ok (["x"], .directory) ∧
      ∀ listed ∈ w'.machine.tree.entries, listed.1.head? ≠ some ".tmp" :=
    Action.exists_run (by decide +kernel) (by decide +kernel)
  have hdelivers := @ObjectStore.storage_delivers "gs://b" "d" mixed.remote
    (fun object => (mixed.remote.fetch "gs://b" "d" object).toOption.getD []) (by decide +kernel)
  have hlinks : mixed.machine.tree.HasNoLinks ["x"] := by
    intro place text _ hlink
    change ((FileTree.empty.put ["x"] .directory).put ["a", "x"] (.file _)).get? place = _ at hlink
    rw [get?_put (by decide), get?_put (by decide)] at hlink
    split at hlink
    · cases hlink
    split at hlink
    · cases hlink
    · cases place <;> cases hlink
  have htemporary : Disk.AreTemporary mixed.machine.temporaryNames := by
    refine ⟨by decide, fun name hmem => ?_, by decide⟩
    rw [List.mem_singleton.1 hmem]
    exact ⟨by decide, by decide, by decide⟩
  have hunused : IsUnused w'.machine.tree ["x"] ".tmp" := by
    intro dir _
    rw [get?_cons, List.lookup_eq_none_iff]
    intro listed hmem
    rw [bne_iff_ne]
    intro heq
    exact hnames listed hmem (heq ▸ rfl)
  obtain ⟨_, _, _, _, hagain⟩ := directory_merges hdelivers ⟨rfl, rfl⟩ rfl hrun
    ((stat_eq_directory_iff (by decide)).1 hstat) hlinks (by decide +kernel)
  obtain ⟨w₃, hbackwards, hsame⟩ := hagain _ mixed (List.reverse_perm _)
    (backwards_delivers hdelivers) ⟨rfl, rfl⟩ rfl rfl rfl htemporary
    ⟨".tmp", List.mem_singleton.2 rfl, hunused⟩
  have hreport : mergeReport mixed.machine.tree ["x"] (mixed.remote.below "gs://b" "d").reverse =
      ⟨["e", "b/c"], ["a"]⟩ := by decide +kernel
  rw [hreport] at hbackwards
  exact ⟨w', w₃, hrun, hbackwards, hsame⟩

end StepRunner.Sync
