import StepRunner.Proofs.Step.PlaybackDirs
import StepRunner.Proofs.Step.Prune
import StepRunner.Proofs.Sync.Merge
import StepRunner.Step.DownloadSkps

namespace StepRunner

open FileTree Sync

namespace FileTree

variable {t t' : FileTree} {here dir : Location} {path : String}

theorem hasPath_iff : t.hasPath here path = true ↔
    ∃ place entry, t.find here true path = .ok (.entry place entry) := by
  rw [hasPath]
  cases hstat : t.stat here path with
  | error e => simp [Except.isOk, Except.toBool, ← stat_eq_ok_iff, hstat]
  | ok found =>
    obtain ⟨place, entry⟩ := found
    simp [Except.isOk, Except.toBool, ← stat_eq_ok_iff, hstat]

theorem NamesDirectory.hasPath (h : t.NamesDirectory here path dir) (hne : path ≠ "") :
    t.hasPath here path = true :=
  hasPath_iff.2 ⟨dir, .directory, stat_eq_ok_iff.1 ((stat_eq_directory_iff hne).2 h)⟩

/-- What is found without links at its place or below is a directory or a file. -/
theorem HasNoLinks.directory_or_file {root place : Location} {entry : Entry}
    (hlinks : t.HasNoLinks root) (hbelow : root <:+ place)
    (hfind : t.find here true path = .ok (.entry place entry)) :
    entry = .directory ∨ ∃ data, entry = .file data := by
  cases entry with
  | directory => exact Or.inl rfl
  | file data => exact Or.inr ⟨data, rfl⟩
  | link text =>
    obtain ⟨_, _, _, hleads⟩ := find_eq_ok_iff.1 hfind
    exact absurd (hleads.get?_eq (by simp)) (hlinks place text hbelow)

end FileTree

/-- Below a directory nothing is left but directories and what is kept for its name. Of these, all
    that was there is left as it was. -/
structure IsEmptied (t t' : FileTree) (top : Location) : Prop where
  left {place : Location} {entry : Entry} (below : isBelow top place = true)
    (found : t'.get? place = some entry) :
    entry = .directory ∨ (Prune.isKept place = true ∧ t.get? place = some entry)
  stays {place : Location} {entry : Entry} (below : isBelow top place = true)
    (found : t.get? place = some entry) (kept : entry = .directory ∨ Prune.isKept place = true) :
    t'.get? place = some entry

namespace IsEmptied

variable {t t' : FileTree} {top place : Location}

/-- Nothing that is left in an emptied directory has to go. -/
theorem not_hasToGo {here : Location} {dir : String} (h : IsEmptied t t' top) :
    ¬Prune.HasToGo t' here dir top place := by
  intro hgoes
  obtain ⟨_, _, hkept⟩ := Prune.hasToGo_iff.1 hgoes
  obtain ⟨entry, hentry⟩ := hgoes.exists_entry
  rcases h.left hgoes.isBelow_eq hentry with rfl | ⟨hkept', _⟩
  · exact hgoes.not_directory hentry
  · rw [hkept] at hkept'
    cases hkept'

/-- A directory in which nothing lies is emptied, if nothing else is missing. -/
theorem of_bare (hkeeps : t.Keeps t')
    (hnone : ∀ place, isBelow top place = true → t'.get? place = none) : IsEmptied t t' top where
  left below found := by
    rw [hnone _ below] at found
    cases found
  stays below found _ := by
    have hkept := hkeeps _ _ found
    rw [hnone _ below] at hkept
    cases hkept

end IsEmptied

namespace LocalPlaybackDirs

variable {dirs : LocalPlaybackDirs} {t t' t'' : FileTree} {here root place : Location}

/-- The places of the directories for pictures and for images and of those above them, which are
    made when they are missing. -/
def IsOnWay (dirs : LocalPlaybackDirs) (t : FileTree) (here place : Location) : Prop :=
  Sync.IsOnWay t here dirs.skp place ∨ Sync.IsOnWay t here dirs.gmActual place

/-- Where the playback directories lie: their root leads there, once directories are made that are
    missing on the way to the pictures. -/
def LiesIn (dirs : LocalPlaybackDirs) (t : FileTree) (here root : Location) : Prop :=
  ∃ grown, t.Grows (Sync.IsOnWay grown here dirs.skp) grown ∧
    grown.NamesDirectory here dirs.root root

theorem isOnWay_of_names (h : ∀ path dir, t.NamesDirectory here path dir →
    t'.NamesDirectory here path dir) (hway : dirs.IsOnWay t here place) :
    dirs.IsOnWay t' here place := by
  rcases hway with ⟨above, hmem, hnames⟩ | ⟨above, hmem, hnames⟩
  · exact Or.inl ⟨above, hmem, h above place hnames⟩
  · exact Or.inr ⟨above, hmem, h above place hnames⟩

/-- What has become of a tree `t`, whose playback directories lie in `root`, when they are prepared
    and later: no picture was removed, the directory for images is emptied or a file that is left
    alone, and nothing else has changed but for missing directories on the way. -/
structure Tidied (dirs : LocalPlaybackDirs) (here root : Location) (t t' : FileTree) : Prop where
  names : t'.NamesDirectory here dirs.root root
  noLinks : t'.HasNoLinks root
  pictures {place : Location} {data : FileData} (below : skpPlace root <:+ place)
    (found : t.get? place = some (.file data)) : ∃ new, t'.get? place = some (.file new)
  images : (∃ data, t.get? (dirs.gmPlace root) = some (.file data) ∧
      t'.stat here dirs.gmActual = .ok (dirs.gmPlace root, .file data)) ∨
    (t'.NamesDirectory here dirs.gmActual (dirs.gmPlace root) ∧
      IsEmptied t t' (dirs.gmPlace root) ∧
      Prune.IsReadable t' dirs.gmActual (dirs.gmPlace root))
  others {place : Location} (notPicture : ¬skpPlace root <:+ place)
    (notImage : isBelow (dirs.gmPlace root) place = false) :
    t'.get? place = t.get? place ∨
      (t.get? place = none ∧ t'.get? place = some .directory ∧ dirs.IsOnWay t' here place)

theorem not_suffix_of_isBelow (h : isBelow (dirs.gmPlace root) place = true) :
    ¬skpPlace root <:+ place := by
  obtain ⟨inner, _, rfl⟩ := isBelow_iff.1 h
  exact fun hskp => not_suffix_of_skpPlace hskp (List.suffix_append _ _)

theorem isBelow_eq_false (h : skpPlace root <:+ place) :
    isBelow (dirs.gmPlace root) place = false := by
  rw [Bool.eq_false_iff]
  exact fun hbelow => not_suffix_of_isBelow hbelow h

theorem root_suffix_gmPlace (dirs : LocalPlaybackDirs) (root : Location) :
    root <:+ dirs.gmPlace root :=
  List.suffix_append _ _

/-- What changes pictures alone keeps the rest tidy. -/
theorem Tidied.change (hsubdir : dirs.HasNamedSubdir) (h : dirs.Tidied here root t t')
    (hnames : ∀ path dir, t'.NamesDirectory here path dir → t''.NamesDirectory here path dir)
    (hlinks : t''.HasNoLinks root)
    (hfiles : ∀ place data, t'.get? place = some (.file data) →
      ∃ new, t''.get? place = some (.file new))
    (hothers : ∀ place, ¬skpPlace root <:+ place → t''.get? place = t'.get? place) :
    dirs.Tidied here root t t'' where
  names := hnames _ _ h.names
  noLinks := hlinks
  pictures := by
    intro place data below found
    obtain ⟨new, hnew⟩ := h.pictures below found
    exact hfiles place new hnew
  images := by
    rcases h.images with ⟨data, hold, hstat⟩ | ⟨hdir, hemptied, hreads⟩
    · have hplain := (liesBelow_gmActual hsubdir).isPlain h.names h.noLinks hstat
      have hplace : ¬skpPlace root <:+ dirs.gmPlace root := fun hskp =>
        not_suffix_of_skpPlace hskp List.suffix_rfl
      have hfile := Disk.get?_of_stat hstat
      exact Or.inl ⟨data, hold,
        stat_of_isPlain hplain (hnames _ _ h.names) ((hothers _ hplace).trans hfile)⟩
    · have hsame {place : Location} (below : isBelow (dirs.gmPlace root) place = true) :
          t''.get? place = t'.get? place := hothers place (not_suffix_of_isBelow below)
      refine Or.inr ⟨hnames _ _ hdir, ⟨fun below found => ?_, fun below found kept => ?_⟩, ?_⟩
      · exact hemptied.left below ((hsame below).symm.trans found)
      · exact (hsame below).trans (hemptied.stays below found kept)
      · exact fun place below found => hreads place below ((hsame below).symm.trans found)
  others := by
    intro place notPicture notImage
    rw [hothers place notPicture]
    refine (h.others notPicture notImage).imp_right fun ⟨hnone, hnew, hway⟩ => ?_
    exact ⟨hnone, hnew, isOnWay_of_names hnames hway⟩

theorem Tidied.of_same (hsubdir : dirs.HasNamedSubdir) (h : dirs.Tidied here root t t')
    (hsame : t'.Same t'') : dirs.Tidied here root t t'' := by
  refine h.change hsubdir (fun _ _ hnames => hnames.mono hsame.keeps) ?_
    (fun place data hfile => ⟨data, hsame.keeps _ _ hfile⟩) fun place _ => hsame place
  exact fun place text below hlink => h.noLinks place text below (hsame.symm.keeps _ _ hlink)

/-- Making directories on the way is tidy if the directory for images is. -/
theorem tidied_of_grows (hlinks : t.HasNoLinks root)
    (hgrows : t.Grows (dirs.IsOnWay t' here) t') (hroot : t'.NamesDirectory here dirs.root root)
    (himages : (∃ data, t'.stat here dirs.gmActual = .ok (dirs.gmPlace root, .file data)) ∨
      (t'.NamesDirectory here dirs.gmActual (dirs.gmPlace root) ∧
        IsEmptied t t' (dirs.gmPlace root) ∧
        Prune.IsReadable t' dirs.gmActual (dirs.gmPlace root))) :
    dirs.Tidied here root t t' where
  names := hroot
  noLinks := hlinks.of_grows hgrows
  pictures := fun {_ data} _ found => ⟨data, hgrows.keeps _ _ found⟩
  images := by
    refine himages.imp_left fun ⟨data, hstat⟩ => ⟨data, ?_, hstat⟩
    exact hgrows.get?_eq (by simp) (Disk.get?_of_stat hstat)
  others := fun {place} _ _ => hgrows place

variable {grown : FileTree} {entry : Entry}

/-- Where the way to the pictures is made, a file at the path for images is tidy as it is. -/
theorem tidied_of_file (hsubdir : dirs.HasNamedSubdir) (hlinks : t.HasNoLinks root)
    (hgrows : t.Grows (Sync.IsOnWay grown here dirs.skp) grown)
    (hroot : grown.NamesDirectory here dirs.root root)
    (hfind : grown.find here true dirs.gmActual = .ok (.entry place entry))
    (hentry : entry ≠ .directory) : dirs.Tidied here root t grown := by
  have hnoLinks := hlinks.of_grows hgrows
  obtain rfl : place = dirs.gmPlace root :=
    (liesBelow_gmActual hsubdir).place_eq hroot hnoLinks hfind
  obtain ⟨data, rfl⟩ :=
    (hnoLinks.directory_or_file (root_suffix_gmPlace _ root) hfind).resolve_left hentry
  exact tidied_of_grows hlinks (hgrows.imp fun _ => Or.inl) hroot
    (Or.inl ⟨data, stat_eq_ok_iff.2 hfind⟩)

/-- Making the directory for images, where it is missing, is tidy. -/
theorem tidied_of_makeDirectories (hsubdir : dirs.HasNamedSubdir)
    (hhere : grown.get? here = some .directory) (hlinks : t.HasNoLinks root)
    (hgrows : t.Grows (Sync.IsOnWay grown here dirs.skp) grown)
    (hroot : grown.NamesDirectory here dirs.root root)
    (hgm : grown.hasPath here dirs.gmActual = false)
    (hmake : (Disk.makeDirectories here dirs.gmActual).run grown = (.ok (), t')) :
    dirs.Tidied here root t t' := by
  have hbelow := liesBelow_gmActual hsubdir
  have hgrows' := Disk.makeWithAncestors_grows hhere hmake
  obtain ⟨top, hnames⟩ := Disk.namesDirectory_of_makeWithAncestors hhere hmake
  have hroot' := hroot.mono hgrows'.keeps
  have hfind := stat_eq_ok_iff.1 ((stat_eq_directory_iff hbelow.ne_empty).2 hnames)
  have hnoLinks := (hlinks.of_grows hgrows).of_grows hgrows'
  obtain rfl : top = dirs.gmPlace root := hbelow.place_eq hroot' hnoLinks hfind
  -- The directory is new, so that nothing lies in it.
  have hclimbs := Disk.climbs_ancestry hroot (Or.inr (find_eq_ok_iff.1 hfind).1) hbelow.isRooted_iff
    hbelow.wayNames_eq hbelow.not_mem (Nat.lt_succ_self _)
  have hnone : ∀ place, isBelow (dirs.gmPlace root) place = true → t'.get? place = none := by
    rcases hclimbs.bare hhere hmake with rfl | hbare
    · rw [hnames.hasPath hbelow.ne_empty] at hgm
      cases hgm
    · exact fun place => get?_eq_none_of_bare (hbare _ hnames)
  refine tidied_of_grows hlinks (Grows.trans (hgrows.imp ?_) (hgrows'.imp fun _ => Or.inr))
    hroot' (Or.inr ⟨hnames, .of_bare (fun _ _ => ?_) hnone, fun place below found => ?_⟩)
  · exact fun _ hway => Or.inl (hway.mono hgrows'.keeps)
  · exact fun hentry => hgrows'.keeps _ _ (hgrows.keeps _ _ hentry)
  · rw [hnone place below] at found
    cases found

/-- Pruning the directory for images, once the way to the one for pictures is made, is tidy. -/
theorem tidied_of_prune {removed : List String} (hlinks : t.HasNoLinks root)
    (hgrows : t.Grows (Sync.IsOnWay grown here dirs.skp) grown)
    (hroot : grown.NamesDirectory here dirs.root root)
    (hgm : grown.NamesDirectory here dirs.gmActual (dirs.gmPlace root))
    (hprunes : Prune.Prunes here dirs.gmActual (dirs.gmPlace root) grown t')
    (hremoves : Prune.Removes here dirs.gmActual (dirs.gmPlace root) grown t' removed)
    (hreads : Prune.IsReadable grown dirs.gmActual (dirs.gmPlace root)) :
    dirs.Tidied here root t t' := by
  have hnoLinks := hlinks.of_grows hgrows
  have hfiles := hprunes.same_or_file fun place text below =>
    hnoLinks place text ((dirs.root_suffix_gmPlace root).trans below)
  have hoff : ∀ place, isBelow (dirs.gmPlace root) place = false →
      t'.get? place = grown.get? place := by
    intro place hnot
    refine hremoves.get?_eq place fun hgoes => ?_
    rw [hgoes.isBelow_eq] at hnot
    cases hnot
  refine ⟨hroot.of_files hfiles, ?_, ?_, Or.inr ⟨hgm.of_files hfiles, ⟨?_, ?_⟩, ?_⟩, ?_⟩
  · intro place text below hlink
    exact hnoLinks place text below (hprunes.keeps _ _ hlink)
  · intro place data below found
    exact ⟨data, (hoff place (isBelow_eq_false below)).trans (hgrows.keeps _ _ found)⟩
  · intro place entry below found
    have hgrown := hprunes.keeps _ _ found
    by_cases hkept : Prune.isKept place = true
    · refine (em (entry = .directory)).imp_right fun hentry => ?_
      exact ⟨hkept, hgrows.get?_eq hentry hgrown⟩
    · left
      by_contra hentry
      have hgoes : Prune.HasToGo grown here dirs.gmActual (dirs.gmPlace root) place := by
        refine ⟨isBelow_iff.1 below, ⟨entry, hgrown⟩, by simpa [hgrown] using hentry, ?_,
          Prune.isKept_eq_false_iff.1 (by simpa using hkept)⟩
        intro text _ hlink
        obtain ⟨inner, _, rfl⟩ := isBelow_iff.1 below
        have hsuffix := (dirs.root_suffix_gmPlace root).trans (List.suffix_append inner _)
        exact absurd hlink (hnoLinks _ text hsuffix)
      rw [hremoves.get?_eq_none place hgoes] at found
      cases found
  · intro place entry below found kept
    have hgrown := hgrows.keeps _ _ found
    refine (hremoves.get?_eq place fun hgoes => ?_).trans hgrown
    rcases kept with rfl | hkept
    · exact hgoes.not_directory hgrown
    · rw [(Prune.hasToGo_iff.1 hgoes).2.2] at hkept
      cases hkept
  · exact fun place below found => hreads place below (hprunes.keeps _ _ found)
  · intro place _ notImage
    rw [hoff place notImage]
    rcases hgrows place with hsame | ⟨hnone, hnew, above, hmem, hnames⟩
    · exact Or.inl hsame
    · exact Or.inr ⟨hnone, hnew, Or.inl ⟨above, hmem, hnames.of_files hfiles⟩⟩

/-- What is at the path for pictures is still there: it does not lie in the directory that was pruned,
    and only files have gone there. -/
theorem hasPath_skp_of_prune {removed : List String} (hnoLinks : grown.HasNoLinks root)
    (hroot : grown.NamesDirectory here dirs.root root)
    (hskp : grown.hasPath here dirs.skp = true)
    (hprunes : Prune.Prunes here dirs.gmActual (dirs.gmPlace root) grown t')
    (hremoves : Prune.Removes here dirs.gmActual (dirs.gmPlace root) grown t' removed) :
    t'.hasPath here dirs.skp = true := by
  obtain ⟨place, entry, hfind⟩ := hasPath_iff.1 hskp
  obtain rfl : place = skpPlace root := dirs.liesBelow_skp.place_eq hroot hnoLinks hfind
  have hfiles := hprunes.same_or_file fun place text below =>
    hnoLinks place text ((dirs.root_suffix_gmPlace root).trans below)
  have hsame := hremoves.get?_eq (skpPlace root) fun hgoes =>
    not_suffix_of_isBelow hgoes.isBelow_eq List.suffix_rfl
  obtain ⟨husable, links, hle, hleads⟩ := find_eq_ok_iff.1 hfind
  exact hasPath_iff.2 ⟨_, _, find_eq_ok_iff.2
    ⟨husable, links, hle, hleads.of_files hfiles (Or.inr hsame)⟩⟩

end LocalPlaybackDirs

namespace SyncConfig

open LocalPlaybackDirs

variable {σ : Type} {config : SyncConfig} {w w' : World σ} {path : String}
  {removed : List String}

theorem makeMissing_of_hasPath (h : w.machine.tree.hasPath w.machine.workDir path = true) :
    (makeMissing path).run w = (.ok (), w) := by
  rw [makeMissing, Action.run_bind, Action.run_machine]
  simp only
  rw [if_pos h]
  rfl

/-- What is missing is made, with the directories above it. -/
theorem makeMissing_ok (hwork : w.machine.tree.get? w.machine.workDir = some .directory)
    (hne : path ≠ "") (h : (makeMissing path).run w = (.ok (), w')) :
    ∃ tree, w' = { w with machine := { w.machine with tree } } ∧
      w.machine.tree.Grows (Sync.IsOnWay tree w.machine.workDir path) tree ∧
      tree.hasPath w.machine.workDir path = true := by
  rw [makeMissing, Action.run_bind, Action.run_machine] at h
  simp only at h
  split at h
  · next hpath =>
    cases h
    exact ⟨w.machine.tree, rfl, .refl _, hpath⟩
  · obtain ⟨tree, hmake, rfl⟩ := Action.run_onDisk_eq_ok.1 h
    obtain ⟨dir, hnames⟩ := Disk.namesDirectory_of_makeWithAncestors hwork hmake
    exact ⟨tree, rfl, Disk.makeWithAncestors_grows hwork hmake, hnames.hasPath hne⟩

theorem skp_ne_empty (dirs : LocalPlaybackDirs) : dirs.skp ≠ "" := dirs.liesBelow_skp.ne_empty

/-- What preparing the directories does when it succeeds: the one for pictures is made, and the one
    for images is made or pruned. -/
theorem createLocalDirs_ok (hwork : w.machine.tree.get? w.machine.workDir = some .directory)
    (h : config.createLocalDirs.run w = (.ok removed, w')) : ∃ grown,
      w.machine.tree.Grows (Sync.IsOnWay grown w.machine.workDir config.localDirs.skp) grown ∧
      grown.hasPath w.machine.workDir config.localDirs.skp = true ∧
      ((grown.hasPath w.machine.workDir config.localDirs.gmActual = true ∧
        (Prune.keepingSentinels config.localDirs.gmActual).run
          { w with machine := { w.machine with tree := grown } } = (.ok removed, w')) ∨
      (grown.hasPath w.machine.workDir config.localDirs.gmActual = false ∧ ∃ made,
        (Disk.makeDirectories w.machine.workDir config.localDirs.gmActual).run grown =
          (.ok (), made) ∧ w' = { w with machine := { w.machine with tree := made } })) := by
  rw [createLocalDirs] at h
  obtain ⟨_, w₁, hskp, h⟩ := Action.run_bind_eq_ok.1 h
  obtain ⟨grown, rfl, hgrows, hpath⟩ := makeMissing_ok hwork (skp_ne_empty _) hskp
  refine ⟨grown, hgrows, hpath, ?_⟩
  rw [Action.run_bind, Action.run_machine] at h
  simp only at h
  split at h
  · next hgm => exact Or.inl ⟨hgm, h⟩
  · next hgm =>
    right
    obtain ⟨_, w₂, hmade, h⟩ := Action.run_bind_eq_ok.1 h
    obtain ⟨made, hmake, rfl⟩ := Action.run_onDisk_eq_ok.1 hmade
    cases h
    exact ⟨by simpa using hgm, made, hmake, rfl⟩

/-- Preparing the directories is tidy if there are no links below their root. -/
theorem tidied_of_createLocalDirs (hsubdir : config.localDirs.HasNamedSubdir)
    (hwork : w.machine.tree.get? w.machine.workDir = some .directory)
    (hwalk : ∀ places, (w.machine.walkOrder places).Perm places)
    (hlinks : ∀ root, config.localDirs.LiesIn w.machine.tree w.machine.workDir root →
      w.machine.tree.HasNoLinks root)
    (h : config.createLocalDirs.run w = (.ok removed, w')) :
    w'.machine.workDir = w.machine.workDir ∧
      w'.machine.tree.get? w.machine.workDir = some .directory ∧
      w'.machine.tree.hasPath w.machine.workDir config.localDirs.skp = true ∧
      ∃ root, config.localDirs.Tidied w.machine.workDir root w.machine.tree w'.machine.tree := by
  obtain ⟨grown, hgrows, hskp, hrest⟩ := createLocalDirs_ok hwork h
  have hhere := hgrows.keeps _ _ hwork
  have hbelow := config.localDirs.liesBelow_gmActual hsubdir
  obtain ⟨_, _, hfindSkp⟩ := hasPath_iff.1 hskp
  obtain ⟨root, hroot⟩ :=
    config.localDirs.liesBelow_skp.exists_root config.localDirs.isPrefix_skp hfindSkp
  have hnone := hlinks root ⟨grown, hgrows, hroot⟩
  have hnoLinks := hnone.of_grows hgrows
  rcases hrest with ⟨hgm, hprune⟩ | ⟨hgm, made, hmake, rfl⟩
  · obtain ⟨place, entry, hfind⟩ := hasPath_iff.1 hgm
    obtain rfl : place = config.localDirs.gmPlace root := hbelow.place_eq hroot hnoLinks hfind
    by_cases hentry : entry = .directory
    · subst hentry
      have hstat := stat_eq_ok_iff.2 hfind
      obtain ⟨tree, log, rfl, hprunes, _, ⟨⟨_, herror⟩, _⟩ | ⟨_, hok, hremoves, hreads⟩⟩ :=
        Prune.keepingSentinels_of_directory
          (w := { w with machine := { w.machine with tree := grown } }) hwalk hstat hprune
      · cases herror
      cases hok
      exact ⟨rfl, hprunes.get?_directory hhere,
        hasPath_skp_of_prune hnoLinks hroot hskp hprunes hremoves, root,
        tidied_of_prune hnone hgrows hroot
          ((stat_eq_directory_iff hbelow.ne_empty).1 hstat) hprunes hremoves hreads⟩
    · rw [Prune.keepingSentinels_of_not_directory fun top hdir => by
        rw [stat_eq_ok_iff.2 hfind] at hdir
        cases hdir
        exact hentry rfl] at hprune
      cases hprune
      exact ⟨rfl, hhere, hskp, root, tidied_of_file hsubdir hnone hgrows hroot hfind hentry⟩
  · have hkeeps := (Disk.makeWithAncestors_grows hhere hmake).keeps
    exact ⟨rfl, hkeeps _ _ hhere, hasPath_iff.2 ⟨_, _, find_mono hfindSkp hkeeps⟩, root,
      tidied_of_makeDirectories hsubdir hhere hnone hgrows hroot hgm hmake⟩

/-- Where all is tidy there is nothing to prepare. -/
theorem createLocalDirs_of_tidied {t : FileTree} {root top : Location}
    (hsubdir : config.localDirs.HasNamedSubdir)
    (h : config.localDirs.Tidied w.machine.workDir root t w.machine.tree)
    (hskp : w.machine.tree.NamesDirectory w.machine.workDir config.localDirs.skp top)
    (hwalk : ∀ places, (w.machine.walkOrder places).Perm places) :
    ∃ log, config.createLocalDirs.run w =
      (.ok [], { w with machine := { w.machine with log } }) := by
  have hmake := makeMissing_of_hasPath (hskp.hasPath (skp_ne_empty config.localDirs))
  have hne := (config.localDirs.liesBelow_gmActual hsubdir).ne_empty
  rw [createLocalDirs, Action.run_bind, hmake]
  simp only
  rw [Action.run_bind, Action.run_machine]
  simp only
  rcases h.images with ⟨data, _, hstat⟩ | ⟨hgm, hemptied, hreads⟩
  · rw [if_pos (hasPath_iff.2 ⟨_, _, stat_eq_ok_iff.1 hstat⟩)]
    refine ⟨w.machine.log, Prune.keepingSentinels_of_not_directory fun top hdir => ?_⟩
    rw [hstat] at hdir
    cases hdir
  · rw [if_pos (hgm.hasPath hne)]
    exact Prune.keepingSentinels_of_stays hwalk ((stat_eq_directory_iff hne).2 hgm)
      (fun place => hemptied.not_hasToGo) hreads

theorem createLocalDirs_isOnMachine (config : SyncConfig) :
    Action.IsOnMachine fun σ => (config.createLocalDirs : Action σ StepError (List String)) := by
  have hmake (path : String) :
      Action.IsOnMachine fun σ => (makeMissing path : Action σ StepError Unit) := by
    refine .bind .machine fun m => ?_
    split
    · exact .pure ()
    · exact .onDisk _ _
  refine .bind (hmake _) fun _ => .bind .machine fun m => ?_
  split
  · exact Prune.keepingSentinels_isOnMachine _
  · exact .bind (.onDisk _ _) fun _ => .pure _

end SyncConfig

end StepRunner
