import StepRunner.Proofs.FileTree.Plain
import StepRunner.Proofs.Step.Preparation

namespace StepRunner

open FileTree

namespace FileTree

/-- A relative path that is joined leads on from where the first one leads. -/
theorem pathEnd_join (here : Location) (first : String) {second : String}
    (hrel : ¬IsRooted second) :
    pathEnd here (Path.join first second) = endOf (pathEnd here first) (wayNames second) := by
  rw [pathEnd, wayNames_join first hrel,
    wayStart_eq_of_isRooted_iff (isRooted_join_iff first hrel), endOf_append, pathEnd]

end FileTree

namespace LocalPlaybackDirs

variable {dirs : LocalPlaybackDirs}

/-- Whether the subdirectory for images is relative and never leads above the directory that it is
    seen from. It may turn back on its way. -/
def HasInnerSubdir (dirs : LocalPlaybackDirs) : Prop :=
  ¬IsRooted dirs.gmImageSubdir ∧ staysBelow 0 (wayNames dirs.gmImageSubdir) = true

theorem pathEnd_skp (dirs : LocalPlaybackDirs) (here : Location) :
    pathEnd here dirs.skp = skpPlace (pathEnd here dirs.root) := by
  have hname : wayNames "skps" = ["skps"] := by decide
  rw [skp, pathEnd_join here dirs.root (by simp [IsRooted]), hname]
  rfl

/-- Where rendered images are written. -/
theorem pathEnd_gmActual (here : Location) (hrel : ¬IsRooted dirs.gmImageSubdir) :
    pathEnd here dirs.gmActual =
      endOf ("gm-actual" :: pathEnd here dirs.root) (wayNames dirs.gmImageSubdir) := by
  have hname : wayNames "gm-actual" = ["gm-actual"] := by decide
  rw [gmActual, pathEnd_join here _ hrel, pathEnd_join here dirs.root (by simp [IsRooted]), hname]
  rfl

theorem HasInnerSubdir.suffix_pathEnd (h : dirs.HasInnerSubdir) (here : Location) :
    "gm-actual" :: pathEnd here dirs.root <:+ pathEnd here dirs.gmActual := by
  rw [pathEnd_gmActual here h.1]
  exact suffix_endOf [] h.2 _

end LocalPlaybackDirs

namespace SyncConfig

open LocalPlaybackDirs

variable {σ : Type} {config : SyncConfig} {w w' : World σ} {path : String}
  {result : Except StepError (List String)} {made : Except StepError Unit}

/-- Making directories, however it ends, makes directories at most. -/
theorem grows_of_makeDirectories
    (hwork : w.machine.tree.get? w.machine.workDir = some .directory)
    (h : (Action.onDisk .io fun here => Disk.makeDirectories here path : Action σ StepError Unit).run
      w = (made, w')) :
    ∃ tree, w' = { w with machine := { w.machine with tree } } ∧
      w.machine.tree.Grows (fun _ => True) tree := by
  rw [Action.run_onDisk] at h
  rcases hmake : (Disk.makeDirectories w.machine.workDir path).run w.machine.tree with ⟨_, tree⟩
  rw [hmake] at h
  cases h
  exact ⟨tree, rfl, (Disk.makeWithAncestors_grows hwork hmake).imp fun _ _ => trivial⟩

theorem grows_of_makeMissing (hwork : w.machine.tree.get? w.machine.workDir = some .directory)
    (h : (makeMissing path).run w = (made, w')) :
    ∃ tree, w' = { w with machine := { w.machine with tree } } ∧
      w.machine.tree.Grows (fun _ => True) tree := by
  rw [makeMissing, Action.run_bind, Action.run_machine] at h
  simp only at h
  split at h
  · cases h
    exact ⟨w.machine.tree, rfl, .refl _⟩
  · exact grows_of_makeDirectories hwork h

/-- What preparing the directories can do to a tree, however it ends: it makes directories, and then
    it may take away what has to go below the directory that the path for images names. It takes all
    of that away if it succeeds and that directory was there. -/
theorem createLocalDirs_cases
    (hwork : w.machine.tree.get? w.machine.workDir = some .directory)
    (hwalk : ∀ places, (w.machine.walkOrder places).Perm places)
    (h : config.createLocalDirs.run w = (result, w')) :
    ∃ grown, w.machine.tree.Grows (fun _ => True) grown ∧
      ((w'.machine.tree = grown ∧ ((∃ e, result = .error e) ∨ ∀ top,
          w.machine.tree.stat w.machine.workDir config.localDirs.gmActual ≠
            .ok (top, .directory))) ∨
        ∃ top, grown.stat w.machine.workDir config.localDirs.gmActual = .ok (top, .directory) ∧
          Prune.Prunes w.machine.workDir config.localDirs.gmActual top grown w'.machine.tree ∧
          ∀ removed, result = .ok removed → Prune.Removes w.machine.workDir
            config.localDirs.gmActual top grown w'.machine.tree removed) := by
  rw [createLocalDirs, Action.run_bind] at h
  rcases hskp : (makeMissing config.localDirs.skp).run w with ⟨e | _, w₁⟩
  all_goals
    obtain ⟨grown, rfl, hgrows⟩ := grows_of_makeMissing hwork hskp
    rw [hskp] at h
  · cases h
    exact ⟨grown, hgrows, Or.inl ⟨rfl, Or.inl ⟨e, rfl⟩⟩⟩
  simp only at h
  rw [Action.run_bind, Action.run_machine] at h
  simp only at h
  have hstays {top : Location}
      (hold : w.machine.tree.stat w.machine.workDir config.localDirs.gmActual =
        .ok (top, .directory)) :
      grown.stat w.machine.workDir config.localDirs.gmActual = .ok (top, .directory) :=
    stat_eq_ok_iff.2 (find_mono (stat_eq_ok_iff.1 hold) hgrows.keeps)
  split at h
  · by_cases hstat : ∃ top,
        grown.stat w.machine.workDir config.localDirs.gmActual = .ok (top, .directory)
    · obtain ⟨top, hstat⟩ := hstat
      obtain ⟨tree, log, rfl, hprunes, _, hends⟩ := Prune.keepingSentinels_of_directory
        (w := { w with machine := { w.machine with tree := grown } }) hwalk hstat h
      refine ⟨grown, hgrows, Or.inr ⟨top, hstat, hprunes, ?_⟩⟩
      rintro removed rfl
      rcases hends with ⟨⟨_, herror⟩, _⟩ | ⟨_, hok, hremoves, _⟩
      · cases herror
      · cases hok
        exact hremoves
    · rw [Prune.keepingSentinels_of_not_directory
        (w := { w with machine := { w.machine with tree := grown } }) (not_exists.1 hstat)] at h
      cases h
      exact ⟨grown, hgrows, Or.inl ⟨rfl, Or.inr fun top hold => hstat ⟨top, hstays hold⟩⟩⟩
  · next hgm =>
    have hnot top (hold : w.machine.tree.stat w.machine.workDir config.localDirs.gmActual =
        .ok (top, .directory)) : False := by
      rw [hasPath, hstays hold] at hgm
      exact hgm rfl
    rw [Action.run_bind] at h
    rcases hmake : (Action.onDisk .io fun here => Disk.makeDirectories here
      config.localDirs.gmActual : Action σ StepError Unit).run
        { w with machine := { w.machine with tree := grown } } with ⟨_ | _, w₂⟩
    all_goals
      obtain ⟨tree, rfl, hmade⟩ := grows_of_makeDirectories (hgrows.keeps _ _ hwork) hmake
      rw [hmake] at h
      cases h
      exact ⟨tree, hgrows.trans hmade, Or.inl ⟨rfl, Or.inr hnot⟩⟩

variable {ctx : StepContext}

/-- What becomes of the entries of a tree without links when the directories are prepared: all stay
    but files below the place to which the path for images leads, unless their names keep them. -/
theorem get?_of_createLocalDirs
    (hwork : w.machine.tree.get? w.machine.workDir = some .directory)
    (hwalk : ∀ places, (w.machine.walkOrder places).Perm places)
    (hlinks : w.machine.tree.HasNoLinks [])
    (hrun : config.createLocalDirs.run w = (result, w')) (place : Location) (entry : Entry)
    (hentry : w.machine.tree.get? place = some entry) :
    w'.machine.tree.get? place = some entry ∨
      (w'.machine.tree.get? place = none ∧ entry ≠ .directory ∧ Prune.isKept place = false ∧
        isBelow (pathEnd w.machine.workDir config.localDirs.gmActual) place = true) := by
  obtain ⟨grown, hgrows, ⟨rfl, _⟩ | ⟨top, hstat, hprunes, _⟩⟩ :=
    createLocalDirs_cases hwork hwalk hrun
  · exact Or.inl (hgrows.keeps _ _ hentry)
  have hgrown := hgrows.keeps _ _ hentry
  obtain rfl : top = pathEnd w.machine.workDir config.localDirs.gmActual :=
    place_eq_pathEnd (hlinks.of_grows hgrows) (stat_eq_ok_iff.1 hstat)
  refine (hprunes place).imp (fun hsame => hsame.trans hgrown) fun ⟨hnone, hgoes, _⟩ => ?_
  obtain ⟨hbelow, _, hkept⟩ := Prune.hasToGo_iff.1 hgoes
  refine ⟨hnone, ?_, hkept, hbelow⟩
  rintro rfl
  exact hgoes.not_directory hgrown

/-- Where the path for images leads to a directory, all such files below it go. -/
theorem get?_eq_none_of_createLocalDirs {removed : List String} {top place : Location}
    {data : FileData} (hwork : w.machine.tree.get? w.machine.workDir = some .directory)
    (hwalk : ∀ places, (w.machine.walkOrder places).Perm places)
    (hrun : config.createLocalDirs.run w = (.ok removed, w'))
    (hstat : w.machine.tree.stat w.machine.workDir config.localDirs.gmActual =
      .ok (top, .directory))
    (hfile : w.machine.tree.get? place = some (.file data)) (hbelow : isBelow top place = true)
    (hkept : Prune.isKept place = false) : w'.machine.tree.get? place = none := by
  obtain ⟨grown, hgrows, ⟨_, hnot⟩ | ⟨top', hstat', _, hremoves⟩⟩ :=
    createLocalDirs_cases hwork hwalk hrun
  · rcases hnot with ⟨_, hok⟩ | hnot
    · cases hok
    · exact absurd hstat (hnot top)
  have hthere := find_mono (stat_eq_ok_iff.1 hstat) hgrows.keeps
  rw [stat_eq_ok_iff, hthere] at hstat'
  cases hstat'
  have hgrown := hgrows.keeps _ _ hfile
  refine (hremoves removed rfl).get?_eq_none place (Prune.hasToGo_iff.2 ⟨hbelow, ?_, hkept⟩)
  simp [Prune.staysAsDirectory, hgrown]

/-- What preparing the directories removes in a tree without links, whatever the directory for
    performance data, the builder and the subdirectory for images are called and however it ends:
    only files below the place to which the path for images leads, and all of these where it leads
    to a directory, but for those that record progress. That place lies in the directory for images
    of the playback directories, and so apart from the pictures, if the subdirectory for images is
    relative and never leads above the directory that it is seen from. Then nothing outside the
    playback directories is removed and no picture. -/
theorem createLocalDirs_confined
    (hwork : w.machine.tree.get? w.machine.workDir = some .directory)
    (hwalk : ∀ places, (w.machine.walkOrder places).Perm places)
    (hlinks : w.machine.tree.HasNoLinks [])
    (hrun : (ofContext ctx).createLocalDirs.run w = (result, w')) :
    (∀ place entry, w.machine.tree.get? place = some entry →
      w'.machine.tree.get? place = some entry ∨
        (w'.machine.tree.get? place = none ∧ entry ≠ .directory ∧ Prune.isKept place = false ∧
          isBelow (pathEnd w.machine.workDir ctx.localDirs.gmActual) place = true)) ∧
    (∀ removed top, result = .ok removed →
      w.machine.tree.stat w.machine.workDir ctx.localDirs.gmActual = .ok (top, .directory) →
      ∀ place data, w.machine.tree.get? place = some (.file data) →
        isBelow (pathEnd w.machine.workDir ctx.localDirs.gmActual) place = true →
        Prune.isKept place = false → w'.machine.tree.get? place = none) ∧
    (ctx.localDirs.HasInnerSubdir →
      "gm-actual" :: pathEnd w.machine.workDir ctx.localDirs.root <:+
        pathEnd w.machine.workDir ctx.localDirs.gmActual ∧
      (∀ place, pathEnd w.machine.workDir ctx.localDirs.skp <:+ place →
        ¬pathEnd w.machine.workDir ctx.localDirs.gmActual <:+ place) ∧
      ∀ place entry, w.machine.tree.get? place = some entry →
        (¬pathEnd w.machine.workDir ctx.localDirs.root <:+ place ∨
          pathEnd w.machine.workDir ctx.localDirs.skp <:+ place) →
        w'.machine.tree.get? place = some entry) := by
  have hall := get?_of_createLocalDirs hwork hwalk hlinks hrun
  refine ⟨hall, ?_, fun hinner => ?_⟩
  · rintro removed top rfl hstat place data hfile hbelow hkept
    have htop : top = pathEnd w.machine.workDir ctx.localDirs.gmActual :=
      place_eq_pathEnd hlinks (stat_eq_ok_iff.1 hstat)
    exact get?_eq_none_of_createLocalDirs hwork hwalk hrun hstat hfile (htop ▸ hbelow) hkept
  have hsuffix := hinner.suffix_pathEnd w.machine.workDir
  have happart (place : Location) (hskp : pathEnd w.machine.workDir ctx.localDirs.skp <:+ place) :
      ¬pathEnd w.machine.workDir ctx.localDirs.gmActual <:+ place :=
    not_suffix_of_suffix hsuffix (pathEnd_skp ctx.localDirs w.machine.workDir ▸ hskp)
  refine ⟨hsuffix, happart, fun place entry hentry hout => ?_⟩
  refine (hall place entry hentry).resolve_right fun ⟨_, _, _, hbelow⟩ => ?_
  obtain ⟨inner, _, rfl⟩ := isBelow_iff.1 hbelow
  have himages := List.suffix_append inner (pathEnd w.machine.workDir ctx.localDirs.gmActual)
  rcases hout with hroot | hskp
  · exact hroot ((List.suffix_cons _ _).trans (hsuffix.trans himages))
  · exact happart _ hskp himages

/-- A world with a staged picture and a rendered image. -/
def staged : World Unit where
  machine := (ObjectStore.trial
    ([(["p"], .directory), (["b", "p"], .directory), (["playback", "b", "p"], .directory),
      (["skps", "playback", "b", "p"], .directory),
      (["s", "skps", "playback", "b", "p"], .file ⟨[1], ⟨0⟩, false⟩),
      (["gm-actual", "playback", "b", "p"], .directory),
      (["g", "gm-actual", "playback", "b", "p"], .directory),
      (["a", "g", "gm-actual", "playback", "b", "p"], .file ⟨[2], ⟨0⟩, false⟩)].foldl
        (fun t e => t.put e.1 e.2) .empty) []).machine
  remote := ()

/-- A step that cleans in a subdirectory for images of `p/b/playback`. -/
def cleaningContext (gmImageSubdir : String) : StepContext where
  perfOutputBasedir := "p"
  builderName := "b"
  gmImageSubdir := gmImageSubdir

theorem createLocalDirs_confined_staged : ∃ removed w',
    (ofContext (cleaningContext "g/../g")).createLocalDirs.run staged = (.ok removed, w') ∧
    (cleaningContext "g/../g").localDirs.HasInnerSubdir ∧
    w'.machine.tree.get? ["a", "g", "gm-actual", "playback", "b", "p"] = none ∧
    w'.machine.tree.get? ["s", "skps", "playback", "b", "p"] =
      some (.file ⟨[1], ⟨0⟩, false⟩) := by
  obtain ⟨w', hrun, _⟩ : ∃ w', (ofContext (cleaningContext "g/../g")).createLocalDirs.run staged =
      (.ok ["p/b/playback/gm-actual/g/../g/a"], w') ∧ True :=
    Action.exists_run (by decide +kernel) trivial
  have hinner : (cleaningContext "g/../g").localDirs.HasInnerSubdir := by
    constructor
    · simp [IsRooted, cleaningContext, StepContext.localDirs, ofBuilder]
    · decide +kernel
  obtain ⟨_, hgone, hstays⟩ := createLocalDirs_confined rfl (fun _ => .refl _)
    (hasNoLinks_of_entries (by decide +kernel) _) hrun
  obtain ⟨_, _, hstays⟩ := hstays hinner
  have hskp : pathEnd staged.machine.workDir (cleaningContext "g/../g").localDirs.skp =
      ["skps", "playback", "b", "p"] := by decide +kernel
  refine ⟨_, w', hrun, hinner, ?_, ?_⟩
  · exact hgone _ ["g", "gm-actual", "playback", "b", "p"] rfl (by decide +kernel)
      ["a", "g", "gm-actual", "playback", "b", "p"] ⟨[2], ⟨0⟩, false⟩ (by decide +kernel)
      (by decide +kernel) (by decide +kernel)
  · exact hstays _ _ (by decide +kernel) (Or.inr (hskp ▸ ⟨["s"], rfl⟩))

/-- A subdirectory for images that leads back up leads to the pictures, and they are removed. -/
theorem createLocalDirs_empties_pictures : ∃ w',
    (ofContext (cleaningContext "../skps")).createLocalDirs.run staged =
      (.ok ["p/b/playback/gm-actual/../skps/s"], w') ∧
    staged.machine.tree.HasNoLinks [] ∧
    staged.machine.tree.stat [] (cleaningContext "../skps").localDirs.skp =
      .ok (["skps", "playback", "b", "p"], .directory) ∧
    staged.machine.tree.get? ["s", "skps", "playback", "b", "p"] =
      some (.file ⟨[1], ⟨0⟩, false⟩) ∧
    w'.machine.tree.get? ["s", "skps", "playback", "b", "p"] = none :=
  Action.exists_run (by decide +kernel) ⟨hasNoLinks_of_entries (by decide +kernel) _,
    by decide +kernel, by decide +kernel, by decide +kernel⟩

end SyncConfig

end StepRunner
