import StepRunner.Proofs.Step.Preparation
import StepRunner.Proofs.Sync.Confinement
import StepRunner.Proofs.Sync.Recording

namespace StepRunner.SyncConfig

open FileTree Sync LocalPlaybackDirs

open ObjectStore (atSecond)

variable {σ τ : Type} {config : SyncConfig} {dirs : LocalPlaybackDirs} {storage : Storage σ}
  {w w' : World σ} {result : Except StepError Unit} {base dir : String} {report : SyncReport}
  {t t' : FileTree} {here root place : Location} {listed : List RemoteObject}

/-- Nothing is made for a listing where something is there already: it is a directory then. -/
theorem isReady_of_listing_of_hasPath {localDir : String} (hstorage : storage.WritesOnlyGiven)
    (hwork : w.machine.tree.get? w.machine.workDir = some .directory) (hne : localDir ≠ "")
    (hpath : w.machine.tree.hasPath w.machine.workDir localDir = true)
    (h : (listing storage base dir localDir).run w = (.ok listed, w')) :
    ∃ top, IsReady w.machine.workDir top localDir w'.machine ∧
      w.machine.tree.Same w'.machine.tree := by
  obtain ⟨top, hready, hgrows⟩ := isReady_of_listing hstorage hwork h
  obtain ⟨log, tree, hmake, hlist⟩ := listing_ok h
  obtain ⟨place, entry, hfind⟩ := hasPath_iff.1 hpath
  have hthere := stat_eq_ok_iff.1 ((stat_eq_directory_iff hne).2 hready.names)
  rw [find_mono hfind hgrows.keeps] at hthere
  cases hthere
  have hnames := (stat_eq_directory_iff hne).1 (stat_eq_ok_iff.2 hfind)
  have hstays : (Disk.makeDirectories w.machine.workDir localDir).run w.machine.tree =
      (.ok (), w.machine.tree) := Disk.makeWithAncestors_of_namesDirectory hnames
  rw [hstays] at hmake
  cases hmake
  exact ⟨top, hready, (hstorage.list hlist).tree⟩

/-- A sync of the pictures keeps tidy what was prepared, and the directory for pictures is there. -/
theorem tidied_of_directory (hsubdir : dirs.HasNamedSubdir) (hstorage : storage.WritesOnlyGiven)
    (hwork : w.machine.tree.get? w.machine.workDir = some .directory)
    (hpath : w.machine.tree.hasPath w.machine.workDir dirs.skp = true)
    (h : dirs.Tidied w.machine.workDir root t w.machine.tree)
    (hrun : (Sync.directory storage base dir dirs.skp).run w = (.ok report, w')) :
    w'.machine.workDir = w.machine.workDir ∧
      w'.machine.tree.NamesDirectory w.machine.workDir dirs.skp (skpPlace root) ∧
      dirs.Tidied w.machine.workDir root t w'.machine.tree := by
  obtain ⟨listed, w₁, w₂, log, hlisting, hobjects, rfl⟩ := directory_ok hrun
  obtain ⟨top, hready, hsame⟩ := isReady_of_listing_of_hasPath hstorage hwork
    dirs.liesBelow_skp.ne_empty hpath hlisting
  have h₁ := h.of_same hsubdir hsame
  have hlinks := h₁.noLinks
  have hfind := stat_eq_ok_iff.1 ((stat_eq_directory_iff dirs.liesBelow_skp.ne_empty).2 hready.names)
  obtain rfl : top = skpPlace root := dirs.liesBelow_skp.place_eq h₁.names hlinks hfind
  have hsuffix : root <:+ skpPlace root := List.suffix_cons _ _
  have hbegin : Confined w₁.machine.tree w.machine.workDir (skpPlace root) dirs.skp w₁.machine :=
    ⟨hready, fun place text below => hlinks place text (hsuffix.trans below), fun _ _ => rfl⟩
  obtain ⟨hend, hfiles⟩ := objects_ok (fun _ _ now =>
      Confined w₁.machine.tree w.machine.workDir (skpPlace root) dirs.skp now.machine ∧
      ∀ place data, w₁.machine.tree.get? place = some (.file data) →
        ∃ new, now.machine.tree.get? place = some (.file new))
    (fun _ ⟨hinv, hkept⟩ hobject => by
      refine ⟨hinv.of_object_ok hstorage hobject, fun place data hfile => ?_⟩
      obtain ⟨new, hnew⟩ := hkept place data hfile
      exact exists_file_of_object hstorage hinv.ready hinv.links hobject hnew)
    hobjects (List.nil_append _).symm ⟨hbegin, fun _ data hfile => ⟨data, hfile⟩⟩
  have hnames (path : String) (dir : Location)
      (hdir : w₁.machine.tree.NamesDirectory w.machine.workDir path dir) :
      w₂.machine.tree.NamesDirectory w.machine.workDir path dir :=
    objects_namesDirectory hstorage hready hdir hobjects
  refine ⟨hend.ready.workDir, hend.ready.names,
    h₁.change hsubdir hnames ?_ hfiles hend.outside⟩
  intro place text below hlink
  by_cases hpicture : skpPlace root <:+ place
  · exact hend.links place text hpicture hlink
  · rw [hend.outside place hpicture] at hlink
    exact hlinks place text below hlink

/-- The world in which the download is announced in the log. -/
def announced (w : World σ) : World σ :=
  { w with machine := { w.machine with log := w.machine.log ++ [⟨.info, .download,
    "========Downloading skp files from Google Storage========", [], w.machine.span⟩] } }

/-- A step that is switched off writes to the log. -/
theorem download_run_of_off (hoff : config.usePlaybackFramework = false) (storage : Storage σ)
    (w : World σ) : (config.download storage).run w = (.ok (), { w with machine :=
      { w.machine with log := w.machine.log ++ [⟨.info, .download,
        "SKP playback framework disabled; nothing to download", [], w.machine.span⟩] } }) := by
  rw [download, if_neg (by simp [hoff]), Action.run_note]

/-- Otherwise it prepares the directories and then syncs the pictures. -/
theorem download_run_of_on (hon : config.usePlaybackFramework = true) (storage : Storage σ)
    (w : World σ) : (config.download storage).run w =
      match config.createLocalDirs.run w with
      | (.error e, prepared) => (.error e, prepared)
      | (.ok _, prepared) =>
        match (Sync.directory storage config.storageBase config.storageDirs.skp
            config.localDirs.skp).run (announced prepared) with
        | (.error e, after) => (.error (.storage e), after)
        | (.ok _, after) => (.ok (), after) := by
  rw [download, if_pos hon, Action.run_bind]
  rcases config.createLocalDirs.run w with ⟨_ | _, prepared⟩
  · rfl
  simp only
  rw [Action.run_bind, downloadSkps, Action.run_bind, Action.run_note]
  simp only [Action.run_mapError]
  rcases hrun : (Sync.directory storage config.storageBase config.storageDirs.skp
    config.localDirs.skp).run (announced prepared) with ⟨_ | _, after⟩ <;>
  · rw [announced] at hrun
    rw [hrun]
    rfl

/-- The step does without storage: with any other one it does the same, and what lies outside the
    machine is left as it is. -/
def RunsAlone (config : SyncConfig) (m : Machine) (result : Except StepError Unit) (m' : Machine) :
    Prop :=
  ∀ (τ : Type) (other : Storage τ) (remote : τ),
    (config.step other).run.run ⟨m, remote⟩ = (result, ⟨m', remote⟩)

theorem runsAlone_of_off (hoff : config.usePlaybackFramework = false)
    (hrun : (config.step storage).run.run w = (result, w')) :
    result = .ok () ∧ w'.machine.tree = w.machine.tree ∧
      config.RunsAlone w.machine result w'.machine := by
  change (config.download storage).run w = _ at hrun
  rw [download_run_of_off hoff] at hrun
  cases hrun
  exact ⟨rfl, rfl, fun τ other remote => download_run_of_off hoff other ⟨w.machine, remote⟩⟩

/-- When the directories cannot be prepared, storage is not asked. -/
theorem runsAlone_of_error {e : StepError} {prepared : World σ}
    (hon : config.usePlaybackFramework = true)
    (hfails : config.createLocalDirs.run w = (.error e, prepared))
    (hrun : (config.step storage).run.run w = (result, w')) :
    result = .error e ∧ config.RunsAlone w.machine result w'.machine := by
  have halone := config.createLocalDirs_isOnMachine.of_run hfails
  change (config.download storage).run w = _ at hrun
  rw [download_run_of_on hon, hfails] at hrun
  cases hrun
  refine ⟨rfl, fun τ other remote => ?_⟩
  change (config.download other).run ⟨w.machine, remote⟩ = _
  rw [download_run_of_on hon, halone τ remote]

/-- The step prepares the directories, and then the storage lists these objects. -/
def Lists (config : SyncConfig) (storage : Storage σ) (w : World σ) (listed : List RemoteObject) :
    Prop :=
  ∃ removed prepared asked, config.createLocalDirs.run w = (.ok removed, prepared) ∧
    (listing storage config.storageBase config.storageDirs.skp config.localDirs.skp).run
      (announced prepared) = (.ok listed, asked)

/-- What the step has done to a tree `t` when it has succeeded. The copies of all objects that were
    listed are current. The path of the directory for images leads to a file that was left alone, or
    to a directory that is emptied. No picture was removed. Elsewhere at most directories were made,
    on the way to these two. -/
structure Updates (dirs : LocalPlaybackDirs) (here : Location) (listed : List RemoteObject)
    (t t' : FileTree) : Prop where
  current : ∀ object ∈ listed, HasCurrent t' here dirs.skp object
  images : (∃ place data, t.get? place = some (.file data) ∧
      t'.stat here dirs.gmActual = .ok (place, .file data)) ∨
    ∃ top, t'.NamesDirectory here dirs.gmActual top ∧ IsEmptied t t' top
  pictures {top place : Location} {data : FileData} (names : t'.NamesDirectory here dirs.skp top)
    (below : top <:+ place) (found : t.get? place = some (.file data)) :
    ∃ new, t'.get? place = some (.file new)
  others {place : Location}
    (notPicture : ∀ top, t'.NamesDirectory here dirs.skp top → ¬top <:+ place)
    (notImage : ∀ top, t'.NamesDirectory here dirs.gmActual top → ¬top <:+ place) :
    t'.get? place = t.get? place ∨
      (t.get? place = none ∧ t'.get? place = some .directory ∧ dirs.IsOnWay t' here place)

theorem updates_of_tidied (h : dirs.Tidied here root t t')
    (hskp : t'.NamesDirectory here dirs.skp (skpPlace root))
    (hcurrent : ∀ object ∈ listed, HasCurrent t' here dirs.skp object) :
    Updates dirs here listed t t' where
  current := hcurrent
  images := h.images.imp (fun ⟨data, hfile⟩ => ⟨_, data, hfile⟩) fun ⟨hdir, hemptied, _⟩ =>
    ⟨_, hdir, hemptied⟩
  pictures := by
    intro top place data names below found
    rw [← hskp.unique names] at below
    exact h.pictures below found
  others := by
    intro place notPicture notImage
    cases hbelow : isBelow (dirs.gmPlace root) place with
    | false => exact h.others (notPicture _ hskp) hbelow
    | true =>
      obtain ⟨inner, hne, rfl⟩ := isBelow_iff.1 hbelow
      rcases h.images with ⟨data, hold, hstat⟩ | ⟨hdir, _⟩
      · -- Nothing lies in a file.
        have hnone {tree : FileTree} (hfile : tree.get? (dirs.gmPlace root) = some (.file data)) :
            tree.get? (inner ++ dirs.gmPlace root) = none := by
          by_contra hsome
          rw [get?_above hsome hne] at hfile
          cases hfile
        rw [hnone hold, hnone (Disk.get?_of_stat hstat)]
        exact Or.inl rfl
      · exact absurd (List.suffix_append _ _) (notImage _ hdir)

/-- A second run finds all prepared and all copies current. -/
theorem download_again {begun asked : World σ} {again : Storage τ}
    {w₂ : World τ} (hon : config.usePlaybackFramework = true)
    (hsubdir : config.localDirs.HasNamedSubdir) (hstorage : storage.WritesOnlyGiven)
    (hwork : begun.machine.tree.get? begun.machine.workDir = some .directory)
    (hlisting : (listing storage config.storageBase config.storageDirs.skp
      config.localDirs.skp).run begun = (.ok listed, asked))
    (hsync : (Sync.directory storage config.storageBase config.storageDirs.skp
      config.localDirs.skp).run begun = (.ok report, w'))
    (htidied : config.localDirs.Tidied w'.machine.workDir root t w'.machine.tree)
    (hskp : w'.machine.tree.NamesDirectory w'.machine.workDir config.localDirs.skp place)
    (hsame : w'.machine.SameFiles w₂.machine)
    (hwalk : ∀ places, (w₂.machine.walkOrder places).Perm places)
    (hlists : again.Lists config.storageBase config.storageDirs.skp w₂ listed) :
    ∃ w₃, (config.step again).run.run w₂ = (.ok (), w₃) ∧
      (config.step again.recording).run.run (recorded w₂ []) = (.ok (), recorded w₃ []) ∧
      w₂.machine.SameFiles w₃.machine := by
  have htidied₂ := htidied.of_same hsubdir hsame.tree
  have hskp₂ := hskp.mono hsame.tree.keeps
  rw [← hsame.workDir] at htidied₂ hskp₂
  obtain ⟨log, hprepare⟩ := createLocalDirs_of_tidied hsubdir htidied₂ hskp₂ hwalk
  have halone := config.createLocalDirs_isOnMachine.of_run hprepare
  have hlists' : again.Lists config.storageBase config.storageDirs.skp
      (announced { w₂ with machine := { w₂.machine with log } }) listed := fun log =>
    (hlists log).imp fun _ ⟨hlist, hkept⟩ => ⟨hlist, hkept.workDir, hkept.tree⟩
  have hsame' : w'.machine.SameFiles
      (announced { w₂ with machine := { w₂.machine with log } }).machine :=
    ⟨hsame.workDir, hsame.tree⟩
  obtain ⟨w₃, hdirectory, hrecorded, hfiles⟩ :=
    directory_idempotent hstorage hwork hlisting hsync hsame' hlists'
  refine ⟨w₃, ?_, ?_, hfiles.workDir, hfiles.tree⟩
  · change (config.download again).run w₂ = _
    rw [download_run_of_on hon, hprepare]
    simp only
    rw [hdirectory]
  · change (config.download again.recording).run (recorded w₂ []) = _
    rw [download_run_of_on hon, recorded, halone]
    simp only
    rw [recorded, announced] at hrecorded
    rw [announced, hrecorded]

/-- A step that succeeds has updated the files, and nothing is left to do for another run. -/
theorem updates_of_step (hon : config.usePlaybackFramework = true)
    (hsubdir : config.localDirs.HasNamedSubdir) (hstorage : storage.WritesOnlyGiven)
    (hwork : w.machine.tree.get? w.machine.workDir = some .directory)
    (hwalk : ∀ places, (w.machine.walkOrder places).Perm places)
    (hlinks : ∀ root, config.localDirs.LiesIn w.machine.tree w.machine.workDir root →
      w.machine.tree.HasNoLinks root)
    (hrun : (config.step storage).run.run w = (.ok (), w')) :
    ∃ listed, config.Lists storage w listed ∧
      Updates config.localDirs w.machine.workDir listed w.machine.tree w'.machine.tree ∧
      ∀ (τ : Type) (again : Storage τ) (w₂ : World τ), w'.machine.SameFiles w₂.machine →
        (∀ places, (w₂.machine.walkOrder places).Perm places) →
        again.Lists config.storageBase config.storageDirs.skp w₂ listed →
        ∃ w₃, (config.step again).run.run w₂ = (.ok (), w₃) ∧
          (config.step again.recording).run.run (recorded w₂ []) = (.ok (), recorded w₃ []) ∧
          w₂.machine.SameFiles w₃.machine := by
  change (config.download storage).run w = _ at hrun
  rw [download_run_of_on hon] at hrun
  rcases hprepare : config.createLocalDirs.run w with ⟨e | removed, prepared⟩
  · rw [hprepare] at hrun
    cases hrun
  rw [hprepare] at hrun
  simp only at hrun
  rcases hsync : (Sync.directory storage config.storageBase config.storageDirs.skp
    config.localDirs.skp).run (announced prepared) with ⟨e | report, after⟩
  · rw [hsync] at hrun
    cases hrun
  rw [hsync] at hrun
  cases hrun
  obtain ⟨hworkDir, hhere, hpath, root, htidy⟩ :=
    tidied_of_createLocalDirs hsubdir hwork hwalk hlinks hprepare
  rw [← hworkDir] at hhere hpath htidy ⊢
  -- What is announced leaves the files as they are.
  generalize hbegun : announced prepared = begun at hsync
  have htree : begun.machine.tree = prepared.machine.tree := hbegun ▸ rfl
  have hstart : begun.machine.workDir = prepared.machine.workDir := hbegun ▸ rfl
  rw [← htree, ← hstart] at hhere hpath htidy
  rw [← hstart]
  obtain ⟨hworkDir', hskp, htidied⟩ :=
    tidied_of_directory hsubdir hstorage hhere hpath htidy hsync
  obtain ⟨listed, asked, _, _, hlisting, _⟩ := directory_ok hsync
  obtain ⟨_, hcurrent⟩ := allCurrent_of_directory hstorage hhere hlisting hsync
  refine ⟨listed, ⟨removed, prepared, asked, hprepare, hbegun ▸ hlisting⟩,
    updates_of_tidied htidied hskp hcurrent.current, fun τ again w₂ hsame hwalk₂ hlists => ?_⟩
  rw [← hworkDir'] at htidied hskp
  exact download_again hon hsubdir hstorage hhere hlisting hsync htidied hskp hsame hwalk₂ hlists

/-- The download step as a whole. Switched off it succeeds, changes no file and asks no storage. If
    the directories cannot be prepared, it fails as that does, and asks no storage either. If it
    succeeds, it has updated the pictures and emptied the directory for images, and changed nothing
    else; and when no local file has changed since, another run of it, with a storage that lists the
    same objects, succeeds too, asks for no download and leaves every local file, link and directory
    as it is. Links may lead to the playback directories, but none may lie in them at the
    beginning. -/
theorem step_updates {ctx : StepContext}
    (hsubdir : ∀ component ∈ Path.components ctx.gmImageSubdir, ∃ name, component = .normal name)
    (hstorage : storage.WritesOnlyGiven)
    (hwork : w.machine.tree.get? w.machine.workDir = some .directory)
    (hwalk : ∀ places, (w.machine.walkOrder places).Perm places)
    (hlinks : ∀ root, ctx.localDirs.LiesIn w.machine.tree w.machine.workDir root →
      w.machine.tree.HasNoLinks root)
    (hrun : ((ofContext ctx).step storage).run.run w = (result, w')) :
    (ctx.useSkpPlaybackFramework = false → result = .ok () ∧
      w'.machine.tree = w.machine.tree ∧ (ofContext ctx).RunsAlone w.machine result w'.machine) ∧
    (ctx.useSkpPlaybackFramework = true →
      (∀ e prepared, (ofContext ctx).createLocalDirs.run w = (.error e, prepared) →
        result = .error e ∧ (ofContext ctx).RunsAlone w.machine result w'.machine) ∧
      (result = .ok () → ∃ listed, (ofContext ctx).Lists storage w listed ∧
        Updates ctx.localDirs w.machine.workDir listed w.machine.tree w'.machine.tree ∧
        ∀ (τ : Type) (again : Storage τ) (w₂ : World τ), w'.machine.SameFiles w₂.machine →
          (∀ places, (w₂.machine.walkOrder places).Perm places) →
          again.Lists (ofContext ctx).storageBase ctx.storageDirs.skp w₂ listed →
          ∃ w₃, ((ofContext ctx).step again).run.run w₂ = (.ok (), w₃) ∧
            ((ofContext ctx).step again.recording).run.run (recorded w₂ []) =
              (.ok (), recorded w₃ []) ∧
            w₂.machine.SameFiles w₃.machine)) := by
  refine ⟨fun hoff => runsAlone_of_off hoff hrun, fun hon =>
    ⟨fun e prepared hfails => runsAlone_of_error hon hfails hrun, ?_⟩⟩
  rintro rfl
  exact updates_of_step hon hsubdir hstorage hwork hwalk hlinks hrun

/-- A step that works below `p/b/playback`. -/
def trialContext : StepContext where
  useSkpPlaybackFramework := true
  perfOutputBasedir := "p"
  builderName := "b"
  gmImageSubdir := "g"

/-- A world with an image of an earlier run, a record of progress beside it, and a picture that is
    in storage only. -/
def rendered (updated : Timestamp) : World ObjectStore :=
  ObjectStore.trial
    ([(["p"], .directory), (["b", "p"], .directory), (["playback", "b", "p"], .directory),
      (["gm-actual", "playback", "b", "p"], .directory),
      (["g", "gm-actual", "playback", "b", "p"], .directory),
      (["a", "g", "gm-actual", "playback", "b", "p"], .file ⟨[1], ⟨0⟩, false⟩),
      (["LAST_COMPARISON_SUCCEEDED", "g", "gm-actual", "playback", "b", "p"],
        .file ⟨[2], ⟨0⟩, false⟩)].foldl (fun t e => t.put e.1 e.2) .empty)
    [("gs://chromium-skia-gm/playback/skps/b", ⟨[3], updated⟩)]

theorem step_updates_rendered : ∃ w' listed,
    ((ofContext trialContext).step ObjectStore.storage).run.run (rendered (atSecond 1)) =
      (.ok (), w') ∧
    w'.machine.tree.get? ["a", "g", "gm-actual", "playback", "b", "p"] = none ∧
    Updates trialContext.localDirs [] listed (rendered (atSecond 1)).machine.tree
      w'.machine.tree := by
  have hends : (((ofContext trialContext).step ObjectStore.storage).run.run
        (rendered (atSecond 1))).1 = .ok () ∧
      (((ofContext trialContext).step ObjectStore.storage).run.run
        (rendered (atSecond 1))).2.machine.tree.get?
          ["a", "g", "gm-actual", "playback", "b", "p"] = none := by
    decide +kernel
  obtain ⟨hok, hgone⟩ := hends
  obtain ⟨w', hrun, hgone⟩ : ∃ w',
      ((ofContext trialContext).step ObjectStore.storage).run.run (rendered (atSecond 1)) =
        (.ok (), w') ∧
      w'.machine.tree.get? ["a", "g", "gm-actual", "playback", "b", "p"] = none :=
    Action.exists_run hok hgone
  have hsubdir : ∀ component ∈ Path.components trialContext.gmImageSubdir,
      ∃ name, component = .normal name := by
    have hcomponents : Path.components trialContext.gmImageSubdir = [.normal ['g']] := by decide
    rw [hcomponents]
    simp
  have hlinks : ∀ root, (rendered (atSecond 1)).machine.tree.HasNoLinks root :=
    hasNoLinks_of_entries (by decide +kernel)
  obtain ⟨_, hon⟩ := step_updates hsubdir ObjectStore.storage_writesOnlyGiven rfl
    (fun _ => .refl _) (fun root _ => hlinks root) hrun
  obtain ⟨listed, _, hupdates, _⟩ := (hon rfl).2 rfl
  exact ⟨w', listed, hrun, hgone, hupdates⟩

end StepRunner.SyncConfig
