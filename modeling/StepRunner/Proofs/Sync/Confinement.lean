import StepRunner.Proofs.Sync.Merge

namespace StepRunner.Sync

open FileTree ObjectStore

variable {σ : Type} {storage : Storage σ} {base dir localDir destination relativePath : String}
  {object : RemoteObject} {w w' : World σ} {report report' : SyncReport} {e : StorageError}
  {t t' t'' : FileTree} {here root : Location} {rest : List RemoteObject}

/-- The paths of objects that are refused: the empty one, those that begin at the root or with a dot
    as a segment, and those with two dots as a segment anywhere. -/
def Escapes (relativePath : String) : Prop :=
  relativePath = "" ∨ IsRooted relativePath ∨
    (Path.segments relativePath.toList).head? = some ['.'] ∨
      ['.', '.'] ∈ Path.segments relativePath.toList

instance (relativePath : String) : Decidable (Escapes relativePath) :=
  inferInstanceAs (Decidable (_ ∨ (_ = _) ∨ _ ∨ _))

theorem localPath_cases (localDir relativePath : String) :
    localPath localDir relativePath = .ok (Path.join localDir relativePath) ∨
      localPath localDir relativePath = .error (.invalidObjectPath relativePath) := by
  rw [localPath]
  split
  · exact Or.inl rfl
  · exact Or.inr rfl

/-- An object has no local path if its own one escapes, and the error tells that one. -/
theorem localPath_eq_error_iff : localPath localDir relativePath = .error e ↔
    Escapes relativePath ∧ e = .invalidObjectPath relativePath := by
  have hok : localPath localDir relativePath = .ok (Path.join localDir relativePath) ↔
      ¬Escapes relativePath := by
    rw [localPath_eq_ok_iff, forall_components_iff, Escapes]
    simp only [and_true, not_or, ne_eq]
  rcases localPath_cases localDir relativePath with heq | heq
  · simp [heq, hok.1 heq]
  · have hescapes : Escapes relativePath := by
      by_contra hnot
      rw [hok.2 hnot] at heq
      cases heq
    simp [heq, hescapes, eq_comm]

/-- An object whose path escapes is refused before anything is done. -/
theorem object_of_escapes (h : Escapes object.relativePath) :
    (Sync.object storage base dir localDir report object).run w =
      (.error (.invalidObjectPath object.relativePath), w) := by
  rw [Sync.object, Action.run_bind, Action.run_lift, localPath_eq_error_iff.2 ⟨h, rfl⟩]

/-- Two trees with the same entries outside a directory. -/
def SameOutside (root : Location) (t t' : FileTree) : Prop :=
  ∀ place, ¬root <:+ place → t'.get? place = t.get? place

theorem SameOutside.trans (h : SameOutside root t t') (h' : SameOutside root t' t'') :
    SameOutside root t t'' := fun place hnot => (h' place hnot).trans (h place hnot)

theorem SameOutside.of_grows {allowed : Location → Prop} (h : t.Grows allowed t')
    (hallowed : ∀ place, t.get? place = none → allowed place → root <:+ place) :
    SameOutside root t t' := by
  intro place hnot
  rcases h place with hsame | ⟨hnone, _, hnew⟩
  · exact hsame
  · exact absurd (hallowed place hnone hnew) hnot

/-- On the machine the local directory is there, without links, and nothing outside it has
    changed. -/
structure Confined (t : FileTree) (here root : Location) (localDir : String) (m : Machine) :
    Prop where
  ready : IsReady here root localDir m
  links : m.tree.HasNoLinks root
  outside : SameOutside root t m.tree

/-- An object that is synced changes nothing outside the local directory. -/
theorem Confined.of_object_ok (hstorage : storage.WritesOnlyGiven)
    (hinv : Confined t here root localDir w.machine)
    (h : (Sync.object storage base dir localDir report object).run w = (.ok report', w')) :
    Confined t here root localDir w'.machine := by
  obtain ⟨hready, _, grown, data, _, _, hgrows, _, hoff, hcopy, _⟩ :=
    object_ok_copy hstorage hinv.ready hinv.links h
  have hinside : SameOutside root w.machine.tree w'.machine.tree := by
    refine (SameOutside.of_grows hgrows fun _ _ hway => hway.1).trans fun place hnot => ?_
    apply hoff
    rintro rfl
    exact hnot (suffix_copyPlace root _)
  refine ⟨hready, fun place text hbelow hlink => ?_, hinv.outside.trans hinside⟩
  by_cases hplace : place = copyPlace root object.relativePath
  · rw [hplace, hcopy] at hlink
    cases hlink
  · rw [hoff place hplace] at hlink
    exact (hinv.links.of_grows hgrows) place text hbelow hlink

/-- Nor does one that fails. -/
theorem Confined.of_object_error (hstorage : storage.WritesOnlyGiven) (hfails : storage.FailsInGiven)
    (hinv : Confined t here root localDir w.machine)
    (h : (Sync.object storage base dir localDir report object).run w = (.error e, w')) :
    Confined t here root localDir w'.machine := by
  obtain ⟨hready, hgrows, _⟩ := object_error_cases hstorage hfails hinv.ready h
  have hlinks := hinv.links.of_grows hgrows
  refine ⟨hready, hlinks, hinv.outside.trans (.of_grows hgrows ?_)⟩
  rintro place hnone ⟨destination, hpath, habove⟩
  exact (between_of_isAbove hpath hinv.ready.names hinv.ready.isDirectory hgrows.keeps hlinks hnone
    habove).1

/-- Objects that are synced in turn, until one fails or to the end, change nothing outside the local
    directory. -/
theorem Confined.of_objects {result : Except StorageError SyncReport}
    (hstorage : storage.WritesOnlyGiven) (hfails : storage.FailsInGiven)
    (hinv : Confined t here root localDir w.machine)
    (h : (objects storage base dir localDir report rest).run w = (result, w')) :
    Confined t here root localDir w'.machine := by
  have hok {objects : List RemoteObject} {last : SyncReport} {w₁ : World σ}
      (hrun : (Sync.objects storage base dir localDir report objects).run w = (.ok last, w₁)) :
      Confined t here root localDir w₁.machine :=
    objects_ok (fun _ _ now => Confined t here root localDir now.machine)
      (fun _ hinv hobject => hinv.of_object_ok hstorage hobject) hrun (List.nil_append _).symm hinv
  cases result with
  | ok last => exact hok h
  | error e =>
    obtain ⟨_, _, _, _, _, _, hbefore, hobject⟩ := objects_error h
    exact (hok hbefore).of_object_error hstorage hfails hobject

/-- What names a directory still names it after objects were synced, to the end or not. -/
theorem namesDirectory_of_objects {result : Except StorageError SyncReport} {path : String}
    {place : Location} (hstorage : storage.WritesOnlyGiven) (hfails : storage.FailsInGiven)
    (hready : IsReady here root localDir w.machine)
    (hnames : w.machine.tree.NamesDirectory here path place)
    (h : (objects storage base dir localDir report rest).run w = (result, w')) :
    w'.machine.tree.NamesDirectory here path place := by
  cases result with
  | ok last => exact objects_namesDirectory hstorage hready hnames h
  | error e =>
    obtain ⟨_, _, _, _, w₁, _, hbefore, hobject⟩ := objects_error h
    have hready₁ : IsReady here root localDir w₁.machine :=
      objects_ok (fun _ _ now => IsReady here root localDir now.machine)
        (fun _ hready hobject => (object_ok_cases hstorage hready hobject).1) hbefore
        (List.nil_append _).symm hready
    have hnames₁ := objects_namesDirectory hstorage hready hnames hbefore
    exact hnames₁.mono (object_error_cases hstorage hfails hready₁ hobject).2.1.keeps

/-- Where a sync ends: its listing failed, or some objects were listed and synced in turn. -/
theorem directory_cases {result : Except StorageError SyncReport}
    (h : (directory storage base dir localDir).run w = (result, w')) :
    (∃ e, (listing storage base dir localDir).run w = (.error e, w')) ∨
    ∃ listed w₁ outcome w₂, (listing storage base dir localDir).run w = (.ok listed, w₁) ∧
      (objects storage base dir localDir ⟨[], []⟩ listed).run w₁ = (outcome, w₂) ∧
      w'.machine.tree = w₂.machine.tree := by
  cases result with
  | ok report =>
    obtain ⟨listed, w₁, w₂, _, hlisting, hobjects, rfl⟩ := directory_ok h
    exact Or.inr ⟨listed, w₁, _, w₂, hlisting, hobjects, rfl⟩
  | error e =>
    rcases directory_error h with hlisting | ⟨listed, w₁, hlisting, hobjects⟩
    · exact Or.inl ⟨e, hlisting⟩
    · exact Or.inr ⟨listed, w₁, _, w', hlisting, hobjects, rfl⟩

/-- However a sync ends, outside the local directory it has at most made directories on the way to
    it. -/
theorem directory_outside {result : Except StorageError SyncReport}
    (hstorage : storage.WritesOnlyGiven) (hfails : storage.FailsInGiven)
    (hwork : w.machine.tree.get? w.machine.workDir = some .directory)
    (hlinks : ∀ root, w'.machine.tree.NamesDirectory w.machine.workDir localDir root →
      w.machine.tree.HasNoLinks root)
    (hrun : (directory storage base dir localDir).run w = (result, w')) {place : Location}
    (hplace : ∀ root, w'.machine.tree.NamesDirectory w.machine.workDir localDir root →
      ¬root <:+ place) :
    w'.machine.tree.get? place = w.machine.tree.get? place ∨
      (w.machine.tree.get? place = none ∧ w'.machine.tree.get? place = some .directory ∧
        IsOnWay w'.machine.tree w.machine.workDir localDir place) := by
  rcases directory_cases hrun with ⟨e, hlisting⟩ |
    ⟨listed, w₁, outcome, w₂, hlisting, hobjects, htree⟩
  · exact (grows_of_listing_error hfails hwork hlisting).1 place
  obtain ⟨root, hready, hgrows⟩ := isReady_of_listing hstorage hwork hlisting
  have hstays {path : String} {dir : Location}
      (h : w₁.machine.tree.NamesDirectory w.machine.workDir path dir) :
      w'.machine.tree.NamesDirectory w.machine.workDir path dir :=
    htree ▸ namesDirectory_of_objects hstorage hfails hready h hobjects
  have hroot := hstays hready.names
  have hbegin : Confined w₁.machine.tree w.machine.workDir root localDir w₁.machine :=
    ⟨hready, (hlinks root hroot).of_grows hgrows, fun _ _ => rfl⟩
  have hend := (hbegin.of_objects hstorage hfails hobjects).outside place (hplace root hroot)
  rw [htree, hend]
  rcases hgrows place with hsame | ⟨hnone, hnew, above, hmem, habove⟩
  · exact Or.inl hsame
  · rw [← htree]
    exact Or.inr ⟨hnone, hnew, above, hmem, hstays habove⟩

/-- A sync that comes to an object whose path escapes ends there with an error that tells the path.
    Neither that object nor one after it was downloaded. -/
theorem directory_of_escapes {before after : List RemoteObject} {w₁ w₂ : World σ}
    (hlisting : (listing storage base dir localDir).run w = (.ok (before ++ object :: after), w₁))
    (hbefore : (objects storage base dir localDir ⟨[], []⟩ before).run w₁ = (.ok report, w₂))
    (hescapes : Escapes object.relativePath) :
    (directory storage base dir localDir).run w =
        (.error (.invalidObjectPath object.relativePath), w₂) ∧
      ∃ calls, (directory storage.recording base dir localDir).run (recorded w []) =
        (.error (.invalidObjectPath object.relativePath), recorded w₂ calls) ∧
        calls.Sublist before := by
  refine ⟨directory_of_error hlisting (objects_of_error hbefore (object_of_escapes hescapes)), ?_⟩
  obtain ⟨calls, hbefore', _, hsub⟩ := objects_recording hbefore []
  refine ⟨calls, ?_, hsub⟩
  exact directory_of_error (listing_recording hlisting [])
    (objects_of_error hbefore' (object_of_escapes hescapes))

/-- Objects cannot lead a sync out of the local directory, whatever their paths are. However it ends,
    the entries elsewhere are as they were, but for directories on the way to the local one that were
    missing. No link may lie below that directory in the beginning; the directory itself may be
    reached by links. When the sync comes to an object whose path escapes it ends with an error that
    tells the path, and neither this object nor one after it was downloaded. -/
theorem directory_confined {result : Except StorageError SyncReport}
    (hstorage : storage.WritesOnlyGiven) (hfails : storage.FailsInGiven)
    (hwork : w.machine.tree.get? w.machine.workDir = some .directory)
    (hlinks : ∀ root, w'.machine.tree.NamesDirectory w.machine.workDir localDir root →
      w.machine.tree.HasNoLinks root)
    (hrun : (directory storage base dir localDir).run w = (result, w')) :
    (∀ place, (∀ root, w'.machine.tree.NamesDirectory w.machine.workDir localDir root →
        ¬root <:+ place) →
      w'.machine.tree.get? place = w.machine.tree.get? place ∨
        (w.machine.tree.get? place = none ∧ w'.machine.tree.get? place = some .directory ∧
          IsOnWay w'.machine.tree w.machine.workDir localDir place)) ∧
    ∀ before object after w₁ report w₂,
      (listing storage base dir localDir).run w = (.ok (before ++ object :: after), w₁) →
      (objects storage base dir localDir ⟨[], []⟩ before).run w₁ = (.ok report, w₂) →
      Escapes object.relativePath →
      result = .error (.invalidObjectPath object.relativePath) ∧ w' = w₂ ∧
        ∃ calls, (directory storage.recording base dir localDir).run (recorded w []) =
            (.error (.invalidObjectPath object.relativePath), recorded w' calls) ∧
          calls.Sublist before := by
  refine ⟨fun place hplace => directory_outside hstorage hfails hwork hlinks hrun hplace, ?_⟩
  intro before object after w₁ report w₂ hlisting hbefore hescapes
  obtain ⟨hend, calls, hrecorded, hsub⟩ := directory_of_escapes hlisting hbefore hescapes
  rw [hrun] at hend
  cases hend
  exact ⟨rfl, rfl, calls, hrecorded, hsub⟩

/-- A world with a file that an object tries to replace from a directory that is yet to be made. -/
def hostile (updated : Timestamp) : World ObjectStore :=
  trial (FileTree.empty.put ["kept"] (.file ⟨[7], ⟨0⟩, false⟩))
    [("gs://b/d/a", ⟨[1], updated⟩), ("gs://b/d/b/../../../kept", ⟨[2], updated⟩)]

theorem directory_confined_of_hostile : ∃ w',
    (directory ObjectStore.storage "gs://b" "d" "x/y").run (hostile (atSecond 1)) =
      (.error (.invalidObjectPath "b/../../../kept"), w') ∧
    w'.machine.tree.get? ["kept"] = some (.file ⟨[7], ⟨0⟩, false⟩) ∧
    ∃ calls, (directory ObjectStore.storage.recording "gs://b" "d" "x/y").run
          (recorded (hostile (atSecond 1)) []) =
        (.error (.invalidObjectPath "b/../../../kept"), recorded w' calls) ∧
      calls.Sublist [⟨"a", atSecond 1, 1⟩] := by
  have hlisting : (listing ObjectStore.storage "gs://b" "d" "x/y").run (hostile (atSecond 1)) =
      (.ok ([⟨"a", atSecond 1, 1⟩] ++ ⟨"b/../../../kept", atSecond 1, 1⟩ :: []),
        ((listing ObjectStore.storage "gs://b" "d" "x/y").run (hostile (atSecond 1))).2) :=
    Prod.ext (by decide +kernel) rfl
  obtain ⟨w₂, hbefore, _⟩ : ∃ w₂, (objects ObjectStore.storage "gs://b" "d" "x/y" ⟨[], []⟩
      [⟨"a", atSecond 1, 1⟩]).run
        ((listing ObjectStore.storage "gs://b" "d" "x/y").run (hostile (atSecond 1))).2 =
      (.ok ⟨["a"], []⟩, w₂) ∧ True :=
    Action.exists_run (by decide +kernel) trivial
  obtain ⟨w', hrun, hstat⟩ : ∃ w',
      (directory ObjectStore.storage "gs://b" "d" "x/y").run (hostile (atSecond 1)) =
        (.error (.invalidObjectPath "b/../../../kept"), w') ∧
      w'.machine.tree.stat [] "x/y" = .ok (["y", "x"], .directory) :=
    Action.exists_run (by decide +kernel) (by decide +kernel)
  have hnames := (stat_eq_directory_iff (by decide)).1 hstat
  have hlinks : (hostile (atSecond 1)).machine.tree.HasNoLinks ["y", "x"] := by
    intro place text _ hlink
    change (FileTree.empty.put ["kept"] (.file _)).get? place = _ at hlink
    rw [get?_put (by decide)] at hlink
    split at hlink
    · cases hlink
    · cases place <;> cases hlink
  obtain ⟨houtside, hends⟩ := directory_confined storage_writesOnlyGiven
    storage_failsInGiven rfl (fun root hroot => hnames.unique hroot ▸ hlinks) hrun
  refine ⟨w', hrun, ?_, (hends _ _ _ _ _ _ hlisting hbefore (by decide)).2.2⟩
  have hkept := houtside ["kept"] fun root hroot => by
    rw [← hnames.unique hroot]
    decide
  exact hkept.resolve_right fun hnew => absurd hnew.1 (by decide)

end StepRunner.Sync
