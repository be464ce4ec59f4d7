import StepRunner.Proofs.Sync.Idempotence
import StepRunner.Proofs.Sync.Success

namespace StepRunner.Sync

open FileTree

variable {σ : Type} {storage : Storage σ} {base dir localDir destination : String}
  {object other : RemoteObject} {w w' : World σ} {report report' : SyncReport}
  {t t' : FileTree} {here root place : Location} {listed done rest : List RemoteObject}
  {bytes : RemoteObject → List UInt8} {steady : σ → Prop} {names : List String} {m m' : Machine}
  {data : FileData}

/-- The file that is there for an object, if it is at least as new as the object. -/
def newEnough? (t : FileTree) (root : Location) (object : RemoteObject) : Option FileData :=
  match t.get? (copyPlace root object.relativePath) with
  | some (.file data) => if object.updated.toInstant ≤ data.modified then some data else none
  | _ => none

/-- The copy of an object by a merge in which the newer one wins: the file that was there, if it was
    new enough, and otherwise a file with the contents and the time of the object. -/
def merged (bytes : RemoteObject → List UInt8) (t : FileTree) (root : Location)
    (object : RemoteObject) : FileData :=
  (newEnough? t root object).getD ⟨bytes object, object.updated.toInstant, false⟩

/-- What such a merge reports about some objects. -/
def mergeReport (t : FileTree) (root : Location) (objects : List RemoteObject) : SyncReport where
  downloaded := (objects.filter fun object => (newEnough? t root object).isNone).map (·.relativePath)
  upToDate := (objects.filter fun object => (newEnough? t root object).isSome).map (·.relativePath)

theorem newEnough?_eq_some_iff : newEnough? t root object = some data ↔
    t.get? (copyPlace root object.relativePath) = some (.file data) ∧
      object.updated.toInstant ≤ data.modified := by
  rw [newEnough?]
  split
  · next found heq =>
    simp only [heq, Option.ite_none_right_eq_some, Option.some.injEq, Entry.file.injEq]
    constructor
    · rintro ⟨hle, rfl⟩
      exact ⟨rfl, hle⟩
    · rintro ⟨rfl, hle⟩
      exact ⟨hle, rfl⟩
  · next hnot =>
    constructor
    · nofun
    · rintro ⟨hfile, _⟩
      exact absurd hfile (hnot data)

theorem newEnough?_congr
    (h : ∀ data, t'.get? (copyPlace root object.relativePath) = some (.file data) ↔
      t.get? (copyPlace root object.relativePath) = some (.file data)) :
    newEnough? t' root object = newEnough? t root object := by
  ext data
  rw [newEnough?_eq_some_iff, newEnough?_eq_some_iff, h]

theorem mergeReport_concat : mergeReport t root (done ++ [object]) =
    if (newEnough? t root object).isSome then
      { mergeReport t root done with
        upToDate := (mergeReport t root done).upToDate ++ [object.relativePath] }
    else
      { mergeReport t root done with
        downloaded := (mergeReport t root done).downloaded ++ [object.relativePath] } := by
  cases h : newEnough? t root object <;> simp [mergeReport, h]

/-- A path whose names lead to a file finds it. -/
theorem stat_of_isPlain {base path : String} (h : IsPlain base path names)
    (hnames : t.NamesDirectory here base root)
    (hfile : t.get? (names.reverse ++ root) = some (.file data)) :
    t.stat here path = .ok (names.reverse ++ root, .file data) := by
  have hfind : t.find here true path = .ok (t.targetAt (names.reverse ++ root)) :=
    h.find_eq hnames (hasWay_of_get? (by simp [hfile])) (Or.inr (by simp [hfile]))
  rw [stat_eq_ok_iff, hfind, targetAt, hfile]

/-- Without links below the base the names of a path say where the file is that it leads to. -/
theorem LiesBelow.isPlain (h : LiesBelow localDir destination names)
    (hroot : t.NamesDirectory here localDir root) (hlinks : t.HasNoLinks root)
    (hstat : t.stat here destination = .ok (place, .file data)) :
    IsPlain localDir destination names where
  wayNames_eq := h.wayNames_eq
  isRooted_iff := h.isRooted_iff
  isUsable := (find_eq_ok_iff.1 (stat_eq_ok_iff.1 hstat)).1
  isName := h.isName hroot hlinks (stat_eq_ok_iff.1 hstat)
  names_ne_nil := h.names_ne_nil
  exists_last := Disk.exists_last_of_stat hstat

/-- The places of the directories between the local one and a copy, and the place of the copy. -/
def IsOnWayTo (root : Location) (object : RemoteObject) (place : Location) : Prop :=
  root <:+ place ∧ place <:+ copyPlace root object.relativePath

/-- What an object that was synced did to the files of a machine without links below the local
    directory: it made directories on the way to its copy, and the copy was there and new enough or
    was downloaded. -/
theorem object_ok_copy (hstorage : storage.WritesOnlyGiven)
    (hready : IsReady here root localDir w.machine) (hlinks : w.machine.tree.HasNoLinks root)
    (h : (Sync.object storage base dir localDir report object).run w = (.ok report', w')) :
    IsReady here root localDir w'.machine ∧ ∃ destination grown data,
      localPath localDir object.relativePath = .ok destination ∧
      IsPlain localDir destination (wayNames object.relativePath) ∧
      w.machine.tree.Grows (IsOnWayTo root object) grown ∧
      grown.get? (copyPlace root object.relativePath) ≠ some .directory ∧
      SameOff (copyPlace root object.relativePath) grown w'.machine.tree ∧
      w'.machine.tree.get? (copyPlace root object.relativePath) = some (.file data) ∧
      ((newEnough? w.machine.tree root object = some data ∧
        report' = { report with upToDate := report.upToDate ++ [object.relativePath] } ∧
        ∃ log, w' = { w with machine := { w.machine with log } }) ∨
      (newEnough? w.machine.tree root object = none ∧
        report' = { report with downloaded := report.downloaded ++ [object.relativePath] } ∧
        ∃ written, data = { written with modified := object.updated.toInstant } ∧
          Downloads storage base dir object w w' written ∧
          CanStage here w.machine.temporaryNames destination)) := by
  obtain ⟨hready', destination, hpath, ⟨hcurrent, hreport, hlog⟩ | hfetched⟩ :=
    object_ok_cases hstorage hready h
  · obtain ⟨place, data, hstat, hle⟩ := isCurrent_eq_true_iff.1 hcurrent
    rw [hready.workDir] at hstat
    have hplace := place_of_find hpath hready.names hlinks (stat_eq_ok_iff.1 hstat)
    simp only [Target.place] at hplace
    have hfile := Disk.get?_of_stat hstat
    rw [hplace] at hfile
    have hplain := (liesBelow_of_localPath hpath).isPlain hready.names hlinks hstat
    refine ⟨hready', destination, w.machine.tree, data, hpath, hplain, .refl _, by simp [hfile],
      ?_, ?_, Or.inl ⟨newEnough?_eq_some_iff.2 ⟨hfile, hle⟩, hreport, hlog⟩⟩
    · obtain ⟨log, rfl⟩ := hlog
      exact fun _ _ => rfl
    · obtain ⟨log, rfl⟩ := hlog
      exact hfile
  obtain ⟨grown, place, written, hstale, _, hgrows, hlands, hdownloads, hstage, hreport⟩ :=
    hfetched
  have hnoLinks := hlinks.of_grows hgrows
  have hplace := place_of_find hpath (hready.names.mono hgrows.keeps) hnoLinks hlands.find_eq
  rw [place_targetAt] at hplace
  subst hplace
  have hplain := (liesBelow_of_localPath hpath).isPlain hready'.names (hlands.hasNoLinks hnoLinks)
    hlands.stat_eq
  refine ⟨hready', destination, grown, _, hpath, hplain, fun other => ?_, hlands.not_directory,
    hlands.off, hlands.get?_eq, Or.inr ⟨?_, hreport, written, rfl, hdownloads, hstage⟩⟩
  · rcases hgrows other with hsame | ⟨hnew, hdir, habove⟩
    · exact Or.inl hsame
    · exact Or.inr ⟨hnew, hdir, between_of_isAbove hpath hready.names hready.isDirectory
        hgrows.keeps hnoLinks hnew habove⟩
  · rw [Option.eq_none_iff_forall_ne_some]
    intro old hold
    obtain ⟨hfile, hle⟩ := newEnough?_eq_some_iff.1 hold
    have hstat := stat_of_isPlain hplain hready.names hfile
    obtain ⟨_, hmissing | ⟨_, found, hfound, hlt⟩⟩ := hstale
    · rw [hstat] at hmissing
      cases hmissing
    · rw [hstat] at hfound
      cases hfound
      exact absurd hlt (Int.not_lt.2 hle)

/-- Syncing an object replaces files at most by other ones. -/
theorem exists_file_of_object (hstorage : storage.WritesOnlyGiven)
    (hready : IsReady here root localDir w.machine) (hlinks : w.machine.tree.HasNoLinks root)
    (h : (Sync.object storage base dir localDir report object).run w = (.ok report', w'))
    (hfile : w.machine.tree.get? place = some (.file data)) :
    ∃ new, w'.machine.tree.get? place = some (.file new) := by
  obtain ⟨_, _, grown, new, _, _, hgrows, _, hoff, hcopy, _⟩ :=
    object_ok_copy hstorage hready hlinks h
  by_cases hplace : place = copyPlace root object.relativePath
  · exact ⟨new, hplace ▸ hcopy⟩
  · exact ⟨data, (hoff place hplace).trans (hgrows.keeps _ _ hfile)⟩

/-- On the machine the copies of some objects are what a merge with the files of `t` has for them.
    Nothing else has changed since but for new directories on the way to them. -/
structure Merged (bytes : RemoteObject → List UInt8) (t : FileTree) (here root : Location)
    (localDir : String) (done : List RemoteObject) (m : Machine) : Prop where
  ready : IsReady here root localDir m
  copies : ∀ object ∈ done, m.tree.get? (copyPlace root object.relativePath) =
    some (.file (merged bytes t root object))
  others : ∀ place, (∀ object ∈ done, place ≠ copyPlace root object.relativePath) →
    m.tree.get? place = t.get? place ∨ (t.get? place = none ∧
      m.tree.get? place = some .directory ∧ ∃ object ∈ done, IsOnWayTo root object place)

/-- Two objects neither of which has its copy at the place of the other one's or below it. -/
def IsApart (root : Location) (first second : RemoteObject) : Prop :=
  ¬copyPlace root first.relativePath <:+ copyPlace root second.relativePath ∧
    ¬copyPlace root second.relativePath <:+ copyPlace root first.relativePath

theorem IsApart.symm (h : IsApart root object other) : IsApart root other object := ⟨h.2, h.1⟩

theorem not_suffix_of_file {inner : Location} (hfile : t.get? place = some (.file data))
    (hinner : t.get? inner ≠ none) (hne : place ≠ inner) : ¬place <:+ inner := by
  rintro ⟨front, rfl⟩
  have hdir := get?_above hinner (by rintro rfl; exact hne rfl)
  rw [hfile] at hdir
  cases hdir

/-- Nothing is in the way of the copy of an object, and it can be staged if it must be downloaded. -/
def IsMergeable (t : FileTree) (here : Location) (names : List String) (root : Location)
    (localDir : String) (object : RemoteObject) : Prop :=
  ∃ destination, Fits t root localDir destination object ∧
    (newEnough? t root object = none → CanStage here names destination)

namespace Merged

theorem get?_eq (h : Merged bytes t here root localDir done m)
    (hoff : ∀ object ∈ done, ¬IsOnWayTo root object place) : m.tree.get? place = t.get? place := by
  have hne : ∀ object ∈ done, place ≠ copyPlace root object.relativePath := by
    rintro object hmem rfl
    exact hoff object hmem ⟨suffix_copyPlace root _, List.suffix_rfl⟩
  rcases h.others place hne with hsame | ⟨_, _, object, hmem, hway⟩
  · exact hsame
  · exact absurd hway (hoff object hmem)

/-- What was there is still there, though it may be another file now. -/
theorem get?_ne_none (h : Merged bytes t here root localDir done m) (hplace : t.get? place ≠ none) :
    m.tree.get? place ≠ none := by
  by_cases hcopy : ∃ object ∈ done, place = copyPlace root object.relativePath
  · obtain ⟨object, hmem, rfl⟩ := hcopy
    simp [h.copies object hmem]
  · rcases h.others place (by simpa using hcopy) with hsame | ⟨hnone, _⟩
    · rwa [hsame]
    · exact absurd hnone hplace

theorem hasNoLinks (h : Merged bytes t here root localDir done m) (hlinks : t.HasNoLinks root) :
    m.tree.HasNoLinks root := by
  intro place text hbelow hlink
  by_cases hcopy : ∃ object ∈ done, place = copyPlace root object.relativePath
  · obtain ⟨object, hmem, rfl⟩ := hcopy
    rw [h.copies object hmem] at hlink
    cases hlink
  · rcases h.others place (by simpa using hcopy) with hsame | ⟨_, hdir, _⟩
    · exact hlinks place text hbelow (hsame ▸ hlink)
    · rw [hdir] at hlink
      cases hlink

theorem get?_directory (h : Merged bytes t here root localDir done m) (hmem : object ∈ done)
    (hway : IsOnWayTo root object place) (hne : place ≠ copyPlace root object.relativePath) :
    m.tree.get? place = some .directory := by
  obtain ⟨_, inner, hinner⟩ := hway
  refine get?_above ?_ (by rintro rfl; exact hne hinner : inner ≠ [])
  simp [hinner, h.copies object hmem]

/-- What a merge has in the end does not depend on the order of the objects. -/
theorem same_of_perm (h : Merged bytes t here root localDir done m)
    (h' : Merged bytes t here root localDir rest m') (hperm : done.Perm rest) :
    m.tree.Same m'.tree := by
  intro place
  by_cases hcopy : ∃ object ∈ done, place = copyPlace root object.relativePath
  · obtain ⟨object, hmem, rfl⟩ := hcopy
    rw [h.copies object hmem, h'.copies object (hperm.mem_iff.1 hmem)]
  by_cases hway : ∃ object ∈ done, IsOnWayTo root object place
  · obtain ⟨object, hmem, hway⟩ := hway
    have hne : place ≠ copyPlace root object.relativePath := fun heq => hcopy ⟨object, hmem, heq⟩
    rw [h.get?_directory hmem hway hne, h'.get?_directory (hperm.mem_iff.1 hmem) hway hne]
  · rw [h.get?_eq fun object hmem hon => hway ⟨object, hmem, hon⟩,
      h'.get?_eq fun object hmem hon => hway ⟨object, hperm.mem_iff.2 hmem, hon⟩]

/-- One object more. -/
theorem concat {grown : FileTree} (h : Merged bytes t here root localDir done m)
    (hready : IsReady here root localDir m')
    (hdistinct : ∀ other ∈ done,
      copyPlace root other.relativePath ≠ copyPlace root object.relativePath)
    (hgrows : m.tree.Grows (IsOnWayTo root object) grown)
    (hoff : SameOff (copyPlace root object.relativePath) grown m'.tree)
    (hcopy : m'.tree.get? (copyPlace root object.relativePath) =
      some (.file (merged bytes t root object))) :
    Merged bytes t here root localDir (done ++ [object]) m' where
  ready := hready
  copies other hmem := by
    rcases List.mem_append.1 hmem with hdone | hlast
    · rw [hoff _ (hdistinct other hdone)]
      exact hgrows.keeps _ _ (h.copies other hdone)
    · rw [List.mem_singleton.1 hlast, hcopy]
  others place hne := by
    have hlast : place ≠ copyPlace root object.relativePath := hne object (by simp)
    have hplace := h.others place fun other hmem => hne other (List.mem_append_left _ hmem)
    rw [hoff place hlast]
    rcases hgrows place with hsame | ⟨hnone, hnew, hway⟩
    · rw [hsame]
      refine hplace.imp_right fun ⟨hnone, hdir, other, hmem, hway⟩ => ?_
      exact ⟨hnone, hdir, other, List.mem_append_left _ hmem, hway⟩
    · rcases hplace with hsame | ⟨_, hdir, _⟩
      · exact Or.inr ⟨hsame ▸ hnone, hnew, object, by simp, hway⟩
      · rw [hnone] at hdir
        cases hdir

/-- The copies of other objects that are apart do not change what is found of an object. -/
theorem get?_copyPlace (h : Merged bytes t here root localDir done m)
    (hapart : ∀ other ∈ done, IsApart root other object) :
    m.tree.get? (copyPlace root object.relativePath) =
      t.get? (copyPlace root object.relativePath) :=
  h.get?_eq fun other hmem hway => (hapart other hmem).2 hway.2

theorem newEnough?_eq (h : Merged bytes t here root localDir done m)
    (hapart : ∀ other ∈ done, IsApart root other object) :
    newEnough? m.tree root object = newEnough? t root object :=
  newEnough?_congr fun data => by rw [h.get?_copyPlace hapart]

/-- Nor do they stand in its way, or clear it. -/
theorem fits_iff (h : Merged bytes t here root localDir done m)
    (hapart : ∀ other ∈ done, IsApart root other object) :
    Fits m.tree root localDir destination object ↔ Fits t root localDir destination object := by
  have hfree : m.tree.IsFree root (wayNames object.relativePath) ↔
      t.IsFree root (wayNames object.relativePath) := by
    apply forall₄_congr
    intro front last back heq
    have hsuffix : front.reverse ++ root <:+ copyPlace root object.relativePath := by
      rw [copyPlace, heq, List.reverse_append, List.append_assoc]
      exact List.suffix_append _ _
    have hne : ∀ other ∈ done, front.reverse ++ root ≠ copyPlace root other.relativePath :=
      fun other hmem hplace => (hapart other hmem).1 (hplace ▸ hsuffix)
    rcases h.others _ hne with hsame | ⟨hnone, hdir, _⟩
    · rw [hsame]
    · simp [hnone, hdir]
  have hplace := h.get?_copyPlace hapart
  exact ⟨fun hfits => { hfits with
      free := hfree.1 hfits.free
      not_directory := hplace ▸ hfits.not_directory },
    fun hfits => { hfits with
      free := hfree.2 hfits.free
      not_directory := hplace ▸ hfits.not_directory }⟩

/-- Objects that are synced one after the other are merged. In passing it turns out that nothing
    was in the way of the copy. -/
theorem step (hdelivers : storage.Delivers base dir steady listed bytes) (hlinks : t.HasNoLinks root)
    (h : Merged bytes t here root localDir done w.machine) (hobject : object ∈ listed)
    (hsteady : steady w.remote)
    (hdistinct : ∀ other ∈ done,
      copyPlace root other.relativePath ≠ copyPlace root object.relativePath)
    (hrun : (Sync.object storage base dir localDir (mergeReport t root done) object).run w =
      (.ok report', w')) :
    Merged bytes t here root localDir (done ++ [object]) w'.machine ∧
      report' = mergeReport t root (done ++ [object]) ∧ steady w'.remote ∧
      w'.machine.temporaryNames = w.machine.temporaryNames ∧
      IsMergeable t here w.machine.temporaryNames root localDir object ∧
      ∀ other ∈ done, IsApart root other object := by
  obtain ⟨hready, destination, grown, data, hpath, hplain, hgrows, hentry, hoff, hcopy, hcases⟩ :=
    object_ok_copy hdelivers.writesOnlyGiven h.ready (h.hasNoLinks hlinks) hrun
  have hkept {other : RemoteObject} (hmem : other ∈ done) :
      w'.machine.tree.get? (copyPlace root other.relativePath) =
        some (.file (merged bytes t root other)) := by
    rw [hoff _ (hdistinct other hmem)]
    exact hgrows.keeps _ _ (h.copies other hmem)
  have hapart : ∀ other ∈ done, IsApart root other object := fun other hmem =>
    ⟨not_suffix_of_file (hkept hmem) (by simp [hcopy]) (hdistinct other hmem),
      not_suffix_of_file hcopy (by simp [hkept hmem]) (hdistinct other hmem).symm⟩
  have hfits : Fits t root localDir destination object := by
    have hsome : w'.machine.tree.get? (copyPlace root object.relativePath) ≠ none := by simp [hcopy]
    have hway : w'.machine.tree.HasWay root (wayNames object.relativePath) := hasWay_of_get? hsome
    refine (h.fits_iff hapart).1 ⟨hpath, hplain, ?_, fun hdir => hentry (hgrows.keeps _ _ hdir)⟩
    exact (hway.isFree.of_sameOff hoff).of_grown hgrows
  have hnewEnough := h.newEnough?_eq hapart
  rcases hcases with ⟨hold, hreport, log, rfl⟩ | ⟨hnone, hreport, written, hdata, hdownloads, hstage⟩
  · rw [hnewEnough] at hold
    refine ⟨h.concat hready hdistinct hgrows hoff ?_, ?_, hsteady, rfl,
      ⟨destination, hfits, by simp [hold]⟩, hapart⟩
    · simp [hcopy, merged, hold]
    · rw [hreport, mergeReport_concat, hold]
      rfl
  · rw [hnewEnough] at hnone
    obtain ⟨path, place, tree, tree', log, hstat, hdownload, hwritten⟩ := hdownloads
    obtain ⟨w₁, modified, hdownload', hsteady', _, htemps, hbytes⟩ :=
      hdelivers.download (w := ⟨{ w.machine with tree }, w.remote⟩) hobject hsteady hstat
    rw [hdownload] at hdownload'
    cases hdownload'
    rw [hwritten] at hbytes
    cases hbytes
    refine ⟨h.concat hready hdistinct hgrows hoff ?_, ?_, hsteady', htemps,
      ⟨destination, hfits, fun _ => hstage⟩, hapart⟩
    · simp [hcopy, merged, hnone, hdata]
    · rw [hreport, mergeReport_concat, hnone]
      rfl

end Merged

end StepRunner.Sync
