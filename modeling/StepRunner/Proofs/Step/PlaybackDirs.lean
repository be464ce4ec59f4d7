import StepRunner.Proofs.Sync.Success
import StepRunner.Step.PlaybackDirs

namespace StepRunner

open FileTree

namespace Sync.LiesBelow

variable {t : FileTree} {here root : Location} {base path last : String} {names more : List String}

/-- A path that is joined lies below the first one, if its second one is made of names. -/
theorem join (base : String) (hrel : ¬IsRooted path) (hnames : wayNames path ≠ [])
    (hup : ".." ∉ wayNames path) : LiesBelow base (Path.join base path) (wayNames path) :=
  ⟨wayNames_join base hrel, isRooted_join_iff base hrel, hnames, hup⟩

theorem join_name (base : String) {name : String} (hslash : '/' ∉ name.toList) (hne : name ≠ "")
    (hdot : name ≠ ".") (hup : name ≠ "..") : LiesBelow base (Path.join base name) [name] := by
  have hnames : wayNames name = [name] := by
    rw [wayNames, waySteps_of_not_mem hslash hne]
    simp [hdot]
  rw [← hnames]
  apply join base (fun hrooted => hslash (List.mem_of_head? hrooted)) (by simp [hnames])
  simpa [hnames] using Ne.symm hup

theorem trans (h : LiesBelow base path names) (h' : LiesBelow path last more) :
    LiesBelow base last (names ++ more) where
  wayNames_eq := by rw [h'.wayNames_eq, h.wayNames_eq, List.append_assoc]
  isRooted_iff := h'.isRooted_iff.trans h.isRooted_iff
  names_ne_nil := by simp [h.names_ne_nil]
  not_mem := by simp [h.not_mem, h'.not_mem]

end Sync.LiesBelow

namespace LocalPlaybackDirs

variable {dirs : LocalPlaybackDirs}

/-- Whether the subdirectory for images is made of names alone, so that it leads nowhere else. It
    may be empty. -/
def HasNamedSubdir (dirs : LocalPlaybackDirs) : Prop :=
  ∀ component ∈ Path.components dirs.gmImageSubdir, ∃ name, component = .normal name

/-- The names that lead from the root of the playback directories to the one for rendered images. -/
def gmNames (dirs : LocalPlaybackDirs) : List String := "gm-actual" :: wayNames dirs.gmImageSubdir

/-- Where pictures are staged, if the playback directories lie in `root`. -/
def skpPlace (root : Location) : Location := "skps" :: root

/-- Where rendered images are written, if the playback directories lie in `root`. -/
def gmPlace (dirs : LocalPlaybackDirs) (root : Location) : Location := dirs.gmNames.reverse ++ root

theorem liesBelow_skp (dirs : LocalPlaybackDirs) :
    Sync.LiesBelow dirs.root dirs.skp ["skps"] :=
  .join_name dirs.root (by decide) (by decide) (by decide) (by decide)

theorem liesBelow_gmActual (hsubdir : dirs.HasNamedSubdir) :
    Sync.LiesBelow dirs.root dirs.gmActual dirs.gmNames := by
  have habove : Sync.LiesBelow dirs.root (Path.join dirs.root "gm-actual") ["gm-actual"] :=
    .join_name dirs.root (by decide) (by decide) (by decide) (by decide)
  obtain ⟨hrel, hup, _, _⟩ := components_eq_map hsubdir
  refine ⟨?_, (isRooted_join_iff _ hrel).trans habove.isRooted_iff, List.cons_ne_nil _ _, ?_⟩
  · rw [gmActual, wayNames_join _ hrel, habove.wayNames_eq, List.append_assoc]
    rfl
  · simpa [gmNames] using hup

theorem isPrefix_skp (dirs : LocalPlaybackDirs) : dirs.root.toList <+: dirs.skp.toList :=
  isPrefix_join dirs.root (by simp [IsRooted])

/-- No place is in the directory for pictures and in one below that for all images. -/
theorem not_suffix_of_suffix {root top place : Location} (htop : "gm-actual" :: root <:+ top)
    (hskp : skpPlace root <:+ place) : ¬top <:+ place := by
  intro hplace
  have hsame : skpPlace root = "gm-actual" :: root := by
    rcases List.suffix_or_suffix_of_suffix hskp (htop.trans hplace) with h | h
    · exact h.eq_of_length rfl
    · exact (h.eq_of_length rfl).symm
  simp [skpPlace] at hsame

/-- What is at or below the place for pictures is not at or below the one for images. -/
theorem not_suffix_of_skpPlace {root place : Location} (hskp : skpPlace root <:+ place) :
    ¬dirs.gmPlace root <:+ place := by
  refine not_suffix_of_suffix ?_ hskp
  rw [gmPlace, gmNames, List.reverse_cons, List.append_assoc]
  exact List.suffix_append _ _

end LocalPlaybackDirs

end StepRunner
