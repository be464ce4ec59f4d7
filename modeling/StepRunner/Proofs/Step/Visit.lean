import StepRunner.Proofs.Action
import StepRunner.Proofs.Step.HasToGo

namespace StepRunner.Prune

open FileTree

variable {σ : Type} {w w' : World σ} {t : FileTree} {place top : Location} {dir : String}

/-- A directory can be read if its path leads to one. Reading changes nothing. -/
theorem readDirectory_cases (here : Location) (path : String) (t : FileTree) :
    (∃ target, t.stat here path = .ok (target, .directory) ∧
      (readDirectory here path).run t = (.ok (), t)) ∨
    (∀ target, t.stat here path ≠ .ok (target, .directory)) ∧
      ∃ e, (readDirectory here path).run t = (.error e, t) := by
  rw [readDirectory, Disk.run_bind, Disk.run_get]
  simp only
  rcases t.stat here path with e | ⟨target, _ | _ | _⟩
  · exact Or.inr ⟨by simp, _, rfl⟩
  · exact Or.inl ⟨target, rfl, rfl⟩
  · exact Or.inr ⟨by simp, _, rfl⟩
  · exact Or.inr ⟨by simp, _, rfl⟩

/-- What one visit does: it fails and changes nothing, for the path does not lead to a directory to be
    read or to an entry to be removed, or the entry stays, or it is removed where its path leads. -/
theorem visit_cases {result : Except StepError (Option String)}
    (hrun : (visit dir top place).run w = (result, w')) :
    (w' = w ∧ (∃ e, result = .error (.io e)) ∧
      (w.machine.tree.get? place = some .directory ∨
        (staysAsDirectory w.machine.tree w.machine.workDir (pathBelow dir top place) place = false ∧
          isKept place = false)) ∧
      ∀ entry, w.machine.tree.get? place = some entry →
        w.machine.tree.find w.machine.workDir false (pathBelow dir top place) ≠
          .ok (.entry place entry)) ∨
    (result = .ok none ∧ (∃ log, w' = { w with machine := { w.machine with log } }) ∧
      (w.machine.tree.get? place = some .directory → ∃ target,
        w.machine.tree.stat w.machine.workDir (pathBelow dir top place) =
          .ok (target, .directory)) ∧
      (staysAsDirectory w.machine.tree w.machine.workDir (pathBelow dir top place) place = true ∨
        isKept place = true)) ∨
    (result = .ok (some (pathBelow dir top place)) ∧
      staysAsDirectory w.machine.tree w.machine.workDir (pathBelow dir top place) place = false ∧
      isKept place = false ∧ ∃ found entry,
        w.machine.tree.find w.machine.workDir false (pathBelow dir top place) =
          .ok (.entry found entry) ∧
        w' = { w with machine := { w.machine with tree := w.machine.tree.erase found } }) := by
  rw [visit, Action.run_bind, Action.run_machine] at hrun
  simp only at hrun
  by_cases hdir : w.machine.tree.get? place = some .directory
  · have hstays : staysAsDirectory w.machine.tree w.machine.workDir (pathBelow dir top place)
        place = true := by simp [staysAsDirectory, hdir]
    rw [if_pos hdir, Action.run_bind, Action.run_onDisk] at hrun
    rcases readDirectory_cases w.machine.workDir (pathBelow dir top place) w.machine.tree with
      ⟨target, hstat, hread⟩ | ⟨hstat, e, hread⟩
    · rw [hread] at hrun
      simp only [Except.mapError, hstays, if_true] at hrun
      cases hrun
      exact Or.inr (Or.inl ⟨rfl, ⟨_, rfl⟩, fun _ => ⟨target, hstat⟩, Or.inl hstays⟩)
    · rw [hread] at hrun
      cases hrun
      refine Or.inl ⟨rfl, ⟨e, rfl⟩, Or.inl hdir, fun entry hentry hfind => hstat place ?_⟩
      rw [hdir] at hentry
      cases hentry
      exact stat_eq_ok_iff.2 (find_follows hfind (by simp))
  rw [if_neg hdir] at hrun
  by_cases hstays :
      staysAsDirectory w.machine.tree w.machine.workDir (pathBelow dir top place) place = true
  · rw [if_pos hstays] at hrun
    cases hrun
    exact Or.inr (Or.inl ⟨rfl, ⟨_, rfl⟩, fun h => absurd h hdir, Or.inl hstays⟩)
  rw [if_neg hstays] at hrun
  by_cases hkept : isKept place = true
  · rw [if_pos hkept] at hrun
    cases hrun
    exact Or.inr (Or.inl ⟨rfl, ⟨_, rfl⟩, fun h => absurd h hdir, Or.inr hkept⟩)
  rw [if_neg hkept, Action.run_bind, Action.run_onDisk, Disk.removeFile_run] at hrun
  rw [Bool.not_eq_true] at hstays hkept
  rcases hfind : w.machine.tree.find w.machine.workDir false (pathBelow dir top place) with
    e | ⟨found, entry⟩ | found
  · rw [hfind] at hrun
    cases hrun
    exact Or.inl ⟨rfl, ⟨e, rfl⟩, Or.inr ⟨hstays, hkept⟩, by simp⟩
  · rw [hfind] at hrun
    simp only at hrun
    by_cases hentry : entry = .directory
    · rw [if_pos hentry] at hrun
      cases hrun
      refine Or.inl ⟨rfl, ⟨_, rfl⟩, Or.inr ⟨hstays, hkept⟩, fun own hown heq => hdir ?_⟩
      cases heq
      rw [hown, hentry]
    · rw [if_neg hentry] at hrun
      cases hrun
      exact Or.inr (Or.inr ⟨rfl, hstays, hkept, found, entry, rfl, rfl⟩)
  · rw [hfind] at hrun
    cases hrun
    exact Or.inl ⟨rfl, ⟨_, rfl⟩, Or.inr ⟨hstays, hkept⟩, by simp⟩

/-- Whether a directory cannot be read, or an entry that has to go cannot be removed, for its path
    does not lead to it. -/
structure IsRefused (t : FileTree) (here : Location) (dir : String) (top place : Location) :
    Prop where
  isBelow : FileTree.isBelow top place = true
  needed : t.get? place = some .directory ∨ HasToGo t here dir top place
  not_found : ∀ entry, t.get? place = some entry →
    t.find here false (pathBelow dir top place) ≠ .ok (.entry place entry)

section Visiting

variable (hdir : t.NamesDirectory w.machine.workDir dir top)
  (hprunes : Prunes w.machine.workDir dir top t w.machine.tree)
  (hbelow : FileTree.isBelow top place = true) (hentry : t.get? place ≠ none)
  (hsame : w.machine.tree.get? place = t.get? place)

include hdir hprunes hbelow hentry hsame

/-- A visit takes away what had to go before others were taken away, and nothing else. -/
theorem visit_of_prunes {result : Except StepError (Option String)}
    (hrun : (visit dir top place).run w = (result, w')) :
    (w' = w ∧ (∃ e, result = .error (.io e)) ∧
      IsRefused w.machine.tree w.machine.workDir dir top place) ∨
    (result = .ok none ∧ (∃ log, w' = { w with machine := { w.machine with log } }) ∧
      ¬HasToGo t w.machine.workDir dir top place ∧
      (t.get? place = some .directory → IsUsable (pathBelow dir top place))) ∨
    (result = .ok (some (pathBelow dir top place)) ∧
      HasToGo t w.machine.workDir dir top place ∧ IsUsable (pathBelow dir top place) ∧
      ∃ tree, w' = { w with machine := { w.machine with tree } } ∧
        ∀ other, tree.get? other = if other = place then none else w.machine.tree.get? other) := by
  rcases visit_cases hrun with ⟨rfl, hfails, hneeded, hnot⟩ | ⟨rfl, hlog, hread, hstays⟩ |
    ⟨rfl, hstays, hkept, found, entry, hfind, rfl⟩
  · refine Or.inl ⟨rfl, hfails, hbelow, ?_, hnot⟩
    exact hneeded.imp_right fun ⟨hstays, hkept⟩ => hasToGo_iff.2 ⟨hbelow, hstays, hkept⟩
  · refine Or.inr (Or.inl ⟨rfl, hlog, fun hgoes => ?_, fun hdirectory => ?_⟩)
    · obtain ⟨_, hnot, hkept⟩ := hasToGo_iff.1 (hprunes.hasToGo hsame hgoes)
      rcases hstays with hstays | hstays
      · rw [hnot] at hstays
        cases hstays
      · rw [hkept] at hstays
        cases hstays
    · obtain ⟨target, hstat⟩ := hread (hsame.trans hdirectory)
      exact (find_eq_ok_iff.1 (stat_eq_ok_iff.1 hstat)).1
  · have husable := (find_eq_ok_iff.1 hfind).1
    obtain ⟨target, htarget⟩ := exists_namesDirectory hbelow (by rwa [hsame]) hfind
    obtain rfl := hdir.unique (htarget.mono hprunes.keeps)
    have hgoes : HasToGo t w.machine.workDir dir top place :=
      (hprunes.hasToGo_iff htarget hsame).1 (hasToGo_iff.2 ⟨hbelow, hstays, hkept⟩)
    obtain ⟨own, hown⟩ := Option.ne_none_iff_exists'.1 hentry
    have hthere := find_pathBelow hdir hbelow hown husable
    rw [find_mono hfind hprunes.keeps] at hthere
    cases hthere
    refine Or.inr (Or.inr ⟨rfl, hgoes, husable, _, rfl, ?_⟩)
    have hnot : w.machine.tree.get? place ≠ some .directory := hsame ▸ hgoes.not_directory
    refine get?_erase (isBare_of_not_directory hnot) ?_
    rintro rfl
    exact hnot rfl

end Visiting

end StepRunner.Prune
