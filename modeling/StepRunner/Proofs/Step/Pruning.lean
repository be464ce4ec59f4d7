import StepRunner.Proofs.Step.Prune
import StepRunner.Proofs.Storage.Memory

namespace StepRunner.Prune

open FileTree

variable {σ : Type} {w : World σ} {t t' : FileTree} {here place top : Location}
  {removed : List String} {dir : String}

/-- After pruning nothing has to go any more, if `dir` still leads to the directory: what is left was
    not to go, and with the links that are gone no link to a directory has become another one. -/
theorem Removes.not_hasToGo (h : Removes here dir top t t' removed)
    (hprunes : Prunes here dir top t t') (hnames : t'.NamesDirectory here dir top) :
    ¬HasToGo t' here dir top place := by
  intro hgoes
  by_cases hold : HasToGo t here dir top place
  · exact hgoes.get?_ne_none (h.get?_eq_none place hold)
  · exact hold ((hprunes.hasToGo_iff hnames (h.get?_eq place hold)).1 hgoes)

/-- Pruning a directory, in whatever order the walk visits what lies below. Whatever is gone had to
    go, so that a link to a directory stays if the links on the way of `dir` and its own are not
    more than a path may follow. If all was done, exactly what had to go is gone, its paths are
    given, and to prune again takes away nothing. It may stop before with an error, but only where a
    directory cannot be read or what has to go cannot be removed, and that is so nowhere if all is
    in reach. What is no directory is left as it is. -/
theorem keepingSentinels_removes (dir : String) (w : World σ)
    (hwalk : ∀ places, (w.machine.walkOrder places).Perm places) :
    (∀ top, w.machine.tree.stat w.machine.workDir dir = .ok (top, .directory) →
      ∃ result t' log, (keepingSentinels dir).run w =
          (result, { w with machine := { w.machine with tree := t', log } }) ∧
        Prunes w.machine.workDir dir top w.machine.tree t' ∧
        (∀ name above target before links,
          w.machine.tree.Reaches (wayStart w.machine.workDir dir) (wayNames dir) top before →
          w.machine.tree.Reaches above [name] target links → before + links ≤ maxLinks →
          t'.get? (name :: above) = w.machine.tree.get? (name :: above)) ∧
        (∀ e, result = .error e → ∃ place, IsRefused t' w.machine.workDir dir top place) ∧
        (IsInReach w.machine.tree w.machine.workDir dir top → ∃ removed, result = .ok removed) ∧
        ∀ removed, result = .ok removed →
          Removes w.machine.workDir dir top w.machine.tree t' removed ∧
          ∀ again : World σ, again.machine.tree = t' → again.machine.workDir = w.machine.workDir →
            (∀ places, (again.machine.walkOrder places).Perm places) →
            ∃ log, (keepingSentinels dir).run again =
              (.ok [], { again with machine := { again.machine with log } })) ∧
    ((∀ top, w.machine.tree.stat w.machine.workDir dir ≠ .ok (top, .directory)) →
      (keepingSentinels dir).run w = (.ok [], w)) := by
  refine ⟨fun top hdir => ?_, keepingSentinels_of_not_directory⟩
  rcases hrun : (keepingSentinels dir).run w with ⟨result, w'⟩
  obtain ⟨t', log, rfl, hprunes, _, ⟨⟨e, rfl⟩, place, hrefused⟩ | ⟨removed, rfl, hremoves, hreads⟩⟩ :=
    keepingSentinels_of_directory hwalk hdir hrun
  · refine ⟨_, t', log, rfl, hprunes, fun _ _ _ _ _ => hprunes.get?_of_reaches,
      fun _ _ => ⟨place, hrefused⟩, fun hreach => ?_, ?_⟩
    · exact absurd hrefused (hreach.not_isRefused hprunes)
    · rintro _ ⟨⟩
  refine ⟨_, t', log, rfl, hprunes, fun _ _ _ _ _ => hprunes.get?_of_reaches, ?_,
    fun _ => ⟨removed, rfl⟩, ?_⟩
  · rintro _ ⟨⟩
  rintro _ ⟨⟩
  refine ⟨hremoves, ?_⟩
  rintro again rfl hwork hwalk'
  rw [← hwork] at hdir hprunes hremoves
  by_cases hdir' : again.machine.tree.stat again.machine.workDir dir = .ok (top, .directory)
  · have hnames := (stat_eq_directory_iff (find_eq_ok_iff.1 (stat_eq_ok_iff.1 hdir')).1.2.1).1 hdir'
    refine keepingSentinels_of_stays hwalk' hdir' (fun place => hremoves.not_hasToGo hprunes hnames)
      fun place hbelow hdirectory => hreads place hbelow (hprunes.keeps _ _ hdirectory)
  · refine ⟨again.machine.log, keepingSentinels_of_not_directory fun other hother => hdir' ?_⟩
    have hthere := find_mono (stat_eq_ok_iff.1 hother) hprunes.keeps
    rw [stat_eq_ok_iff] at hdir
    rw [hdir] at hthere
    cases hthere
    exact hother

/-- A world with a directory behind a link, which holds files, files that are kept, a link to a
    directory over another link, and links that lead in a circle, nowhere and to a file outside. -/
def linked : World ObjectStore :=
  let world := ObjectStore.trial
    ([(["top"], .directory), (["way"], .link "top"), (["outside"], .file ⟨[1], ⟨0⟩, false⟩),
      (["inner", "top"], .directory),
      (["far", "top"], .link "near"), (["near", "top"], .link "inner"),
      (["circle", "top"], .link "circle"), (["nowhere", "top"], .link "missing"),
      (["out", "top"], .link "../outside"),
      (["a", "inner", "top"], .file ⟨[2], ⟨0⟩, false⟩),
      (["LAST_COMPARISON_SUCCEEDED", "inner", "top"], .file ⟨[3], ⟨0⟩, false⟩)].foldl
        (fun t e => t.put e.1 e.2) .empty) []
  { world with machine := { world.machine with walkOrder := List.reverse } }

theorem keepingSentinels_removes_linked : IsInReach linked.machine.tree [] "way" ["top"] ∧
    ∃ t' removed log,
      (keepingSentinels "way").run linked =
        (.ok removed, { linked with machine := { linked.machine with tree := t', log } }) ∧
      removed = ["way/circle", "way/nowhere", "way/out", "way/inner/a"] ∧
      Removes [] "way" ["top"] linked.machine.tree t' removed ∧
      ∃ log', (keepingSentinels "way").run
          { linked with machine := { linked.machine with tree := t' } } =
        (.ok [], { linked with machine := { linked.machine with tree := t', log := log' } }) := by
  have hwalk (places : List Location) : (linked.machine.walkOrder places).Perm places :=
    places.reverse_perm
  have hway : linked.machine.tree.Reaches (wayStart [] "way") (wayNames "way") ["top"] 1 := by
    have hname : wayNames "way" = ["way"] := by decide
    have hlink : linked.machine.tree.get? ["way"] = some (.link "top") := by decide +kernel
    have htop : linked.machine.tree.get? ["top"] = some .directory := by decide +kernel
    rw [hname]
    exact .jump (by decide) hlink (Or.inr rfl) (.enter (by decide) htop (.here ["top"]))
  have hpaths : ∀ place ∈ linked.machine.tree.below ["top"],
      IsUsable (pathBelow "way" ["top"] place) := by decide +kernel
  have hreach : IsInReach linked.machine.tree [] "way" ["top"] := by
    refine isInReach_of_links (Or.inr (by decide)) hway (by decide) fun place hbelow hneeded =>
      hpaths place (mem_below.2 ⟨hbelow, ?_⟩)
    rcases hneeded with hdirectory | hgoes
    · simp [hdirectory]
    · exact hgoes.get?_ne_none
  obtain ⟨hprunes, _⟩ := keepingSentinels_removes "way" linked hwalk
  obtain ⟨result, t', log, hrun, _, _, _, hends, hall⟩ := hprunes ["top"] (by decide +kernel)
  obtain ⟨removed, rfl⟩ := hends hreach
  obtain ⟨hremoves, hagain⟩ := hall removed rfl
  refine ⟨hreach, t', removed, log, hrun, ?_, hremoves, hagain _ rfl rfl hwalk⟩
  have hpaths : ((keepingSentinels "way").run linked).1 =
      .ok ["way/circle", "way/nowhere", "way/out", "way/inner/a"] := by
    decide +kernel
  rw [hrun] at hpaths
  exact Except.ok.inj hpaths

end StepRunner.Prune
