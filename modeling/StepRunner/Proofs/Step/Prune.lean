import StepRunner.Proofs.Step.Visit

namespace StepRunner.Prune

open FileTree

variable {σ : Type} {w w' : World σ} {t t' : FileTree} {here place top : Location}
  {places gone : List Location} {dir : String}

/-- `Takes here dir top t places t₀ t' gone` says that of the entries at `places`, in this order, those
    at `gone` were taken away from the tree `t₀`, each of which had to go in `t`. -/
structure Takes (here : Location) (dir : String) (top : Location) (t : FileTree)
    (places : List Location) (t₀ t' : FileTree) (gone : List Location) : Prop where
  sublist : gone.Sublist places
  hasToGo : ∀ place ∈ gone, HasToGo t here dir top place
  isUsable : ∀ place ∈ gone, IsUsable (pathBelow dir top place)
  get?_eq : ∀ place, t'.get? place = if place ∈ gone then none else t₀.get? place
  eq_of_nil : gone = [] → t' = t₀

/-- Whether all at `places` was done that there is to do: what had to go is among what is gone, and
    directories were read by their paths. -/
structure Completes (here : Location) (dir : String) (top : Location) (t : FileTree)
    (places gone : List Location) : Prop where
  mem : ∀ place ∈ places, HasToGo t here dir top place → place ∈ gone
  isUsable : ∀ place ∈ places, t.get? place = some .directory → IsUsable (pathBelow dir top place)

section Walking

variable {first : Location} {t₀ t₁ : FileTree}

theorem Takes.nil (t t₀ : FileTree) (places : List Location) :
    Takes here dir top t places t₀ t₀ [] :=
  ⟨List.nil_sublist _, by simp, by simp, by simp, fun _ => rfl⟩

/-- One more entry that stays. -/
theorem Takes.cons_stays (h : Takes here dir top t places t₀ t' gone) (first : Location) :
    Takes here dir top t (first :: places) t₀ t' gone :=
  { h with sublist := h.sublist.cons first }

/-- One more entry that has to go, before the others. -/
theorem Takes.cons_goes (h : Takes here dir top t places t₁ t' gone)
    (hgoes : HasToGo t here dir top first) (husable : IsUsable (pathBelow dir top first))
    (htree : ∀ place, t₁.get? place = if place = first then none else t₀.get? place) :
    Takes here dir top t (first :: places) t₀ t' (first :: gone) where
  sublist := h.sublist.cons_cons first
  hasToGo := List.forall_mem_cons.2 ⟨hgoes, h.hasToGo⟩
  isUsable := List.forall_mem_cons.2 ⟨husable, h.isUsable⟩
  get?_eq := by
    intro place
    rw [h.get?_eq, htree]
    by_cases hmem : place ∈ gone
    · simp [hmem]
    · simp [hmem]
  eq_of_nil := fun hnil => absurd hnil (List.cons_ne_nil _ _)

theorem Completes.cons_stays (h : Completes here dir top t places gone)
    (hstays : ¬HasToGo t here dir top first)
    (husable : t.get? first = some .directory → IsUsable (pathBelow dir top first)) :
    Completes here dir top t (first :: places) gone where
  mem := List.forall_mem_cons.2 ⟨fun hgoes => absurd hgoes hstays, h.mem⟩
  isUsable := List.forall_mem_cons.2 ⟨husable, h.isUsable⟩

theorem Completes.cons_goes (h : Completes here dir top t places gone)
    (hgoes : HasToGo t here dir top first) :
    Completes here dir top t (first :: places) (first :: gone) where
  mem := List.forall_mem_cons.2 ⟨fun _ => List.mem_cons_self, fun place hmem hgoes =>
    List.mem_cons_of_mem _ (h.mem place hmem hgoes)⟩
  isUsable := List.forall_mem_cons.2 ⟨fun hdir => absurd hdir hgoes.not_directory, h.isUsable⟩

/-- `Walked here dir top t places t₀ t' result` says that a walk over `places` has made the tree `t'`
    out of `t₀`: it has taken away what had to go in `t`, in its order, and has done all that there
    was to do or stopped where it was refused. -/
def Walked (here : Location) (dir : String) (top : Location) (t : FileTree)
    (places : List Location) (t₀ t' : FileTree) (result : Except StepError (List String)) : Prop :=
  ∃ gone, Takes here dir top t places t₀ t' gone ∧
    (((∃ e, result = .error (.io e)) ∧ ∃ place ∈ places, IsRefused t' here dir top place) ∨
      (result = .ok (gone.map (pathBelow dir top)) ∧ Completes here dir top t places gone))

theorem Walked.of_refused (hrefused : IsRefused t₀ here dir top first) (e : IoError)
    (places : List Location) :
    Walked here dir top t (first :: places) t₀ t₀ (.error (.io e)) :=
  ⟨[], .nil t _ _, Or.inl ⟨⟨e, rfl⟩, first, List.mem_cons_self, hrefused⟩⟩

theorem Walked.cons_stays {result : Except StepError (List String)}
    (h : Walked here dir top t places t₀ t' result) (hstays : ¬HasToGo t here dir top first)
    (husable : t.get? first = some .directory → IsUsable (pathBelow dir top first)) :
    Walked here dir top t (first :: places) t₀ t' result := by
  obtain ⟨gone, htakes, ⟨hfails, place, hmem, hrefused⟩ | ⟨hok, hall⟩⟩ := h
  · exact ⟨gone, htakes.cons_stays first,
      Or.inl ⟨hfails, place, List.mem_cons_of_mem _ hmem, hrefused⟩⟩
  · exact ⟨gone, htakes.cons_stays first, Or.inr ⟨hok, hall.cons_stays hstays husable⟩⟩

theorem Walked.cons_goes {result : Except StepError (List String)}
    (h : Walked here dir top t places t₁ t' result) (hgoes : HasToGo t here dir top first)
    (husable : IsUsable (pathBelow dir top first))
    (htree : ∀ place, t₁.get? place = if place = first then none else t₀.get? place) :
    Walked here dir top t (first :: places) t₀ t'
      (result.map (pathBelow dir top first :: ·)) := by
  obtain ⟨gone, htakes, ⟨⟨e, rfl⟩, place, hmem, hrefused⟩ | ⟨rfl, hall⟩⟩ := h
  · exact ⟨first :: gone, htakes.cons_goes hgoes husable htree,
      Or.inl ⟨⟨e, rfl⟩, place, List.mem_cons_of_mem _ hmem, hrefused⟩⟩
  · exact ⟨first :: gone, htakes.cons_goes hgoes husable htree,
      Or.inr ⟨rfl, hall.cons_goes hgoes⟩⟩

/-- A walk goes on after each visit that does not fail. -/
theorem entries_cons_run (dir : String) (top first : Location) (rest : List Location) (w : World σ) :
    (entries dir top (first :: rest)).run w =
      match (visit dir top first).run w with
      | (.error e, w₁) => (.error e, w₁)
      | (.ok removed, w₁) =>
        (((entries dir top rest).run w₁).1.map (removed.toList ++ ·),
          ((entries dir top rest).run w₁).2) := by
  rw [entries, Action.run_bind]
  rcases (visit dir top first).run w with ⟨e | removed, w₁⟩
  · rfl
  simp only
  rw [Action.run_bind]
  rcases (entries dir top rest).run w₁ with ⟨e | others, w₂⟩ <;> rfl

/-- What is to be visited still, after some of it was taken away before: it lies below the directory
    and stands there as at first. -/
def AreLeft (top : Location) (t t₀ : FileTree) (places : List Location) : Prop :=
  ∀ place ∈ places, FileTree.isBelow top place = true ∧ t.get? place ≠ none ∧
    t₀.get? place = t.get? place

/-- A walk takes away what had to go when it began, in its order, and nothing else: whether an entry
    has to go does not depend on what was taken away before it. It stops with an error only where
    it is refused. -/
theorem entries_of_prunes (hdir : t.NamesDirectory w.machine.workDir dir top)
    (hprunes : Prunes w.machine.workDir dir top t w.machine.tree) (hnodup : places.Nodup)
    (hplaces : AreLeft top t w.machine.tree places) : ∃ result tree log,
      (entries dir top places).run w =
        (result, { w with machine := { w.machine with tree, log } }) ∧
      Walked w.machine.workDir dir top t places w.machine.tree tree result := by
  induction places generalizing w with
  | nil =>
    exact ⟨_, w.machine.tree, w.machine.log, rfl, [], .nil t _ _, Or.inr ⟨rfl, by simp, by simp⟩⟩
  | cons first rest ih =>
    obtain ⟨hfirst, hrestNodup⟩ := List.nodup_cons.1 hnodup
    obtain ⟨⟨hbelow, hentry, hsame⟩, hrestPlaces⟩ := List.forall_mem_cons.1 hplaces
    rw [entries_cons_run]
    rcases hvisit : (visit dir top first).run w with ⟨visited, w₁⟩
    rcases visit_of_prunes hdir hprunes hbelow hentry hsame hvisit with
      ⟨rfl, ⟨e, rfl⟩, hrefused⟩ | ⟨rfl, ⟨log, rfl⟩, hstays, husable⟩ |
      ⟨rfl, hgoes, husable, tree, rfl, htree⟩
    · exact ⟨_, _, _, rfl, .of_refused hrefused e rest⟩
    · obtain ⟨result, tree, log', hrest, hwalked⟩ :=
        ih (w := { w with machine := { w.machine with log } }) hdir hprunes hrestNodup hrestPlaces
      refine ⟨result, tree, log', ?_, hwalked.cons_stays hstays husable⟩
      simp only [hrest]
      cases result <;> rfl
    · have hprunes' : Prunes w.machine.workDir dir top t tree := by
        intro place
        rw [htree]
        split
        · next heq => exact Or.inr ⟨rfl, heq ▸ hgoes, heq ▸ husable⟩
        · exact hprunes place
      have hplaces' : AreLeft top t tree rest := by
        intro place hmem
        obtain ⟨hbelow, hentry, hsame⟩ := hrestPlaces place hmem
        have hne : place ≠ first := fun heq => hfirst (heq ▸ hmem)
        exact ⟨hbelow, hentry, by rw [htree, if_neg hne, hsame]⟩
      obtain ⟨result, tree', log, hrest, hwalked⟩ :=
        ih (w := { w with machine := { w.machine with tree } }) hdir hprunes' hrestNodup hplaces'
      refine ⟨_, tree', log, ?_, hwalked.cons_goes hgoes husable htree⟩
      simp only [hrest]
      rfl

end Walking

/-- `Removes here dir top t t' removed` says that `t'` is the tree `t` without what has to go below
    the directory `top`, and that `removed` gives the paths of all that went, each once, as seen
    from `here` through the path `dir`. -/
structure Removes (here : Location) (dir : String) (top : Location) (t t' : FileTree)
    (removed : List String) : Prop where
  get?_eq_none : ∀ place, HasToGo t here dir top place → t'.get? place = none
  get?_eq : ∀ place, ¬HasToGo t here dir top place → t'.get? place = t.get? place
  removed_eq : ∃ places : List Location, places.Nodup ∧
    (∀ place, place ∈ places ↔ HasToGo t here dir top place) ∧
    removed = places.map (pathBelow dir top)
  nodup : removed.Nodup
  find_eq : ∀ place entry, HasToGo t here dir top place → t.get? place = some entry →
    t.find here false (pathBelow dir top place) = .ok (.entry place entry)

theorem Takes.prunes (h : Takes here dir top t places t t' gone) : Prunes here dir top t t' := by
  intro place
  rw [h.get?_eq]
  split
  · next hmem => exact Or.inr ⟨rfl, h.hasToGo place hmem, h.isUsable place hmem⟩
  · exact Or.inl rfl

/-- A walk over all that lies below a directory, if it does not stop before, has removed all that
    had to go. -/
theorem Takes.removes (h : Takes here dir top t places t t' gone)
    (hall : Completes here dir top t places gone) (hdir : t.NamesDirectory here dir top)
    (hperm : places.Perm (t.below top)) :
    Removes here dir top t t' (gone.map (pathBelow dir top)) := by
  have hmem (place : Location) : place ∈ gone ↔ HasToGo t here dir top place := by
    refine ⟨h.hasToGo place, fun hgoes => hall.mem place ?_ hgoes⟩
    exact hperm.mem_iff.2 (mem_below.2 ⟨hgoes.isBelow_eq, hgoes.get?_ne_none⟩)
  have hnodup : gone.Nodup := (hperm.nodup_iff.2 (nodup_below t top)).sublist h.sublist
  refine ⟨fun place hgoes => ?_, fun place hstays => ?_, ⟨gone, hnodup, hmem, rfl⟩, ?_,
    fun place entry hgoes hentry => ?_⟩
  · rw [h.get?_eq, if_pos ((hmem place).2 hgoes)]
  · rw [h.get?_eq, if_neg (mt (hmem place).1 hstays)]
  · refine List.Nodup.map_on (fun first hfirst second hsecond heq => ?_) hnodup
    have hgoes := h.hasToGo first hfirst
    have hgoes' := h.hasToGo second hsecond
    exact pathBelow_injOn hgoes.isBelow_eq hgoes.get?_ne_none hgoes'.isBelow_eq
      hgoes'.get?_ne_none heq
  · exact find_pathBelow hdir hgoes.isBelow_eq hentry (h.isUsable place ((hmem place).2 hgoes))

/-- Whether all directories below one can be looked up by their paths. -/
def IsReadable (t : FileTree) (dir : String) (top : Location) : Prop :=
  ∀ place, FileTree.isBelow top place = true → t.get? place = some .directory →
    IsUsable (pathBelow dir top place)

/-- What pruning a directory does, wherever the walk finds first what lies below: it removes what has
    to go and reads all directories, or it stops before with an error where it is refused. -/
theorem keepingSentinels_of_directory {result : Except StepError (List String)}
    (hwalk : ∀ places, (w.machine.walkOrder places).Perm places)
    (hdir : w.machine.tree.stat w.machine.workDir dir = .ok (top, .directory))
    (hrun : (keepingSentinels dir).run w = (result, w')) : ∃ tree log,
      w' = { w with machine := { w.machine with tree, log } } ∧
      Prunes w.machine.workDir dir top w.machine.tree tree ∧
      ((∀ place, ¬HasToGo w.machine.tree w.machine.workDir dir top place) →
        tree = w.machine.tree) ∧
      (((∃ e, result = .error (.io e)) ∧
          ∃ place, IsRefused tree w.machine.workDir dir top place) ∨
        ∃ removed, result = .ok removed ∧
          Removes w.machine.workDir dir top w.machine.tree tree removed ∧
          IsReadable w.machine.tree dir top) := by
  have hperm := hwalk (w.machine.tree.below top)
  have hnames : w.machine.tree.NamesDirectory w.machine.workDir dir top :=
    (stat_eq_directory_iff (find_eq_ok_iff.1 (stat_eq_ok_iff.1 hdir)).1.2.1).1 hdir
  have hleft : AreLeft top w.machine.tree w.machine.tree
      (w.machine.walkOrder (w.machine.tree.below top)) := fun place hmem =>
    let ⟨hbelow, hentry⟩ := mem_below.1 (hperm.mem_iff.1 hmem)
    ⟨hbelow, hentry, rfl⟩
  obtain ⟨ended, tree, log, hentries, gone, htakes, hends⟩ := entries_of_prunes hnames (.refl _)
    (hperm.nodup_iff.2 (nodup_below _ top)) hleft
  have hsame (hstays : ∀ place, ¬HasToGo w.machine.tree w.machine.workDir dir top place) :
      tree = w.machine.tree :=
    htakes.eq_of_nil (List.eq_nil_iff_forall_not_mem.2 fun place hmem =>
      hstays place (htakes.hasToGo place hmem))
  rw [keepingSentinels, Action.run_bind, Action.run_machine] at hrun
  simp only [hdir] at hrun
  rw [Action.run_bind, hentries] at hrun
  rcases hends with ⟨⟨e, rfl⟩, place, _, hrefused⟩ | ⟨rfl, hall⟩
  · cases hrun
    exact ⟨tree, log, rfl, htakes.prunes, hsame, Or.inl ⟨⟨e, rfl⟩, place, hrefused⟩⟩
  · simp only at hrun
    rw [Action.run_bind, Action.run_note] at hrun
    cases hrun
    refine ⟨tree, _, rfl, htakes.prunes, hsame,
      Or.inr ⟨_, rfl, htakes.removes hall hnames hperm, fun place hbelow hdirectory => ?_⟩⟩
    refine hall.isUsable place (hperm.mem_iff.2 (mem_below.2 ⟨hbelow, ?_⟩)) hdirectory
    simp [hdirectory]

/-- What is no directory is not pruned. -/
theorem keepingSentinels_of_not_directory
    (hdir : ∀ top, w.machine.tree.stat w.machine.workDir dir ≠ .ok (top, .directory)) :
    (keepingSentinels dir).run w = (.ok [], w) := by
  rw [keepingSentinels, Action.run_bind, Action.run_machine]
  -- `simp only` takes the other branch, since `hdir` rules out the first one.
  simp only
  rfl

/-- Whether pruning a directory is nowhere refused: the paths that it uses can be looked up, and `dir`
    leads to the directory whatever becomes of what has to go. -/
structure IsInReach (t : FileTree) (here : Location) (dir : String) (top : Location) : Prop where
  isUsable : ∀ place, FileTree.isBelow top place = true →
    t.get? place = some .directory ∨ HasToGo t here dir top place →
    IsUsable (pathBelow dir top place)
  names : ∀ t' : FileTree, (∀ place, ¬HasToGo t here dir top place →
    t'.get? place = t.get? place) → t'.NamesDirectory here dir top

theorem IsInReach.not_isRefused (h : IsInReach t here dir top)
    (hprunes : Prunes here dir top t t') : ¬IsRefused t' here dir top place := by
  rintro ⟨hbelow, hneeded, hnot⟩
  have hnames : t'.NamesDirectory here dir top := h.names t' fun place hstays =>
    (hprunes place).resolve_right fun ⟨_, hgoes, _⟩ => hstays hgoes
  obtain ⟨entry, hentry⟩ : ∃ entry, t'.get? place = some entry :=
    hneeded.elim (fun hdirectory => ⟨_, hdirectory⟩) HasToGo.exists_entry
  have hthere := hprunes.keeps _ _ hentry
  refine hnot entry hentry (find_pathBelow hnames hbelow hentry (h.isUsable place hbelow ?_))
  refine hneeded.imp (fun hdirectory => hprunes.keeps _ _ hdirectory) ?_
  exact (hprunes.hasToGo_iff hnames (hentry.trans hthere.symm)).1

/-- All is in reach if the paths can be looked up and at most half of the links that a path may
    follow are on the way of `dir`. -/
theorem isInReach_of_links {links : Nat} (husable : dir = "" ∨ IsUsable dir)
    (hdir : t.Reaches (FileTree.wayStart here dir) (wayNames dir) top links)
    (hlinks : links + links ≤ maxLinks)
    (hpaths : ∀ place, FileTree.isBelow top place = true →
      t.get? place = some .directory ∨ HasToGo t here dir top place →
      IsUsable (pathBelow dir top place)) : IsInReach t here dir top where
  isUsable := hpaths
  names := by
    intro t' hsame
    refine ⟨husable, links, by omega, reaches_of_hasToGo hdir (fun place => ?_) hdir hlinks⟩
    by_cases hgoes : HasToGo t here dir top place
    · exact Or.inr ⟨hgoes, hpaths place hgoes.isBelow_eq (Or.inr hgoes)⟩
    · exact Or.inl (hsame place hgoes)

/-- Where nothing has to go pruning writes notes at most, if the directories can be read. -/
theorem keepingSentinels_of_stays
    (hwalk : ∀ places, (w.machine.walkOrder places).Perm places)
    (hdir : w.machine.tree.stat w.machine.workDir dir = .ok (top, .directory))
    (hstays : ∀ place, ¬HasToGo w.machine.tree w.machine.workDir dir top place)
    (hreads : IsReadable w.machine.tree dir top) : ∃ log, (keepingSentinels dir).run w =
      (.ok [], { w with machine := { w.machine with log } }) := by
  have hnames : w.machine.tree.NamesDirectory w.machine.workDir dir top :=
    (stat_eq_directory_iff (find_eq_ok_iff.1 (stat_eq_ok_iff.1 hdir)).1.2.1).1 hdir
  have hreach : IsInReach w.machine.tree w.machine.workDir dir top := by
    refine ⟨fun place hbelow hneeded => ?_, fun t' hsame => ?_⟩
    · exact hreads place hbelow (hneeded.resolve_right (hstays place))
    · exact hnames.mono fun place _ hentry => (hsame place (hstays place)).trans hentry
  rcases hrun : (keepingSentinels dir).run w with ⟨result, w'⟩
  obtain ⟨tree, log, rfl, hprunes, hsame, ⟨_, place, hrefused⟩ | ⟨removed, rfl, hremoves, _⟩⟩ :=
    keepingSentinels_of_directory hwalk hdir hrun
  · exact absurd hrefused (hreach.not_isRefused hprunes)
  · obtain rfl := hsame hstays
    obtain ⟨places, _, hmem, rfl⟩ := hremoves.removed_eq
    obtain rfl : places = [] :=
      List.eq_nil_iff_forall_not_mem.2 fun place h => hstays place ((hmem place).1 h)
    exact ⟨log, rfl⟩

theorem visit_isOnMachine (dir : String) (top place : Location) :
    Action.IsOnMachine fun σ => (visit dir top place : Action σ StepError (Option String)) := by
  refine .bind .machine fun m => ?_
  have hrest : Action.IsOnMachine fun σ => (do
      if staysAsDirectory m.tree m.workDir (pathBelow dir top place) place then return none
      if isKept place then
        Action.note .debug .download "Keeping sentinel" [("path", .text (pathBelow dir top place))]
        return none
      Action.onDisk .io fun here => Disk.removeFile here (pathBelow dir top place)
      return some (pathBelow dir top place) : Action σ StepError (Option String)) := by
    split
    · exact .pure none
    split
    · exact .bind (.note _ _ _ _) fun _ => .pure none
    · exact .bind (.onDisk _ _) fun _ => .pure _
  simp only
  split
  · exact .bind (.onDisk _ _) fun _ => hrest
  · exact hrest

theorem entries_isOnMachine (dir : String) (top : Location) (places : List Location) :
    Action.IsOnMachine fun σ => (entries dir top places : Action σ StepError (List String)) := by
  induction places with
  | nil => exact .pure []
  | cons first rest ih =>
    exact .bind (visit_isOnMachine dir top first) fun _ => .bind ih fun _ => .pure _

theorem keepingSentinels_isOnMachine (dir : String) :
    Action.IsOnMachine fun σ => (keepingSentinels dir : Action σ StepError (List String)) := by
  refine .bind .machine fun m => ?_
  split
  · exact .bind (entries_isOnMachine _ _ _) fun removed => .bind (.note _ _ _ _) fun _ => .pure _
  · exact .pure []

end StepRunner.Prune
