import StepRunner.Proofs.FileTree.Way

namespace StepRunner.FileTree

/-- Whether a way may go on at a place: there is a directory, or a link to one. -/
def IsOpen (t : FileTree) (place : Location) : Prop :=
  t.get? place = some .directory ∨
    ∃ text dir links, t.get? place = some (.link text) ∧
      t.Reaches (wayStart place.tail text) (waySteps text) dir links

/-- The entries of `t` are in `t'`, too. -/
def Keeps (t t' : FileTree) : Prop :=
  ∀ place entry, t.get? place = some entry → t'.get? place = some entry

/-- Two trees with the same entries. -/
def Same (t t' : FileTree) : Prop := ∀ place, t'.get? place = t.get? place

/-- Two trees with the same entries but at one place. -/
def SameOff (place : Location) (t t' : FileTree) : Prop :=
  ∀ other, other ≠ place → t'.get? other = t.get? other

/-- `t'` has some directories more than `t`, only at allowed places. -/
def Grows (allowed : Location → Prop) (t t' : FileTree) : Prop :=
  ∀ place, t'.get? place = t.get? place ∨
    (t.get? place = none ∧ t'.get? place = some .directory ∧ allowed place)

variable {t t' t'' : FileTree} {follow : Bool} {here dir place changed : Location}
  {entry : Entry} {target : Target} {steps : List String} {links : Nat} {allowed more : Location → Prop}

theorem Same.refl (t : FileTree) : t.Same t := fun _ => rfl

theorem Same.symm (h : t.Same t') : t'.Same t := fun place => (h place).symm

theorem Same.keeps (h : t.Same t') : t.Keeps t' := fun place _ hentry => (h place).trans hentry

theorem Same.grows (h : t.Same t') : t.Grows allowed t' := fun place => Or.inl (h place)

theorem SameOff.symm (h : SameOff place t t') : SameOff place t' t :=
  fun other hother => (h other hother).symm

theorem SameOff.trans (h : SameOff place t t') (h' : SameOff place t' t'') :
    SameOff place t t'' := fun other hother => (h' other hother).trans (h other hother)

theorem Grows.refl (t : FileTree) : t.Grows allowed t := fun _ => Or.inl rfl

theorem Grows.imp (h : t.Grows allowed t') (himp : ∀ place, allowed place → more place) :
    t.Grows more t' := by
  intro place
  rcases h place with heq | ⟨hfree, hnew, hallowed⟩
  · exact Or.inl heq
  · exact Or.inr ⟨hfree, hnew, himp place hallowed⟩

theorem Grows.trans (h : t.Grows allowed t') (h' : t'.Grows allowed t'') :
    t.Grows allowed t'' := by
  intro place
  rcases h' place with heq' | ⟨hfree', hnew', hallowed'⟩
  · rcases h place with heq | ⟨hfree, hnew, hallowed⟩
    · exact Or.inl (heq'.trans heq)
    · exact Or.inr ⟨hfree, heq'.trans hnew, hallowed⟩
  · rcases h place with heq | ⟨hfree, hnew, hallowed⟩
    · exact Or.inr ⟨heq ▸ hfree', hnew', hallowed'⟩
    · rw [hnew] at hfree'
      cases hfree'

theorem Grows.keeps (h : t.Grows allowed t') : t.Keeps t' := by
  intro place entry hentry
  rcases h place with heq | ⟨hfree, _, _⟩
  · exact heq.trans hentry
  · rw [hentry] at hfree
    cases hfree

/-- Growing adds no files and no links. -/
theorem Grows.get?_eq (h : t.Grows allowed t') (hnot : entry ≠ .directory)
    (hentry : t'.get? place = some entry) : t.get? place = some entry := by
  rcases h place with heq | ⟨_, hnew, _⟩
  · exact heq ▸ hentry
  · rw [hnew] at hentry
    injection hentry with heq
    exact absurd heq.symm hnot

/-- Entries that are kept are found as before. -/
theorem Leads.mono (h : t.Leads follow here steps (.entry place entry) links)
    (hkeeps : t.Keeps t') : t'.Leads follow here steps (.entry place entry) links := by
  generalize hx : Target.entry place entry = x at h
  induction h with
  | here dir => exact .here dir
  | dot next ih => exact .dot (ih hx)
  | up next ih => exact .up (ih hx)
  | vacant => cases hx
  | enter isName found next ih => exact .enter isName (hkeeps _ _ found) (ih hx)
  | file isName found => exact .file isName (hkeeps _ _ found)
  | stay isName last found => exact .stay isName last (hkeeps _ _ found)
  | jump isName found goesOn next ih => exact .jump isName (hkeeps _ _ found) goesOn (ih hx)

/-- Where only files have changed, and not the one at the end, an entry is found as before. -/
theorem Leads.of_files (h : t.Leads follow here steps (.entry place entry) links)
    (hsame : ∀ other, t'.get? other = t.get? other ∨ ∃ data, t.get? other = some (.file data))
    (hplace : entry = .directory ∨ t'.get? place = t.get? place) :
    t'.Leads follow here steps (.entry place entry) links := by
  have hkept {other : Location} {kept : Entry} (hentry : t.get? other = some kept)
      (hnot : ∀ data, kept ≠ .file data) : t'.get? other = some kept := by
    rcases hsame other with heq | ⟨data, hfile⟩
    · exact heq.trans hentry
    · rw [hentry] at hfile
      exact absurd (Option.some.inj hfile) (hnot data)
  generalize hx : Target.entry place entry = x at h
  induction h with
  | here dir => exact .here dir
  | dot next ih => exact .dot (ih hx)
  | up next ih => exact .up (ih hx)
  | vacant => cases hx
  | enter isName found next ih => exact .enter isName (hkept found (by simp)) (ih hx)
  | file isName found =>
    cases hx
    exact .file isName ((hplace.resolve_left (by simp)).trans found)
  | stay isName last found => exact .stay isName last (hkept found (by simp))
  | jump isName found goesOn next ih => exact .jump isName (hkept found (by simp)) goesOn (ih hx)

private theorem isOpen_of_jump {name text : String} {rest : List String}
    (hfound : t.get? (name :: here) = some (.link text))
    (hnext : t.Reaches (wayStart here text) (waySteps text ++ rest) dir links) :
    t.IsOpen (name :: here) := by
  obtain ⟨mid, before, _, hfirst, _, _⟩ := reaches_append.1 hnext
  exact Or.inr ⟨text, mid, before, hfound, hfirst⟩

/-- A way to a directory uses open places only. -/
theorem Reaches.of_open (h : t.Reaches here steps dir links)
    (hopen : ∀ place, t.IsOpen place → t'.get? place = t.get? place) :
    t'.Reaches here steps dir links := by
  change t.Leads true here steps (.entry dir .directory) links at h
  generalize hx : Target.entry dir .directory = x at h
  induction h with
  | here dir => cases hx; exact .here dir
  | dot next ih => exact .dot (ih hx)
  | up next ih => exact .up (ih hx)
  | vacant => cases hx
  | enter isName found next ih =>
    exact .enter isName ((hopen _ (Or.inl found)).trans found) (ih hx)
  | file => cases hx
  | stay isName last => cases last
  | jump isName found goesOn next ih =>
    subst hx
    exact .jump isName ((hopen _ (isOpen_of_jump found next)).trans found) goesOn (ih rfl)

/-- A change at a place that is not open leaves all ways to directories as they were. -/
theorem Reaches.of_sameOff (h : t.Reaches here steps dir links) (hoff : SameOff changed t t')
    (hclosed : ¬t.IsOpen changed) : t'.Reaches here steps dir links := by
  refine h.of_open fun place hopen => hoff place ?_
  rintro rfl
  exact hclosed hopen

/-- What stands at a place, or what the link at it leads to in the end, is the file `data` at
    `found`. -/
def StandsFor (t : FileTree) (place found : Location) (data : FileData) : Prop :=
  found = place ∨ ∃ text links, t.get? place = some (.link text) ∧
    t.Leads true (wayStart place.tail text) (waySteps text) (.entry found (.file data)) links

/-- A file that is put at a place where no way goes on is found from then on wherever a way ended
    at that place or followed the link at it. Any other way to a file is as it was. -/
theorem Leads.file_or_new {data new : FileData} {found : Location}
    (h : t.Leads true here steps (.entry found (.file data)) links)
    (hoff : SameOff changed t t') (hclosed : ¬t.IsOpen changed)
    (hnew : t'.get? changed = some (.file new)) :
    ∃ fewer, fewer ≤ links ∧
      ((found ≠ changed ∧ t'.Leads true here steps (.entry found (.file data)) fewer) ∨
        (t.StandsFor changed found data ∧
          t'.Leads true here steps (.entry changed (.file new)) fewer)) := by
  generalize hx : Target.entry found (.file data) = x at h
  induction h with
  | here dir => cases hx
  | dot next ih =>
    obtain ⟨fewer, hle, ⟨hne, hl⟩ | ⟨hstands, hl⟩⟩ := ih hx
    · exact ⟨fewer, hle, Or.inl ⟨hne, .dot hl⟩⟩
    · exact ⟨fewer, hle, Or.inr ⟨hstands, .dot hl⟩⟩
  | up next ih =>
    obtain ⟨fewer, hle, ⟨hne, hl⟩ | ⟨hstands, hl⟩⟩ := ih hx
    · exact ⟨fewer, hle, Or.inl ⟨hne, .up hl⟩⟩
    · exact ⟨fewer, hle, Or.inr ⟨hstands, .up hl⟩⟩
  | vacant => cases hx
  | @enter dir name rest target links isName entered next ih =>
    have hne : name :: dir ≠ changed := by
      rintro rfl
      exact hclosed (Or.inl entered)
    have hentered := (hoff _ hne).trans entered
    obtain ⟨fewer, hle, ⟨hne, hl⟩ | ⟨hstands, hl⟩⟩ := ih hx
    · exact ⟨fewer, hle, Or.inl ⟨hne, .enter isName hentered hl⟩⟩
    · exact ⟨fewer, hle, Or.inr ⟨hstands, .enter isName hentered hl⟩⟩
  | @file dir name data isName hfile =>
    cases hx
    by_cases heq : name :: dir = changed
    · subst heq
      exact ⟨0, Nat.le_refl 0, Or.inr ⟨Or.inl rfl, .file isName hnew⟩⟩
    · exact ⟨0, Nat.le_refl 0, Or.inl ⟨heq, .file isName ((hoff _ heq).trans hfile)⟩⟩
  | stay isName last => cases last
  | @jump dir name rest text target links isName hlink goesOn next ih =>
    subst hx
    by_cases heq : name :: dir = changed
    · -- The link itself is replaced. A way that went on behind it would have made its place open.
      subst heq
      by_cases hrest : rest = []
      · subst hrest
        rw [List.append_nil] at next
        exact ⟨0, Nat.zero_le _, Or.inr ⟨Or.inr ⟨text, links, hlink, next⟩, .file isName hnew⟩⟩
      · obtain ⟨mid, before, _, hfirst, _, _⟩ := next.split hrest
        exact absurd (Or.inr ⟨text, mid, before, hlink, hfirst⟩) hclosed
    · have hlink' := (hoff _ heq).trans hlink
      obtain ⟨fewer, hle, ⟨hne, hl⟩ | ⟨hstands, hl⟩⟩ := ih rfl
      · exact ⟨fewer + 1, Nat.succ_le_succ hle, Or.inl ⟨hne, .jump isName hlink' goesOn hl⟩⟩
      · exact ⟨fewer + 1, Nat.succ_le_succ hle, Or.inr ⟨hstands, .jump isName hlink' goesOn hl⟩⟩

/-- Where the way of a path ends at what is no directory, anything may be put. -/
theorem Leads.admits (h : t.Leads follow here steps target links)
    (hsteps : ∀ step ∈ steps, '/' ∉ step.toList ∧ step ≠ "")
    (hnot : t.get? target.place ≠ some .directory) (hhere : t.get? here = some .directory)
    (entry : Entry) : t.Admits target.place entry := by
  have hadmits {name : String} {dir : Location} (hname : IsEntryName name)
      (hdir : t.get? dir = some .directory) (hnot : t.get? (name :: dir) ≠ some .directory) :
      t.Admits (name :: dir) entry := ⟨hname, hdir, fun h => absurd h hnot⟩
  have hfound {name : String} {dir : Location} {entry : Entry}
      (h : t.get? (name :: dir) = some entry) : IsEntryName name :=
    isEntryName_of_get? (by rw [h]; rfl)
  induction h with
  | here dir => exact absurd hhere hnot
  | dot next ih => exact ih (List.forall_mem_cons.1 hsteps).2 hnot hhere
  | up next ih => exact ih (List.forall_mem_cons.1 hsteps).2 hnot (get?_tail hhere)
  | @vacant dir name isName free =>
    obtain ⟨hslash, hne⟩ := hsteps name List.mem_cons_self
    exact hadmits ⟨hslash, hne, isName⟩ hhere hnot
  | enter isName found next ih => exact ih (List.forall_mem_cons.1 hsteps).2 hnot found
  | file isName found => exact hadmits (hfound found) hhere hnot
  | stay isName last found => exact hadmits (hfound found) hhere hnot
  | jump isName found goesOn next ih =>
    refine ih (fun step hmem => ?_) hnot (get?_wayStart hhere _)
    rcases List.mem_append.1 hmem with htext | hrest
    · exact mem_waySteps htext
    · exact hsteps step (List.mem_cons_of_mem _ hrest)

/-- A file that is put where a way ends, in the place of nothing or of another file, is found by
    that way. -/
theorem Leads.put_file {new : FileData} (h : t.Leads follow here steps target links)
    (hplain : ∀ entry, t.get? target.place = some entry → ∃ data, entry = .file data)
    (hhere : t.get? here = some .directory) (hoff : SameOff target.place t t')
    (hnew : t'.get? target.place = some (.file new)) :
    t'.Leads follow here steps (.entry target.place (.file new)) links := by
  have hother {other : Location} {entry : Entry} (hentry : t.get? other = some entry)
      (hnot : ∀ data, entry ≠ .file data) : other ≠ target.place := by
    rintro rfl
    obtain ⟨data, hdata⟩ := hplain entry hentry
    exact hnot data hdata
  induction h with
  | here dir => exact absurd rfl (hother hhere (by simp))
  | dot next ih => exact .dot (ih hplain hhere hoff hnew hother)
  | up next ih => exact .up (ih hplain (get?_tail hhere) hoff hnew hother)
  | vacant isName free => exact .file isName hnew
  | enter isName found next ih =>
    have hsame := hoff _ (hother found (by simp))
    exact .enter isName (hsame.trans found) (ih hplain found hoff hnew hother)
  | file isName found => exact .file isName hnew
  | stay isName last found => exact absurd rfl (hother found (by simp))
  | jump isName found goesOn next ih =>
    have hsame := hoff _ (hother found (by simp))
    exact .jump isName (hsame.trans found) goesOn
      (ih hplain (get?_wayStart hhere _) hoff hnew hother)

end StepRunner.FileTree
