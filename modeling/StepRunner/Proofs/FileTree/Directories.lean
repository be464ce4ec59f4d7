import StepRunner.FileTree.Disk
import StepRunner.Proofs.FileTree.Find

namespace StepRunner.Disk

open FileTree

variable {α β : Type} {t t' : FileTree} {here dir place : Location} {path above : String}
  {result : Except IoError Unit} {paths : List String}

theorem run_bind (x : Disk α) (f : α → Disk β) (t : FileTree) : (x >>= f).run t =
    match x.run t with
    | (.ok value, after) => (f value).run after
    | (.error e, after) => (.error e, after) := by
  change ExceptT.bindCont f (x.run t).1 (x.run t).2 = _
  rcases x.run t with ⟨_ | _, after⟩ <;> rfl

@[simp] theorem run_pure (value : α) (t : FileTree) :
    (pure value : Disk α).run t = (.ok value, t) := rfl

@[simp] theorem run_throw (e : IoError) (t : FileTree) :
    (throw e : Disk α).run t = (.error e, t) := rfl

@[simp] theorem run_get (t : FileTree) : (get : Disk FileTree).run t = (.ok t, t) := rfl

@[simp] theorem run_set (t t' : FileTree) : (set t' : Disk PUnit).run t = (.ok ⟨⟩, t') := rfl

@[simp] theorem run_lift (result : Except IoError α) (t : FileTree) :
    (ExceptT.mk (pure result) : Disk α).run t = (result, t) := rfl

/-- What stands in the way of a directory is left as it is. -/
theorem makeDirectory_run (here : Location) (path : String) (t : FileTree) :
    (makeDirectory here path).run t =
      if path ≠ "" ∧ withoutEndSlashes path = "" ∧ path.length ≤ maxPath then
        (.error .alreadyExists, t)
      else
        match findBare t here path with
        | .ok (.entry ..) => (.error .alreadyExists, t)
        | .ok (.vacant place) => (.ok (), t.put place .directory)
        | .error e => (.error e, t) := by
  rw [makeDirectory, run_bind]
  simp only [run_get]
  split
  · rfl
  · rw [run_bind, run_lift]
    cases findBare t here path with
    | error e => rfl
    | ok target => cases target <;> rfl

private theorem reverse_eq_slashes (chars : List Char) : ∃ count,
    chars.reverse = (chars.dropWhile (· = '/')).reverse ++ List.replicate count '/' := by
  induction chars with
  | nil => exact ⟨0, rfl⟩
  | cons c rest ih =>
    by_cases hc : c = '/'
    · obtain ⟨count, hcount⟩ := ih
      refine ⟨count + 1, ?_⟩
      simp [hc, hcount, List.replicate_succ']
    · exact ⟨0, by simp [hc]⟩

private theorem exists_slashes (path : String) : ∃ count,
    path.toList = (withoutEndSlashes path).toList ++ List.replicate count '/' := by
  have h := reverse_eq_slashes path.toList.reverse
  rw [List.reverse_reverse] at h
  simpa [withoutEndSlashes, Text.trimEnd] using h

private theorem length_le_utf8Length (chars : List Char) : chars.length ≤ Text.utf8Length chars := by
  induction chars with
  | nil => exact Nat.zero_le _
  | cons c rest ih =>
    have := c.utf8Size_pos
    rw [Text.utf8Length, List.length_cons]
    omega

/-- A path and what is left of it without the slashes at its end name the same directories. -/
theorem namesDirectory_withoutEndSlashes (husable : IsUsable path) (hne : withoutEndSlashes path ≠ "") :
    t.NamesDirectory here (withoutEndSlashes path) dir ↔ t.NamesDirectory here path dir := by
  obtain ⟨count, hcount⟩ := exists_slashes path
  have hinit : (withoutEndSlashes path).toList <+: path.toList := ⟨_, hcount.symm⟩
  have hroot : IsRooted (withoutEndSlashes path) ↔ IsRooted path := by
    obtain ⟨c, rest, hcons⟩ := List.exists_cons_of_ne_nil (String.toList_eq_nil_iff.not.2 hne)
    rw [IsRooted, IsRooted, hcount, hcons]
    rfl
  have husable' := (husable.of_isPrefix hinit).resolve_left hne
  simp only [NamesDirectory, hne, husable, husable', or_true, true_and, wayNames_slashes hcount,
    wayStart_eq_of_isRooted_iff hroot here]

/-- A directory that is there already stands in the way of a new one. -/
theorem makeDirectory_of_namesDirectory (h : t.NamesDirectory here path dir) (hne : path ≠ "") :
    (makeDirectory here path).run t = (.error .alreadyExists, t) := by
  have husable := h.1.resolve_left hne
  obtain ⟨count, hcount⟩ := exists_slashes path
  rw [makeDirectory_run]
  by_cases hbare : withoutEndSlashes path = ""
  · have hlen := length_le_utf8Length path.toList
    rw [String.length_toList] at hlen
    rw [if_pos ⟨hne, hbare, Nat.le_trans hlen husable.2.2⟩]
  · rw [if_neg fun hall => hbare hall.2.1]
    obtain ⟨husable', links, hle, hreaches⟩ := (namesDirectory_withoutEndSlashes husable hbare).2 h
    obtain ⟨place, entry, more, hmore, hleads⟩ := (reaches_filter_dots.1 hreaches).exists_entry
    have hfind : t.find here false (withoutEndSlashes path) = .ok (.entry place entry) :=
      find_eq_ok_iff.2 ⟨husable'.resolve_left hbare, more, Nat.le_trans hmore hle, hleads⟩
    rw [findBare, if_neg fun hall => Nat.not_lt.2 husable.2.2 hall.2, hfind]

/-- Whatever is put where a path leads to a vacant place is the only change. -/
theorem put_vacant (h : t.find here false path = .ok (.vacant place))
    (hhere : t.get? here = some .directory) (entry : Entry) :
    t.get? place = none ∧ SameOff place t (t.put place entry) ∧
      (t.put place entry).get? place = some entry := by
  obtain ⟨_, _, _, hleads⟩ := find_eq_ok_iff.1 h
  have hstart := get?_wayStart hhere path
  have hfree : t.get? place = none := hleads.get?_place hstart
  have hadmits : t.Admits place entry :=
    hleads.admits (fun _ => mem_waySteps) (by simp [Target.place, hfree]) hstart entry
  refine ⟨hfree, fun other hother => ?_, ?_⟩
  · rw [get?_put hadmits, if_neg hother]
  · rw [get?_put hadmits, if_pos rfl]

/-- A new directory comes to a vacant place, and from then on its path names it. -/
theorem makeDirectory_ok (h : (makeDirectory here path).run t = (.ok (), t'))
    (hhere : t.get? here = some .directory) :
    ∃ place, t.get? place = none ∧ t'.get? place = some .directory ∧ SameOff place t t' ∧
      t'.NamesDirectory here path place := by
  rw [makeDirectory_run] at h
  split at h
  · cases h
  split at h
  · cases h
  · next place hbare =>
    cases h
    have hshort : ¬('\x00' ∉ path.toList ∧ maxPath < Text.utf8Length path.toList) := by
      intro hlong
      rw [findBare, if_pos hlong] at hbare
      cases hbare
    rw [findBare, if_neg hshort] at hbare
    have husable := (find_eq_ok_iff.1 hbare).1
    obtain ⟨hfree, hoff, hnew⟩ := put_vacant hbare hhere .directory
    have hfound : (t.put place .directory).stat here (withoutEndSlashes path) =
        .ok (place, .directory) :=
      stat_of_vacant hbare hoff hnew hhere (by simp)
    refine ⟨place, hfree, hnew, hoff, ?_⟩
    obtain ⟨count, hcount⟩ := exists_slashes path
    have husablePath : IsUsable path := by
      have hnul : '\x00' ∉ path.toList := by
        rw [hcount, List.mem_append, List.mem_replicate, not_or]
        exact ⟨husable.1, fun hslash => absurd hslash.2 (by decide)⟩
      refine ⟨hnul, ?_, Nat.not_lt.1 fun hlong => hshort ⟨hnul, hlong⟩⟩
      rintro rfl
      exact husable.2.1 (by decide)
    rw [← namesDirectory_withoutEndSlashes husablePath husable.2.1,
      ← stat_eq_directory_iff husable.2.1]
    exact hfound
  · cases h

/-- One step of making a directory with the ones above it. -/
theorem makeWithAncestors_cons (here : Location) (path : String) (above : List String)
    (t : FileTree) : (makeWithAncestors here (path :: above)).run t =
      if path = "" then (.ok (), t)
      else
        match (makeDirectory here path).run t with
        | (.ok (), made) => (.ok (), made)
        | (.error e, _) =>
          if e = .notFound then
            match (makeWithAncestors here above).run t with
            | (.error e, grown) => (.error e, grown)
            | (.ok (), grown) =>
              match (makeDirectory here path).run grown with
              | (.ok (), made) => (.ok (), made)
              | (.error e, _) =>
                if grown.isDirectory here path then (.ok (), grown) else (.error e, grown)
          else if t.isDirectory here path then (.ok (), t) else (.error e, t) := by
  rw [makeWithAncestors]
  split
  · rfl
  rw [run_bind, run_get]
  simp only
  rcases hfirst : (makeDirectory here path).run t with ⟨_ | _, made⟩
  · simp only
    split
    · rw [run_bind]
      rcases (makeWithAncestors here above).run t with ⟨_ | _, grown⟩
      · rfl
      · simp only
        rw [run_bind, run_get]
        simp only
        rcases (makeDirectory here path).run grown with ⟨_ | _, made⟩
        · simp only
          split <;> rfl
        · rfl
    · split <;> rfl
  · rfl

private theorem not_namesDirectory_of_makeDirectory {made : FileTree} (hne : path ≠ "")
    (h : (makeDirectory here path).run t = (.error .notFound, made)) (dir : Location) :
    ¬t.NamesDirectory here path dir := by
  intro hnames
  rw [makeDirectory_of_namesDirectory hnames hne] at h
  injection h with h
  injection h with h
  exact absurd h (by decide)

/-- What making a directory with the ones above it can do: the ones above it are made first, if the
    directory is missing, and then the directory itself or nothing more. -/
theorem makeWithAncestors_cases (hhere : t.get? here = some .directory)
    (h : (makeWithAncestors here (path :: paths)).run t = (result, t')) :
    ∃ grown, (grown = t ∨ ((∀ dir, ¬t.NamesDirectory here path dir) ∧
        ∃ before, (makeWithAncestors here paths).run t = (before, grown))) ∧
      ((makeDirectory here path).run grown = (.ok (), t') ∨ t' = grown) ∧
      (result = .ok () → grown.get? here = some .directory →
        ∃ dir, t'.NamesDirectory here path dir) := by
  rw [makeWithAncestors_cons] at h
  split at h
  · next hempty =>
    cases h
    subst hempty
    exact ⟨t, Or.inl rfl, Or.inr rfl, fun _ _ => ⟨here, namesDirectory_empty.2 rfl⟩⟩
  next hne =>
  split at h
  · next made hmade =>
    cases h
    obtain ⟨place, _, _, _, hnames⟩ := makeDirectory_ok hmade hhere
    exact ⟨t, Or.inl rfl, Or.inl hmade, fun _ _ => ⟨place, hnames⟩⟩
  next e made hmade =>
  split at h
  · next hmissing =>
    subst hmissing
    have hnot := not_namesDirectory_of_makeDirectory hne hmade
    split at h
    · next e grown habove =>
      cases h
      exact ⟨t', Or.inr ⟨hnot, _, habove⟩, Or.inr rfl, nofun⟩
    next grown habove =>
    have hgrown : grown = t ∨ ((∀ dir, ¬t.NamesDirectory here path dir) ∧
        ∃ before, (makeWithAncestors here paths).run t = (before, grown)) :=
      Or.inr ⟨hnot, _, habove⟩
    split at h
    · next made' hmade' =>
      cases h
      refine ⟨grown, hgrown, Or.inl hmade', ?_⟩
      intro _ hhere'
      obtain ⟨place, _, _, _, hnames⟩ := makeDirectory_ok hmade' hhere'
      exact ⟨place, hnames⟩
    · split at h
      · next hdir =>
        cases h
        exact ⟨t', hgrown, Or.inr rfl, fun _ _ => (isDirectory_iff hne).1 hdir⟩
      · cases h
        exact ⟨t', hgrown, Or.inr rfl, nofun⟩
  · split at h
    · next hdir =>
      cases h
      exact ⟨t, Or.inl rfl, Or.inr rfl, fun _ _ => (isDirectory_iff hne).1 hdir⟩
    · cases h
      exact ⟨t, Or.inl rfl, Or.inr rfl, nofun⟩

private theorem grows_of_makeDirectory (hhere : t.get? here = some .directory)
    (h : (makeDirectory here path).run t = (.ok (), t')) :
    t.Grows (t'.NamesDirectory here path) t' := by
  obtain ⟨place, hfree, hnew, hoff, hnames⟩ := makeDirectory_ok h hhere
  intro other
  by_cases hother : other = place
  · subst hother
    exact Or.inr ⟨hfree, hnew, hnames⟩
  · exact Or.inl (hoff other hother)

/-- Making directories adds nothing but directories, each of which one of the paths names. -/
theorem makeWithAncestors_grows (hhere : t.get? here = some .directory)
    (h : (makeWithAncestors here paths).run t = (result, t')) :
    t.Grows (fun place => ∃ path ∈ paths, t'.NamesDirectory here path place) t' := by
  induction paths generalizing result t' with
  | nil => cases h; exact .refl t
  | cons path paths ih =>
    obtain ⟨grown, hgrown, hlast, _⟩ := makeWithAncestors_cases hhere h
    have hfirst : t.Grows (fun place => ∃ path ∈ paths, grown.NamesDirectory here path place)
        grown := by
      rcases hgrown with heq | ⟨_, before, habove⟩
      · rw [heq]
        exact .refl t
      · exact ih habove
    have hsecond : grown.Grows (t'.NamesDirectory here path) t' := by
      rcases hlast with hmade | rfl
      · exact grows_of_makeDirectory (hfirst.keeps _ _ hhere) hmade
      · exact .refl _
    refine Grows.trans (hfirst.imp ?_) (hsecond.imp ?_)
    · rintro place ⟨other, hother, hnames⟩
      exact ⟨other, List.mem_cons_of_mem _ hother, hnames.mono hsecond.keeps⟩
    · exact fun place hnames => ⟨path, List.mem_cons_self, hnames⟩

/-- A directory that is made is there afterwards. -/
theorem namesDirectory_of_makeWithAncestors (hhere : t.get? here = some .directory)
    (h : (makeWithAncestors here (path :: paths)).run t = (.ok (), t')) :
    ∃ dir, t'.NamesDirectory here path dir := by
  obtain ⟨grown, hgrown, _, hnames⟩ := makeWithAncestors_cases hhere h
  refine hnames rfl ?_
  rcases hgrown with rfl | ⟨_, before, habove⟩
  · exact hhere
  · exact (makeWithAncestors_grows hhere habove).keeps _ _ hhere

/-- Nothing happens if the directory is there. -/
theorem makeWithAncestors_of_namesDirectory (h : t.NamesDirectory here path dir) :
    (makeWithAncestors here (path :: paths)).run t = (.ok (), t) := by
  rw [makeWithAncestors_cons]
  by_cases hne : path = ""
  · rw [if_pos hne]
  · rw [if_neg hne, makeDirectory_of_namesDirectory h hne]
    simp only
    rw [if_neg (by decide), if_pos ((isDirectory_iff hne).2 ⟨dir, h⟩)]

/-- `Climbs t here paths` says that `paths` lead up, name by name, to one that names a directory of
    `t`. -/
inductive Climbs (t : FileTree) (here : Location) : List String → Prop
  | top {path dir rest} (names : t.NamesDirectory here path dir) : Climbs t here (path :: rest)
  | step {path above rest}
    (inside : ∀ (t' : FileTree) dir, t'.NamesDirectory here path dir →
      ∃ parent name, t'.NamesDirectory here above parent ∧ t'.get? (name :: parent) ≠ none)
    (next : Climbs t here (above :: rest)) : Climbs t here (path :: above :: rest)

/-- A directory that is made, and was missing before, has nothing in it. -/
theorem Climbs.bare (hclimbs : Climbs t here (path :: paths))
    (hhere : t.get? here = some .directory)
    (h : (makeWithAncestors here (path :: paths)).run t = (result, t')) :
    t' = t ∨ ∀ dir, t'.NamesDirectory here path dir → ∀ name, t'.get? (name :: dir) = none := by
  generalize hall : path :: paths = all at hclimbs
  induction hclimbs generalizing path paths result t' with
  | top names =>
    cases hall
    rw [makeWithAncestors_of_namesDirectory names] at h
    cases h
    exact Or.inl rfl
  | @step path above rest inside next ih =>
    cases hall
    obtain ⟨grown, hgrown, hlast, _⟩ := makeWithAncestors_cases hhere h
    have hbefore : grown = t ∨
        ∀ dir, grown.NamesDirectory here above dir → ∀ name, grown.get? (name :: dir) = none := by
      rcases hgrown with rfl | ⟨_, before, habove⟩
      · exact Or.inl rfl
      · exact ih habove rfl
    have hhere' : grown.get? here = some .directory := by
      rcases hgrown with rfl | ⟨_, before, habove⟩
      · exact hhere
      · exact (makeWithAncestors_grows hhere habove).keeps _ _ hhere
    rcases hlast with hmade | rfl
    · right
      intro dir hnames name
      obtain ⟨place, hfree, _, hoff, hnames'⟩ := makeDirectory_ok hmade hhere'
      obtain rfl := hnames.unique hnames'
      rw [hoff _ (by simp)]
      cases hinside : grown.get? (name :: dir) with
      | none => rfl
      | some entry =>
        rw [get?_parent (by rw [hinside]; rfl)] at hfree
        cases hfree
    · rcases hbefore with rfl | hbare
      · exact Or.inl rfl
      · right
        intro dir hnames
        obtain ⟨parent, name, hparent, hsome⟩ := inside _ dir hnames
        exact absurd (hbare parent hparent name) hsome

theorem ancestry_eq_cons (fuel : Nat) (path : String) :
    ancestry (fuel + 1) path = path :: match Path.parent? path with
      | some above => ancestry fuel above
      | none => [] := rfl

/-- The paths above a path begin it. -/
theorem of_mem_ancestry {fuel : Nat} (h : above ∈ ancestry fuel path) :
    above.toList <+: path.toList ∧ wayNames above <+: wayNames path ∧
      (IsRooted above ↔ IsRooted path) := by
  induction fuel generalizing path with
  | zero => cases h
  | succ fuel ih =>
    rw [ancestry_eq_cons, List.mem_cons] at h
    rcases h with rfl | h
    · exact ⟨List.prefix_rfl, List.prefix_rfl, Iff.rfl⟩
    cases hparent : Path.parent? path with
    | none => simp [hparent] at h
    | some next =>
      simp only [hparent] at h
      obtain ⟨hchars, hnames, hrooted⟩ := ih h
      obtain ⟨hchars', hnames', hrooted'⟩ := parent?_eq_some hparent
      exact ⟨hchars.trans hchars', hnames.trans (hnames' ▸ List.dropLast_prefix _),
        hrooted.trans hrooted'⟩

/-- What a path leads to lies in the directory that the path above it names, if it ends with a
    name. -/
theorem exists_inside {name : String} {follow : Bool} {entry : Entry}
    (h : t.find here follow path = .ok (.entry place entry))
    (hparent : Path.parent? path = some above) (hlast : (wayNames path).getLast? = some name)
    (hup : name ≠ "..") :
    ∃ parent, t.NamesDirectory here above parent ∧ t.get? (name :: parent) ≠ none := by
  obtain ⟨husable, links, hle, hleads⟩ := find_eq_ok_iff.1 h
  obtain ⟨hchars, hnames, hrooted⟩ := parent?_eq_some hparent
  obtain ⟨front, hfront⟩ := List.getLast?_eq_some_iff.1 hlast
  rw [hfront, List.dropLast_concat] at hnames
  -- Only dots can follow the name, and the steps before it lead to the directory.
  obtain ⟨before, rest, hsteps, hbefore, hrest⟩ := List.filter_eq_append_iff.1 hfront
  obtain ⟨dots, after, rfl, hdots, hname, _⟩ := List.filter_eq_cons_iff.1 hrest
  have hdot : name ≠ "." := by simpa using hname
  rw [hsteps, ← List.append_assoc] at hleads
  obtain ⟨mid, fewer, _, hmid, hend, hlinks⟩ := hleads.split (List.cons_ne_nil name after)
  have hreaches : t.Reaches (wayStart here above) (wayNames above) mid fewer := by
    rw [hnames, wayStart_eq_of_isRooted_iff hrooted, ← hbefore, ← List.append_nil (before.filter _),
      ← List.filter_eq_nil_iff.2 hdots, ← List.filter_append]
    exact reaches_filter_dots.2 hmid
  refine ⟨mid, ⟨husable.of_isPrefix hchars, fewer, by omega, hreaches⟩, ?_⟩
  generalize hs : name :: after = steps at hend
  cases hend with
  | here => cases hs
  | dot => exact absurd (List.cons.inj hs).1 hdot
  | up => exact absurd (List.cons.inj hs).1 hup
  | enter isName found => obtain ⟨rfl, _⟩ := List.cons.inj hs; simp [found]
  | file isName found => obtain ⟨rfl, _⟩ := List.cons.inj hs; simp [found]
  | stay isName last found => obtain ⟨rfl, _⟩ := List.cons.inj hs; simp [found]
  | jump isName found => obtain ⟨rfl, _⟩ := List.cons.inj hs; simp [found]

/-- From a path below a directory by names alone, the paths above it climb to that directory. -/
theorem climbs_ancestry {base : String} {names : List String} {fuel : Nat}
    (hbase : t.NamesDirectory here base dir) (husable : path = "" ∨ IsUsable path)
    (hrooted : IsRooted path ↔ IsRooted base) (hnames : wayNames path = wayNames base ++ names)
    (hup : ".." ∉ names) (hfuel : path.length < fuel) : Climbs t here (ancestry fuel path) := by
  induction fuel generalizing path names with
  | zero => omega
  | succ fuel ih =>
    obtain rfl | ⟨front, last, rfl⟩ := names.eq_nil_or_concat'
    · obtain ⟨_, links, hle, hreaches⟩ := hbase
      rw [List.append_nil] at hnames
      rw [← wayStart_eq_of_isRooted_iff hrooted, ← hnames] at hreaches
      have hdir : t.NamesDirectory here path dir := ⟨husable, links, hle, hreaches⟩
      exact .top hdir
    rw [← List.append_assoc] at hnames
    have hsteps : wayNames path ≠ [] := by simp [hnames]
    obtain ⟨above, habove⟩ := exists_parent? hsteps
    obtain ⟨hchars, hnames', hrooted'⟩ := parent?_eq_some habove
    rw [hnames, List.dropLast_concat] at hnames'
    have hshorter := length_parent?_lt habove hsteps
    rw [List.mem_append, List.mem_singleton, not_or] at hup
    have husable' : above = "" ∨ IsUsable above := by
      rcases husable with rfl | husable
      · exact Or.inl (by simpa using hchars)
      · exact husable.of_isPrefix hchars
    have hnext : Climbs t here (ancestry fuel above) :=
      ih husable' (hrooted'.trans hrooted) hnames' hup.1 (by omega)
    obtain ⟨less, rfl⟩ : ∃ less, fuel = less + 1 := ⟨fuel - 1, by omega⟩
    rw [ancestry_eq_cons, habove]
    apply Climbs.step ?_ hnext
    intro t' dir hdir
    have hne : path ≠ "" := by
      rintro rfl
      exact hsteps wayNames_empty
    have hfind := stat_eq_ok_iff.1 ((stat_eq_directory_iff hne).2 hdir)
    obtain ⟨parent, hparent, hsome⟩ :=
      exists_inside hfind habove (by simp [hnames]) (Ne.symm hup.2)
    exact ⟨parent, last, hparent, hsome⟩

end StepRunner.Disk
