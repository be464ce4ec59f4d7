import StepRunner.Proofs.FileTree.Find

namespace StepRunner.FileTree

variable {t t' : FileTree} {follow : Bool} {here dir root place : Location}
  {path above base : String} {steps names front back : List String} {links budget : Nat}

/-- Whatever has an entry lies in directories all the way down to the root. -/
theorem get?_above {inner : Location} (h : t.get? (inner ++ dir) ≠ none) (hne : inner ≠ []) :
    t.get? dir = some .directory := by
  induction inner with
  | nil => exact absurd rfl hne
  | cons name inner ih =>
    have hdir : t.get? (inner ++ dir) = some .directory :=
      get?_parent (Option.isSome_iff_ne_none.2 h)
    cases inner with
    | nil => exact hdir
    | cons next inner => exact ih (by rw [hdir]; simp) (List.cons_ne_nil _ _)

/-- All the way down to an entry there are names. -/
theorem isEntryName_of_mem {inner : Location} (h : t.get? (inner ++ dir) ≠ none)
    {name : String}
    (hmem : name ∈ inner) : IsEntryName name := by
  induction inner with
  | nil => cases hmem
  | cons first inner ih =>
    have hsome := Option.isSome_iff_ne_none.2 h
    rcases List.mem_cons.1 hmem with rfl | hmem
    · exact isEntryName_of_get? hsome
    · have hdir : t.get? (inner ++ dir) = some .directory := get?_parent hsome
      exact ih (by simp [hdir]) hmem

/-- Names lead from a directory through other ones, before the last of them. -/
def HasWay (t : FileTree) (root : Location) (names : List String) : Prop :=
  ∀ front last back, names = front ++ last :: back →
    t.get? (front.reverse ++ root) = some .directory

/-- Names lead from a directory through other ones, which may be missing, before the last of
    them. -/
def IsFree (t : FileTree) (root : Location) (names : List String) : Prop :=
  ∀ front last back, names = front ++ last :: back →
    t.get? (front.reverse ++ root) = none ∨ t.get? (front.reverse ++ root) = some .directory

theorem hasWay_of_get? (h : t.get? (names.reverse ++ root) ≠ none) : t.HasWay root names := by
  rintro front last back rfl
  rw [List.reverse_append, List.reverse_cons, List.append_assoc] at h
  exact get?_above h (by simp)

/-- A way through directories goes where its names say. -/
theorem Reaches.of_names (hnames : ∀ step ∈ steps, step = "." ∨ IsName step)
    (hdirs : ∀ front back, steps.filter (· ≠ ".") = front ++ back →
      t.get? (front.reverse ++ dir) = some .directory) :
    t.Reaches dir steps ((steps.filter (· ≠ ".")).reverse ++ dir) 0 := by
  induction steps generalizing dir with
  | nil => exact .here dir
  | cons step rest ih =>
    have hrest : ∀ step ∈ rest, step = "." ∨ IsName step := fun step hmem =>
      hnames step (List.mem_cons_of_mem _ hmem)
    rcases hnames step List.mem_cons_self with rfl | hname
    · rw [List.filter_cons_of_neg (by simp)] at hdirs ⊢
      exact .dot (ih hrest hdirs)
    · rw [List.filter_cons_of_pos (by simpa using hname.1)] at hdirs ⊢
      rw [List.reverse_cons, List.append_assoc, List.singleton_append]
      apply Leads.enter hname (hdirs [step] _ rfl)
      apply ih hrest
      intro front back heq
      have hdir := hdirs (step :: front) back (by rw [heq]; rfl)
      rwa [List.reverse_cons, List.append_assoc] at hdir

/-- The names that lead down to a directory reach it without links. -/
theorem reaches_of_directory (h : t.get? (names.reverse ++ dir) = some .directory) :
    t.Reaches dir names (names.reverse ++ dir) 0 := by
  have hsome : t.get? (names.reverse ++ dir) ≠ none := by simp [h]
  have hname : ∀ name ∈ names, IsName name := fun name hmem =>
    (isEntryName_of_mem hsome (List.mem_reverse.2 hmem)).2.2
  have hfilter : names.filter (· ≠ ".") = names := by
    apply List.filter_eq_self.2
    intro name hmem
    simpa using (hname name hmem).1
  have hreaches : t.Reaches dir names ((names.filter (· ≠ ".")).reverse ++ dir) 0 := by
    refine .of_names (fun name hmem => Or.inr (hname name hmem)) fun front back heq => ?_
    rw [hfilter] at heq
    by_cases hback : back = []
    · rwa [heq, hback, List.append_nil] at h
    · rw [heq, List.reverse_append, List.append_assoc] at hsome
      exact get?_above hsome (by simpa using hback)
  rwa [hfilter] at hreaches

/-- A walk that has come to a directory goes on from there. -/
theorem Reaches.walk_append (h : t.Reaches here front dir links) (hle : links ≤ budget)
    (hne : back ≠ []) :
    t.walk follow budget here (front ++ back) = t.walk follow (budget - links) dir back := by
  change t.Leads true here front (.entry dir .directory) links at h
  generalize hx : Target.entry dir .directory = x at h
  induction h generalizing budget with
  | here dir => cases hx; rfl
  | dot next ih =>
    rw [List.cons_append, walk_cons, if_pos rfl]
    exact ih hle hx
  | up next ih =>
    rw [List.cons_append, walk_cons, if_neg (by decide), if_pos rfl]
    exact ih hle hx
  | vacant => cases hx
  | enter isName found next ih =>
    obtain ⟨hdot, hup, hlen⟩ := isName
    rw [List.cons_append, walk_cons, if_neg hdot, if_neg hup, if_neg (Nat.not_lt.2 hlen), found]
    exact ih hle hx
  | file => cases hx
  | stay isName last => cases last
  | @jump dir name rest text target links isName found goesOn next ih =>
    obtain ⟨hdot, hup, hlen⟩ := isName
    obtain ⟨less, rfl⟩ : ∃ less, budget = less + 1 := ⟨budget - 1, by omega⟩
    rw [List.cons_append, walk_cons, if_neg hdot, if_neg hup, if_neg (Nat.not_lt.2 hlen), found]
    simp only [List.append_eq_nil_iff, hne, and_false, false_and, if_false]
    have hnext := ih (by omega : links ≤ less) hx
    rw [Nat.add_sub_add_right, ← hnext, List.append_assoc]
    rfl

/-- A walk to where nothing is, through directories that may be missing, arrives there or lacks
    one of them. -/
theorem walk_missing (hnames : ∀ step ∈ steps, step = "." ∨ IsName step)
    (hfree : t.IsFree dir (steps.filter (· ≠ ".")))
    (hend : t.get? ((steps.filter (· ≠ ".")).reverse ++ dir) = none)
    (hdir : t.get? dir = some .directory) :
    t.walk follow budget dir steps = .ok (.vacant ((steps.filter (· ≠ ".")).reverse ++ dir)) ∨
      t.walk follow budget dir steps = .error .notFound := by
  induction steps generalizing dir with
  | nil =>
    rw [List.filter_nil, List.reverse_nil, List.nil_append, hdir] at hend
    cases hend
  | cons step rest ih =>
    have hrest : ∀ step ∈ rest, step = "." ∨ IsName step := fun step hmem =>
      hnames step (List.mem_cons_of_mem _ hmem)
    rcases hnames step List.mem_cons_self with rfl | hname
    · rw [List.filter_cons_of_neg (by simp)] at hfree hend ⊢
      rw [walk_cons, if_pos rfl]
      exact ih hrest hfree hend hdir
    rw [List.filter_cons_of_pos (by simpa using hname.1)] at hfree hend ⊢
    rw [List.reverse_cons, List.append_assoc, List.singleton_append] at hend ⊢
    obtain ⟨hdot, hup, hlen⟩ := hname
    rw [walk_cons, if_neg hdot, if_neg hup, if_neg (Nat.not_lt.2 hlen)]
    cases hfound : t.get? (step :: dir) with
    | none =>
      by_cases hlast : rest = []
      · simp [hlast]
      · simp [hlast]
    | some entry =>
      have hentry : entry = .directory := by
        cases hnext : rest.filter (· ≠ ".") with
        | nil =>
          rw [hnext, List.reverse_nil, List.nil_append, hfound] at hend
          cases hend
        | cons last back =>
          have hplace := hfree [step] last back (by rw [hnext]; rfl)
          rw [List.reverse_singleton, List.singleton_append, hfound] at hplace
          simpa using hplace
      subst hentry
      apply ih hrest ?_ hend hfound
      intro front last back heq
      have hplace := hfree (step :: front) last back (by rw [heq]; rfl)
      rwa [List.reverse_cons, List.append_assoc] at hplace

/-- `IsPlain base path names` says that the way of `path` is the one of `base` and, after it, some
    names, with which it ends. -/
structure IsPlain (base path : String) (names : List String) : Prop where
  wayNames_eq : wayNames path = wayNames base ++ names
  isRooted_iff : IsRooted path ↔ IsRooted base
  isUsable : IsUsable path
  isName : ∀ name ∈ names, IsName name
  names_ne_nil : names ≠ []
  exists_last : ∃ first last, waySteps path = first ++ [last] ∧ last ≠ "."

namespace IsPlain

/-- The way of the path in two parts: to the base and from there. -/
theorem exists_way (h : IsPlain base path names) : ∃ front steps,
    waySteps path = front ++ steps ∧ front.filter (· ≠ ".") = wayNames base ∧
      steps.filter (· ≠ ".") = names ∧ ∀ step ∈ steps, step = "." ∨ IsName step := by
  obtain ⟨front, steps, hsteps, hfront, hnames⟩ := List.filter_eq_append_iff.1 h.wayNames_eq
  refine ⟨front, steps, hsteps, hfront, hnames, ?_⟩
  intro step hmem
  by_cases hdot : step = "."
  · exact Or.inl hdot
  · exact Or.inr (h.isName step (hnames ▸ List.mem_filter.2 ⟨hmem, by simpa using hdot⟩))

/-- Through directories that are there the path leads to the place that its names say. -/
theorem find_eq (h : IsPlain base path names) (hroot : t.NamesDirectory here base root)
    (hway : t.HasWay root names)
    (hstay : follow = false ∨ ∀ text, t.get? (names.reverse ++ root) ≠ some (.link text)) :
    t.find here follow path = .ok (t.targetAt (names.reverse ++ root)) := by
  obtain ⟨front, steps, hsteps, hfront, hnames, hstep⟩ := h.exists_way
  obtain ⟨first, last, hlast, hdot⟩ := h.exists_last
  obtain ⟨_, links, hle, hreaches⟩ := hroot
  rw [← hfront, reaches_filter_dots, ← wayStart_eq_of_isRooted_iff h.isRooted_iff here] at hreaches
  -- The last step is one of those after the base, and a name.
  obtain hnil | ⟨inner, final, hinner⟩ := steps.eq_nil_or_concat'
  · rw [hnil] at hnames
    exact absurd hnames.symm h.names_ne_nil
  rw [hsteps, hinner, ← List.append_assoc] at hlast
  obtain rfl : final = last := (List.cons.inj (List.append_inj' hlast rfl).2).1
  have hname : IsName final := (hstep final (by simp [hinner])).resolve_left hdot
  have hfilter : inner.filter (· ≠ ".") ++ [final] = names := by
    rw [← hnames, hinner, List.filter_append, List.filter_cons_of_pos (by simpa using hdot)]
    rfl
  have hinside : t.Reaches root inner ((inner.filter (· ≠ ".")).reverse ++ root) 0 := by
    refine Reaches.of_names (fun step hmem => hstep step (by simp [hinner, hmem])) ?_
    intro before after heq
    cases after with
    | nil => exact hway before final [] (by rw [← hfilter, heq, List.append_nil])
    | cons next after =>
      exact hway before next (after ++ [final]) (by rw [← hfilter, heq, List.append_assoc]; rfl)
  rw [← hfilter, List.reverse_append, List.reverse_singleton, List.singleton_append,
    List.cons_append] at hstay ⊢
  have hleads := hinside.leads_targetAt hname hstay
  rw [← hinner] at hleads
  refine find_eq_ok_iff.2 ⟨h.isUsable, links, hle, ?_⟩
  rw [hsteps]
  exact hreaches.append hleads (Or.inl (by simp [hinner]))

/-- Where nothing is the path leads to a vacant place, or a directory on its way is missing. -/
theorem find_missing (h : IsPlain base path names) (hroot : t.NamesDirectory here base root)
    (hhere : t.get? here = some .directory) (hfree : t.IsFree root names)
    (hend : t.get? (names.reverse ++ root) = none) :
    t.find here follow path = .ok (.vacant (names.reverse ++ root)) ∨
      t.find here follow path = .error .notFound := by
  obtain ⟨front, steps, hsteps, hfront, hnames, hstep⟩ := h.exists_way
  have hdir := hroot.get?_eq hhere
  obtain ⟨_, links, hle, hreaches⟩ := hroot
  rw [← hfront, reaches_filter_dots, ← wayStart_eq_of_isRooted_iff h.isRooted_iff here] at hreaches
  have hne : steps ≠ [] := by
    rintro rfl
    exact h.names_ne_nil hnames.symm
  obtain ⟨hnul, hempty, hlong⟩ := h.isUsable
  have hfind : t.find here follow path = t.walk follow (maxLinks - links) root steps := by
    rw [← hreaches.walk_append hle hne, ← hsteps, find]
    simp only [hnul, String.toList_eq_nil_iff, hempty, Nat.not_lt.2 hlong, if_false]
    rfl
  subst hnames
  rw [hfind]
  exact walk_missing hstep hfree hend hdir

/-- The path above goes from the base by all names but the last, if there are others. -/
theorem parent {last : String} (h : IsPlain base path (names ++ [last]))
    (hparent : Path.parent? path = some above) (hne : names ≠ []) : IsPlain base above names := by
  obtain ⟨hchars, hnames, hrooted⟩ := parent?_eq_some hparent
  rw [h.wayNames_eq, ← List.append_assoc, List.dropLast_concat] at hnames
  have hway : wayNames above ≠ [] := by simp [hnames, hne]
  refine ⟨hnames, hrooted.trans h.isRooted_iff, ?_, fun name hmem => h.isName name (by simp [hmem]),
    hne, exists_last_of_parent? hparent hway⟩
  refine (h.isUsable.of_isPrefix hchars).resolve_left ?_
  rintro rfl
  exact hway wayNames_empty

theorem ne_empty (h : IsPlain base path names) : path ≠ "" := h.isUsable.2.1

theorem namesDirectory (h : IsPlain base path names) (hroot : t.NamesDirectory here base root)
    (hend : t.get? (names.reverse ++ root) = some .directory) :
    t.NamesDirectory here path (names.reverse ++ root) := by
  have hfind : t.find here true path = .ok (t.targetAt (names.reverse ++ root)) :=
    h.find_eq hroot (hasWay_of_get? (by simp [hend])) (Or.inr (by simp [hend]))
  rw [targetAt, hend] at hfind
  rw [← stat_eq_directory_iff h.ne_empty]
  exact stat_eq_ok_iff.2 hfind

/-- A directory that the path names stands where the names say. -/
theorem get?_eq (h : IsPlain base path names) (hroot : t.NamesDirectory here base root)
    (hhere : t.get? here = some .directory) (hfree : t.IsFree root names)
    (hend : t.get? (names.reverse ++ root) = none ∨
      t.get? (names.reverse ++ root) = some .directory)
    (hnames : t.NamesDirectory here path dir) :
    t.get? (names.reverse ++ root) = some .directory := by
  have hfound := stat_eq_ok_iff.1 ((stat_eq_directory_iff h.ne_empty).2 hnames)
  rcases hend with hnone | hdir
  · rcases h.find_missing hroot hhere hfree hnone with hvacant | hmissing
    · rw [hfound] at hvacant
      cases hvacant
    · rw [hfound] at hmissing
      cases hmissing
  · exact hdir

end IsPlain

/-- Growing puts no file and no link where there is none. -/
theorem Grows.none_or_directory {allowed : Location → Prop} (hgrows : t.Grows allowed t')
    (h : t.get? place = none ∨ t.get? place = some .directory) :
    t'.get? place = none ∨ t'.get? place = some .directory := by
  rcases hgrows place with hsame | ⟨_, hnew, _⟩
  · rwa [hsame]
  · exact Or.inr hnew

theorem IsFree.of_grows {allowed : Location → Prop} (h : t.IsFree root names)
    (hgrows : t.Grows allowed t') : t'.IsFree root names :=
  fun front last back heq => hgrows.none_or_directory (h front last back heq)

theorem HasWay.isFree (h : t.HasWay root names) : t.IsFree root names :=
  fun front last back heq => Or.inr (h front last back heq)

theorem IsFree.of_grown {allowed : Location → Prop} (h : t'.IsFree root names)
    (hgrows : t.Grows allowed t') : t.IsFree root names := by
  intro front last back heq
  rcases hgrows (front.reverse ++ root) with hsame | ⟨hnone, _, _⟩
  · exact hsame ▸ h front last back heq
  · exact Or.inl hnone

/-- What stands where the names lead to is not in their way. -/
theorem IsFree.of_sameOff (h : t'.IsFree root names)
    (hoff : SameOff (names.reverse ++ root) t t') : t.IsFree root names := by
  intro front last back heq
  rw [← hoff (front.reverse ++ root) ?_]
  · exact h front last back heq
  · intro hplace
    have hlength := congrArg List.length hplace
    simp only [heq, List.length_append, List.length_reverse, List.length_cons] at hlength
    omega

theorem IsFree.of_append (h : t.IsFree root (front ++ back)) : t.IsFree root front := by
  intro before last after heq
  exact h before last (after ++ back) (by rw [heq, List.append_assoc]; rfl)

theorem HasWay.concat {last : String}
    (hend : t.get? (names.reverse ++ root) = some .directory) : t.HasWay root (names ++ [last]) := by
  intro front next back heq
  obtain rfl | ⟨before, final, rfl⟩ := back.eq_nil_or_concat'
  · obtain ⟨rfl, _⟩ := List.append_inj' heq rfl
    exact hend
  · rw [← List.cons_append, ← List.append_assoc] at heq
    obtain ⟨rfl, _⟩ := List.append_inj' heq rfl
    rw [List.reverse_append, List.reverse_cons, List.append_assoc] at hend
    exact get?_above (by rw [hend]; simp) (by simp)

end StepRunner.FileTree
