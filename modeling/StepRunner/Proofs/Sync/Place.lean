import StepRunner.Proofs.Sync.Object

namespace StepRunner

open FileTree

namespace FileTree

variable {t t' : FileTree} {follow : Bool} {dir root : Location} {steps : List String}
  {target : Target} {links : Nat}

/-- Whether no link lies in a directory or below it. -/
def HasNoLinks (t : FileTree) (root : Location) : Prop :=
  ∀ place text, root <:+ place → t.get? place ≠ some (.link text)

/-- A tree without links has none anywhere. -/
theorem hasNoLinks_of_entries
    (h : ∀ e ∈ t.entries, (match e.2 with | .link _ => false | _ => true) = true)
    (root : Location) : t.HasNoLinks root := by
  intro place text _ hlink
  cases place with
  | nil => cases hlink
  | cons name above =>
    rw [get?_cons] at hlink
    obtain ⟨before, after, heq, _⟩ := List.lookup_eq_some_iff.1 hlink
    have hentry := h (name :: above, .link text) (by rw [heq]; simp)
    cases hentry

theorem HasNoLinks.of_grows {allowed : Location → Prop} (h : t.HasNoLinks root)
    (hgrows : t.Grows allowed t') : t'.HasNoLinks root := by
  intro place text hbelow hlink
  exact h place text hbelow (hgrows.get?_eq (by simp) hlink)

/-- Where there are no links, and nothing leads back, a way leads where its names say. -/
theorem Leads.place_eq (h : t.Leads follow dir steps target links) (hlinks : t.HasNoLinks dir)
    (hup : ".." ∉ steps) : target.place = (steps.filter (· ≠ ".")).reverse ++ dir := by
  induction h with
  | here dir => rfl
  | dot next ih =>
    rw [ih hlinks fun hmem => hup (List.mem_cons_of_mem _ hmem)]
    simp
  | up next ih => exact absurd List.mem_cons_self hup
  | vacant isName free => simp [Target.place, isName.1]
  | @enter dir name rest target links isName found next ih =>
    have hinside : t.HasNoLinks (name :: dir) := fun place text hbelow =>
      hlinks place text ((List.suffix_cons name dir).trans hbelow)
    rw [ih hinside fun hmem => hup (List.mem_cons_of_mem _ hmem)]
    simp [isName.1]
  | file isName found => simp [Target.place, isName.1]
  | stay isName last found => exact absurd found (hlinks _ _ (List.suffix_cons _ _))
  | jump isName found goesOn next ih => exact absurd found (hlinks _ _ (List.suffix_cons _ _))

theorem Leads.isName (h : t.Leads follow dir steps target links) (hlinks : t.HasNoLinks dir)
    (hup : ".." ∉ steps) : ∀ name ∈ steps.filter (· ≠ "."), IsName name := by
  induction h with
  | here dir => simp
  | dot next ih =>
    rw [List.filter_cons_of_neg (by simp)]
    exact ih hlinks fun hmem => hup (List.mem_cons_of_mem _ hmem)
  | up next ih => exact absurd List.mem_cons_self hup
  | vacant isName free => simpa using fun _ => isName
  | @enter dir name rest target links isName found next ih =>
    have hinside : t.HasNoLinks (name :: dir) := fun place text hbelow =>
      hlinks place text ((List.suffix_cons name dir).trans hbelow)
    rw [List.filter_cons_of_pos (by simpa using isName.1), List.forall_mem_cons]
    exact ⟨isName, ih hinside fun hmem => hup (List.mem_cons_of_mem _ hmem)⟩
  | file isName found => simpa using fun _ => isName
  | stay isName last found => exact absurd found (hlinks _ _ (List.suffix_cons _ _))
  | jump isName found goesOn next ih => exact absurd found (hlinks _ _ (List.suffix_cons _ _))

end FileTree

namespace Sync

variable {t t' : FileTree} {follow : Bool} {here root place : Location} {target : Target}
  {localDir relativePath destination : String} {names : List String}

theorem Lands.hasNoLinks {new : FileData} (h : Lands t t' here destination place new)
    (hlinks : t.HasNoLinks root) : t'.HasNoLinks root := by
  intro other text hbelow hlink
  have hne : other ≠ place := by
    rintro rfl
    rw [h.get?_eq] at hlink
    cases hlink
  rw [h.off other hne] at hlink
  exact hlinks other text hbelow hlink

/-- The place of the copy of an object, if there are no links below the local directory. -/
def copyPlace (root : Location) (relativePath : String) : Location :=
  (wayNames relativePath).reverse ++ root

theorem suffix_copyPlace (root : Location) (relativePath : String) :
    root <:+ copyPlace root relativePath :=
  List.suffix_append _ _

/-- Paths that are made of the same names have copies at one place, and no other ones do. -/
theorem copyPlace_inj {other : String}
    (h : ∀ component ∈ Path.components relativePath, ∃ name, component = .normal name)
    (hother : ∀ component ∈ Path.components other, ∃ name, component = .normal name) :
    copyPlace root relativePath = copyPlace root other ↔
      Path.components relativePath = Path.components other := by
  rw [(components_eq_map h).2.2.2, (components_eq_map hother).2.2.2, copyPlace, copyPlace,
    List.append_cancel_right_eq, List.reverse_inj]
  refine (List.map_injective_iff.2 fun first second heq => ?_).eq_iff.symm
  exact String.toList_injective (Component.normal.inj heq)

/-- A destination ends as the path of its object. -/
theorem getLast?_destination (hpath : localPath localDir relativePath = .ok destination) :
    destination.toList.getLast? = relativePath.toList.getLast? := by
  obtain ⟨hne, hnormal, rfl⟩ := localPath_eq_ok_iff.1 hpath
  obtain ⟨front, hjoin⟩ := toList_join localDir
  rw [hjoin relativePath (components_eq_map hnormal).1,
    List.getLast?_append_of_ne_nil _ (String.toList_eq_nil_iff.not.2 hne)]

namespace LiesBelow

/-- A way below a base has a first part that leads to the base. -/
theorem exists_reaches (h : LiesBelow localDir destination names)
    (hfind : t.find here follow destination = .ok target) : ∃ root steps links more,
    links ≤ maxLinks ∧ t.Reaches (wayStart here localDir) (wayNames localDir) root links ∧
      t.Leads follow root steps target more ∧ steps.filter (· ≠ ".") = names ∧ ".." ∉ steps := by
  obtain ⟨front, steps, hsteps, hfront, hnames⟩ := List.filter_eq_append_iff.1 h.wayNames_eq
  obtain ⟨_, links, hle, hleads⟩ := find_eq_ok_iff.1 hfind
  have hsome : steps ≠ [] := by
    rintro rfl
    exact h.names_ne_nil hnames.symm
  rw [hsteps, wayStart_eq_of_isRooted_iff h.isRooted_iff] at hleads
  obtain ⟨root, before, after, hbefore, hafter, hlinks⟩ := hleads.split hsome
  rw [← reaches_filter_dots, hfront] at hbefore
  refine ⟨root, steps, before, after, by omega, hbefore, hafter, hnames, fun hup => ?_⟩
  exact h.not_mem (hnames ▸ List.mem_filter.2 ⟨hup, by simp⟩)

/-- What leads somewhere below a base leads to the base on the way. -/
theorem exists_root (h : LiesBelow localDir destination names)
    (hinit : localDir.toList <+: destination.toList)
    (hfind : t.find here follow destination = .ok target) :
    ∃ root, t.NamesDirectory here localDir root := by
  obtain ⟨root, _, links, _, hle, hreaches, _⟩ := h.exists_reaches hfind
  exact ⟨root, (find_eq_ok_iff.1 hfind).1.of_isPrefix hinit, links, hle, hreaches⟩

/-- Where the base is a directory a way below it goes on from there. -/
theorem exists_leads (h : LiesBelow localDir destination names)
    (hroot : t.NamesDirectory here localDir root)
    (hfind : t.find here follow destination = .ok target) : ∃ steps links,
    t.Leads follow root steps target links ∧ steps.filter (· ≠ ".") = names ∧ ".." ∉ steps := by
  obtain ⟨mid, steps, _, more, _, hreaches, hleads⟩ := h.exists_reaches hfind
  obtain ⟨_, _, _, hroot⟩ := hroot
  cases (hreaches.unique hroot).1
  exact ⟨steps, more, hleads⟩

/-- Without links below the base a path leads to the place that its names say. -/
theorem place_eq (h : LiesBelow localDir destination names)
    (hroot : t.NamesDirectory here localDir root) (hlinks : t.HasNoLinks root)
    (hfind : t.find here follow destination = .ok target) :
    target.place = names.reverse ++ root := by
  obtain ⟨steps, _, hleads, hnames, hup⟩ := h.exists_leads hroot hfind
  rw [hleads.place_eq hlinks hup, hnames]

theorem isName (h : LiesBelow localDir destination names)
    (hroot : t.NamesDirectory here localDir root) (hlinks : t.HasNoLinks root)
    (hfind : t.find here follow destination = .ok target) : ∀ name ∈ names, IsName name := by
  obtain ⟨_, _, hleads, rfl, hup⟩ := h.exists_leads hroot hfind
  exact hleads.isName hlinks hup

end LiesBelow

/-- Without links below the local directory a copy is found at its own place. -/
theorem place_of_find (hpath : localPath localDir relativePath = .ok destination)
    (hnames : t.NamesDirectory here localDir root) (hlinks : t.HasNoLinks root)
    (hfind : t.find here follow destination = .ok target) :
    target.place = copyPlace root relativePath :=
  (liesBelow_of_localPath hpath).place_eq hnames hlinks hfind

end Sync

end StepRunner
