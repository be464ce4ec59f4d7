import Mathlib.Data.List.Nodup
import StepRunner.Proofs.Step.PlaybackDirs
import StepRunner.Step.Prune

namespace StepRunner

open FileTree

namespace FileTree

variable {t : FileTree} {dir place : Location} {base name : String} {names : List String}

theorem isBelow_iff : isBelow dir place = true ↔ ∃ inner, inner ≠ [] ∧ place = inner ++ dir := by
  rw [isBelow, Bool.and_eq_true, List.isSuffixOf_iff_suffix, decide_eq_true_eq]
  constructor
  · rintro ⟨⟨inner, rfl⟩, hlength⟩
    refine ⟨inner, ?_, rfl⟩
    rintro rfl
    exact Nat.lt_irrefl _ hlength
  · rintro ⟨inner, hne, rfl⟩
    have hpos := List.length_pos_of_ne_nil hne
    rw [List.length_append]
    exact ⟨List.suffix_append inner dir, by omega⟩

/-- What is below a place are the entries there. -/
theorem mem_below : place ∈ t.below dir ↔ isBelow dir place = true ∧ t.get? place ≠ none := by
  rw [below, List.mem_eraseDups, List.mem_filter, and_comm]
  refine and_congr_right fun hbelow => ?_
  cases place with
  | nil =>
    obtain ⟨inner, hne, heq⟩ := isBelow_iff.1 hbelow
    exact absurd (List.append_eq_nil_iff.1 heq.symm).1 hne
  | cons name above =>
    rw [get?_cons, ne_eq, List.lookup_eq_none_iff, List.mem_map]
    constructor
    · rintro ⟨e, hmem, heq⟩ hnone
      simpa [heq] using hnone e hmem
    · intro hsome
      by_contra hnot
      exact hsome fun e hmem => bne_iff_ne.2 fun heq => hnot ⟨e, hmem, heq.symm⟩

private theorem nodup_eraseDups (places : List Location) : places.eraseDups.Nodup := by
  generalize hlength : places.length = length
  induction length using Nat.strong_induction_on generalizing places with
  | _ length ih =>
    cases places with
    | nil => simp
    | cons first rest =>
      rw [List.eraseDups_cons, List.nodup_cons]
      constructor
      · rw [List.mem_eraseDups]
        simp
      · have hfilter := List.length_filter_le (fun other => !other == first) rest
        rw [List.length_cons] at hlength
        exact ih _ (by omega) _ rfl

/-- A place is listed once among what is below another one. -/
theorem nodup_below (t : FileTree) (dir : Location) : (t.below dir).Nodup :=
  nodup_eraseDups _

/-- Below a directory in which nothing lies there is nothing. -/
theorem get?_eq_none_of_bare (hbare : ∀ name, t.get? (name :: dir) = none)
    (hbelow : isBelow dir place = true) : t.get? place = none := by
  obtain ⟨inner, hne, rfl⟩ := isBelow_iff.1 hbelow
  obtain ⟨front, last, rfl⟩ := inner.eq_nil_or_concat'.resolve_left hne
  rw [List.append_assoc, List.singleton_append]
  by_contra hentry
  by_cases hfront : front = []
  · exact hentry (by rw [hfront, List.nil_append, hbare])
  · have hdir := get?_above hentry hfront
    rw [hbare] at hdir
    cases hdir

/-- Names that are joined to a path one after the other lead on by just these names. -/
theorem liesBelow_foldl_join (base : String) (hnames : ∀ name ∈ names, IsEntryName name)
    (hne : names ≠ []) : Sync.LiesBelow base (names.foldl Path.join base) names := by
  induction names generalizing base with
  | nil => exact absurd rfl hne
  | cons name rest ih =>
    obtain ⟨⟨hslash, hempty, hdot, hup, _⟩, hrest⟩ := List.forall_mem_cons.1 hnames
    have hfirst : Sync.LiesBelow base (Path.join base name) [name] :=
      .join_name base hslash hempty hdot hup
    by_cases hlast : rest = []
    · subst hlast
      exact hfirst
    · exact hfirst.trans (ih _ hrest hlast)

theorem isPrefix_foldl_join (base : String) (hnames : ∀ name ∈ names, IsEntryName name) :
    base.toList <+: (names.foldl Path.join base).toList := by
  induction names generalizing base with
  | nil => exact List.prefix_rfl
  | cons name rest ih =>
    obtain ⟨hname, hrest⟩ := List.forall_mem_cons.1 hnames
    have hrel : ¬IsRooted name := fun hrooted => hname.1 (List.mem_of_head? hrooted)
    exact (isPrefix_join base hrel).trans (ih _ hrest)

theorem isPlain_foldl_join (hnames : ∀ name ∈ names, IsEntryName name) (hne : names ≠ [])
    (husable : IsUsable (names.foldl Path.join base)) :
    IsPlain base (names.foldl Path.join base) names := by
  have hbelow := liesBelow_foldl_join base hnames hne
  refine ⟨hbelow.wayNames_eq, hbelow.isRooted_iff, husable, fun name hmem => (hnames name hmem).2.2,
    hne, ?_⟩
  obtain ⟨front, last, rfl⟩ := names.eq_nil_or_concat'.resolve_left hne
  obtain ⟨hslash, hempty, hname⟩ := hnames last (by simp)
  have hrel : ¬IsRooted last := fun hrooted => hslash (List.mem_of_head? hrooted)
  obtain ⟨first, hsteps, _⟩ := waySteps_join (front.foldl Path.join base) hrel hempty
  rw [waySteps_of_not_mem hslash hempty] at hsteps
  exact ⟨first, last, by rw [List.foldl_concat, hsteps], hname.1⟩

end FileTree

namespace Prune

variable {t : FileTree} {here top place target above : Location} {dir name : String}
  {entry : Entry} {before : Nat}

/-- The path of an entry goes on from the one of the directory by the names that lead to it. -/
theorem exists_names (dir : String) (hbelow : isBelow top place = true)
    (hentry : t.get? place ≠ none) : ∃ names : List String, names ≠ [] ∧
      place = names.reverse ++ top ∧ pathBelow dir top place = names.foldl Path.join dir ∧
      ∀ name ∈ names, IsEntryName name := by
  obtain ⟨inner, hne, rfl⟩ := isBelow_iff.1 hbelow
  refine ⟨inner.reverse, by simpa using hne, by rw [List.reverse_reverse], by simp [pathBelow], ?_⟩
  exact fun name hmem => isEntryName_of_mem hentry (List.mem_reverse.1 hmem)

/-- Entries at two places are given by two paths. -/
theorem pathBelow_injOn {other : Location} (hbelow : isBelow top place = true)
    (hentry : t.get? place ≠ none) (hbelow' : isBelow top other = true)
    (hentry' : t.get? other ≠ none) (heq : pathBelow dir top place = pathBelow dir top other) :
    place = other := by
  obtain ⟨names, hne, rfl, hpath, hnames⟩ := exists_names dir hbelow hentry
  obtain ⟨others, hne', rfl, hpath', hothers⟩ := exists_names dir hbelow' hentry'
  have hway := (liesBelow_foldl_join dir hnames hne).wayNames_eq
  rw [← hpath, heq, hpath', (liesBelow_foldl_join dir hothers hne').wayNames_eq,
    List.append_cancel_left_eq] at hway
  rw [hway]

/-- The path of an entry leads to it, if it can be looked up. -/
theorem find_pathBelow (hdir : t.NamesDirectory here dir top) (hbelow : isBelow top place = true)
    (hentry : t.get? place = some entry) (husable : IsUsable (pathBelow dir top place)) :
    t.find here false (pathBelow dir top place) = .ok (.entry place entry) := by
  obtain ⟨names, hne, rfl, hpath, hnames⟩ := exists_names dir hbelow (by rw [hentry]; simp)
  rw [hpath] at husable ⊢
  have hplain := isPlain_foldl_join hnames hne husable
  rw [hplain.find_eq hdir (hasWay_of_get? (by simp [hentry])) (Or.inl rfl), targetAt, hentry]

/-- An entry can be looked up by its path only while `dir` names a directory. -/
theorem exists_namesDirectory {found : Target} {follow : Bool} (hbelow : isBelow top place = true)
    (hentry : t.get? place ≠ none)
    (hfind : t.find here follow (pathBelow dir top place) = .ok found) :
    ∃ target, t.NamesDirectory here dir target := by
  obtain ⟨names, hne, rfl, hpath, hnames⟩ := exists_names dir hbelow hentry
  rw [hpath] at hfind
  exact (liesBelow_foldl_join dir hnames hne).exists_root (isPrefix_foldl_join dir hnames) hfind

/-- What the path of an entry names is what its name leads to in the directory that it lies in. The
    links on the way of `dir` count among those that may be followed. -/
theorem namesDirectory_pathBelow_iff
    (hdir : t.Reaches (wayStart here dir) (wayNames dir) top before)
    (hbelow : isBelow top (name :: above) = true) (hentry : t.get? (name :: above) ≠ none) :
    t.NamesDirectory here (pathBelow dir top (name :: above)) target ↔
      IsUsable (pathBelow dir top (name :: above)) ∧
        ∃ links, before + links ≤ maxLinks ∧ t.Reaches above [name] target links := by
  obtain ⟨names, hne, hplace, hpath, hnames⟩ := exists_names dir hbelow hentry
  obtain ⟨front, last, rfl⟩ := names.eq_nil_or_concat'.resolve_left hne
  rw [List.reverse_append, List.reverse_singleton, List.singleton_append, List.cons_append,
    List.cons.injEq] at hplace
  obtain ⟨rfl, rfl⟩ := hplace
  have hlies := liesBelow_foldl_join dir hnames hne
  -- All before the last name is a way through directories, without links.
  have hfront : t.Reaches top front (front.reverse ++ top) 0 :=
    reaches_of_directory (get?_parent (Option.isSome_iff_ne_none.2 hentry))
  rw [NamesDirectory, or_iff_right (hpath ▸ hlies.ne_empty), hpath, hlies.wayNames_eq,
    wayStart_eq_of_isRooted_iff hlies.isRooted_iff here]
  refine and_congr_right fun _ => ⟨?_, ?_⟩
  · rintro ⟨links, hle, hreaches⟩
    obtain ⟨mid, first, rest, hmid, hrest, rfl⟩ := reaches_append.1 hreaches
    obtain ⟨⟨rfl⟩, rfl⟩ := hmid.unique hdir
    obtain ⟨mid, none, last, hmid, hlast, rfl⟩ := reaches_append.1 hrest
    obtain ⟨⟨rfl⟩, rfl⟩ := hmid.unique hfront
    exact ⟨last, by omega, hlast⟩
  · rintro ⟨links, hle, hlast⟩
    exact ⟨before + (0 + links), by omega, hdir.append (hfront.append hlast (Or.inr rfl)) (Or.inr rfl)⟩

end Prune

end StepRunner
