import StepRunner.Proofs.Step.PathBelow

namespace StepRunner.Prune

open FileTree

variable {t t' : FileTree} {here start top place target : Location} {steps : List String}
  {dir name path : String} {before links : Nat}

/-- Whether an entry has to go when the directory `top` is pruned, as seen from `here` through the
    path `dir`: it lies strictly below the directory, is neither a directory nor a link whose path
    leads to one, and its name does not keep it. -/
structure HasToGo (t : FileTree) (here : Location) (dir : String) (top place : Location) : Prop where
  isBelow : ∃ inner, inner ≠ [] ∧ place = inner ++ top
  exists_entry : ∃ entry, t.get? place = some entry
  not_directory : t.get? place ≠ some .directory
  not_link : ∀ text target, t.get? place = some (.link text) →
    t.stat here (pathBelow dir top place) ≠ .ok (target, .directory)
  not_kept : ∀ name above, place = name :: above → name ∉ Storage.sentinelNames

theorem isDirectory_eq_false_iff : t.isDirectory here path = false ↔
    ∀ target, t.stat here path ≠ .ok (target, .directory) := by
  unfold isDirectory
  split
  · next target hstat => simp [hstat]
  · next hnot => simpa using hnot

theorem staysAsDirectory_eq_false_iff : staysAsDirectory t here path place = false ↔
    (∃ entry, t.get? place = some entry) ∧ t.get? place ≠ some .directory ∧
      ∀ text target, t.get? place = some (.link text) →
        t.stat here path ≠ .ok (target, .directory) := by
  rw [staysAsDirectory]
  cases hentry : t.get? place with
  | none => simp
  | some entry =>
    cases entry with
    | directory => simp
    | file data => simp
    | link text =>
      change t.isDirectory here path = false ↔ _
      rw [isDirectory_eq_false_iff]
      refine ⟨fun h => ⟨⟨_, rfl⟩, by simp, fun _ target _ => h target⟩, ?_⟩
      rintro ⟨_, _, h⟩ target
      exact h text target rfl

theorem isKept_eq_false_iff : isKept place = false ↔
    ∀ name above, place = name :: above → name ∉ Storage.sentinelNames := by
  cases place with
  | nil => simp [isKept]
  | cons name above => simp [isKept, Storage.isSentinel]

/-- What is decided of an entry is whether it has to go. -/
theorem hasToGo_iff : HasToGo t here dir top place ↔ FileTree.isBelow top place = true ∧
    staysAsDirectory t here (pathBelow dir top place) place = false ∧ isKept place = false := by
  rw [staysAsDirectory_eq_false_iff, isKept_eq_false_iff, isBelow_iff]
  exact ⟨fun h => ⟨h.isBelow, ⟨h.exists_entry, h.not_directory, h.not_link⟩, h.not_kept⟩,
    fun ⟨hbelow, ⟨hentry, hdir, hlink⟩, hkept⟩ => ⟨hbelow, hentry, hdir, hlink, hkept⟩⟩

theorem HasToGo.get?_ne_none (h : HasToGo t here dir top place) : t.get? place ≠ none :=
  Option.ne_none_iff_exists'.2 h.exists_entry

theorem HasToGo.isBelow_eq (h : HasToGo t here dir top place) :
    FileTree.isBelow top place = true :=
  isBelow_iff.2 h.isBelow

/-- Where there are no links only files have to go. -/
theorem HasToGo.exists_file (h : HasToGo t here dir top place) (hlinks : t.HasNoLinks top) :
    ∃ data, t.get? place = some (.file data) := by
  obtain ⟨entry, hentry⟩ := h.exists_entry
  cases entry with
  | directory => exact absurd hentry h.not_directory
  | file data => exact ⟨data, hentry⟩
  | link text =>
    obtain ⟨inner, _, rfl⟩ := h.isBelow
    exact absurd hentry (hlinks _ text (List.suffix_append inner top))

/-- Too many links are on the way of `dir` and on the one behind a link that has to go, if its path
    can be looked up. -/
theorem HasToGo.maxLinks_lt {above : Location} (h : HasToGo t here dir top (name :: above))
    (husable : IsUsable (pathBelow dir top (name :: above)))
    (hdir : t.Reaches (FileTree.wayStart here dir) (wayNames dir) top before)
    (hreaches : t.Reaches above [name] target links) : maxLinks < before + links := by
  by_contra hle
  have hnames : t.NamesDirectory here (pathBelow dir top (name :: above)) target :=
    (namesDirectory_pathBelow_iff hdir h.isBelow_eq h.get?_ne_none).2
      ⟨husable, links, Nat.not_lt.1 hle, hreaches⟩
  have hstat := (stat_eq_directory_iff husable.2.1).2 hnames
  cases hreaches with
  | dot next =>
    obtain ⟨_, _, hdot, _⟩ := isEntryName_of_get? (Option.isSome_iff_ne_none.2 h.get?_ne_none)
    exact hdot rfl
  | up next =>
    obtain ⟨_, _, _, hup, _⟩ := isEntryName_of_get? (Option.isSome_iff_ne_none.2 h.get?_ne_none)
    exact hup rfl
  | enter isName found next => exact h.not_directory found
  | jump isName found goesOn next => exact h.not_link _ _ found hstat

/-- A way to a directory uses nothing that has to go, if there may be as many links on it and on the
    way of `dir`. -/
theorem reaches_of_hasToGo
    (hdir : t.Reaches (FileTree.wayStart here dir) (wayNames dir) top before)
    (hsame : ∀ place, t'.get? place = t.get? place ∨
      (HasToGo t here dir top place ∧ IsUsable (pathBelow dir top place)))
    (h : t.Reaches start steps target links) (hle : before + links ≤ maxLinks) :
    t'.Reaches start steps target links := by
  change t.Leads true start steps (.entry target .directory) links at h
  generalize hx : Target.entry target .directory = x at h
  induction h with
  | here start => cases hx; exact .here target
  | dot next ih => exact .dot (ih hle hx)
  | up next ih => exact .up (ih hle hx)
  | vacant => cases hx
  | @enter start name rest x links isName found next ih =>
    refine .enter isName ?_ (ih hle hx)
    rcases hsame (name :: start) with hsame | ⟨hgoes, _⟩
    · exact hsame.trans found
    · exact absurd found hgoes.not_directory
  | file => cases hx
  | stay isName last => cases last
  | @jump start name rest text x links isName found goesOn next ih =>
    subst hx
    refine .jump isName ?_ goesOn (ih (by omega) rfl)
    rcases hsame (name :: start) with hsame | ⟨hgoes, husable⟩
    · exact hsame.trans found
    · -- The link itself leads to a directory, over no more links than the whole way has.
      obtain ⟨mid, first, more, hfirst, _, heq⟩ := reaches_append.1 next
      have hjump : t.Reaches start [name] mid (first + 1) :=
        .jump isName found (Or.inr rfl) (by rwa [List.append_nil])
      have hlt := hgoes.maxLinks_lt husable hdir hjump
      omega

/-- `Prunes here dir top t t'` says that `t'` is `t` without some entries that have to go, and that
    their paths can be looked up. -/
def Prunes (here : Location) (dir : String) (top : Location) (t t' : FileTree) : Prop :=
  ∀ place, t'.get? place = t.get? place ∨ (t'.get? place = none ∧
    HasToGo t here dir top place ∧ IsUsable (pathBelow dir top place))

namespace Prunes

theorem refl (t : FileTree) : Prunes here dir top t t := fun _ => Or.inl rfl

theorem keeps (h : Prunes here dir top t t') : t'.Keeps t := by
  intro place entry hentry
  rcases h place with hsame | ⟨hnone, _⟩
  · rwa [← hsame]
  · rw [hnone] at hentry
    cases hentry

theorem get?_directory (h : Prunes here dir top t t') (hdir : t.get? place = some .directory) :
    t'.get? place = some .directory := by
  rcases h place with hsame | ⟨_, hgoes, _⟩
  · exact hsame.trans hdir
  · exact absurd hdir hgoes.not_directory

/-- Where there are no links only files have gone. -/
theorem same_or_file (h : Prunes here dir top t t') (hlinks : t.HasNoLinks top)
    (place : Location) :
    t'.get? place = t.get? place ∨ ∃ data, t.get? place = some (.file data) :=
  (h place).imp_right fun ⟨_, hgoes, _⟩ => hgoes.exists_file hlinks

/-- What leads to a directory is left, if no more links are on the way of `dir` and on its own one
    than may be followed. -/
theorem get?_of_reaches {above : Location} (h : Prunes here dir top t t')
    (hdir : t.Reaches (FileTree.wayStart here dir) (wayNames dir) top before)
    (hreaches : t.Reaches above [name] target links) (hle : before + links ≤ maxLinks) :
    t'.get? (name :: above) = t.get? (name :: above) :=
  (h (name :: above)).resolve_right fun ⟨_, hgoes, husable⟩ =>
    Nat.not_lt.2 hle (hgoes.maxLinks_lt husable hdir hreaches)

/-- What had to go and is left has to go still. -/
theorem hasToGo (h : Prunes here dir top t t') (hsame : t'.get? place = t.get? place)
    (hgoes : HasToGo t here dir top place) : HasToGo t' here dir top place where
  isBelow := hgoes.isBelow
  exists_entry := hsame ▸ hgoes.exists_entry
  not_directory := hsame ▸ hgoes.not_directory
  not_link := by
    intro text target hlink hstat
    exact hgoes.not_link text target (hsame ▸ hlink)
      (stat_eq_ok_iff.2 (find_mono (stat_eq_ok_iff.1 hstat) h.keeps))
  not_kept := hgoes.not_kept

/-- While `dir` leads to the directory, what is left has to go, or not, as at first. -/
theorem hasToGo_iff (h : Prunes here dir top t t') (hnames : t'.NamesDirectory here dir top)
    (hsame : t'.get? place = t.get? place) :
    HasToGo t' here dir top place ↔ HasToGo t here dir top place := by
  refine ⟨fun hgoes => ⟨hgoes.isBelow, hsame ▸ hgoes.exists_entry, hsame ▸ hgoes.not_directory, ?_,
    hgoes.not_kept⟩, h.hasToGo hsame⟩
  intro text target hlink hstat
  have hlink' : t'.get? place = some (.link text) := hsame.trans hlink
  have hbelow := hgoes.isBelow_eq
  obtain ⟨inner, hne, rfl⟩ := hgoes.isBelow
  obtain ⟨name, rest, rfl⟩ := List.exists_cons_of_ne_nil hne
  rw [List.cons_append] at hlink hlink' hstat hbelow hgoes
  have hpath : pathBelow dir top (name :: (rest ++ top)) ≠ "" :=
    (find_eq_ok_iff.1 (stat_eq_ok_iff.1 hstat)).1.2.1
  obtain ⟨_, before, _, hdir'⟩ := hnames
  have hdir := hdir'.mono h.keeps
  rw [stat_eq_directory_iff hpath,
    namesDirectory_pathBelow_iff hdir hbelow (by simp [hlink])] at hstat
  obtain ⟨husable, links, hle, hreaches⟩ := hstat
  -- The way behind the link is there still, for it follows no more links than the whole path.
  have hreaches' := reaches_of_hasToGo hdir (fun place => (h place).imp_right And.right) hreaches hle
  apply hgoes.not_link text target hlink'
  rw [stat_eq_directory_iff hpath,
    namesDirectory_pathBelow_iff hdir' hbelow (by simp [hlink'])]
  exact ⟨husable, links, hle, hreaches'⟩

end Prunes

end StepRunner.Prune
