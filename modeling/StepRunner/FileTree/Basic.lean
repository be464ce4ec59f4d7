import StepRunner.Text.Utf8
import StepRunner.Time.Instant

namespace StepRunner

/-- A place in a file tree: the names that lead to it, the innermost first. The root has none. -/
abbrev Location := List String

/-- What a regular file holds. -/
structure FileData where
  contents : List UInt8
  modified : Instant
  executable : Bool
deriving DecidableEq, Repr

/-- What stands at a place of a file tree. -/
inductive Entry where
  | directory
  | file (data : FileData)
  | link (target : String)
deriving DecidableEq, Repr

namespace FileTree

/-- The most octets of a name. -/
def maxName : Nat := 255

/-- Whether a step of a way can be looked up as the name of an entry. -/
def IsName (step : String) : Prop :=
  step ≠ "." ∧ step ≠ ".." ∧ Text.utf8Length step.toList ≤ maxName

instance (step : String) : Decidable (IsName step) :=
  inferInstanceAs (Decidable (_ ∧ _ ∧ _))

/-- Whether a text can be the name of an entry in a directory. -/
def IsEntryName (name : String) : Prop := '/' ∉ name.toList ∧ name ≠ "" ∧ IsName name

instance (name : String) : Decidable (IsEntryName name) :=
  inferInstanceAs (Decidable (_ ∧ _ ∧ _))

end FileTree

/-- The entries of a file system by their places. Whatever has an entry has a name and lies in a
    directory; the root is one without being listed. -/
structure FileTree where
  entries : List (Location × Entry)
  named : ∀ name dir, (entries.lookup (name :: dir)).isSome → FileTree.IsEntryName name
  closed : ∀ name dir, (entries.lookup (name :: dir)).isSome →
    dir = [] ∨ entries.lookup dir = some .directory

namespace FileTree

/-- The tree with nothing below its root. -/
def empty : FileTree := ⟨[], by simp, by simp⟩

instance : Inhabited FileTree := ⟨empty⟩

/-- The entry at a place. -/
def get? (t : FileTree) (loc : Location) : Option Entry :=
  match loc with
  | [] => some .directory
  | _ :: _ => t.entries.lookup loc

@[simp] theorem get?_root (t : FileTree) : t.get? [] = some .directory := rfl

theorem get?_cons (t : FileTree) (name : String) (dir : Location) :
    t.get? (name :: dir) = t.entries.lookup (name :: dir) := rfl

/-- Whatever has an entry has a name. -/
theorem isEntryName_of_get? {t : FileTree} {name : String} {dir : Location}
    (h : (t.get? (name :: dir)).isSome) : IsEntryName name :=
  t.named name dir h

/-- Whatever has an entry lies in a directory. -/
theorem get?_parent {t : FileTree} {name : String} {dir : Location}
    (h : (t.get? (name :: dir)).isSome) : t.get? dir = some .directory := by
  cases dir with
  | nil => rfl
  | cons parent above =>
    rcases t.closed name (parent :: above) h with h' | h'
    · cases h'
    · exact h'

private theorem lookup_filter_ne {loc other : Location} (entries : List (Location × Entry))
    (h : other ≠ loc) :
    (entries.filter (·.1 ≠ loc)).lookup other = entries.lookup other := by
  induction entries with
  | nil => rfl
  | cons e rest ih =>
    obtain ⟨place, entry⟩ := e
    by_cases hp : place = loc
    · subst hp
      have hne : (other == place) = false := by simpa using h
      simpa [List.filter_cons, List.lookup_cons, hne] using ih
    · by_cases ho : other = place
      · subst ho
        simp [hp]
      · have hne : (other == place) = false := by simpa using ho
        simpa [List.filter_cons, List.lookup_cons, hp, hne] using ih

private theorem lookup_filter_self (loc : Location) (entries : List (Location × Entry)) :
    (entries.filter (·.1 ≠ loc)).lookup loc = none := by
  induction entries with
  | nil => rfl
  | cons e rest ih =>
    obtain ⟨place, entry⟩ := e
    by_cases hp : place = loc
    · simpa [List.filter_cons, hp] using ih
    · have hne : (loc == place) = false := by simpa using Ne.symm hp
      simpa [List.filter_cons, List.lookup_cons, hp, hne] using ih

/-- What may be put at a place: anything that has a name in a directory and does not take the place
    of one, and a directory also where there is one. -/
def Admits (t : FileTree) (loc : Location) (entry : Entry) : Prop :=
  match loc with
  | [] => False
  | name :: dir => IsEntryName name ∧ t.get? dir = some .directory ∧
    (t.get? (name :: dir) = some .directory → entry = .directory)

instance (t : FileTree) (loc : Location) (entry : Entry) : Decidable (t.Admits loc entry) := by
  cases loc <;> simp only [Admits] <;> infer_instance

private theorem closed_put {t : FileTree} {loc : Location} {entry : Entry}
    (h : t.Admits loc entry) : ∀ name dir,
    (((loc, entry) :: t.entries.filter (·.1 ≠ loc)).lookup (name :: dir)).isSome →
    dir = [] ∨ ((loc, entry) :: t.entries.filter (·.1 ≠ loc)).lookup dir = some .directory := by
  intro name dir hsome
  cases loc with
  | nil => cases h
  | cons newName newDir =>
    obtain ⟨_, hdir, hself⟩ := h
    by_cases hroot : dir = []
    · exact Or.inl hroot
    right
    have hparent : t.get? dir = some .directory := by
      by_cases heq : name :: dir = newName :: newDir
      · injection heq with _ htail
        rw [htail]
        exact hdir
      · have hne : (name :: dir == newName :: newDir) = false := by simpa using heq
        rw [List.lookup_cons, hne, lookup_filter_ne t.entries heq] at hsome
        exact get?_parent hsome
    by_cases heq : dir = newName :: newDir
    · subst heq
      simp [hself hparent]
    · have hne : (dir == newName :: newDir) = false := by simpa using heq
      rw [List.lookup_cons, hne, lookup_filter_ne t.entries heq]
      cases dir with
      | nil => exact absurd rfl hroot
      | cons first rest => exact hparent

private theorem named_put {t : FileTree} {loc : Location} {entry : Entry}
    (h : t.Admits loc entry) : ∀ name dir,
    (((loc, entry) :: t.entries.filter (·.1 ≠ loc)).lookup (name :: dir)).isSome →
    IsEntryName name := by
  intro name dir hsome
  cases loc with
  | nil => cases h
  | cons newName newDir =>
    by_cases heq : name :: dir = newName :: newDir
    · injection heq with hname _
      exact hname ▸ h.1
    · have hne : (name :: dir == newName :: newDir) = false := by simpa using heq
      rw [List.lookup_cons, hne, lookup_filter_ne t.entries heq] at hsome
      exact t.named name dir hsome

/-- Puts an entry at a place, if the place admits it. -/
def put (t : FileTree) (loc : Location) (entry : Entry) : FileTree :=
  if h : t.Admits loc entry then
    ⟨(loc, entry) :: t.entries.filter (·.1 ≠ loc), named_put h, closed_put h⟩
  else t

theorem get?_put {t : FileTree} {loc : Location} {entry : Entry} (h : t.Admits loc entry)
    (other : Location) :
    (t.put loc entry).get? other = if other = loc then some entry else t.get? other := by
  cases loc with
  | nil => cases h
  | cons name dir =>
    cases other with
    | nil => simp
    | cons otherName otherDir =>
      simp only [put, h, dif_pos, get?_cons]
      split
      · next heq => simp [heq]
      · next heq =>
        have hne : (otherName :: otherDir == name :: dir) = false := by simpa using heq
        rw [List.lookup_cons, hne, lookup_filter_ne t.entries heq]

/-- Whether nothing lies in the place. -/
def isBare (t : FileTree) (loc : Location) : Bool :=
  t.entries.all fun (place, _) => place = [] || place.tail ≠ loc

private theorem lookup_eq_none_of_isBare {t : FileTree} {loc : Location} (h : t.isBare loc = true)
    (name : String) : t.entries.lookup (name :: loc) = none := by
  rw [List.lookup_eq_none_iff]
  intro e he
  have hplace := (List.all_eq_true.1 h) e he
  obtain ⟨place, entry⟩ := e
  simp only [Bool.or_eq_true, decide_eq_true_eq] at hplace
  rcases hplace with rfl | hne
  · simp
  · cases place with
    | nil => simp
    | cons first rest =>
      simp only [List.tail_cons] at hne
      simp only [bne_iff_ne, ne_eq, List.cons.injEq, not_and]
      exact fun _ heq => hne heq.symm

private theorem closed_erase {t : FileTree} {loc : Location} (h : t.isBare loc = true) :
    ∀ name dir, ((t.entries.filter (·.1 ≠ loc)).lookup (name :: dir)).isSome →
    dir = [] ∨ (t.entries.filter (·.1 ≠ loc)).lookup dir = some .directory := by
  intro name dir hsome
  by_cases hself : name :: dir = loc
  · rw [hself, lookup_filter_self] at hsome
    cases hsome
  rw [lookup_filter_ne t.entries hself] at hsome
  by_cases hdir : dir = loc
  · rw [hdir, lookup_eq_none_of_isBare h] at hsome
    cases hsome
  · rw [lookup_filter_ne t.entries hdir]
    exact t.closed name dir hsome

/-- What is left of the entries has the names that it had. -/
private theorem named_filter (t : FileTree) (keep : Location × Entry → Bool) : ∀ name dir,
    ((t.entries.filter keep).lookup (name :: dir)).isSome → IsEntryName name := by
  intro name dir hsome
  apply t.named name dir
  obtain ⟨entry, hentry⟩ := Option.isSome_iff_exists.1 hsome
  obtain ⟨before, after, hsplit, _⟩ := List.lookup_eq_some_iff.1 hentry
  have hmem : (name :: dir, entry) ∈ t.entries.filter keep := by simp [hsplit]
  cases hlookup : t.entries.lookup (name :: dir) with
  | some found => rfl
  | none =>
    have hnone := List.lookup_eq_none_iff.1 hlookup _ (List.mem_filter.1 hmem).1
    simp at hnone

/-- Takes away the entry at a place in which nothing lies. -/
def erase (t : FileTree) (loc : Location) : FileTree :=
  if h : t.isBare loc = true then
    ⟨t.entries.filter (·.1 ≠ loc), named_filter t _, closed_erase h⟩
  else t

theorem get?_erase {t : FileTree} {loc : Location} (h : t.isBare loc = true) (hroot : loc ≠ [])
    (other : Location) :
    (t.erase loc).get? other = if other = loc then none else t.get? other := by
  cases other with
  | nil => simp [Ne.symm hroot]
  | cons name dir =>
    simp only [erase, h, dif_pos, get?_cons]
    split
    · next heq => rw [heq, lookup_filter_self]
    · next heq => rw [lookup_filter_ne t.entries heq]

/-- Nothing lies in a place that is not a directory. -/
theorem isBare_of_not_directory {t : FileTree} {loc : Location}
    (h : t.get? loc ≠ some .directory) : t.isBare loc = true := by
  rw [isBare, List.all_eq_true]
  intro e he
  obtain ⟨place, entry⟩ := e
  cases place with
  | nil => simp
  | cons name dir =>
    rw [Bool.or_eq_true, decide_eq_true_eq, decide_eq_true_eq]
    right
    intro hdir
    rw [List.tail_cons] at hdir
    apply h
    rw [← hdir]
    refine @get?_parent t name dir ?_
    rw [get?_cons]
    cases hl : t.entries.lookup (name :: dir) with
    | some found => rfl
    | none =>
      rw [List.lookup_eq_none_iff] at hl
      have := hl (name :: dir, entry) he
      simp at this

private theorem closed_eraseAll (t : FileTree) (loc : Location) :
    ∀ name dir, ((t.entries.filter fun e => !loc.isSuffixOf e.1).lookup (name :: dir)).isSome →
    dir = [] ∨ (t.entries.filter fun e => !loc.isSuffixOf e.1).lookup dir = some .directory := by
  have hkeep : ∀ other : Location, (!loc.isSuffixOf other) = true →
      (t.entries.filter fun e => !loc.isSuffixOf e.1).lookup other = t.entries.lookup other := by
    intro other hother
    generalize t.entries = entries
    induction entries with
    | nil => rfl
    | cons e rest ih =>
      obtain ⟨place, entry⟩ := e
      by_cases hp : other = place
      · subst hp
        simp [hother]
      · have hne : (other == place) = false := by simpa using hp
        by_cases hs : (!loc.isSuffixOf place) = true
        · simpa [List.filter_cons, List.lookup_cons, hs, hne] using ih
        · simpa [List.filter_cons, List.lookup_cons, hs, hne] using ih
  have hdrop : ∀ other : Location, (!loc.isSuffixOf other) = false →
      (t.entries.filter fun e => !loc.isSuffixOf e.1).lookup other = none := by
    intro other hother
    rw [List.lookup_eq_none_iff]
    intro e he
    obtain ⟨place, entry⟩ := e
    have hplace := (List.mem_filter.1 he).2
    simp only [bne_iff_ne, ne_eq]
    intro heq
    rw [heq] at hother
    rw [hother] at hplace
    cases hplace
  intro name dir hsome
  by_cases hs : (!loc.isSuffixOf (name :: dir)) = true
  · rw [hkeep _ hs] at hsome
    have hdir : (!loc.isSuffixOf dir) = true := by
      simp only [Bool.not_eq_true', Bool.eq_false_iff, ne_eq, List.isSuffixOf_iff_suffix] at hs ⊢
      exact fun h => hs (h.trans (List.suffix_cons name dir))
    rw [hkeep _ hdir]
    exact t.closed name dir hsome
  · rw [hdrop _ (by simpa using hs)] at hsome
    cases hsome

/-- Takes away a place and all that lies below it. -/
def eraseAll (t : FileTree) (loc : Location) : FileTree :=
  ⟨t.entries.filter fun e => !loc.isSuffixOf e.1, named_filter t _, closed_eraseAll t loc⟩

/-- Whether `loc` lies strictly below `dir`. -/
def isBelow (dir loc : Location) : Bool := dir.isSuffixOf loc && dir.length < loc.length

/-- The places strictly below a place. -/
def below (t : FileTree) (dir : Location) : List Location :=
  ((t.entries.map (·.1)).filter (isBelow dir ·)).eraseDups

/-- The names of what lies directly in a place. -/
def children (t : FileTree) (dir : Location) : List String :=
  (t.entries.filterMap fun (place, _) =>
    match place with
    | name :: above => if above = dir then some name else none
    | [] => none).eraseDups

end FileTree

end StepRunner
