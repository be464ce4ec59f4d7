import Mathlib.Data.List.Basic
import StepRunner.FileTree.Lookup

namespace StepRunner.FileTree

/-- Where the way of a path begins, as seen from a directory. -/
def wayStart (here : Location) (path : String) : Location :=
  if (Route.ofPath path.toList).absolute then [] else here

/-- The steps of the way of a path. -/
def waySteps (path : String) : List String := (Route.ofPath path.toList).steps

/-- The place of a target. -/
def Target.place : Target → Location
  | .entry loc _ | .vacant loc => loc

/-- What stands at a target. -/
def Target.standing? : Target → Option Entry
  | .entry _ e => some e
  | .vacant _ => none

/-- What a place is as a target. -/
def targetAt (t : FileTree) (place : Location) : Target :=
  match t.get? place with
  | some entry => .entry place entry
  | none => .vacant place

@[simp] theorem place_targetAt (t : FileTree) (place : Location) :
    (t.targetAt place).place = place := by
  unfold targetAt
  split <;> rfl

@[simp] theorem standing?_targetAt (t : FileTree) (place : Location) :
    (t.targetAt place).standing? = t.get? place := by
  unfold targetAt
  split <;> simp [Target.standing?, *]

/-- `t.Leads follow here steps target links` says that the way `steps` from the directory `here`
    leads to `target` and that `links` links are followed on it. Unlike a walk it knows no
    greatest number of links, so what holds of it holds for every such number. -/
inductive Leads (t : FileTree) (follow : Bool) : Location → List String → Target → Nat → Prop
  | here (dir : Location) : Leads t follow dir [] (.entry dir .directory) 0
  | dot {dir rest target links} (next : Leads t follow dir rest target links) :
    Leads t follow dir ("." :: rest) target links
  | up {dir rest target links} (next : Leads t follow dir.tail rest target links) :
    Leads t follow dir (".." :: rest) target links
  | vacant {dir name} (isName : IsName name) (free : t.get? (name :: dir) = none) :
    Leads t follow dir [name] (.vacant (name :: dir)) 0
  | enter {dir name rest target links} (isName : IsName name)
    (found : t.get? (name :: dir) = some .directory)
    (next : Leads t follow (name :: dir) rest target links) :
    Leads t follow dir (name :: rest) target links
  | file {dir name data} (isName : IsName name)
    (found : t.get? (name :: dir) = some (.file data)) :
    Leads t follow dir [name] (.entry (name :: dir) (.file data)) 0
  | stay {dir name text} (isName : IsName name) (last : follow = false)
    (found : t.get? (name :: dir) = some (.link text)) :
    Leads t follow dir [name] (.entry (name :: dir) (.link text)) 0
  | jump {dir name rest text target links} (isName : IsName name)
    (found : t.get? (name :: dir) = some (.link text)) (goesOn : rest ≠ [] ∨ follow = true)
    (next : Leads t follow (wayStart dir text) (waySteps text ++ rest) target links) :
    Leads t follow dir (name :: rest) target (links + 1)

/-- The way `steps` from the directory `here` ends in the directory `dir`. -/
abbrev Reaches (t : FileTree) (here : Location) (steps : List String) (dir : Location)
    (links : Nat) : Prop :=
  t.Leads true here steps (.entry dir .directory) links

variable {t t' : FileTree} {follow : Bool} {here dir place : Location} {entry : Entry}
  {steps first second : List String} {target other : Target} {links more : Nat}

/-- A walk along a way that leads somewhere arrives there, if it may follow as many links. -/
theorem Leads.walk_eq (h : t.Leads follow here steps target links) (budget : Nat) :
    t.walk follow budget here steps =
      if links ≤ budget then .ok target else .error .tooManyLinks := by
  induction h generalizing budget with
  | here dir => simp [walk_nil]
  | dot next ih => rw [walk_cons]; simp [ih]
  | up next ih => rw [walk_cons]; simp [ih]
  | vacant isName free =>
    obtain ⟨hdot, hup, hlen⟩ := isName
    rw [walk_cons]; simp [hdot, hup, Nat.not_lt.2 hlen, free]
  | enter isName found next ih =>
    obtain ⟨hdot, hup, hlen⟩ := isName
    rw [walk_cons]; simp [hdot, hup, Nat.not_lt.2 hlen, found, ih]
  | file isName found =>
    obtain ⟨hdot, hup, hlen⟩ := isName
    rw [walk_cons]; simp [hdot, hup, Nat.not_lt.2 hlen, found]
  | stay isName last found =>
    obtain ⟨hdot, hup, hlen⟩ := isName
    rw [walk_cons]; simp [hdot, hup, Nat.not_lt.2 hlen, found, last]
  | @jump dir name rest text target links isName found goesOn next ih =>
    obtain ⟨hdot, hup, hlen⟩ := isName
    have hgo : ¬(rest = [] ∧ follow = false) := by
      rintro ⟨hrest, hfollow⟩
      rcases goesOn with h | h
      · exact h hrest
      · rw [hfollow] at h; cases h
    rw [walk_cons]
    simp only [hdot, hup, Nat.not_lt.2 hlen, found, hgo, if_false]
    cases budget with
    | zero => simp
    | succ budget =>
      have hnext := ih budget
      simp only [wayStart, waySteps] at hnext
      simp only [hnext, Nat.add_le_add_iff_right]

/-- Whatever is found without links or behind the first one, its way leads there. -/
private theorem leads_of_walkSteps {budget : Nat}
    {jump : Location → List String → Except IoError Target}
    (hjump : ∀ here steps, jump here steps = .ok target →
      ∃ links, links < budget ∧ t.Leads follow here steps target links)
    (h : t.walkSteps follow jump here steps = .ok target) :
    ∃ links, links ≤ budget ∧ t.Leads follow here steps target links := by
  fun_induction walkSteps t follow jump here steps with
  | case1 => cases h; exact ⟨0, Nat.zero_le _, .here _⟩
  | case2 here rest ih =>
    obtain ⟨k, hk, hl⟩ := ih h
    exact ⟨k, hk, .dot hl⟩
  | case3 here rest _ ih =>
    obtain ⟨k, hk, hl⟩ := ih h
    exact ⟨k, hk, .up hl⟩
  | case4 => cases h
  | case5 here step hdot hup hlen free =>
    cases h
    exact ⟨0, Nat.zero_le _, .vacant ⟨hdot, hup, Nat.not_lt.1 hlen⟩ free⟩
  | case6 => cases h
  | case7 here step rest hdot hup hlen found ih =>
    obtain ⟨k, hk, hl⟩ := ih h
    exact ⟨k, hk, .enter ⟨hdot, hup, Nat.not_lt.1 hlen⟩ found hl⟩
  | case8 here step hdot hup hlen data found =>
    cases h
    exact ⟨0, Nat.zero_le _, .file ⟨hdot, hup, Nat.not_lt.1 hlen⟩ found⟩
  | case9 => cases h
  | case10 here step rest hdot hup hlen text found hstay =>
    cases h
    obtain ⟨rfl, hfollow⟩ := hstay
    exact ⟨0, Nat.zero_le _, .stay ⟨hdot, hup, Nat.not_lt.1 hlen⟩ hfollow found⟩
  | case11 here step rest hdot hup hlen text found hgo route =>
    obtain ⟨k, hk, hl⟩ := hjump _ _ h
    refine ⟨k + 1, hk, .jump ⟨hdot, hup, Nat.not_lt.1 hlen⟩ found ?_ hl⟩
    by_cases hrest : rest = []
    · exact Or.inr (by simpa [hrest] using hgo)
    · exact Or.inl hrest

/-- Whatever a walk finds, its way leads there. -/
theorem leads_of_walk {budget : Nat} (h : t.walk follow budget here steps = .ok target) :
    ∃ links, links ≤ budget ∧ t.Leads follow here steps target links := by
  induction budget generalizing here steps with
  | zero =>
    apply leads_of_walkSteps ?_ h
    intro dir rest hjump
    cases hjump
  | succ budget ih =>
    apply leads_of_walkSteps ?_ h
    intro dir rest hjump
    obtain ⟨links, hle, hleads⟩ := ih hjump
    exact ⟨links, Nat.lt_succ_of_le hle, hleads⟩

/-- A way leads to one target and by one number of links. -/
theorem Leads.unique (h : t.Leads follow here steps target links)
    (h' : t.Leads follow here steps other more) : target = other ∧ links = more := by
  have hwalk := h.walk_eq (max links more)
  rw [h'.walk_eq, if_pos (Nat.le_max_right _ _), if_pos (Nat.le_max_left _ _)] at hwalk
  have hlow := h.walk_eq more
  rw [h'.walk_eq, if_pos (Nat.le_refl _)] at hlow
  have hhigh := h'.walk_eq links
  rw [h.walk_eq, if_pos (Nat.le_refl _)] at hhigh
  refine ⟨by injection hwalk with heq; exact heq.symm, Nat.le_antisymm ?_ ?_⟩
  · by_contra hnot
    rw [if_neg hnot] at hlow
    cases hlow
  · by_contra hnot
    rw [if_neg hnot] at hhigh
    cases hhigh

theorem Reaches.append (h : t.Reaches here first dir links)
    (h' : t.Leads follow dir second target more) (hgo : second ≠ [] ∨ follow = true) :
    t.Leads follow here (first ++ second) target (links + more) := by
  change t.Leads true here first (.entry dir .directory) links at h
  generalize hx : Target.entry dir .directory = x at h
  induction h with
  | here dir => cases hx; simpa using h'
  | dot next ih => exact .dot (ih hx)
  | up next ih => exact .up (ih hx)
  | vacant => cases hx
  | enter isName found next ih => exact .enter isName found (ih hx)
  | file => cases hx
  | stay isName last => cases last
  | @jump dir name rest text target links isName found goesOn next ih =>
    have hnext := ih hx
    rw [List.append_assoc] at hnext
    rw [Nat.add_right_comm]
    refine .jump isName found ?_ hnext
    rcases hgo with hsecond | hfollow
    · exact Or.inl (by simp [hsecond])
    · exact Or.inr hfollow

private theorem split_nil (h : t.Leads follow here second target links) :
    ∃ dir before after, t.Reaches here [] dir before ∧
      t.Leads follow dir second target after ∧ links = before + after :=
  ⟨here, 0, links, .here here, h, (Nat.zero_add links).symm⟩

/-- A way in two parts goes through a directory: only the last step of a way may lead to anything
    else. -/
theorem Leads.split (h : t.Leads follow here (first ++ second) target links) (hgo : second ≠ []) :
    ∃ dir before after, t.Reaches here first dir before ∧
      t.Leads follow dir second target after ∧ links = before + after := by
  generalize hs : first ++ second = steps at h
  have hlast {name other : String} {rest : List String}
      (heq : name :: rest ++ second = [other]) : False := by
    rw [List.cons_append, List.cons.injEq, List.append_eq_nil_iff] at heq
    exact hgo heq.2.2
  induction h generalizing first with
  | here dir => simp [hgo] at hs
  | dot next ih =>
    cases first with
    | nil => obtain rfl := hs; exact split_nil (.dot next)
    | cons name first =>
      obtain ⟨rfl, htail⟩ := List.cons.inj hs
      obtain ⟨mid, before, after, h₁, h₂, heq⟩ := ih htail
      exact ⟨mid, before, after, .dot h₁, h₂, heq⟩
  | up next ih =>
    cases first with
    | nil => obtain rfl := hs; exact split_nil (.up next)
    | cons name first =>
      obtain ⟨rfl, htail⟩ := List.cons.inj hs
      obtain ⟨mid, before, after, h₁, h₂, heq⟩ := ih htail
      exact ⟨mid, before, after, .up h₁, h₂, heq⟩
  | vacant isName free =>
    cases first with
    | nil => obtain rfl := hs; exact split_nil (.vacant isName free)
    | cons name first => exact (hlast hs).elim
  | enter isName found next ih =>
    cases first with
    | nil => obtain rfl := hs; exact split_nil (.enter isName found next)
    | cons name first =>
      obtain ⟨rfl, htail⟩ := List.cons.inj hs
      obtain ⟨mid, before, after, h₁, h₂, heq⟩ := ih htail
      exact ⟨mid, before, after, .enter isName found h₁, h₂, heq⟩
  | file isName found =>
    cases first with
    | nil => obtain rfl := hs; exact split_nil (.file isName found)
    | cons name first => exact (hlast hs).elim
  | stay isName last found =>
    cases first with
    | nil => obtain rfl := hs; exact split_nil (.stay isName last found)
    | cons name first => exact (hlast hs).elim
  | jump isName found goesOn next ih =>
    cases first with
    | nil => obtain rfl := hs; exact split_nil (.jump isName found goesOn next)
    | cons name first =>
      obtain ⟨rfl, rfl⟩ := List.cons.inj hs
      obtain ⟨mid, before, after, h₁, h₂, heq⟩ := ih (List.append_assoc _ _ _)
      exact ⟨mid, before + 1, after, .jump isName found (Or.inr rfl) h₁, h₂, by omega⟩

theorem get?_tail (h : t.get? here = some .directory) : t.get? here.tail = some .directory := by
  cases here with
  | nil => rfl
  | cons name dir =>
    have hentry : (t.get? (name :: dir)).isSome := by
      rw [h]
      rfl
    exact get?_parent hentry

theorem get?_wayStart (h : t.get? here = some .directory) (path : String) :
    t.get? (wayStart here path) = some .directory := by
  unfold wayStart
  split
  · rfl
  · exact h

/-- A target tells what stands at its place, if the way begins in a directory. -/
theorem Leads.get?_place (h : t.Leads follow here steps target links)
    (hhere : t.get? here = some .directory) : t.get? target.place = target.standing? := by
  induction h with
  | here dir => exact hhere
  | dot next ih => exact ih hhere
  | up next ih => exact ih (get?_tail hhere)
  | vacant isName free => exact free
  | enter isName found next ih => exact ih found
  | file isName found => exact found
  | stay isName last found => exact found
  | jump isName found goesOn next ih => exact ih (get?_wayStart hhere _)

/-- A way that begins in a directory leads to what a place is. -/
theorem Leads.eq_targetAt (h : t.Leads follow here steps target links)
    (hhere : t.get? here = some .directory) : target = t.targetAt target.place := by
  have hplace := h.get?_place hhere
  rw [targetAt, hplace]
  cases target <;> rfl

/-- Following the last link makes no difference where there is none. -/
theorem Leads.follows (h : t.Leads false here steps target links)
    (hnot : ∀ place text, target ≠ .entry place (.link text)) :
    t.Leads true here steps target links := by
  induction h with
  | here dir => exact .here dir
  | dot next ih => exact .dot (ih hnot)
  | up next ih => exact .up (ih hnot)
  | vacant isName free => exact .vacant isName free
  | enter isName found next ih => exact .enter isName found (ih hnot)
  | file isName found => exact .file isName found
  | stay isName last found => exact absurd rfl (hnot _ _)
  | jump isName found goesOn next ih => exact .jump isName found (Or.inr rfl) (ih hnot)

/-- An entry that is no directory stands where it is found, wherever the way begins. -/
theorem Leads.get?_eq (h : t.Leads follow here steps (.entry place entry) links)
    (hnot : entry ≠ .directory) : t.get? place = some entry := by
  generalize hx : Target.entry place entry = x at h
  induction h with
  | here dir => cases hx; exact absurd rfl hnot
  | dot next ih => exact ih hx
  | up next ih => exact ih hx
  | vacant => cases hx
  | enter isName found next ih => exact ih hx
  | file isName found => cases hx; exact found
  | stay isName last found => cases hx; exact found
  | jump isName found goesOn next ih => exact ih hx

/-- A way that does not end in a directory ends with a name, and all before it is a way to the
    directory in which the target lies. -/
theorem Leads.last_step (h : t.Leads false here steps target links)
    (hnot : target.standing? ≠ some .directory) :
    ∃ first name dir, steps = first ++ [name] ∧ IsName name ∧ t.Reaches here first dir links ∧
      target.place = name :: dir := by
  obtain rfl | ⟨first, name, rfl⟩ := steps.eq_nil_or_concat'
  · cases h
    exact absurd rfl hnot
  obtain ⟨dir, before, after, hfirst, hlast, rfl⟩ := h.split (List.cons_ne_nil name [])
  cases hlast with
  | dot next => cases next; exact absurd rfl hnot
  | up next => cases next; exact absurd rfl hnot
  | vacant isName free => exact ⟨first, name, dir, rfl, isName, hfirst, rfl⟩
  | enter isName found next => cases next; exact absurd rfl hnot
  | file isName found => exact ⟨first, name, dir, rfl, isName, hfirst, rfl⟩
  | stay isName last found => exact ⟨first, name, dir, rfl, isName, hfirst, rfl⟩
  | jump isName found goesOn next => simp at goesOn

theorem Reaches.leads_vacant {name : String} (h : t.Reaches here first dir links)
    (hname : IsName name) (hfree : t.get? (name :: dir) = none) :
    t.Leads follow here (first ++ [name]) (.vacant (name :: dir)) links := by
  simpa using h.append (.vacant hname hfree) (Or.inl (List.cons_ne_nil name []))

/-- A name in a directory leads to the entry of that name, if it is no link to be followed. -/
theorem Reaches.leads_entry {name : String} (h : t.Reaches here first dir links)
    (hname : IsName name) (hfound : t.get? (name :: dir) = some entry)
    (hstay : follow = false ∨ ∀ text, entry ≠ .link text) :
    t.Leads follow here (first ++ [name]) (.entry (name :: dir) entry) links := by
  have hlast : t.Leads follow dir [name] (.entry (name :: dir) entry) 0 := by
    cases entry with
    | directory => exact .enter hname hfound (.here _)
    | file data => exact .file hname hfound
    | link text => exact .stay hname (hstay.resolve_right fun h => h text rfl) hfound
  exact h.append hlast (Or.inl (List.cons_ne_nil name []))

/-- A name in a directory leads to what its place is, if this is no link to be followed. -/
theorem Reaches.leads_targetAt {name : String} (h : t.Reaches here first dir links)
    (hname : IsName name)
    (hstay : follow = false ∨ ∀ text, t.get? (name :: dir) ≠ some (.link text)) :
    t.Leads follow here (first ++ [name]) (t.targetAt (name :: dir)) links := by
  unfold targetAt
  split
  · next entry hfound =>
    refine h.leads_entry hname hfound (hstay.imp_right fun hnot text heq => hnot text ?_)
    rw [hfound, heq]
  · next hfree => exact h.leads_vacant hname hfree

/-- Without its last link a way to a directory leads to an entry still. -/
theorem Reaches.exists_entry (h : t.Reaches here steps dir links) :
    ∃ place entry more, more ≤ links ∧ t.Leads false here steps (.entry place entry) more := by
  obtain rfl | ⟨first, name, rfl⟩ := steps.eq_nil_or_concat'
  · exact ⟨here, .directory, 0, Nat.zero_le _, .here here⟩
  obtain ⟨mid, before, after, hfirst, hlast, rfl⟩ := Leads.split h (List.cons_ne_nil name [])
  cases hlast with
  | dot next =>
    cases next
    exact ⟨dir, .directory, before, by omega, hfirst.append (.dot (.here dir)) (Or.inl (by simp))⟩
  | up next =>
    cases next
    exact ⟨mid.tail, .directory, before, by omega, hfirst.append (.up (.here _)) (Or.inl (by simp))⟩
  | enter isName found next =>
    exact ⟨_, _, before, by omega, hfirst.leads_entry isName found (Or.inl rfl)⟩
  | jump isName found goesOn next =>
    exact ⟨_, _, before, by omega, hfirst.leads_entry isName found (Or.inl rfl)⟩

/-- A way in two parts ends in a directory if its second part does so from where the first one
    ends. -/
theorem reaches_append : t.Reaches here (first ++ second) dir links ↔
    ∃ mid before after, t.Reaches here first mid before ∧ t.Reaches mid second dir after ∧
      links = before + after := by
  constructor
  · intro h
    by_cases hsecond : second = []
    · subst hsecond
      rw [List.append_nil] at h
      exact ⟨dir, links, 0, h, .here dir, rfl⟩
    · exact Leads.split h hsecond
  · rintro ⟨mid, before, after, h₁, h₂, rfl⟩
    exact h₁.append h₂ (Or.inr rfl)

/-- Dots do not count on the way to a directory. -/
theorem reaches_filter_dots :
    t.Reaches here (steps.filter (· ≠ ".")) dir links ↔ t.Reaches here steps dir links := by
  induction steps generalizing here links with
  | nil => rfl
  | cons step rest ih =>
    by_cases hdot : step = "."
    · subst hdot
      rw [List.filter_cons_of_neg (by simp), ih]
      refine ⟨.dot, ?_⟩
      intro h
      generalize hs : "." :: rest = steps at h
      cases h with
      | here => cases hs
      | dot next => obtain ⟨_, rfl⟩ := List.cons.inj hs; exact next
      | up next => exact absurd (List.cons.inj hs).1 (by decide)
      | enter isName => exact absurd (List.cons.inj hs).1.symm isName.1
      | jump isName => exact absurd (List.cons.inj hs).1.symm isName.1
    · rw [List.filter_cons_of_pos (by simpa using hdot), ← List.singleton_append,
        ← List.singleton_append (l := rest), reaches_append, reaches_append]
      simp only [ih]

end StepRunner.FileTree
