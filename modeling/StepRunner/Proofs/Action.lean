import Mathlib.Data.List.Forall2
import StepRunner.World

namespace StepRunner

section Results

variable {α β ε : Type} {f : α → Except ε β} {items : List α} {results : List β} {e : ε}

/-- Two computations in turn have a result if both do. -/
theorem bind_eq_ok_iff {x : Except ε α} {next : α → Except ε β} {result : β} :
    x >>= next = .ok result ↔ ∃ value, x = .ok value ∧ next value = .ok result := by
  cases x with
  | error e => exact ⟨nofun, by rintro ⟨_, ⟨⟩, _⟩⟩
  | ok value => exact ⟨fun h => ⟨value, rfl, h⟩, by rintro ⟨_, ⟨⟩, h⟩; exact h⟩

/-- Two computations in turn fail if one of them does, the first one first. -/
theorem bind_eq_error_iff {x : Except ε α} {next : α → Except ε β} : x >>= next = .error e ↔
    x = .error e ∨ ∃ value, x = .ok value ∧ next value = .error e := by
  cases x with
  | error e' => exact ⟨by rintro ⟨⟩; exact Or.inl rfl, by rintro (⟨⟨⟩⟩ | ⟨_, ⟨⟩, _⟩); rfl⟩
  | ok value => exact ⟨fun h => Or.inr ⟨value, rfl, h⟩, by rintro (⟨⟨⟩⟩ | ⟨_, ⟨⟩, h⟩); exact h⟩

/-- All items have results if each of them has one. -/
theorem mapM_eq_ok_iff : items.mapM f = .ok results ↔
    List.Forall₂ (fun item result => f item = .ok result) items results := by
  induction items generalizing results with
  | nil =>
    rw [List.mapM_nil, List.forall₂_nil_left_iff]
    exact ⟨by rintro ⟨⟩; rfl, by rintro rfl; rfl⟩
  | cons item items ih =>
    rw [List.mapM_cons, List.forall₂_cons_left_iff]
    cases hitem : f item with
    | error e => exact ⟨nofun, by rintro ⟨_, _, h, _⟩; cases h⟩
    | ok result =>
      cases hrest : items.mapM f with
      | error e =>
        refine ⟨nofun, ?_⟩
        rintro ⟨_, others, _, hothers, _⟩
        rw [ih.2 hothers] at hrest
        cases hrest
      | ok others =>
        constructor
        · rintro ⟨⟩
          exact ⟨result, others, rfl, ih.1 hrest, rfl⟩
        · rintro ⟨_, others', ⟨⟩, hothers, rfl⟩
          rw [ih.2 hothers] at hrest
          cases hrest
          rfl

/-- Each result is the one of some item. -/
theorem exists_of_mem_mapM {result : β} (h : items.mapM f = .ok results) (hmem : result ∈ results) :
    ∃ item ∈ items, f item = .ok result := by
  rw [mapM_eq_ok_iff] at h
  induction h with
  | nil => cases hmem
  | @cons item found items results hitem _ ih =>
    rcases List.mem_cons.1 hmem with rfl | hmem
    · exact ⟨item, List.mem_cons_self, hitem⟩
    · obtain ⟨other, hother, heq⟩ := ih hmem
      exact ⟨other, List.mem_cons_of_mem _ hother, heq⟩

/-- The first item without a result decides how it fails. -/
theorem mapM_eq_error_iff : items.mapM f = .error e ↔
    ∃ before item after, items = before ++ item :: after ∧ f item = .error e ∧
      ∀ other ∈ before, ∃ result, f other = .ok result := by
  induction items with
  | nil => exact ⟨nofun, by rintro ⟨before, item, after, h, _⟩; simp at h⟩
  | cons first items ih =>
    rw [List.mapM_cons]
    cases hfirst : f first with
    | error e' =>
      constructor
      · rintro ⟨⟩
        exact ⟨[], first, items, rfl, hfirst, by simp⟩
      · rintro ⟨before, item, after, heq, hitem, hbefore⟩
        cases before with
        | nil =>
          cases heq
          rw [hfirst] at hitem
          cases hitem
          rfl
        | cons other before =>
          cases heq
          obtain ⟨result, hresult⟩ := hbefore first List.mem_cons_self
          rw [hfirst] at hresult
          cases hresult
    | ok result =>
      have hstep : (do
          let result ← Except.ok result
          let others ← items.mapM f
          pure (result :: others) : Except ε (List β)) = .error e ↔ items.mapM f = .error e := by
        cases items.mapM f <;> simp [bind, Except.bind, pure, Except.pure]
      rw [hstep, ih]
      constructor
      · rintro ⟨before, item, after, rfl, hitem, hbefore⟩
        exact ⟨first :: before, item, after, rfl, hitem,
          List.forall_mem_cons.2 ⟨⟨result, hfirst⟩, hbefore⟩⟩
      · rintro ⟨before, item, after, heq, hitem, hbefore⟩
        cases before with
        | nil =>
          cases heq
          rw [hfirst] at hitem
          cases hitem
        | cons other before =>
          cases heq
          exact ⟨before, item, after, rfl, hitem, fun other h => hbefore other (by simp [h])⟩

end Results

namespace Action

variable {σ ε ε' α β : Type} {w w' : World σ} {value : α} {result : β} {e : ε}

theorem run_bind (x : Action σ ε α) (f : α → Action σ ε β) (w : World σ) : (x >>= f).run w =
    match x.run w with
    | (.ok value, after) => (f value).run after
    | (.error e, after) => (.error e, after) := by
  change ExceptT.bindCont f (x.run w).1 (x.run w).2 = _
  rcases x.run w with ⟨_ | _, after⟩ <;> rfl

/-- An action ends with its result in some world. -/
theorem exists_run {x : Action σ ε α} {result : Except ε α} {holds : World σ → Prop}
    (h : (x.run w).1 = result) (hholds : holds (x.run w).2) :
    ∃ w', x.run w = (result, w') ∧ holds w' :=
  ⟨(x.run w).2, h ▸ rfl, hholds⟩

/-- Two actions in turn succeed if both do. -/
theorem run_bind_eq_ok {x : Action σ ε α} {f : α → Action σ ε β} :
    (x >>= f).run w = (.ok result, w') ↔
      ∃ value middle, x.run w = (.ok value, middle) ∧ (f value).run middle = (.ok result, w') := by
  rw [run_bind]
  rcases x.run w with ⟨_ | value, middle⟩
  · exact ⟨nofun, by rintro ⟨_, _, heq, _⟩; cases heq⟩
  · constructor
    · intro h
      exact ⟨value, middle, rfl, h⟩
    · rintro ⟨_, _, heq, h⟩
      cases heq
      exact h

/-- Two actions in turn fail as the one of them that fails. -/
theorem run_bind_eq_error {x : Action σ ε α} {f : α → Action σ ε β} :
    (x >>= f).run w = (.error e, w') ↔ x.run w = (.error e, w') ∨
      ∃ value middle, x.run w = (.ok value, middle) ∧ (f value).run middle = (.error e, w') := by
  rw [run_bind]
  rcases x.run w with ⟨_ | value, middle⟩
  · constructor
    · rintro ⟨⟩
      exact Or.inl rfl
    · rintro (h | ⟨_, _, heq, _⟩)
      · cases h
        rfl
      · cases heq
  · constructor
    · intro h
      exact Or.inr ⟨value, middle, rfl, h⟩
    · rintro (h | ⟨_, _, heq, h⟩)
      · cases h
      · cases heq
        exact h

@[simp] theorem run_pure (value : α) (w : World σ) :
    (pure value : Action σ ε α).run w = (.ok value, w) := rfl

@[simp] theorem run_throw (e : ε) (w : World σ) :
    (throw e : Action σ ε α).run w = (.error e, w) := rfl

@[simp] theorem run_lift (result : Except ε α) (w : World σ) :
    (ExceptT.mk (pure result) : Action σ ε α).run w = (result, w) := rfl

/-- A result that is known to be there is handed on. -/
theorem bind_lift_ok (value : α) (f : α → Action σ ε β) :
    (ExceptT.mk (pure (.ok value)) : Action σ ε α) >>= f = f value := rfl

@[simp] theorem run_get (w : World σ) : (get : Action σ ε (World σ)).run w = (.ok w, w) := rfl

@[simp] theorem run_modify (f : World σ → World σ) (w : World σ) :
    (modify f : Action σ ε PUnit).run w = (.ok ⟨⟩, f w) := rfl

@[simp] theorem run_machine (w : World σ) :
    (machine : Action σ ε Machine).run w = (.ok w.machine, w) := rfl

@[simp] theorem run_modifyMachine (f : Machine → Machine) (w : World σ) :
    (modifyMachine f : Action σ ε Unit).run w = (.ok (), { w with machine := f w.machine }) := rfl

@[simp] theorem run_outcome (x : Action σ ε α) (w : World σ) :
    (x.outcome : Action σ ε' (Except ε α)).run w = (.ok (x.run w).1, (x.run w).2) := rfl

@[simp] theorem run_mapError (f : ε → ε') (x : Action σ ε α) (w : World σ) :
    (x.mapError f).run w = ((x.run w).1.mapError f, (x.run w).2) := rfl

@[simp] theorem run_onDisk (toError : IoError → ε) (op : Location → Disk α) (w : World σ) :
    (onDisk toError op : Action σ ε α).run w =
      (((op w.machine.workDir).run w.machine.tree).1.mapError toError,
        { w with machine :=
          { w.machine with tree := ((op w.machine.workDir).run w.machine.tree).2 } }) := rfl

@[simp] theorem run_note (level : Log.Level) (channel : Log.Channel) (message : String)
    (fields : List (String × Log.Value)) (w : World σ) :
    (note level channel message fields : Action σ ε Unit).run w = (.ok (), { w with machine :=
      { w.machine with log :=
        w.machine.log ++ [⟨level, channel, message, fields, w.machine.span⟩] } }) := rfl

@[simp] theorem run_focus {τ : Type} (view : τ → σ) (update : σ → τ → τ) (x : Action σ ε α)
    (w : World τ) : (x.focus view update).run w = ((x.run ⟨w.machine, view w.remote⟩).1,
      ⟨(x.run ⟨w.machine, view w.remote⟩).2.machine,
        update (x.run ⟨w.machine, view w.remote⟩).2.remote w.remote⟩) := rfl

@[simp] theorem run_inSpan (span : Log.Span) (x : Action σ ε α) (w : World σ) :
    (inSpan span x).run w =
      ((x.run { w with machine := { w.machine with span := some span } }).1,
        { (x.run { w with machine := { w.machine with span := some span } }).2 with machine :=
          { (x.run { w with machine := { w.machine with span := some span } }).2.machine with
            span := w.machine.span } }) := rfl

/-- An operation on the file tree succeeds in the world as it does on the tree. -/
theorem run_onDisk_eq_ok {toError : IoError → ε} {op : Location → Disk α} :
    (onDisk toError op : Action σ ε α).run w = (.ok value, w') ↔
      ∃ tree, (op w.machine.workDir).run w.machine.tree = (.ok value, tree) ∧
        w' = { w with machine := { w.machine with tree } } := by
  rw [run_onDisk]
  rcases (op w.machine.workDir).run w.machine.tree with ⟨_ | _, tree⟩
  · exact ⟨nofun, by rintro ⟨_, heq, _⟩; cases heq⟩
  · constructor
    · rintro ⟨⟩
      exact ⟨tree, rfl, rfl⟩
    · rintro ⟨_, heq, rfl⟩
      cases heq
      rfl

theorem run_onDisk_eq_error {toError : IoError → ε} {op : Location → Disk α} :
    (onDisk toError op : Action σ ε α).run w = (.error e, w') ↔
      ∃ cause tree, (op w.machine.workDir).run w.machine.tree = (.error cause, tree) ∧
        toError cause = e ∧ w' = { w with machine := { w.machine with tree } } := by
  rw [run_onDisk]
  rcases (op w.machine.workDir).run w.machine.tree with ⟨cause | _, tree⟩
  · constructor
    · rintro ⟨⟩
      exact ⟨cause, tree, rfl, rfl, rfl⟩
    · rintro ⟨_, _, heq, rfl, rfl⟩
      cases heq
      rfl
  · exact ⟨nofun, by rintro ⟨_, _, heq, _⟩; cases heq⟩

/-- Whether an action changes nothing of what can be seen of the world outside the machine. -/
def KeepsRemote {γ : Type} (view : σ → γ) (x : Action σ ε α) : Prop :=
  ∀ w, view (x.run w).2.remote = view w.remote

namespace KeepsRemote

variable {γ : Type} {view : σ → γ}

theorem of_run {x : Action σ ε α} (h : KeepsRemote view x) {result : Except ε α}
    (hrun : x.run w = (result, w')) : view w'.remote = view w.remote := by
  have hview := h w
  rwa [hrun] at hview

theorem bind {x : Action σ ε α} {f : α → Action σ ε β} (hx : KeepsRemote view x)
    (hf : ∀ value, KeepsRemote view (f value)) : KeepsRemote view (x >>= f) := by
  intro w
  have hfirst := hx w
  rw [run_bind]
  rcases hrun : x.run w with ⟨_ | value, after⟩
  · rwa [hrun] at hfirst
  · rw [hrun] at hfirst
    exact (hf value after).trans hfirst

theorem pure (value : α) : KeepsRemote view (pure value : Action σ ε α) := fun _ => rfl

theorem throw (e : ε) : KeepsRemote view (throw e : Action σ ε α) := fun _ => rfl

theorem lift (result : Except ε α) :
    KeepsRemote view (ExceptT.mk (Pure.pure result) : Action σ ε α) := fun _ => rfl

theorem machine : KeepsRemote view (machine : Action σ ε Machine) := fun _ => rfl

theorem onDisk (toError : IoError → ε) (op : Location → Disk α) :
    KeepsRemote view (onDisk toError op : Action σ ε α) := fun _ => rfl

theorem note (level : Log.Level) (channel : Log.Channel) (message : String)
    (fields : List (String × Log.Value)) :
    KeepsRemote view (note level channel message fields : Action σ ε Unit) := fun _ => rfl

theorem outcome {x : Action σ ε α} (hx : KeepsRemote view x) :
    KeepsRemote view (x.outcome : Action σ ε' (Except ε α)) := hx

end KeepsRemote

/-- Whether an action is done on the machine alone: what lies outside it makes no difference and is
    left as it is. -/
def IsOnMachine (x : (σ : Type) → Action σ ε α) : Prop :=
  ∀ m, ∃ result m', ∀ (σ : Type) (remote : σ), (x σ).run ⟨m, remote⟩ = (result, ⟨m', remote⟩)

namespace IsOnMachine

theorem of_run {x : (σ : Type) → Action σ ε α} (h : IsOnMachine x) {result : Except ε α}
    (hrun : (x σ).run w = (result, w')) (τ : Type) (remote : τ) :
    (x τ).run ⟨w.machine, remote⟩ = (result, ⟨w'.machine, remote⟩) := by
  obtain ⟨result', m', halone⟩ := h w.machine
  have hhere : (x σ).run w = (result', ⟨m', w.remote⟩) := halone σ w.remote
  rw [hrun] at hhere
  cases hhere
  exact halone τ remote

theorem bind {x : (σ : Type) → Action σ ε α} {f : (σ : Type) → α → Action σ ε β}
    (hx : IsOnMachine x) (hf : ∀ value, IsOnMachine fun σ => f σ value) :
    IsOnMachine fun σ => x σ >>= f σ := by
  intro m
  obtain ⟨result, m', hrun⟩ := hx m
  cases result with
  | error e =>
    refine ⟨.error e, m', fun σ remote => ?_⟩
    rw [run_bind, hrun σ remote]
  | ok value =>
    obtain ⟨last, m'', hlast⟩ := hf value m'
    refine ⟨last, m'', fun σ remote => ?_⟩
    rw [run_bind, hrun σ remote]
    exact hlast σ remote

theorem pure (value : α) : IsOnMachine fun σ => (Pure.pure value : Action σ ε α) :=
  fun m => ⟨.ok value, m, fun _ _ => rfl⟩

theorem machine : IsOnMachine fun σ => (Action.machine : Action σ ε Machine) :=
  fun m => ⟨.ok m, m, fun _ _ => rfl⟩

theorem modifyMachine (f : Machine → Machine) :
    IsOnMachine fun σ => (Action.modifyMachine f : Action σ ε Unit) :=
  fun m => ⟨.ok (), f m, fun _ _ => rfl⟩

theorem note (level : Log.Level) (channel : Log.Channel) (message : String)
    (fields : List (String × Log.Value)) :
    IsOnMachine fun σ => (Action.note level channel message fields : Action σ ε Unit) :=
  modifyMachine _

theorem onDisk (toError : IoError → ε) (op : Location → Disk α) :
    IsOnMachine fun σ => (Action.onDisk toError op : Action σ ε α) :=
  fun m => ⟨((op m.workDir).run m.tree).1.mapError toError,
    { m with tree := ((op m.workDir).run m.tree).2 }, fun _ _ => rfl⟩

end IsOnMachine

end Action

end StepRunner
