import Mathlib.Data.List.Induction
import Mathlib.Data.List.Nodup
import StepRunner.Proofs.Action
import StepRunner.Proofs.Text
import StepRunner.Step.Arguments

namespace StepRunner.StepArguments

variable {args args' : StepArguments} {pairs : List String} {pair key value : String} {e : StepError}

/-- The keys of the entries, in order. -/
def keys (args : StepArguments) : List String := args.entries.map Prod.fst

/-- Setting a key replaces the value of its first entry, or adds an entry at the end if there is
    none. -/
theorem assign_cases (key value : String) (entries : List (String × String)) :
    (∃ before old after, entries = before ++ (key, old) :: after ∧ key ∉ before.map Prod.fst ∧
      assign key value entries = before ++ (key, value) :: after) ∨
    (key ∉ entries.map Prod.fst ∧ assign key value entries = entries ++ [(key, value)]) := by
  induction entries with
  | nil => exact Or.inr ⟨List.not_mem_nil, rfl⟩
  | cons entry rest ih =>
    obtain ⟨k, v⟩ := entry
    by_cases hk : k = key
    · subst hk
      exact Or.inl ⟨[], v, rest, rfl, List.not_mem_nil, if_pos rfl⟩
    rcases ih with ⟨before, old, after, rfl, hnot, hassign⟩ | ⟨hnot, hassign⟩
    · refine Or.inl ⟨(k, v) :: before, old, after, rfl, ?_, ?_⟩
      · rw [List.map_cons, List.mem_cons, not_or]
        exact ⟨Ne.symm hk, hnot⟩
      · rw [assign, if_neg hk, hassign, List.cons_append]
    · refine Or.inr ⟨?_, ?_⟩
      · rw [List.map_cons, List.mem_cons, not_or]
        exact ⟨Ne.symm hk, hnot⟩
      · rw [assign, if_neg hk, hassign, List.cons_append]

private theorem lookup_cons_eq (k v other : String) (rest : List (String × String)) :
    ((k, v) :: rest).lookup other = if other = k then some v else rest.lookup other := by
  rw [List.lookup_cons]
  by_cases hother : other = k
  · rw [if_pos hother, hother, beq_self_eq_true]
  · rw [if_neg hother, beq_eq_false_iff_ne.2 hother]

theorem lookup_assign (key value other : String) (entries : List (String × String)) :
    (assign key value entries).lookup other =
      if other = key then some value else entries.lookup other := by
  induction entries with
  | nil => rw [assign, lookup_cons_eq]
  | cons entry rest ih =>
    obtain ⟨k, v⟩ := entry
    by_cases hk : k = key
    · rw [assign, if_pos hk, lookup_cons_eq, lookup_cons_eq, hk]
      split <;> rfl
    · rw [assign, if_neg hk, lookup_cons_eq, lookup_cons_eq, ih]
      by_cases hother : other = k
      · rw [if_pos hother, if_pos hother, if_neg (hother ▸ hk)]
      · rw [if_neg hother, if_neg hother]

theorem get?_insert (args : StepArguments) (key value other : String) :
    (args.insert key value).get? other = if other = key then some value else args.get? other :=
  lookup_assign ..

theorem get?_eq_none_iff : args.get? key = none ↔ key ∉ args.keys := by
  rw [get?, List.lookup_eq_none_iff, keys, List.mem_map]
  constructor
  · rintro h ⟨entry, hmem, rfl⟩
    exact bne_iff_ne.1 (h entry hmem) rfl
  · intro h entry hmem
    exact bne_iff_ne.2 fun heq => h ⟨entry, hmem, heq.symm⟩

theorem keys_insert (args : StepArguments) (key value : String) :
    (args.insert key value).keys = if key ∈ args.keys then args.keys else args.keys ++ [key] := by
  rw [keys, insert, keys]
  rcases assign_cases key value args.entries with
    ⟨before, old, after, heq, _, hassign⟩ | ⟨hnot, hassign⟩
  · rw [hassign, heq, if_pos (by simp)]
    simp
  · rw [hassign, if_neg hnot, List.map_append, List.map_cons, List.map_nil]

/-- `args.Sets args' key value` says that `args'` is `args` with one value set: no other key has
    another value, and of the entries one has another value, or one is added at the end because
    there was none with that key. -/
structure Sets (args args' : StepArguments) (key value : String) : Prop where
  get?_self : args'.get? key = some value
  get?_of_ne (other : String) : other ≠ key → args'.get? other = args.get? other
  entries :
    (∃ before old after, args.entries = before ++ (key, old) :: after ∧
      key ∉ before.map Prod.fst ∧ args'.entries = before ++ (key, value) :: after) ∨
    (args.get? key = none ∧ args'.entries = args.entries ++ [(key, value)])

theorem sets_insert (args : StepArguments) (key value : String) :
    args.Sets (args.insert key value) key value where
  get?_self := by rw [get?_insert, if_pos rfl]
  get?_of_ne other hother := by rw [get?_insert, if_neg hother]
  entries := by
    rw [get?_eq_none_iff]
    exact assign_cases key value args.entries

theorem require_eq_ok_iff :
    args.require key = .ok value ↔ args.get? key = some value ∧ value ≠ "" := by
  rw [require]
  cases args.get? key with
  | none => exact ⟨nofun, fun h => nomatch h.1⟩
  | some found =>
    by_cases hempty : found = ""
    · simp only [if_pos hempty, reduceCtorEq, Option.some.injEq, false_iff, not_and, not_not]
      exact fun heq => heq ▸ hempty
    · simp only [if_neg hempty, Except.ok.injEq, Option.some.injEq]
      exact ⟨fun heq => ⟨heq, heq ▸ hempty⟩, And.left⟩

/-- The text before the first `=` of a text, or all of it. -/
def keyOf (pair : String) : String := String.ofList (pair.toList.takeWhile (· ≠ '='))

/-- The text after the first `=` of a text. -/
def valueOf (pair : String) : String := String.ofList ((pair.toList.dropWhile (· ≠ '=')).drop 1)

/-- A text is a pair if it has a `=`, and that not at its start. -/
def IsPair (pair : String) : Prop := '=' ∈ pair.toList ∧ pair.toList.head? ≠ some '='

/-- What is said of a text that is no pair. -/
def refusal (pair : String) : StepError :=
  .invalidConfig ("argument `" ++ pair ++
    if '=' ∈ pair.toList then "` has an empty key" else "` is not of the form key=value")

theorem splitPair_of_isPair (h : IsPair pair) :
    splitPair pair = .ok (keyOf pair, valueOf pair) := by
  have hkey : pair.toList.takeWhile (· ≠ '=') ≠ [] := by
    obtain ⟨c, rest, hcons⟩ := List.exists_cons_of_ne_nil (List.ne_nil_of_mem h.1)
    have hc : c ≠ '=' := by simpa [hcons] using h.2
    rw [hcons, List.takeWhile_cons_of_pos (by simpa using hc)]
    exact List.cons_ne_nil _ _
  rw [splitPair, Text.splitOnce_of_mem h.1]
  split
  · next heq => cases heq
  · next heq => exact absurd (congrArg Prod.fst (Option.some.inj heq)) hkey
  · next heq =>
    cases heq
    rfl

theorem splitPair_of_not_isPair (h : ¬IsPair pair) : splitPair pair = .error (refusal pair) := by
  by_cases hmem : '=' ∈ pair.toList
  · obtain ⟨rest, hrest⟩ := List.head?_eq_some_iff.1 (not_not.1 fun hhead => h ⟨hmem, hhead⟩)
    rw [splitPair, hrest, Text.splitOnce, if_pos rfl, refusal, if_pos hmem]
  · rw [splitPair, Text.splitOnce_eq_none_iff.2 hmem, refusal, if_neg hmem]

/-- The arguments with those of some pairs set, one after the other. -/
def insertAll (args : StepArguments) (pairs : List String) : StepArguments :=
  pairs.foldl (fun args pair => args.insert (keyOf pair) (valueOf pair)) args

theorem addPairs_eq_ok_iff : args.addPairs pairs = .ok args' ↔
    (∀ pair ∈ pairs, IsPair pair) ∧ args' = args.insertAll pairs := by
  induction pairs generalizing args with
  | nil =>
    rw [addPairs, Except.ok.injEq, eq_comm]
    exact (and_iff_right (List.forall_mem_nil _)).symm
  | cons first rest ih =>
    rw [List.forall_mem_cons]
    by_cases hfirst : IsPair first
    · rw [addPairs, splitPair_of_isPair hfirst, and_iff_right hfirst]
      exact ih
    · rw [addPairs, splitPair_of_not_isPair hfirst]
      exact iff_of_false nofun fun h => hfirst h.1.1

theorem addPairs_eq_error_iff_mapM :
    args.addPairs pairs = .error e ↔ pairs.mapM splitPair = .error e := by
  induction pairs generalizing args with
  | nil => exact iff_of_false nofun nofun
  | cons first rest ih =>
    rw [addPairs, List.mapM_cons]
    cases splitPair first with
    | error e' => exact ⟨by rintro ⟨⟩; rfl, by rintro ⟨⟩; rfl⟩
    | ok entry =>
      refine ih.trans ?_
      cases rest.mapM splitPair with
      | error e' => exact Iff.rfl
      | ok entries => exact iff_of_false nofun nofun

/-- `args.KeepsLast pairs` says that each key that pairs have is there once, where it comes first
    in them, and with the value of the last pair that has it. -/
structure KeepsLast (args : StepArguments) (pairs : List String) : Prop where
  keys_eq : args.keys = (pairs.map keyOf).eraseDups
  nodup_keys : args.keys.Nodup
  get?_eq (key : String) :
    args.get? key = ((pairs.filter (keyOf · = key)).getLast?).map valueOf

theorem keepsLast_empty : empty.KeepsLast [] := ⟨rfl, List.nodup_nil, fun _ => rfl⟩

/-- One more pair sets its key. -/
theorem KeepsLast.concat (h : args.KeepsLast pairs) (pair : String) :
    (args.insert (keyOf pair) (valueOf pair)).KeepsLast (pairs ++ [pair]) where
  keys_eq := by
    have hmem : keyOf pair ∈ args.keys ↔ keyOf pair ∈ pairs.map keyOf := by
      rw [h.keys_eq, List.mem_eraseDups]
    rw [keys_insert, List.map_append, List.eraseDups_append, List.map_singleton, ← h.keys_eq,
      List.removeAll]
    by_cases hnew : keyOf pair ∈ args.keys
    · rw [if_pos hnew, List.filter_cons_of_neg (by simpa using hmem.1 hnew)]
      simp
    · rw [if_neg hnew, List.filter_cons_of_pos (by simpa using mt hmem.2 hnew)]
      simp [List.eraseDups_cons]
  nodup_keys := by
    rw [keys_insert]
    split
    · exact h.nodup_keys
    · next hnot => exact List.concat_eq_append ▸ List.Nodup.concat hnot h.nodup_keys
  get?_eq key := by
    rw [get?_insert, List.filter_append]
    by_cases hkey : key = keyOf pair
    · rw [if_pos hkey, List.filter_cons_of_pos (by simpa using hkey.symm)]
      simp
    · rw [if_neg hkey, h.get?_eq, List.filter_cons_of_neg (by simpa using Ne.symm hkey)]
      simp

theorem keepsLast_insertAll (pairs : List String) : (empty.insertAll pairs).KeepsLast pairs := by
  -- From the right, since a pair overrides the pairs before it.
  induction pairs using List.reverseRecOn with
  | nil => exact keepsLast_empty
  | append_singleton pairs pair ih =>
    rw [insertAll, List.foldl_append]
    exact ih.concat pair

theorem not_isPair_iff :
    ¬IsPair pair ↔ '=' ∉ pair.toList ∨ pair.toList.head? = some '=' := by
  rw [IsPair, not_and_or, not_not]

theorem isPair_iff_splitPair : IsPair pair ↔ ∃ entry, splitPair pair = .ok entry := by
  by_cases hpair : IsPair pair
  · exact iff_of_true hpair ⟨_, splitPair_of_isPair hpair⟩
  · rw [splitPair_of_not_isPair hpair]
    exact iff_of_false hpair fun ⟨_, h⟩ => nomatch h

/-- The first text that is no pair is told of. -/
theorem ofPairs_eq_error_iff : ofPairs pairs = .error e ↔
    ∃ before pair after, pairs = before ++ pair :: after ∧ (∀ other ∈ before, IsPair other) ∧
      ¬IsPair pair ∧ e = refusal pair := by
  rw [ofPairs, addPairs_eq_error_iff_mapM, mapM_eq_error_iff]
  simp only [← isPair_iff_splitPair]
  constructor
  · rintro ⟨before, pair, after, heq, hpair, hbefore⟩
    have hnot : ¬IsPair pair := fun h => by
      rw [splitPair_of_isPair h] at hpair
      cases hpair
    rw [splitPair_of_not_isPair hnot] at hpair
    cases hpair
    exact ⟨before, pair, after, heq, hbefore, hnot, rfl⟩
  · rintro ⟨before, pair, after, heq, hbefore, hnot, rfl⟩
    exact ⟨before, pair, after, heq, splitPair_of_not_isPair hnot, hbefore⟩

/-- Texts give arguments exactly if all of them are pairs; otherwise the first that is none is told
    of. Each key has the value that it was given last, and keeps the place where it came first.
    Setting a value touches no other one, also among arguments in which a key comes twice. -/
theorem ofPairs_lastWins (pairs : List String) :
    ((∃ e, ofPairs pairs = .error e) ↔
      ∃ pair ∈ pairs, '=' ∉ pair.toList ∨ pair.toList.head? = some '=') ∧
    (∀ e, ofPairs pairs = .error e ↔ ∃ before pair after, pairs = before ++ pair :: after ∧
      (∀ other ∈ before, IsPair other) ∧ ¬IsPair pair ∧ e = refusal pair) ∧
    (∀ args, ofPairs pairs = .ok args → args.KeepsLast pairs) ∧
    ∀ (args : StepArguments) (key value : String),
      (args.require key = .ok value ↔ args.get? key = some value ∧ value ≠ "") ∧
      args.Sets (args.insert key value) key value := by
  simp only [← not_isPair_iff]
  refine ⟨⟨?_, ?_⟩, fun _ => ofPairs_eq_error_iff, fun args hargs => ?_,
    fun args key value => ⟨require_eq_ok_iff, sets_insert args key value⟩⟩
  · rintro ⟨e, he⟩
    obtain ⟨before, pair, after, rfl, _, hpair, _⟩ := ofPairs_eq_error_iff.1 he
    exact ⟨pair, by simp, hpair⟩
  · rintro ⟨pair, hmem, hpair⟩
    rcases hresult : ofPairs pairs with e | args
    · exact ⟨e, rfl⟩
    · exact absurd ((addPairs_eq_ok_iff.1 hresult).1 pair hmem) hpair
  · obtain ⟨_, rfl⟩ := addPairs_eq_ok_iff.1 hargs
    exact keepsLast_insertAll pairs

/-- A value may be empty or hold a `=`, and a key that comes again keeps its place. -/
example : ofPairs ["a=1", "b=x=y", "a="] = .ok ⟨[("a", ""), ("b", "x=y")]⟩ ∧
    ofPairs ["a=1", "=b", "c"] = .error (.invalidConfig "argument `=b` has an empty key") := by
  decide +kernel

end StepRunner.StepArguments
