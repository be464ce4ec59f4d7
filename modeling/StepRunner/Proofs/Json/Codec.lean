import StepRunner.Json.Fields
import StepRunner.Proofs.Json.RoundTrip

namespace StepRunner.Json

variable {α : Type} {IsValue : α → Prop} {write : α → Json} {read? : Json → Option α}

attribute [simp] IsPlain.null IsPlain.bool IsPlain.natural IsPlain.string

/-- What `write` writes of a value is read back as the value. `IsValue` says which values there
    are: nothing else is read. -/
structure IsCodec (IsValue : α → Prop) (write : α → Json) (read? : Json → Option α) : Prop where
  isPlain : ∀ value, (write value).IsPlain
  read?_write : ∀ value, IsValue value → read? (write value) = some value
  isValue : ∀ {json value}, read? json = some value → IsValue value

theorem isCodec_string : IsCodec (fun _ => True) string string? where
  isPlain := .string
  read?_write _ _ := rfl
  isValue _ := trivial

theorem isCodec_natural (limit : ℕ) : IsCodec (· ≤ limit) natural (natural? limit) where
  isPlain := .natural
  read?_write _ hvalue := if_pos hvalue
  isValue {json value} h := by
    cases json
    case natural written =>
      rw [natural?] at h
      split_ifs at h with hlimit
      exact Option.some.inj h ▸ hlimit
    all_goals cases h

/-- Elements are read back one by one. -/
theorem mapM_map_write {values : List α} (h : ∀ value ∈ values, read? (write value) = some value) :
    (values.map write).mapM read? = some values := by
  induction values with
  | nil => rfl
  | cons value others ih =>
    obtain ⟨hvalue, hothers⟩ := List.forall_mem_cons.1 h
    rw [List.map_cons, List.mapM_cons, hvalue, ih hothers]
    rfl

/-- What is read of elements is read of one of them. -/
theorem exists_read?_of_mem_mapM {elements : List Json} {values : List α} {value : α}
    (h : elements.mapM read? = some values) (hvalue : value ∈ values) :
    ∃ element, read? element = some value := by
  induction elements generalizing values with
  | nil =>
    cases h
    cases hvalue
  | cons element others ih =>
    rw [List.mapM_cons] at h
    obtain ⟨first, hfirst, h⟩ := Option.bind_eq_some_iff.1 h
    obtain ⟨rest, hrest, h⟩ := Option.bind_eq_some_iff.1 h
    cases h
    rcases List.mem_cons.1 hvalue with rfl | hvalue
    · exact ⟨element, hfirst⟩
    · exact ih hrest hvalue

/-- A list whose elements are read back is read back. -/
theorem IsCodec.list (h : IsCodec IsValue write read?) :
    IsCodec (fun values => ∀ value ∈ values, IsValue value)
      (fun values => .array (values.map write)) (list? read?) where
  isPlain values := .array <| List.forall_mem_map.2 fun value _ => h.isPlain value
  read?_write values hvalues :=
    mapM_map_write fun value hvalue => h.read?_write value (hvalues value hvalue)
  isValue {json values} hread value hvalue := by
    cases json
    case array elements =>
      obtain ⟨element, helement⟩ := exists_read?_of_mem_mapM hread hvalue
      exact h.isValue helement
    all_goals cases hread

/-- A value that may be absent is read back, if what is there is not written as `null`. -/
theorem IsCodec.option (h : IsCodec IsValue write read?) (hnull : ∀ value, write value ≠ .null) :
    IsCodec (fun value => ∀ present ∈ value, IsValue present) (ofOption write)
      (option? read?) where
  isPlain
    | none => .null
    | some value => h.isPlain value
  read?_write
    | none, _ => rfl
    | some value, hvalue => by
      rw [ofOption, option?.eq_2 _ _ (hnull value), h.read?_write value (hvalue value rfl)]
      rfl
  isValue {json value} hread present hpresent := by
    by_cases hjson : json = .null
    · rw [hjson, option?] at hread
      cases hread
      cases hpresent
    · rw [option?.eq_2 _ _ hjson, Option.map_eq_some_iff] at hread
      obtain ⟨_, hread, rfl⟩ := hread
      exact Option.some.inj hpresent ▸ h.isValue hread

/-- A plain value is read back from its text. -/
theorem IsCodec.parse_render (h : IsCodec IsValue write read?) {value : α} (hvalue : IsValue value) :
    (parse? (render (write value))).bind read? = some value := by
  rw [parse?_render (h.isPlain value), Option.bind_some, h.read?_write value hvalue]

/-! Records -/

variable {members : List (String × Json)} {names : List String}

theorem IsPlain.record (h : ∀ member ∈ members, member.2.IsPlain) : (record members).IsPlain :=
  .object (List.forall_mem_map.2 fun _ _ => rfl) (List.forall_mem_map.2 h)

/-- A record whose names differ gives a name at most one value. -/
theorem uniqueMember?_record (h : (members.map Prod.fst).Nodup) (name : String) :
    uniqueMember? (members.map fun (name, value) => (some name, value)) name =
      some (members.lookup name) := by
  have hfilter : ∀ others : List (String × Json), (∀ member ∈ others, (name != member.1) = true) →
      (others.map fun (name, value) => (some name, value)).filter (·.1 = some name) = [] := by
    intro others hothers
    simp only [List.filter_eq_nil_iff, List.forall_mem_map, decide_eq_true_eq, Option.some.injEq]
    exact fun member hmember => (bne_iff_ne.1 (hothers member hmember)).symm
  cases hlookup : members.lookup name with
  | none => rw [uniqueMember?, hfilter members (List.lookup_eq_none_iff.1 hlookup)]
  | some value =>
    obtain ⟨before, after, rfl, hbefore⟩ := List.lookup_eq_some_iff.1 hlookup
    have hafter : ∀ member ∈ after, (name != member.1) = true := by
      intro member hmember
      rw [List.map_append, List.map_cons] at h
      have hname := (List.nodup_cons.1 (List.nodup_append.1 h).2.1).1
      exact bne_iff_ne.2 fun heq => hname (List.mem_map.2 ⟨member, hmember, heq.symm⟩)
    rw [uniqueMember?, List.map_append, List.filter_append, hfilter before hbefore, List.map_cons,
      List.filter_cons_of_pos (by simp), hfilter after hafter]
    rfl

/-- A field that has to be there is read as a value. -/
theorem IsCodec.isValue_required? {field : Option Json} {value : α}
    (h : IsCodec IsValue write read?) (hread : required? read? field = some value) :
    IsValue value := by
  obtain ⟨_, -, hread⟩ := Option.bind_eq_some_iff.1 hread
  exact h.isValue hread

/-- A field that may be missing is read as a value, if it is not. -/
theorem IsCodec.isValue_optional? {field : Option Json} {value : Option α}
    (h : IsCodec IsValue write read?) (hnull : ∀ value, write value ≠ .null)
    (hread : optional? read? field = some value) : ∀ present ∈ value, IsValue present := by
  cases field with
  | none =>
    cases hread
    exact nofun
  | some json => exact (h.option hnull).isValue hread

/-- The fields of a record are its values by name. -/
theorem fields?_record (h : (members.map Prod.fst).Nodup) (names : List String) :
    (record members).fields? names = some (names.map fun name => members.lookup name) := by
  have hunique : uniqueMember? (members.map fun (name, value) => (some name, value)) =
      fun name => pure (members.lookup name) := funext (uniqueMember?_record h)
  rw [record, fields?, if_pos (by simp), hunique, List.mapM_pure]
  rfl

/-- Names that differ find what stands in their places. -/
theorem map_lookup_zip {names : List String} {fields : List Json} (hnames : names.Nodup)
    (hlength : fields.length = names.length) :
    names.map (fun name => (names.zip fields).lookup name) = fields.map some := by
  induction names generalizing fields with
  | nil => rw [List.length_eq_zero_iff.1 hlength, List.map_nil, List.map_nil]
  | cons name names ih =>
    obtain ⟨field, fields, rfl⟩ := List.exists_cons_of_length_eq_add_one hlength
    obtain ⟨hname, hnames⟩ := List.nodup_cons.1 hnames
    rw [List.zip_cons_cons, List.map_cons, List.lookup_cons_self, List.map_cons,
      ← ih hnames (Nat.succ.inj hlength)]
    refine congrArg _ (List.map_congr_left fun other hother => ?_)
    have hne : (other == name) = false := beq_eq_false_iff_ne.2 fun heq => hname (heq ▸ hother)
    rw [List.lookup_cons, hne]

/-- The fields of a record that has all its names in order are the values in their places. -/
theorem fields?_zip (names : List String) (fields : List Json) (hnames : names.Nodup)
    (hlength : fields.length = names.length) :
    (Json.record (names.zip fields)).fields? names = some (fields.map some) := by
  have hmap : ((names.zip fields).map Prod.fst).Nodup := by
    rwa [List.map_fst_zip (Nat.le_of_eq hlength.symm)]
  rw [fields?_record hmap, map_lookup_zip hnames hlength]

/-- A record whose fields are all written, and read in the order of their names, is read back if
    its fields are. -/
theorem IsCodec.record (names : List String) (fields : α → List Json)
    {ofFields? : List (Option Json) → Option α} (hnames : names.Nodup)
    (hlength : ∀ value, (fields value).length = names.length)
    (hplain : ∀ value, ∀ field ∈ fields value, field.IsPlain)
    (hread : ∀ value, IsValue value → ofFields? ((fields value).map some) = some value)
    (hvalue : ∀ {given value}, ofFields? given = some value → IsValue value) :
    IsCodec IsValue (fun value => record (names.zip (fields value)))
      (fun json => (json.fields? names).bind ofFields?) where
  isPlain value := .record fun _ hmember => hplain value _ (List.of_mem_zip hmember).2
  read?_write value h := by
    rw [fields?_zip names (fields value) hnames (hlength value), Option.bind_some, hread value h]
  isValue h := by
    obtain ⟨_, -, h⟩ := Option.bind_eq_some_iff.1 h
    exact hvalue h

end StepRunner.Json
