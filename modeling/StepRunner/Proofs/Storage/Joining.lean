import StepRunner.Proofs.Action
import StepRunner.Proofs.Text
import StepRunner.Storage.Http

namespace StepRunner.Storage

variable {base dir url bucket path : String} {text rel rest : List Char}

/-- What a relative path adds to a URL: a slash and the path, if there is more in it than
    slashes. -/
def addition (rel : List Char) : List Char :=
  if trimSlashes rel = [] then [] else '/' :: trimSlashes rel

theorem tail_addition (rel : List Char) : (addition rel).tail = trimSlashes rel := by
  unfold addition
  split
  · next hnil => rw [hnil]; rfl
  · rfl

theorem toList_joinUrl (base rel : String) :
    (joinUrl base rel).toList = trimEndSlashes base.toList ++ addition rel.toList := by
  rw [joinUrl, String.toList_ofList, addition]
  split
  · rw [List.append_nil]
  · rfl

/-- A joined URL does not end with a slash. -/
theorem getLast?_joinUrl {base rel : String} {c : Char}
    (h : (joinUrl base rel).toList.getLast? = some c) : c ≠ '/' := by
  have hslash {c : Char} (h : isSlash c = false) : c ≠ '/' := by simpa [isSlash] using h
  rw [joinUrl, String.toList_ofList] at h
  split at h
  · exact hslash (Text.getLast?_trimEnd h)
  · next hne =>
    rw [List.getLast?_append_of_ne_nil _ (by simp), List.getLast?_cons_of_ne_nil hne] at h
    exact hslash (Text.getLast?_trimEnd h)

/-- A joined URL stays as it is when another path is joined to it. -/
theorem trimEndSlashes_joinUrl (base rel : String) :
    trimEndSlashes (joinUrl base rel).toList = (joinUrl base rel).toList :=
  Text.trimEnd_eq_self fun c hc => by simpa [isSlash] using getLast?_joinUrl hc

theorem trimSlashes_joinUrl (base rel : String) : trimSlashes (joinUrl base rel).toList =
    if trimSlashes base.toList = [] then trimSlashes rel.toList
    else trimSlashes base.toList ++ addition rel.toList := by
  have hstart : Text.trimStart isSlash (addition rel.toList) = trimSlashes rel.toList := by
    have hself : Text.trimStart isSlash (trimSlashes rel.toList) = trimSlashes rel.toList :=
      Text.trimStart_eq_self fun _ => Text.head?_trim
    unfold addition
    split
    · next hnil => rw [hnil]; rfl
    · rwa [Text.trimStart, List.dropWhile_cons_of_pos (by decide)]
  rw [trimSlashes, Text.trim_eq_trimStart_trimEnd, ← trimEndSlashes, trimEndSlashes_joinUrl,
    toList_joinUrl, Text.trimStart_append, hstart, trimEndSlashes, ← Text.trim_eq_trimStart_trimEnd]
  rfl

/-- Paths are added to a URL one after the other. -/
theorem addition_joinUrl (first second : String) : addition (joinUrl first second).toList =
    addition first.toList ++ addition second.toList := by
  have hjoin := trimSlashes_joinUrl first second
  by_cases hfirst : trimSlashes first.toList = []
  · have hnil : addition first.toList = [] := if_pos hfirst
    rw [if_pos hfirst] at hjoin
    rw [hnil, List.nil_append, addition, hjoin, addition]
  · have hcons : addition first.toList = '/' :: trimSlashes first.toList := if_neg hfirst
    rw [if_neg hfirst] at hjoin
    rw [addition, hjoin, if_neg (by simp [hfirst]), hcons, List.cons_append]

/-- It does not matter in which order URLs are joined. -/
theorem joinUrl_assoc (first second third : String) :
    joinUrl (joinUrl first second) third = joinUrl first (joinUrl second third) := by
  apply String.toList_injective
  rw [toList_joinUrl, trimEndSlashes_joinUrl, toList_joinUrl, toList_joinUrl, addition_joinUrl,
    List.append_assoc]

theorem trimSlashes_eq_self (hstart : text.head? ≠ some '/') (hend : text.getLast? ≠ some '/') :
    trimSlashes text = text := by
  have hslash {c : Char} (hc : c ≠ '/') : isSlash c = false := by simpa [isSlash] using hc
  refine Text.trim_eq_self (fun c hc => hslash ?_) fun c hc => hslash ?_
  · rintro rfl
    exact hstart hc
  · rintro rfl
    exact hend hc

/-- The URL of a path below a directory, unless there are slashes at the ends of that path. -/
theorem joinUrl_joinUrl (base dir : String) (hne : rel ≠ []) (hstart : rel.head? ≠ some '/')
    (hend : rel.getLast? ≠ some '/') : joinUrl (joinUrl base dir) (String.ofList rel) =
      String.ofList ((joinUrl base dir).toList ++ ['/'] ++ rel) := by
  apply String.toList_injective
  rw [toList_joinUrl, trimEndSlashes_joinUrl, String.toList_ofList, String.toList_ofList, addition,
    trimSlashes_eq_self hstart hend, if_neg hne, List.append_assoc, List.singleton_append]

/-- What may follow the name of a bucket: nothing, or a path after a slash. -/
def IsAfterBucket (rest : List Char) : Prop := ∀ c, rest.head? = some c → c = '/'

variable {name : List Char}

theorem trimSlashes_cons_slash (text : List Char) : trimSlashes ('/' :: text) = trimSlashes text :=
  rfl

@[simp] theorem trimSlashes_trimSlashes (text : List Char) :
    trimSlashes (trimSlashes text) = trimSlashes text :=
  Text.trim_trim isSlash text

theorem isAfterBucket_trimEndSlashes (h : IsAfterBucket rest) :
    IsAfterBucket (trimEndSlashes rest) := by
  intro c hc
  obtain ⟨tail, htail⟩ := List.head?_eq_some_iff.1 hc
  obtain ⟨slashes, hslashes⟩ := Text.trimEnd_isPrefix isSlash rest
  apply h c
  rw [← hslashes, ← trimEndSlashes, htail]
  rfl

theorem isAfterBucket_addition (rel : List Char) : IsAfterBucket (addition rel) := by
  intro c hc
  unfold addition at hc
  split at hc
  · cases hc
  · exact (Option.some.inj hc).symm

theorem IsAfterBucket.append (h : IsAfterBucket rest) (htext : IsAfterBucket text) :
    IsAfterBucket (rest ++ text) := by
  intro c hc
  cases rest with
  | nil => exact htext c hc
  | cons first rest => exact h c hc

/-- A bucket's name ends before the first slash. -/
theorem bucketAndPath_of_append (hurl : url.toList = "gs://".toList ++ (name ++ rest))
    (hslash : '/' ∉ name) (hrest : IsAfterBucket rest) : bucketAndPath url =
      if name = [] then .error (.invalidUrl url)
      else .ok (String.ofList name, String.ofList (trimSlashes rest)) := by
  have hsplit : ∃ path, (Text.splitOnce '/' (name ++ rest)).getD (name ++ rest, []) = (name, path) ∧
      trimSlashes path = trimSlashes rest := by
    cases rest with
    | nil =>
      refine ⟨[], ?_, rfl⟩
      rw [List.append_nil, Text.splitOnce_eq_none_iff.2 hslash, Option.getD_none]
    | cons c path =>
      obtain rfl := hrest c rfl
      refine ⟨path, ?_, rfl⟩
      rw [Text.splitOnce_eq_some_iff.2 ⟨rfl, hslash⟩, Option.getD_some]
  obtain ⟨path, hsplit, htrim⟩ := hsplit
  rw [bucketAndPath, Text.dropStart?_eq_some_iff.2 hurl]
  simp only [hsplit, htrim]

/-- A URL names a bucket if there is something between `gs://` and the next slash. -/
theorem bucketAndPath_eq_ok_iff : bucketAndPath url = .ok (bucket, path) ↔
    ∃ rest, url.toList = "gs://".toList ++ (bucket.toList ++ rest) ∧ bucket.toList ≠ [] ∧
      '/' ∉ bucket.toList ∧ IsAfterBucket rest ∧ path = String.ofList (trimSlashes rest) := by
  constructor
  · intro h
    cases hdrop : Text.dropStart? "gs://".toList url.toList with
    | none =>
      rw [bucketAndPath, hdrop] at h
      cases h
    | some after =>
      have hurl := Text.dropStart?_eq_some_iff.1 hdrop
      have hafter : after.takeWhile (· ≠ '/') ++ after.dropWhile (· ≠ '/') = after :=
        List.takeWhile_append_dropWhile
      have hslash : '/' ∉ after.takeWhile (· ≠ '/') := fun hmem => by
        simpa using List.mem_takeWhile_imp hmem
      have hrest : IsAfterBucket (after.dropWhile (· ≠ '/')) := by
        intro c hc
        have hhead := List.head?_dropWhile_not (· ≠ '/') after
        rw [hc] at hhead
        simpa using hhead
      rw [← hafter] at hurl
      rw [bucketAndPath_of_append hurl hslash hrest] at h
      split at h
      · cases h
      · next hne =>
        cases h
        refine ⟨_, ?_, ?_, ?_, hrest, rfl⟩
        · simpa only [String.toList_ofList] using hurl
        · rwa [String.toList_ofList]
        · rwa [String.toList_ofList]
  · rintro ⟨rest, hurl, hne, hslash, hrest, rfl⟩
    rw [bucketAndPath_of_append hurl hslash hrest, if_neg hne, String.ofList_toList]

/-- A bucket stays the same when a path is joined to its URL. -/
theorem bucketAndPath_joinUrl_of_ok (h : bucketAndPath base = .ok (bucket, path)) (dir : String) :
    bucketAndPath (joinUrl base dir) =
      .ok (bucket, String.ofList (trimSlashes (joinUrl path dir).toList)) := by
  obtain ⟨rest, hbase, hne, hslash, hrest, rfl⟩ := bucketAndPath_eq_ok_iff.1 h
  -- The scheme and the bucket do not end with a slash, so only the path after them is trimmed.
  have hself : trimEndSlashes ("gs://".toList ++ bucket.toList) =
      "gs://".toList ++ bucket.toList := by
    apply Text.trimEnd_eq_self
    intro c hc
    rw [List.getLast?_append_of_ne_nil _ hne] at hc
    simp only [isSlash, decide_eq_false_iff_not]
    rintro rfl
    exact hslash (List.mem_of_getLast? hc)
  have htrim : trimEndSlashes base.toList =
      "gs://".toList ++ (bucket.toList ++ trimEndSlashes rest) := by
    rw [hbase, ← List.append_assoc, trimEndSlashes, Text.trimEnd_append_of_self hself,
      List.append_assoc, ← trimEndSlashes]
  refine bucketAndPath_eq_ok_iff.2 ⟨trimEndSlashes rest ++ addition dir.toList, ?_, hne, hslash,
    (isAfterBucket_trimEndSlashes hrest).append (isAfterBucket_addition _), ?_⟩
  · rw [toList_joinUrl, htrim, List.append_assoc, List.append_assoc]
  · have hrestJoin := trimSlashes_joinUrl (String.ofList rest) dir
    rw [toList_joinUrl, String.toList_ofList] at hrestJoin
    rw [hrestJoin, trimSlashes_joinUrl, String.toList_ofList, trimSlashes_trimSlashes]

/-- The slashes in the scheme and the bucket's name are the two that follow each other. -/
private theorem not_append_slash {before after : List Char} (hslash : '/' ∉ name)
    (hbefore : before.getLast? ≠ some '/') (hafter : after.head? ≠ some '/') :
    "gs://".toList ++ name ≠ before ++ '/' :: after := by
  intro h
  rcases before with _ | ⟨g, _ | ⟨s, _ | ⟨colon, _ | ⟨slash, more⟩⟩⟩⟩ <;> simp at h
  · exact hafter (by rw [← h.2.2.2]; rfl)
  · obtain ⟨rfl, rfl, rfl, rfl, h⟩ := h
    cases more with
    | nil => exact hbefore rfl
    | cons c more =>
      obtain ⟨-, h⟩ := List.cons_eq_cons.1 h
      exact hslash (h ▸ List.mem_append_right more List.mem_cons_self)

/-- A URL that names no bucket does not name one either when a path is joined to it. -/
theorem exists_of_bucketAndPath_joinUrl
    (h : bucketAndPath (joinUrl base dir) = .ok (bucket, path)) :
    ∃ path, bucketAndPath base = .ok (bucket, path) := by
  obtain ⟨rest, hjoin, hne, hslash, hrest, -⟩ := bucketAndPath_eq_ok_iff.1 h
  rw [toList_joinUrl, ← List.append_assoc] at hjoin
  have hbase : ∃ more, trimEndSlashes base.toList = "gs://".toList ++ bucket.toList ++ more ∧
      IsAfterBucket more := by
    rcases List.append_eq_append_iff.1 hjoin with ⟨more, hstart, hmore⟩ | ⟨more, hstart, hmore⟩
    · cases more with
      | nil => exact ⟨[], by rw [hstart, List.append_nil, List.append_nil], nofun⟩
      | cons c more =>
        -- The added path would have to begin inside the scheme or the bucket's name.
        obtain rfl : c = '/' := isAfterBucket_addition dir.toList c (by rw [hmore]; rfl)
        have htail : trimSlashes dir.toList = more ++ rest := by
          rw [← tail_addition, hmore]
          rfl
        refine absurd hstart (not_append_slash hslash ?_ ?_)
        · intro hlast
          simpa [isSlash] using Text.getLast?_trimEnd hlast
        · intro hhead
          obtain ⟨others, rfl⟩ := List.head?_eq_some_iff.1 hhead
          have hdir : (trimSlashes dir.toList).head? = some '/' := by rw [htail]; rfl
          simpa [isSlash] using Text.head?_trim hdir
    · refine ⟨more, hstart, fun c hc => hrest c ?_⟩
      obtain ⟨others, rfl⟩ := List.head?_eq_some_iff.1 hc
      rw [hmore]
      rfl
  obtain ⟨more, hbase, hmore⟩ := hbase
  obtain ⟨slashes, hslashes, hall⟩ := Text.exists_trimEnd_append isSlash base.toList
  have hends : IsAfterBucket slashes := fun c hc => by
    simpa [isSlash] using hall c (List.mem_of_head? hc)
  refine ⟨_, bucketAndPath_eq_ok_iff.2 ⟨more ++ slashes, ?_, hne, hslash, hmore.append hends, rfl⟩⟩
  rw [← hslashes, ← trimEndSlashes, hbase, List.append_assoc, List.append_assoc]

/-- The URL that is written from a bucket and a path names them again. -/
theorem bucketAndPath_render (h : bucketAndPath url = .ok (bucket, path)) :
    bucketAndPath ("gs://" ++ bucket ++ "/" ++ path) = .ok (bucket, path) := by
  obtain ⟨rest, -, hne, hslash, -, rfl⟩ := bucketAndPath_eq_ok_iff.1 h
  refine bucketAndPath_eq_ok_iff.2 ⟨'/' :: trimSlashes rest, ?_, hne, hslash, ?_, ?_⟩
  · simp [String.toList_append]
  · intro c hc
    exact (Option.some.inj hc).symm
  · rw [trimSlashes_cons_slash, trimSlashes_trimSlashes]

/-- Below a directory itself, the server lists what it lists below the base and the directory. -/
theorem namesStart_joined (path dir : String) :
    HttpStorage.namesStart (String.ofList (trimSlashes (joinUrl path dir).toList)) "" =
      HttpStorage.namesStart path dir := by
  have hempty (text : List Char) : (if text = [] then trimSlashes [] else text ++ addition []) =
      text := by
    split
    · next hnil => rw [hnil]; rfl
    · exact List.append_nil text
  rw [HttpStorage.namesStart, trimSlashes_joinUrl, String.toList_ofList, trimSlashes_trimSlashes,
    String.toList_empty, hempty]
  rfl

/-- The command line tool and the server are asked for the same bucket and the same directory in it,
    or both for none. Slashes that are written twice or at an end make no difference to where a
    joined URL leads, nor the order in which URLs are joined. -/
theorem joinUrl_addresses (base dir : String) :
    ((bucketAndPath (joinUrl base dir)).toOption = (bucketAndPath base).toOption.map
      fun (bucket, path) => (bucket, String.ofList (trimSlashes (joinUrl path dir).toList))) ∧
    (∀ (server : HttpStorage) (bucket path : String), bucketAndPath base = .ok (bucket, path) →
      server.list base dir = server.list (joinUrl base dir) "") ∧
    (∀ rel, joinUrl (joinUrl base dir) rel = joinUrl base (joinUrl dir rel)) ∧
    (joinUrl base dir).toList.getLast? ≠ some '/' ∧
    ∀ bucket path, bucketAndPath base = .ok (bucket, path) →
      bucketAndPath ("gs://" ++ bucket ++ "/" ++ path) = .ok (bucket, path) := by
  refine ⟨?_, ?_, joinUrl_assoc base dir, fun hlast => getLast?_joinUrl hlast rfl,
    fun bucket path => bucketAndPath_render⟩
  · cases hbase : bucketAndPath base with
    | ok found =>
      rw [bucketAndPath_joinUrl_of_ok hbase dir]
      rfl
    | error e =>
      cases hjoin : bucketAndPath (joinUrl base dir) with
      | ok found =>
        obtain ⟨path, hpath⟩ := exists_of_bucketAndPath_joinUrl hjoin
        rw [hbase] at hpath
        cases hpath
      | error e => rfl
  · intro server bucket path hbase
    rw [HttpStorage.list, HttpStorage.list, hbase, bucketAndPath_joinUrl_of_ok hbase dir]
    rw [Action.bind_lift_ok, Action.bind_lift_ok]
    simp only [namesStart_joined]

end StepRunner.Storage
