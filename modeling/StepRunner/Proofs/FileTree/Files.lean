import StepRunner.Proofs.FileTree.Directories

namespace StepRunner.Disk

open FileTree

variable {t t' : FileTree} {here place : Location} {path directory source destination : String}
  {entry : Entry} {data : FileData} {contents : List UInt8} {names : List String}
  {now time : Instant} {e : IoError}

theorem withoutEndSlashes_eq (h : endsInSlash path = false) :
    withoutEndSlashes path = path := by
  have hlast : path.toList.getLast? ≠ some '/' := by simpa [endsInSlash] using h
  apply String.toList_injective
  rw [withoutEndSlashes, String.toList_ofList, Text.trimEnd]
  rw [List.getLast?_eq_head?_reverse] at hlast
  cases hrev : path.toList.reverse with
  | nil => simpa using hrev.symm
  | cons c rest =>
    rw [hrev] at hlast
    have hc : c ≠ '/' := by simpa using hlast
    rw [List.dropWhile_cons_of_neg (by simpa using hc), ← hrev, List.reverse_reverse]

theorem renameFile_run (here : Location) (source destination : String) (t : FileTree) :
    (renameFile here source destination).run t =
      if (splitLast destination).2 = ['.'] ∨ (splitLast destination).2 = ['.', '.'] then
        match t.find here true
            (if (splitLast destination).1 = "" then "." else (splitLast destination).1) with
        | .ok _ => (.error (.os 16), t)
        | .error e => (.error e, t)
      else
        match findBare t here destination with
        | .error e => (.error e, t)
        | .ok target =>
          match t.find here false source with
          | .error e => (.error e, t)
          | .ok (.vacant _) => (.error .notFound, t)
          | .ok (.entry place moved) =>
            if moved = .directory then (.error .isADirectory, t)
            else if endsInSlash destination then (.error .notADirectory, t)
            else if target.standing? = some .directory then (.error .isADirectory, t)
            else if target.place = place then (.ok (), t)
            else (.ok (), (t.erase place).put target.place moved) := by
  rw [renameFile, run_bind, run_get]
  simp only
  split
  · rw [run_bind, run_lift]
    cases t.find here true
      (if (splitLast destination).1 = "" then "." else (splitLast destination).1) <;> rfl
  rw [run_bind, run_lift]
  cases findBare t here destination with
  | error e => rfl
  | ok target =>
    cases t.find here false source with
    | error e => rfl
    | ok found =>
      cases found with
      | vacant place => rfl
      | entry place moved =>
        have hmove (loc : Location) : ExceptT.run (m := StateM FileTree) (ε := IoError)
            (if loc = place then pure () else set ((t.erase place).put loc moved)) t =
            if loc = place then (.ok (), t) else (.ok (), (t.erase place).put loc moved) := by
          split <;> rfl
        simp only
        split
        · rfl
        split
        · rfl
        cases target with
        | vacant loc => exact hmove loc
        | entry loc entry =>
          cases entry with
          | directory => rfl
          | file data => exact hmove loc
          | link text => exact hmove loc

/-- A rename that succeeds has found something to move that is no directory, and no directory in
    its place. -/
private theorem renameFile_eq_ok
    (h : (renameFile here source destination).run t = (.ok (), t')) :
    ∃ origin moved target, t.find here false source = .ok (.entry origin moved) ∧
      t.find here false destination = .ok target ∧ moved ≠ .directory ∧
      target.standing? ≠ some .directory ∧
      t' = if target.place = origin then t else (t.erase origin).put target.place moved := by
  rw [renameFile_run] at h
  split at h
  · split at h <;> cases h
  split at h
  · cases h
  next target hbare =>
  split at h
  · cases h
  · cases h
  next origin moved hsource =>
  split at h
  · cases h
  next hmoved =>
  split at h
  · cases h
  next hslash =>
  split at h
  · cases h
  next hentry =>
  have hdestination : t.find here false destination = .ok target := by
    unfold findBare at hbare
    split at hbare
    · cases hbare
    · rwa [withoutEndSlashes_eq (by simpa using hslash)] at hbare
  refine ⟨origin, moved, target, hsource, hdestination, hmoved, hentry, ?_⟩
  split at h
  · next heq =>
    cases h
    rw [if_pos heq]
  · next hne =>
    cases h
    rw [if_neg hne]

/-- What is no directory can be moved to a place in a directory. -/
private theorem get?_move {origin dir : Location} {name : String} {moved : Entry}
    (hname : IsEntryName name) (horigin : t.get? origin = some moved) (hmoved : moved ≠ .directory)
    (hdir : t.get? dir = some .directory) (hentry : t.get? (name :: dir) ≠ some .directory)
    (hne : name :: dir ≠ origin) (other : Location) :
    ((t.erase origin).put (name :: dir) moved).get? other =
      if other = name :: dir then some moved
      else if other = origin then none else t.get? other := by
  have hbare : t.isBare origin = true := isBare_of_not_directory (by rw [horigin]; simpa using hmoved)
  have hroot : origin ≠ [] := by
    rintro rfl
    exact hmoved (by simpa using horigin.symm)
  have herase := get?_erase hbare hroot
  have hdirOrigin : dir ≠ origin := by
    rintro rfl
    rw [horigin] at hdir
    exact hmoved (by simpa using hdir)
  have hadmits : (t.erase origin).Admits (name :: dir) moved := by
    refine ⟨hname, by rw [herase, if_neg hdirOrigin, hdir], ?_⟩
    intro hself
    rw [herase, if_neg hne] at hself
    exact absurd hself hentry
  rw [get?_put hadmits, herase]

/-- A file that is moved stands where the last link on the way of the new path is or would be. -/
theorem renameFile_ok (h : (renameFile here source destination).run t = (.ok (), t'))
    (hhere : t.get? here = some .directory) :
    ∃ origin moved place, t.find here false source = .ok (.entry origin moved) ∧
      t.find here false destination = .ok (t.targetAt place) ∧ t.get? place ≠ some .directory ∧
      t'.get? place = some moved ∧
      ∀ other, other ≠ place →
        t'.get? other = if other = origin then none else t.get? other := by
  obtain ⟨origin, moved, target, hsource, hdestination, hmoved, hentry, rfl⟩ := renameFile_eq_ok h
  obtain ⟨_, _, _, hfrom⟩ := find_eq_ok_iff.1 hsource
  obtain ⟨_, _, _, hto⟩ := find_eq_ok_iff.1 hdestination
  have horigin := hfrom.get?_eq (by simpa using hmoved)
  have htarget := hto.get?_place (get?_wayStart hhere destination)
  rw [← htarget] at hentry
  refine ⟨origin, moved, target.place, hsource, find_eq_targetAt hdestination hhere, hentry, ?_⟩
  by_cases heq : target.place = origin
  · rw [if_pos heq, heq]
    exact ⟨horigin, fun other hother => by rw [if_neg hother]⟩
  obtain ⟨first, name, dir, hsteps, hname, hfirst, hplace⟩ := hto.last_step (htarget ▸ hentry)
  have hmem : name ∈ waySteps destination := by simp [hsteps]
  obtain ⟨hslash, hne⟩ := mem_waySteps hmem
  have hdir := hfirst.get?_place (get?_wayStart hhere destination)
  simp only [Target.place, Target.standing?] at hdir
  rw [if_neg heq, hplace]
  rw [hplace] at heq hentry
  have hmove := get?_move ⟨hslash, hne, hname⟩ horigin hmoved hdir hentry heq
  constructor
  · rw [hmove, if_pos rfl]
  · intro other hother
    rw [hmove, if_neg hother]

theorem renameFile_error (h : (renameFile here source destination).run t = (.error e, t')) :
    t' = t := by
  rw [renameFile_run] at h
  repeat' split at h
  all_goals cases h
  all_goals rfl

theorem setModified_run (here : Location) (path : String) (time : Instant) (t : FileTree) :
    (setModified here path time).run t =
      match t.stat here path with
      | .ok (place, .file data) => (.ok (), t.put place (.file { data with modified := time }))
      | .ok (_, .directory) => (.error .isADirectory, t)
      | .ok (_, .link _) => (.error .tooManyLinks, t)
      | .error e => (.error e, t) := by
  rw [setModified, run_bind, run_get]
  simp only
  rw [run_bind, run_lift]
  rcases t.stat here path with _ | ⟨place, _ | _ | _⟩ <;> rfl

theorem get?_of_stat (h : t.stat here path = .ok (place, .file data)) :
    t.get? place = some (.file data) := by
  obtain ⟨_, _, _, hleads⟩ := find_eq_ok_iff.1 (stat_eq_ok_iff.1 h)
  exact hleads.get?_eq (by simp)

/-- Where a path leads to a file, another one may be put. -/
private theorem admits_file (h : t.stat here path = .ok (place, .file data)) (new : FileData) :
    t.Admits place (.file new) := by
  have hplace := get?_of_stat h
  cases place with
  | nil => simp at hplace
  | cons name dir =>
    have hsome : (t.get? (name :: dir)).isSome := by rw [hplace]; rfl
    exact ⟨isEntryName_of_get? hsome, get?_parent hsome, fun hself => by simp [hplace] at hself⟩

/-- Setting the time of a file changes this file alone. -/
theorem setModified_ok (h : t.stat here path = .ok (place, .file data)) (time : Instant) :
    ∃ t', (setModified here path time).run t = (.ok (), t') ∧ SameOff place t t' ∧
      t'.get? place = some (.file { data with modified := time }) := by
  have hadmits := admits_file h { data with modified := time }
  refine ⟨t.put place (.file { data with modified := time }), ?_, fun other hother => ?_, ?_⟩
  · rw [setModified_run, h]
  · rw [get?_put hadmits, if_neg hother]
  · rw [get?_put hadmits, if_pos rfl]

/-- A path that ends with a step that is no dot does not end with a slash. -/
theorem endsInSlash_eq_false {first : List String} {last : String}
    (h : waySteps path = first ++ [last]) (hdot : last ≠ ".") : endsInSlash path = false := by
  rw [Bool.eq_false_iff]
  intro hslash
  have hlast : path.toList.getLast? = some '/' := by simpa [endsInSlash] using hslash
  rw [waySteps, Route.ofPath, if_pos hlast] at h
  exact hdot (List.cons.inj (List.append_inj' h rfl).2).1.symm

/-- A path that leads to a file ends with a step that is no dot. -/
theorem exists_last_of_stat (h : t.stat here path = .ok (place, .file data)) :
    ∃ first last, waySteps path = first ++ [last] ∧ last ≠ "." := by
  obtain ⟨_, links, _, hleads⟩ := find_eq_ok_iff.1 (stat_eq_ok_iff.1 h)
  obtain hnil | ⟨first, last, hlast⟩ := (waySteps path).eq_nil_or_concat'
  · rw [hnil] at hleads
    cases hleads
  refine ⟨first, last, hlast, ?_⟩
  rintro rfl
  rw [hlast] at hleads
  obtain ⟨dir, _, _, _, hdot, _⟩ := hleads.split (List.cons_ne_nil "." [])
  cases (hdot.unique (.dot (.here dir))).1

theorem not_endsInSlash (h : t.stat here path = .ok (place, .file data)) :
    endsInSlash path = false := by
  obtain ⟨_, _, hlast, hdot⟩ := exists_last_of_stat h
  exact endsInSlash_eq_false hlast hdot

theorem writeFile_run (now : Instant) (here : Location) (path : String) (contents : List UInt8)
    (t : FileTree) : (writeFile now here path contents).run t =
      if endsInSlash path then
        match findBare t here path with
        | .ok _ => (.error .isADirectory, t)
        | .error e => (.error e, t)
      else
        match t.find here true path with
        | .error e => (.error e, t)
        | .ok (.entry _ .directory) => (.error .isADirectory, t)
        | .ok (.entry _ (.link _)) => (.error .tooManyLinks, t)
        | .ok (.entry place (.file data)) =>
          (.ok (), t.put place (.file { data with contents, modified := now }))
        | .ok (.vacant place) => (.ok (), t.put place (.file ⟨contents, now, false⟩)) := by
  rw [writeFile, run_bind, run_get]
  simp only
  split
  · rw [run_bind, run_lift]
    cases findBare t here path <;> rfl
  rw [run_bind, run_lift]
  rcases t.find here true path with _ | ⟨place, _ | _ | _⟩ | _ <;> rfl

/-- Writing a file that is there changes this file alone. -/
theorem writeFile_ok (h : t.stat here path = .ok (place, .file data)) (now : Instant)
    (contents : List UInt8) :
    ∃ t', (writeFile now here path contents).run t = (.ok (), t') ∧ SameOff place t t' ∧
      t'.get? place = some (.file { data with contents, modified := now }) := by
  have hadmits := admits_file h { data with contents, modified := now }
  refine ⟨t.put place (.file { data with contents, modified := now }), ?_,
    fun other hother => ?_, ?_⟩
  · rw [writeFile_run, if_neg (by simp [not_endsInSlash h]), stat_eq_ok_iff.1 h]
  · rw [get?_put hadmits, if_neg hother]
  · rw [get?_put hadmits, if_pos rfl]

/-- What was written to a path is found there, and no other entry has changed. -/
theorem stat_of_writeFile
    (h : (writeFile now here path contents).run t = (.ok (), t'))
    (hhere : t.get? here = some .directory) :
    ∃ place data, data.contents = contents ∧ t'.stat here path = .ok (place, .file data) ∧
      SameOff place t t' := by
  have hput {target : Target} {data : FileData} (hfind : t.find here true path = .ok target)
      (hplain : ∀ entry, t.get? target.place = some entry → ∃ data, entry = .file data) :
      (t.put target.place (.file data)).stat here path = .ok (target.place, .file data) ∧
        SameOff target.place t (t.put target.place (.file data)) := by
    obtain ⟨husable, links, hle, hleads⟩ := find_eq_ok_iff.1 hfind
    have hstart := get?_wayStart hhere path
    have hnot : t.get? target.place ≠ some .directory := fun hdir => by
      obtain ⟨_, hfile⟩ := hplain _ hdir
      cases hfile
    have hget := get?_put (hleads.admits (fun _ => mem_waySteps) hnot hstart (.file data))
    have hoff : SameOff target.place t (t.put target.place (.file data)) := fun other hother => by
      rw [hget, if_neg hother]
    refine ⟨stat_eq_ok_iff.2 (find_eq_ok_iff.2 ⟨husable, links, hle, ?_⟩), hoff⟩
    exact hleads.put_file hplain hstart hoff (by rw [hget, if_pos rfl])
  rw [writeFile_run] at h
  split at h
  · split at h <;> cases h
  split at h
  · cases h
  · cases h
  · cases h
  · next place data hfind =>
    cases h
    obtain ⟨_, _, _, hleads⟩ := find_eq_ok_iff.1 hfind
    have hplace := hleads.get?_eq (by simp)
    refine ⟨place, _, rfl, hput hfind fun entry hentry => ?_⟩
    change t.get? place = some entry at hentry
    rw [hplace] at hentry
    exact ⟨data, (Option.some.inj hentry).symm⟩
  · next place hfind =>
    cases h
    obtain ⟨_, _, _, hleads⟩ := find_eq_ok_iff.1 hfind
    have hplace := hleads.get?_place (get?_wayStart hhere path)
    refine ⟨place, _, rfl, hput hfind fun entry hentry => ?_⟩
    rw [hplace] at hentry
    cases hentry

theorem removeFile_run (here : Location) (path : String) (t : FileTree) :
    (removeFile here path).run t =
      match t.find here false path with
      | .ok (.vacant _) => (.error .notFound, t)
      | .ok (.entry place entry) =>
        if entry = .directory then (.error .isADirectory, t) else (.ok (), t.erase place)
      | .error e => (.error e, t) := by
  rw [removeFile, run_bind, run_get]
  simp only
  rw [run_bind, run_lift]
  rcases t.find here false path with _ | ⟨place, _ | _ | _⟩ | _ <;> rfl

/-- A file is removed alone. -/
theorem removeFile_ok (h : t.find here false path = .ok (.entry place entry))
    (hentry : entry ≠ .directory) (hhere : t.get? here = some .directory) :
    ∃ t', (removeFile here path).run t = (.ok (), t') ∧ SameOff place t t' ∧
      t'.get? place = none := by
  obtain ⟨_, _, _, hleads⟩ := find_eq_ok_iff.1 h
  have hplace := hleads.get?_place (get?_wayStart hhere path)
  simp only [Target.place, Target.standing?] at hplace
  have hbare : t.isBare place = true :=
    isBare_of_not_directory (by rw [hplace]; simpa using hentry)
  have hroot : place ≠ [] := by
    rintro rfl
    exact hentry (by simpa using hplace.symm)
  refine ⟨t.erase place, ?_, fun other hother => ?_, ?_⟩
  · rw [removeFile_run, h]
    exact if_neg hentry
  · rw [get?_erase hbare hroot, if_neg hother]
  · rw [get?_erase hbare hroot, if_pos rfl]

/-- A file can be moved to a place where there is no directory by a path that ends with a name. -/
theorem renameFile_succeeds {last : String} {first : List String}
    {origin : Location} {moved : Entry} (hsource : t.find here false source = .ok (.entry origin moved))
    (hmoved : moved ≠ .directory)
    (hdestination : t.find here false destination = .ok (t.targetAt place))
    (hentry : t.get? place ≠ some .directory)
    (hlast : waySteps destination = first ++ [last]) (hname : IsName last) :
    ∃ t', (renameFile here source destination).run t = (.ok (), t') := by
  have hslash := endsInSlash_eq_false hlast hname.1
  have husable := (find_eq_ok_iff.1 hdestination).1
  have hsplit : (splitLast destination).2 = last.toList := by
    have hend := getLast?_segments hlast hname.1
    rw [Path.segments, Text.getLast?_pieces, Option.some.injEq] at hend
    rw [splitLast, withoutEndSlashes_eq hslash]
    exact hend
  have hdots : ¬((splitLast destination).2 = ['.'] ∨ (splitLast destination).2 = ['.', '.']) := by
    rw [hsplit]
    rintro (hdot | hup)
    · exact hname.1 (String.toList_injective hdot)
    · exact hname.2.1 (String.toList_injective hup)
  rw [renameFile_run, if_neg hdots, findBare, if_neg fun h => Nat.not_lt.2 husable.2.2 h.2,
    withoutEndSlashes_eq hslash, hdestination]
  simp only
  rw [hsource]
  simp only [if_neg hmoved, hslash, Bool.false_eq_true, if_false, standing?_targetAt, if_neg hentry]
  split
  · exact ⟨_, rfl⟩
  · exact ⟨_, rfl⟩

end StepRunner.Disk
