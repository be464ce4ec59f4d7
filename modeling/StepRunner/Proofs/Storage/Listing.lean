import StepRunner.Proofs.Action
import StepRunner.Proofs.Storage.Memory
import StepRunner.Proofs.Text.Decimal
import StepRunner.Storage.Listing

namespace StepRunner

namespace Storage.Listing

open Text

variable {dirSlash line text word rest size time url : List Char} {dir : String}
  {object : RemoteObject} {objects : List RemoteObject}

/-- A text of nothing but blanks. -/
def IsGap (text : List Char) : Prop := ∀ c ∈ text, isBlank c = true

instance (text : List Char) : Decidable (IsGap text) :=
  decidable_of_iff (text.all isBlank = true) List.all_eq_true

/-- A text of characters that are not blank, at least one. -/
def IsWord (text : List Char) : Prop := text ≠ [] ∧ ∀ c ∈ text, isBlank c = false

/-- A text that begins with a character that is not blank. -/
def IsFlush (text : List Char) : Prop := ∃ c, text.head? = some c ∧ isBlank c = false

theorem IsWord.isFlush (h : IsWord word) (rest : List Char) : IsFlush (word ++ rest) := by
  obtain ⟨hne, hall⟩ := h
  obtain ⟨c, more, rfl⟩ := List.exists_cons_of_ne_nil hne
  exact ⟨c, rfl, hall c List.mem_cons_self⟩

theorem trimStart_gap_append {gap : List Char} (hgap : IsGap gap) (hrest : IsFlush rest) :
    trimStart isBlank (gap ++ rest) = rest := by
  obtain ⟨c, hhead, hc⟩ := hrest
  rw [trimStart_append, if_pos (trimStart_eq_nil_iff.2 hgap)]
  apply trimStart_eq_self
  intro c' hc'
  rw [hhead] at hc'
  exact Option.some.inj hc' ▸ hc

theorem takeWhile_word_append {gap : List Char} (hword : IsWord word) (hne : gap ≠ [])
    (hgap : IsGap gap) :
    (word ++ (gap ++ rest)).takeWhile (!isBlank ·) = word := by
  obtain ⟨c, more, rfl⟩ := List.exists_cons_of_ne_nil hne
  have hc : isBlank c = true := hgap c List.mem_cons_self
  rw [List.takeWhile_append_of_pos fun c hc => by simp [hword.2 c hc], List.cons_append,
    List.takeWhile_cons_of_neg (by simp [hc]), List.append_nil]

/-- A text that does not begin with a blank is a word and what comes after it. -/
theorem exists_word_append (h : IsFlush text) : IsWord (text.takeWhile (!isBlank ·)) ∧
    ∃ after, text = text.takeWhile (!isBlank ·) ++ after ∧
      ∀ c, after.head? = some c → isBlank c = true := by
  obtain ⟨c, hhead, hc⟩ := h
  obtain ⟨more, rfl⟩ := List.head?_eq_some_iff.1 hhead
  refine ⟨⟨?_, fun c hmem => by simpa using List.mem_takeWhile_imp hmem⟩,
    (c :: more).dropWhile (!isBlank ·), List.takeWhile_append_dropWhile.symm, fun d hd => ?_⟩
  · rw [List.takeWhile_cons_of_pos (by simp [hc])]
    exact List.cons_ne_nil _ _
  · have hstop := List.head?_dropWhile_not (!isBlank ·) (c :: more)
    rw [hd] at hstop
    simpa using hstop

theorem isFlush_trimStart (h : trimStart isBlank text ≠ []) : IsFlush (trimStart isBlank text) := by
  obtain ⟨c, more, heq⟩ := List.exists_cons_of_ne_nil h
  have hhead : (trimStart isBlank text).head? = some c := by rw [heq]; rfl
  exact ⟨c, hhead, head?_trimStart hhead⟩

theorem exists_gap_append (text : List Char) :
    ∃ gap, IsGap gap ∧ gap ++ trimStart isBlank text = text :=
  ⟨text.takeWhile isBlank, fun _ hc => List.mem_takeWhile_imp hc, List.takeWhile_append_dropWhile⟩

/-- A text has a first word if something follows it after a gap. -/
theorem nextField?_eq_some_iff : nextField? text = some (word, rest) ↔
    ∃ before gap, text = before ++ (word ++ (gap ++ rest)) ∧ IsGap before ∧ IsWord word ∧
      gap ≠ [] ∧ IsGap gap ∧ IsFlush rest := by
  unfold nextField?
  constructor
  · intro h
    dsimp only at h
    obtain ⟨before, hbefore, htext⟩ := exists_gap_append text
    split at h
    · cases h
    next hne =>
    cases h
    have hstart : IsFlush (trimStart isBlank text) := isFlush_trimStart fun hnil => by
      rw [hnil] at hne
      exact hne rfl
    obtain ⟨hword, after, hafter, hstop⟩ := exists_word_append hstart
    generalize (trimStart isBlank text).takeWhile (!isBlank ·) = word at hne hword hafter ⊢
    rw [hafter, List.drop_left] at hne ⊢
    obtain ⟨gap, hgap, hrest⟩ := exists_gap_append after
    refine ⟨before, gap, by rw [hrest, ← hafter, htext], hbefore, hword, ?_, hgap,
      isFlush_trimStart hne⟩
    -- Something follows the word, and it begins with a blank.
    rintro rfl
    obtain ⟨c, hhead, hc⟩ := isFlush_trimStart hne
    rw [List.nil_append] at hrest
    rw [hrest] at hhead
    rw [hstop c hhead] at hc
    cases hc
  · rintro ⟨before, gap, rfl, hbefore, hword, hne, hgap, hrest⟩
    dsimp only
    rw [trimStart_gap_append hbefore (hword.isFlush _), takeWhile_word_append hword hne hgap,
      List.drop_left, trimStart_gap_append hgap hrest, if_neg]
    rintro rfl
    obtain ⟨c, hhead, -⟩ := hrest
    cases hhead

/-- The size, the time and the URL of a line. Blanks stand between them and may stand before the
    size. -/
def HasFields (line size time url : List Char) : Prop :=
  ∃ before gap gap', line = before ++ (size ++ (gap ++ (time ++ (gap' ++ url)))) ∧
    IsGap before ∧ IsWord size ∧ (gap ≠ [] ∧ IsGap gap) ∧ IsWord time ∧
    (gap' ≠ [] ∧ IsGap gap') ∧ IsFlush url

theorem fields_eq_some_iff : ((nextField? line).bind fun (size, rest) =>
    (nextField? rest).map (size, ·)) = some (size, time, url) ↔ HasFields line size time url := by
  simp only [Option.bind_eq_some_iff, Option.map_eq_some_iff, Prod.exists, Prod.mk.injEq]
  constructor
  · rintro ⟨_, rest, hfirst, _, _, hsecond, rfl, rfl, rfl⟩
    obtain ⟨before, gap, rfl, hbefore, hsize, hne, hgap, -⟩ := nextField?_eq_some_iff.1 hfirst
    obtain ⟨more, gap', rfl, hmore, htime, hne', hgap', hurl⟩ := nextField?_eq_some_iff.1 hsecond
    refine ⟨before, gap ++ more, gap', by rw [List.append_assoc], hbefore, hsize,
      ⟨by simp [hne], ?_⟩, htime, ⟨hne', hgap'⟩, hurl⟩
    intro c hc
    exact (List.mem_append.1 hc).elim (hgap c) (hmore c)
  · rintro ⟨before, gap, gap', rfl, hbefore, hsize, ⟨hne, hgap⟩, htime, ⟨hne', hgap'⟩, hurl⟩
    refine ⟨size, time ++ (gap' ++ url), nextField?_eq_some_iff.2 ⟨before, gap, rfl, hbefore, hsize,
      hne, hgap, htime.isFlush _⟩, time, url, nextField?_eq_some_iff.2 ⟨[], gap', rfl, ?_, htime,
      hne', hgap', hurl⟩, rfl, rfl, rfl⟩
    exact fun _ hc => absurd hc List.not_mem_nil

/-- A line without carriage returns at its end. -/
def content (line : List Char) : List Char := trimEnd (· = '\r') line

/-- A line tells of an object if it has three fields that can be read, the last one a URL below the
    directory. -/
theorem object?_eq_some_iff : object? dirSlash line = .ok (some object) ↔
    isHeading (trim isBlank (content line)) = false ∧
      ∃ size time, HasFields (content line) size time (dirSlash ++ object.relativePath.toList) ∧
        (dirSlash ++ object.relativePath.toList).getLast? ≠ some '/' ∧
        unsigned? maxWord64 size = some object.size ∧
        Timestamp.readStrict? time = some object.updated := by
  unfold object?
  rw [← content]
  dsimp only
  constructor
  · intro h
    split at h
    · cases h
    next hheading =>
    split at h
    · split at h <;> cases h
    next size time url hfields =>
    split at h
    · cases h
    next hlast =>
    split at h
    · cases h
    next rel hdrop =>
    obtain rfl := dropStart?_eq_some_iff.1 hdrop
    split at h
    · cases h
    · cases h
    next size' time' hsize htime =>
    cases h
    simp only [String.toList_ofList]
    exact ⟨by simpa using hheading, size, time, fields_eq_some_iff.1 hfields, hlast, hsize, htime⟩
  · rintro ⟨hheading, size, time, hfields, hlast, hsize, htime⟩
    rw [if_neg (by simp [hheading]), fields_eq_some_iff.2 hfields]
    dsimp only
    rw [if_neg hlast, dropStart?_eq_some_iff.2 rfl]
    dsimp only
    rw [hsize, htime, String.ofList_toList]

theorem object?_of_isHeading (h : isHeading (trim isBlank (content line)) = true) :
    object? dirSlash line = .ok none := if_pos h

/-- A line with three fields tells of no object if its URL is that of a directory or leads
    elsewhere. -/
theorem object?_of_skipped (hfields : HasFields (content line) size time url)
    (h : url.getLast? = some '/' ∨ ¬ dirSlash <+: url) : object? dirSlash line = .ok none := by
  unfold object?
  rw [← content]
  dsimp only
  rw [fields_eq_some_iff.2 hfields]
  dsimp only
  split
  · rfl
  split
  · rfl
  · next hlast =>
    cases hdrop : dropStart? dirSlash url with
    | none => rfl
    | some rel =>
      have hbelow : dirSlash <+: url := ⟨rel, (dropStart?_eq_some_iff.1 hdrop).symm⟩
      exact absurd h (not_or.2 ⟨hlast, not_not.2 hbelow⟩)

theorem objects_eq_ok_iff {listing : String} : Listing.objects listing dir = .ok objects ↔
    ∃ told, List.Forall₂ (fun line told =>
      object? (trimEndSlashes dir.toList ++ ['/']) line = .ok told) (lines listing.toList) told ∧
      told.filterMap id = objects := by
  unfold Listing.objects
  dsimp only
  constructor
  · intro h
    cases htold : (lines listing.toList).mapM (object? (trimEndSlashes dir.toList ++ ['/'])) with
    | error e => rw [htold] at h; cases h
    | ok told =>
      rw [htold] at h
      cases h
      exact ⟨told, mapM_eq_ok_iff.1 htold, rfl⟩
  · rintro ⟨told, hall, rfl⟩
    rw [mapM_eq_ok_iff.2 hall]
    rfl

/-- What a line is made of, and the object that it tells of. The objects are those below a
    directory, whose URL ends with a slash. -/
inductive IsLine (dirSlash : List Char) : List Char → Option RemoteObject → Prop
  | blank {line : List Char} (isGap : IsGap line) : IsLine dirSlash line none
  | header (directory : List Char) :
    IsLine dirSlash ("gs://".toList ++ (directory ++ [':'])) none
  | total (sums : List Char) : IsLine dirSlash ("TOTAL:".toList ++ sums) none
  | placeholder {line size time url : List Char} (hasFields : HasFields line size time url)
    (isDirectory : url.getLast? = some '/') : IsLine dirSlash line none
  | elsewhere {line size time url : List Char} (hasFields : HasFields line size time url)
    (not_below : ¬ dirSlash <+: url) : IsLine dirSlash line none
  | object {before gap gap' time name : List Char} {size : ℕ} {updated : Timestamp}
    (isGap_before : IsGap before) (size_le : size ≤ maxWord64) (isGap : gap ≠ [] ∧ IsGap gap)
    (not_isBlank : ∀ c ∈ time, isBlank c = false)
    (readStrict? : Timestamp.readStrict? time = some updated) (isGap' : gap' ≠ [] ∧ IsGap gap')
    (ne_nil : name ≠ []) (not_directory : name.getLast? ≠ some '/')
    (not_return : name.getLast? ≠ some '\r') :
    IsLine dirSlash (before ++ (decimal size ++ (gap ++ (time ++ (gap' ++ (dirSlash ++ name))))))
      (some ⟨String.ofList name, updated, size⟩)

/-- What a listing is made of, and the objects that it tells of. Each line ends with a line feed,
    alone or after a carriage return; the last one may lack its end. -/
inductive IsListing (dirSlash : List Char) : List Char → List RemoteObject → Prop
  | nil : IsListing dirSlash [] []
  | last {line : List Char} {told : Option RemoteObject} (isLine : IsLine dirSlash line told)
    (one : '\n' ∉ line) : IsListing dirSlash line told.toList
  | line {line ending rest : List Char} {told : Option RemoteObject} {objects : List RemoteObject}
    (isLine : IsLine dirSlash line told) (one : '\n' ∉ line)
    (isEnding : ending = ['\n'] ∨ ending = ['\r', '\n']) (more : IsListing dirSlash rest objects) :
    IsListing dirSlash (line ++ (ending ++ rest)) (told.toList ++ objects)

theorem HasFields.content (h : HasFields line size time url) :
    HasFields (content line) size time (Listing.content url) := by
  obtain ⟨before, gap, gap', rfl, hbefore, hsize, hgap, htime, hgap', c, hhead, hc⟩ := h
  have hreturn : decide (c = '\r') = false := by
    rw [decide_eq_false_iff_not]
    rintro rfl
    exact absurd hc (by decide)
  have hflush : (Listing.content url).head? = some c := head?_trimEnd hhead hreturn
  have hne : Listing.content url ≠ [] := fun hnil => by
    rw [hnil] at hflush
    cases hflush
  refine ⟨before, gap, gap', ?_, hbefore, hsize, hgap, htime, hgap', c, hflush, hc⟩
  have hassoc (tail : List Char) : before ++ (size ++ (gap ++ (time ++ (gap' ++ tail)))) =
      (before ++ (size ++ (gap ++ (time ++ gap')))) ++ tail := by
    simp only [List.append_assoc]
  rw [hassoc, Listing.content, trimEnd_append, ← Listing.content, if_neg hne, ← hassoc]

theorem content_eq_self (h : line.getLast? ≠ some '\r') : content line = line := by
  apply trimEnd_eq_self
  intro c hc
  rw [decide_eq_false_iff_not]
  rintro rfl
  exact h hc

theorem isGap_content (h : IsGap line) : IsGap (content line) := by
  intro c hc
  exact h c ((trimEnd_isPrefix _ line).subset hc)

theorem isHeading_of_isGap (h : IsGap line) : isHeading (trim isBlank (content line)) = true := by
  have hnil : trimStart isBlank (content line) = [] :=
    trimStart_eq_nil_iff.2 (isGap_content h)
  rw [trim, hnil]
  rfl

theorem isHeading_header (directory : List Char) :
    isHeading (trim isBlank (content ("gs://".toList ++ (directory ++ [':'])))) = true := by
  have hlast : ("gs://".toList ++ (directory ++ [':'])).getLast? = some ':' := by
    rw [← List.append_assoc, List.getLast?_concat]
  have htrim : trim isBlank ("gs://".toList ++ (directory ++ [':'])) =
      "gs://".toList ++ (directory ++ [':']) := by
    apply trim_eq_self
    · rintro c ⟨⟩
      decide
    · intro c hc
      rw [hlast] at hc
      cases hc
      decide
  rw [content_eq_self (by rw [hlast]; decide), htrim, isHeading, hlast]
  simp

theorem isHeading_total (sums : List Char) :
    isHeading (trim isBlank (content ("TOTAL:".toList ++ sums))) = true := by
  have hstart (rest : List Char) : trimStart isBlank ("TOTAL:".toList ++ rest) =
      "TOTAL:".toList ++ rest := by
    apply trimStart_eq_self
    rintro c ⟨⟩
    decide
  rw [content, trimEnd_append_of_self rfl, trim, hstart, trimEnd_append_of_self rfl, isHeading]
  simp

/-- A line that begins with a digit is no heading. -/
theorem isHeading_of_isDigit {c : Char} (hhead : text.head? = some c) (hc : isDigit c = true) :
    isHeading text = false := by
  obtain ⟨rest, rfl⟩ := List.head?_eq_some_iff.1 hhead
  have hT : c ≠ 'T' := by
    rintro rfl
    exact absurd hc (by decide)
  have hg : c ≠ 'g' := by
    rintro rfl
    exact absurd hc (by decide)
  simp [isHeading, List.isPrefixOf, hT.symm, hg.symm]

theorem isWord_decimal (n : ℕ) : IsWord (decimal n) :=
  ⟨decimal_ne_nil n, fun _ hc => isBlank_of_isDigit (isDigit_of_mem_decimal hc)⟩

theorem isFlush_dirSlash (hdir : "gs://".toList <+: dir.toList) :
    IsFlush (trimEndSlashes dir.toList ++ ['/']) := by
  obtain ⟨path, hpath⟩ := hdir
  have hhead : dir.toList.head? = some 'g' := by
    rw [← hpath]
    rfl
  obtain ⟨rest, hrest⟩ := List.head?_eq_some_iff.1 (head?_trimEnd (p := isSlash) hhead (by decide))
  exact ⟨'g', by rw [trimEndSlashes, hrest]; rfl, by decide⟩

/-- A line is read as what it is. -/
theorem object?_of_isLine {told : Option RemoteObject} (hdir : IsFlush dirSlash)
    (h : IsLine dirSlash line told) : object? dirSlash line = .ok told := by
  cases h with
  | blank isGap => exact object?_of_isHeading (isHeading_of_isGap isGap)
  | header directory => exact object?_of_isHeading (isHeading_header directory)
  | total sums => exact object?_of_isHeading (isHeading_total sums)
  | placeholder hasFields isDirectory =>
    refine object?_of_skipped hasFields.content (Or.inl ?_)
    rwa [content_eq_self (by rw [isDirectory]; decide)]
  | elsewhere hasFields not_below =>
    refine object?_of_skipped hasFields.content (Or.inr fun hbelow => not_below ?_)
    exact hbelow.trans (trimEnd_isPrefix _ _)
  | @object before gap gap' time name size updated isGap_before size_le isGap not_isBlank
      readStrict isGap' ne_nil not_directory not_return =>
    have htime : time ≠ [] := by
      rintro rfl
      cases readStrict
    have hlast (start : List Char) : (start ++ name).getLast? = name.getLast? :=
      List.getLast?_append_of_ne_nil _ ne_nil
    have hself : content (before ++ (decimal size ++ (gap ++ (time ++ (gap' ++
        (dirSlash ++ name)))))) =
        before ++ (decimal size ++ (gap ++ (time ++ (gap' ++ (dirSlash ++ name))))) := by
      apply content_eq_self
      simp only [← List.append_assoc]
      rwa [hlast]
    rw [object?_eq_some_iff, hself]
    refine ⟨?_, decimal size, time, ⟨before, gap, gap', ?_, isGap_before, isWord_decimal size,
      isGap, ⟨htime, not_isBlank⟩, isGap', ?_⟩, ?_, unsigned?_decimal size_le, readStrict⟩
    · obtain ⟨digit, digits, hsize⟩ := List.exists_cons_of_ne_nil (decimal_ne_nil size)
      have hdigit : isDigit digit = true :=
        isDigit_of_mem_decimal (hsize ▸ List.mem_cons_self)
      refine isHeading_of_isDigit (head?_trimEnd ?_ (isBlank_of_isDigit hdigit)) hdigit
      rw [trimStart_gap_append isGap_before ((isWord_decimal size).isFlush _), hsize]
      rfl
    · rw [String.toList_ofList]
    · obtain ⟨c, hhead, hc⟩ := hdir
      obtain ⟨more, rfl⟩ := List.head?_eq_some_iff.1 hhead
      exact ⟨c, rfl, hc⟩
    · rwa [String.toList_ofList, hlast]

theorem object?_congr {line' : List Char} (h : content line = content line') :
    object? dirSlash line = object? dirSlash line' := by
  unfold object?
  rw [← content, h]
  rfl

/-- It does not matter whether a line ends with carriage returns. -/
theorem content_append_return (line : List Char) : content (line ++ ['\r']) = content line := by
  rw [content, trimEnd_append, if_pos (by decide), ← content]

theorem content_dropLast (line : List Char) :
    content (if line.getLast? = some '\r' then line.dropLast else line) = content line := by
  split
  · next hlast =>
    obtain ⟨start, rfl⟩ := List.getLast?_eq_some_iff.1 hlast
    rw [List.dropLast_concat, content_append_return]
  · rfl

/-- The objects of a listing whose first line is read are those of this line and those of the lines
    after it. -/
theorem objects_append {rest : List Char} {told : Option RemoteObject} (hone : '\n' ∉ line)
    (hline : object? (trimEndSlashes dir.toList ++ ['/']) line = .ok told)
    (hrest : Listing.objects (String.ofList rest) dir = .ok objects) :
    Listing.objects (String.ofList (line ++ '\n' :: rest)) dir = .ok (told.toList ++ objects) := by
  obtain ⟨others, hothers, rfl⟩ := objects_eq_ok_iff.1 hrest
  rw [String.toList_ofList] at hothers
  rw [← object?_congr (content_dropLast line)] at hline
  refine objects_eq_ok_iff.2 ⟨told :: others, ?_, by cases told <;> rfl⟩
  rw [String.toList_ofList, lines_append hone]
  exact .cons hline hothers

/-- A listing tells of exactly the objects whose lines are in it, in their order, whatever lines
    stand between these. -/
theorem objects_of_isListing (hdir : "gs://".toList <+: dir.toList)
    (h : IsListing (trimEndSlashes dir.toList ++ ['/']) text objects) :
    Listing.objects (String.ofList text) dir = .ok objects := by
  have hread {line : List Char} {told : Option RemoteObject}
      (hline : IsLine (trimEndSlashes dir.toList ++ ['/']) line told) :=
    object?_of_isLine (isFlush_dirSlash hdir) hline
  induction h with
  | nil => rfl
  | @last line told isLine one =>
    refine objects_eq_ok_iff.2 ?_
    rw [String.toList_ofList, lines_of_not_mem one]
    split
    · next hnil =>
      subst hnil
      -- The empty line tells of no object.
      have hnone := hread isLine
      rw [object?_of_isHeading rfl] at hnone
      cases hnone
      exact ⟨[], .nil, rfl⟩
    · refine ⟨[told], .cons (hread isLine) .nil, by cases told <;> rfl⟩
  | @line line ending rest told objects isLine one isEnding _ ih =>
    rcases isEnding with rfl | rfl
    · exact objects_append one (hread isLine) ih
    · have hone : '\n' ∉ line ++ ['\r'] := by simpa using one
      have hline : object? (trimEndSlashes dir.toList ++ ['/']) (line ++ ['\r']) = .ok told := by
        rw [object?_congr (content_append_return line), hread isLine]
      simpa using objects_append hone hline ih

/-- The name of an object may look like other parts of a listing. -/
theorem objects_of_isListing_odd_name :
    "gs://".toList <+: "gs://b/d/".toList ∧
    Listing.objects
        "gs://b/d/:\r\n 12  1970-01-01T00:00:05Z  gs://b/d/TOTAL: gs://x y:\n\nTOTAL: 1 objects"
        "gs://b/d/" = .ok [⟨"TOTAL: gs://x y:", ObjectStore.atSecond 5, 12⟩] := by
  have hdir : "gs://".toList <+: "gs://b/d/".toList := ⟨"b/d/".toList, rfl⟩
  have hheader : IsLine "gs://b/d/".toList "gs://b/d/:".toList none := .header "b/d/".toList
  have hobject : IsLine "gs://b/d/".toList
      " 12  1970-01-01T00:00:05Z  gs://b/d/TOTAL: gs://x y:".toList
      (some ⟨"TOTAL: gs://x y:", ObjectStore.atSecond 5, 12⟩) := by
    have hsize : decimal 12 = ['1', '2'] := by decide +kernel
    have htime : "1970-01-01T00:00:05Z".toList.all (!isBlank ·) = true := by decide +kernel
    have hline : IsLine "gs://b/d/".toList
        ([' '] ++ (decimal 12 ++ ([' ', ' '] ++ ("1970-01-01T00:00:05Z".toList ++ ([' ', ' '] ++
          ("gs://b/d/".toList ++ "TOTAL: gs://x y:".toList))))))
        (some ⟨String.ofList "TOTAL: gs://x y:".toList, ObjectStore.atSecond 5, 12⟩) :=
      .object (by decide) (by decide) (by decide) (by simpa using htime)
        (by decide +kernel) (by decide) (by decide) (by decide) (by decide)
    rwa [hsize, String.ofList_toList] at hline
  have hblank : IsLine "gs://b/d/".toList [] none := .blank (by decide)
  have htotal : IsLine "gs://b/d/".toList "TOTAL: 1 objects".toList none :=
    .total " 1 objects".toList
  refine ⟨hdir, objects_of_isListing hdir ?_⟩
  exact .line hheader (by decide) (Or.inr rfl) (.line hobject (by decide) (Or.inl rfl)
    (.line hblank (by decide) (Or.inl rfl) (.last htotal (by decide))))

end Storage.Listing

end StepRunner
