import StepRunner.Proofs.Storage.Listing
import StepRunner.Proofs.Text.Words

namespace StepRunner.Storage.Listing

open Text

variable {dirSlash line text size time url : List Char} {listing dir : String}
  {object : RemoteObject} {objects : List RemoteObject} {e : StorageError}

/-- The first word of a line that begins as a URL does. -/
def address? (text : List Char) : Option (List Char) :=
  (words text).find? ("gs://".toList.isPrefixOf ·)

/-- Whether a line should tell of an object below a directory: the first URL in it lies there, and
    the line is no total, no header of a directory and not the line of a directory. -/
structure IsObjectLine (dirSlash text : List Char) : Prop where
  isBelow : ∃ address, address? text = some address ∧ dirSlash <+: address
  not_total : ¬"TOTAL:".toList <+: trim isBlank text
  not_header : ¬("gs://".toList <+: trim isBlank text ∧ (trim isBlank text).getLast? = some ':')
  not_directory : text.getLast? ≠ some '/'

/-- `Describes dirSlash text object` says that a line has the size, the time and the URL of an object
    below a directory. -/
def Describes (dirSlash text : List Char) (object : RemoteObject) : Prop :=
  ∃ size time, HasFields text size time (dirSlash ++ object.relativePath.toList) ∧
    unsigned? maxWord64 size = some object.size ∧
    Timestamp.readStrict? time = some object.updated

/-- Whether a line has two words after which something follows that does not begin below the
    directory. -/
def IsPassedOver (dirSlash text : List Char) : Prop :=
  ∃ size time url, HasFields text size time url ∧ ¬dirSlash <+: url

theorem IsObjectLine.isInfix (h : IsObjectLine dirSlash text) : dirSlash <:+: trim isBlank text := by
  obtain ⟨address, haddress, hbelow⟩ := h.isBelow
  have hmem := List.mem_of_find?_eq_some haddress
  rw [← words_trim] at hmem
  exact hbelow.isInfix.trans (of_mem_words hmem).2

theorem IsObjectLine.isHeading_eq (h : IsObjectLine dirSlash text) (hne : dirSlash ≠ []) :
    isHeading (trim isBlank text) = false := by
  have hfilled : trim isBlank text ≠ [] := by
    intro hnil
    have hpart := h.isInfix
    rw [hnil, List.infix_nil] at hpart
    exact hne hpart
  have htotal := h.not_total
  have hheader := h.not_header
  rw [Bool.eq_false_iff]
  intro hheading
  simp only [isHeading, Bool.or_eq_true, Bool.and_eq_true, List.isPrefixOf_iff_prefix,
    List.isEmpty_iff, decide_eq_true_eq] at hheading
  rcases hheading with (hnil | htotal') | hheader'
  · exact hfilled hnil
  · exact htotal htotal'
  · exact hheader hheader'

theorem HasFields.getLast?_url (h : HasFields text size time url) :
    url.getLast? = text.getLast? := by
  obtain ⟨before, gap, gap', rfl, _, _, _, _, _, c, hhead, _⟩ := h
  have hne : url ≠ [] := by
    rintro rfl
    cases hhead
  simp only [← List.append_assoc]
  rw [List.getLast?_append_of_ne_nil _ hne]

/-- Whatever is wrong with a line, the complaint is about the listing. -/
theorem object?_error (h : object? dirSlash line = .error e) :
    ∃ reason, e = .unreadableListing reason := by
  unfold object? at h
  dsimp only at h
  split at h
  · cases h
  split at h
  · split at h <;> cases h
    exact ⟨_, rfl⟩
  split at h
  · cases h
  split at h
  · cases h
  split at h <;> cases h <;> exact ⟨_, rfl⟩

/-- A line tells of no object if it is a heading, if it has fewer than three fields and does not
    mention the directory, or if its third field is the URL of a directory or lies elsewhere. -/
theorem object?_eq_none (h : object? dirSlash line = .ok none) :
    isHeading (trim isBlank (content line)) = true ∨
      ¬dirSlash <:+: trim isBlank (content line) ∨
      ∃ size time url, HasFields (content line) size time url ∧
        (url.getLast? = some '/' ∨ ¬dirSlash <+: url) := by
  unfold object? at h
  rw [← content] at h
  dsimp only at h
  split at h
  · next hheading => exact Or.inl hheading
  split at h
  · split at h
    · cases h
    · next hnot => exact Or.inr (Or.inl fun hpart => hnot (occurs_iff.2 hpart))
  next size time url heq =>
  refine Or.inr (Or.inr ⟨size, time, url, fields_eq_some_iff.1 heq, ?_⟩)
  split at h
  · next hlast => exact Or.inl hlast
  split at h
  · next hdrop =>
    refine Or.inr ?_
    rintro ⟨rest, hrest⟩
    rw [dropStart?_eq_some_iff.2 hrest.symm] at hdrop
    cases hdrop
  · split at h <;> cases h

/-- A line that should tell of an object tells of its own one, is passed over, or is complained
    about. -/
theorem object?_of_isObjectLine (h : IsObjectLine dirSlash (content line)) (hne : dirSlash ≠ []) :
    (∃ object, object? dirSlash line = .ok (some object) ∧
        Describes dirSlash (content line) object) ∨
      (object? dirSlash line = .ok none ∧ IsPassedOver dirSlash (content line)) ∨
      ∃ reason, object? dirSlash line = .error (.unreadableListing reason) := by
  cases hread : object? dirSlash line with
  | error e =>
    obtain ⟨reason, rfl⟩ := object?_error hread
    exact Or.inr (Or.inr ⟨reason, rfl⟩)
  | ok told =>
    cases told with
    | some object =>
      obtain ⟨_, size, time, hfields, _, hsize, htime⟩ := object?_eq_some_iff.1 hread
      exact Or.inl ⟨object, rfl, size, time, hfields, hsize, htime⟩
    | none =>
      refine Or.inr (Or.inl ⟨rfl, ?_⟩)
      rcases object?_eq_none hread with hheading | hnot | ⟨size, time, url, hfields, hurl⟩
      · rw [h.isHeading_eq hne] at hheading
        cases hheading
      · exact absurd h.isInfix hnot
      · refine ⟨size, time, url, hfields, hurl.resolve_left fun hlast => ?_⟩
        rw [hfields.getLast?_url] at hlast
        exact h.not_directory hlast

theorem object?_of_isPassedOver (h : IsPassedOver dirSlash (content line)) :
    object? dirSlash line = .ok none := by
  obtain ⟨size, time, url, hfields, hnot⟩ := h
  exact object?_of_skipped hfields (Or.inr hnot)

/-- A listing is complained about if one of its lines is. -/
theorem objects_of_error {reason : String} (hline : line ∈ lines listing.toList)
    (herror : object? (trimEndSlashes dir.toList ++ ['/']) line =
      .error (.unreadableListing reason)) :
    ∃ reason, Listing.objects listing dir = .error (.unreadableListing reason) := by
  unfold Listing.objects
  dsimp only
  cases htold : (lines listing.toList).mapM (object? (trimEndSlashes dir.toList ++ ['/'])) with
  | error e =>
    obtain ⟨_, first, _, _, hfirst, _⟩ := mapM_eq_error_iff.1 htold
    obtain ⟨reason, rfl⟩ := object?_error hfirst
    exact ⟨reason, rfl⟩
  | ok told =>
    -- All lines are read, this one too.
    have hread := (mapM_eq_ok_iff.1 htold).imp
      fun _ told h => And.intro (Exists.intro told h) h
    obtain ⟨told, htold⟩ := ((List.forall₂_and_left _ _).1 hread).1 line hline
    rw [herror] at htold
    cases htold

/-- When a listing is read, each of its lines that should tell of an object below the directory
    tells of an object of its own, in the order of the lines, unless it is passed over because what
    follows its first two words does not begin below the directory; then it tells of none. A line
    that is malformed, but not so that it is passed over, makes the whole listing unreadable. -/
theorem objects_of_lines (listing dir : String) :
    (∀ objects, Listing.objects listing dir = .ok objects → ∃ told : List (Option RemoteObject),
      List.Forall₂ (fun line told =>
        IsObjectLine (trimEndSlashes dir.toList ++ ['/']) (content line) →
          (IsPassedOver (trimEndSlashes dir.toList ++ ['/']) (content line) → told = none) ∧
          (¬IsPassedOver (trimEndSlashes dir.toList ++ ['/']) (content line) →
            ∃ object, told = some object ∧
              Describes (trimEndSlashes dir.toList ++ ['/']) (content line) object))
        (lines listing.toList) told ∧
      told.filterMap id = objects) ∧
    ∀ line ∈ lines listing.toList,
      IsObjectLine (trimEndSlashes dir.toList ++ ['/']) (content line) →
      ¬IsPassedOver (trimEndSlashes dir.toList ++ ['/']) (content line) →
      (∀ object, ¬Describes (trimEndSlashes dir.toList ++ ['/']) (content line) object) →
      ∃ reason, Listing.objects listing dir = .error (.unreadableListing reason) := by
  have hne : trimEndSlashes dir.toList ++ ['/'] ≠ [] := by simp
  constructor
  · intro objects hobjects
    obtain ⟨told, hread, hfound⟩ := objects_eq_ok_iff.1 hobjects
    refine ⟨told, hread.imp fun line told hline hobject => ⟨fun hpassed => ?_, fun hnot => ?_⟩, hfound⟩
    · rw [object?_of_isPassedOver hpassed] at hline
      cases hline
      rfl
    · rcases object?_of_isObjectLine hobject hne with
        ⟨object, hown, hdescribes⟩ | ⟨_, hpassed⟩ | ⟨reason, herror⟩
      · rw [hown] at hline
        cases hline
        exact ⟨object, rfl, hdescribes⟩
      · exact absurd hpassed hnot
      · rw [herror] at hline
        cases hline
  · intro line hline hobject hnot hmalformed
    rcases object?_of_isObjectLine hobject hne with
      ⟨object, _, hdescribes⟩ | ⟨_, hpassed⟩ | ⟨reason, herror⟩
    · exact absurd hdescribes (hmalformed object)
    · exact absurd hpassed hnot
    · exact objects_of_error hline herror

/-- A line that lacks its time is complained about if the name of its object is one word. If that
    is two words, the line is passed over, though it should tell of an object. -/
theorem objects_pass_over_line :
    "  12  gs://b/dir/my page.skp".toList ∈ lines "  12  gs://b/dir/my page.skp\n".toList ∧
    IsObjectLine (trimEndSlashes "gs://b/dir".toList ++ ['/'])
      (content "  12  gs://b/dir/my page.skp".toList) ∧
    Listing.objects "  12  gs://b/dir/my page.skp\n" "gs://b/dir" = .ok [] ∧
    Listing.objects "  12  gs://b/dir/page.skp\n" "gs://b/dir" =
      .error (.unreadableListing "unparseable listing line `12  gs://b/dir/page.skp`") := by
  have hobject : IsObjectLine (trimEndSlashes "gs://b/dir".toList ++ ['/'])
      (content "  12  gs://b/dir/my page.skp".toList) :=
    ⟨⟨"gs://b/dir/my".toList, by decide +kernel, by decide +kernel⟩, by decide +kernel,
      by decide +kernel, by decide +kernel⟩
  exact ⟨by decide +kernel, hobject, by decide +kernel, by decide +kernel⟩

end StepRunner.Storage.Listing
