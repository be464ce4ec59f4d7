import Mathlib.Data.List.Induction
import StepRunner.Proofs.Text
import StepRunner.Proofs.Url.Percent
import StepRunner.Url.Basic

namespace StepRunner.Url

variable {scheme segment : List Char} {names segments first second : List (List Char)} {url : Url}

/-- Whether a segment counts in a path: it is not empty and no dots. -/
def counts (segment : List Char) : Bool :=
  segment ≠ [] ∧ segment ≠ ['.'] ∧ segment ≠ ['.', '.']

theorem counts_iff : counts segment = true ↔
    segment ≠ [] ∧ segment ≠ ['.'] ∧ segment ≠ ['.', '.'] := by
  rw [counts, decide_eq_true_iff]

/-- The parts of a text between slashes that are not empty. -/
def filledSegments (text : List Char) : List (List Char) := (Text.pieces '/' text).filter (· ≠ [])

@[simp] theorem filledSegments_nil : filledSegments [] = [] := rfl

theorem filledSegments_append (before after : List Char) :
    filledSegments (before ++ '/' :: after) = filledSegments before ++ filledSegments after := by
  rw [filledSegments, Text.pieces_append, List.filter_append]
  rfl

/-- An empty segment does not count. -/
theorem filter_counts_filledSegments (text : List Char) :
    (filledSegments text).filter counts = (Text.pieces '/' text).filter counts := by
  rw [filledSegments, List.filter_filter]
  refine List.filter_congr fun segment _ => ?_
  cases hcounts : counts segment with
  | false => rfl
  | true => rw [Bool.true_and, decide_eq_true (counts_iff.1 hcounts).1]

/-- Whether no character is a tab or ends a line. These are left out of URLs. -/
def IsOneLine (text : List Char) : Prop := ∀ c ∈ text, c ≠ '\t' ∧ c ≠ '\n' ∧ c ≠ '\r'

instance (text : List Char) : Decidable (IsOneLine text) :=
  List.decidableBAll (fun c => c ≠ '\t' ∧ c ≠ '\n' ∧ c ≠ '\r') text

theorem isOneLine_of_mem_filledSegments {text : List Char} (h : IsOneLine text)
    (hmem : segment ∈ filledSegments text) : segment ≠ [] ∧ IsOneLine segment := by
  obtain ⟨hpiece, hne⟩ := List.mem_filter.1 hmem
  exact ⟨of_decide_eq_true hne, fun c hc => h c (Text.of_mem_pieces hpiece hc).2⟩

/-- The part of a path that others are added to: without an empty segment at its end. -/
def openPath (names : List (List Char)) : List (List Char) :=
  let names := if 1 < names.length ∧ names.getLast? = some [] then names.dropLast else names
  if names = [[]] then [] else names

/-- A URL with some segments as its path. -/
def withNames (url : Url) (names : List (List Char)) : Url := { url with path := .segments names }

/-- A segment as it is written in the path of a URL. -/
def encodeSegment (scheme segment : List Char) : List Char :=
  percentEncode (segmentSet (isSpecialScheme scheme)) segment

theorem percentDecode_encodeSegment (scheme segment : List Char) :
    percentDecode (encodeSegment scheme segment) = Text.encodeUtf8 segment :=
  percentDecode_percentEncode (by simp [segmentSet]) segment

theorem encodeSegment_injective (scheme : List Char) : Function.Injective (encodeSegment scheme) :=
  percentEncode_injective (by simp [segmentSet])

theorem slash_not_mem_encodeSegment (scheme segment : List Char) :
    '/' ∉ encodeSegment scheme segment :=
  not_mem_percentEncode (by simp [segmentSet]) (by decide) (by decide)

theorem addSegment_of_not_counts (hne : segment ≠ []) (h : counts segment = false) :
    addSegment scheme names segment = names := by
  have hdots : segment = ['.'] ∨ segment = ['.', '.'] := by
    simpa [counts, hne, or_iff_not_imp_left] using h
  rw [addSegment, if_pos hdots]

theorem addSegment_of_counts (hfile : scheme ≠ "file".toList) (hline : IsOneLine segment)
    (h : counts segment = true) : addSegment scheme names segment =
      (if names = [[]] then [] else names) ++ [encodeSegment scheme segment] := by
  obtain ⟨_, hdot, hdots⟩ := counts_iff.1 h
  have hfilter : (segment.filter fun c => c ≠ '\t' ∧ c ≠ '\n' ∧ c ≠ '\r') = segment :=
    List.filter_eq_self.2 fun c hc => decide_eq_true (hline c hc)
  rw [addSegment, if_neg (by simp [hdot, hdots])]
  dsimp only
  rw [hfilter, if_neg hdots, if_neg hdot, if_neg hfile, encodeSegment]

/-- Segments are added to a path that is not a slash alone. -/
theorem foldl_addSegment (hfile : scheme ≠ "file".toList)
    (hsegments : ∀ segment ∈ segments, segment ≠ [] ∧ IsOneLine segment) (hnames : names ≠ [[]]) :
    segments.foldl (addSegment scheme) names =
      names ++ (segments.filter counts).map (encodeSegment scheme) := by
  induction segments generalizing names with
  | nil => simp
  | cons segment rest ih =>
    obtain ⟨⟨hne, hline⟩, hrest⟩ := List.forall_mem_cons.1 hsegments
    rw [List.foldl_cons]
    cases hcounts : counts segment with
    | false =>
      rw [addSegment_of_not_counts hne hcounts, List.filter_cons_of_neg (by simp [hcounts]),
        ih hrest hnames]
    | true =>
      have hnext : names ++ [encodeSegment scheme segment] ≠ [[]] := by
        intro heq
        have hlast := congrArg List.getLast? heq
        rw [List.getLast?_concat] at hlast
        exact percentEncode_ne_nil hne (Option.some.inj hlast)
      rw [addSegment_of_counts hfile hline hcounts, if_neg hnames, ih hrest hnext,
        List.filter_cons_of_pos hcounts, List.map_cons, List.append_assoc, List.singleton_append]

/-- If one of the segments counts, they are added to the path without an empty segment at its
    end. -/
theorem extend?_eq (hpath : url.path = .segments names) (hfile : url.scheme ≠ "file".toList)
    (hsegments : ∀ segment ∈ segments, segment ≠ [] ∧ IsOneLine segment)
    (hsome : segments.filter counts ≠ []) : url.extend? segments =
      some (url.withNames (openPath names ++
        (segments.filter counts).map (encodeSegment url.scheme))) := by
  have hfold (start : List (List Char)) : segments.foldl (addSegment url.scheme) start =
      (if start = [[]] then [] else start) ++
        (segments.filter counts).map (encodeSegment url.scheme) := by
    by_cases hstart : start = [[]]
    · rw [if_pos hstart, hstart]
      -- The first segment that counts takes the place of the empty one.
      clear hpath
      induction segments with
      | nil => exact absurd rfl hsome
      | cons segment rest ih =>
        obtain ⟨⟨hne, hline⟩, hrest⟩ := List.forall_mem_cons.1 hsegments
        rw [List.foldl_cons]
        cases hcounts : counts segment with
        | false =>
          rw [List.filter_cons_of_neg (by simp [hcounts])] at hsome ⊢
          rw [addSegment_of_not_counts hne hcounts, ih hrest hsome]
        | true =>
          have hnext : [encodeSegment url.scheme segment] ≠ [[]] := fun heq =>
            percentEncode_ne_nil hne (List.singleton_inj.1 heq)
          rw [addSegment_of_counts hfile hline hcounts, if_pos rfl, List.nil_append,
            foldl_addSegment hfile hrest hnext, List.filter_cons_of_pos hcounts]
          rfl
    · rw [if_neg hstart, foldl_addSegment hfile hsegments hstart]
  rw [extend?, hpath]
  simp only [hfold, openPath, withNames]

theorem pieces_flatMap (h : ∀ name ∈ names, '/' ∉ name) :
    Text.pieces '/' (names.flatMap ('/' :: ·)) = [] :: names := by
  induction names using List.reverseRecOn with
  | nil => rfl
  | append_singleton names last ih =>
    rw [List.flatMap_append, List.flatMap_singleton, Text.pieces_append,
      ih fun name hmem => h name (List.mem_append_left _ hmem),
      Text.pieces_of_not_mem (h last (by simp)), List.cons_append]

/-- URLs that differ in the segments at the end of their paths have different texts. -/
theorem text_eq_iff (hauthority : url.authority.isSome) (hfirst : ∀ name ∈ first, '/' ∉ name)
    (hsecond : ∀ name ∈ second, '/' ∉ name) :
    (url.withNames (names ++ first)).text = (url.withNames (names ++ second)).text ↔
      first = second := by
  constructor
  · intro h
    obtain ⟨authority, hauthority⟩ := Option.isSome_iff_exists.1 hauthority
    simp only [text, withNames, hauthority, UrlPath.text, String.ofList_inj, List.append_assoc,
      List.append_cancel_left_eq, List.flatMap_append] at h
    rw [← List.append_assoc, ← List.append_assoc (second.flatMap _), List.append_left_inj,
      List.append_left_inj] at h
    have hpieces := congrArg (Text.pieces '/') h
    rw [pieces_flatMap hfirst, pieces_flatMap hsecond] at hpieces
    exact (List.cons.inj hpieces).2
  · rintro rfl
    rfl

end StepRunner.Url
