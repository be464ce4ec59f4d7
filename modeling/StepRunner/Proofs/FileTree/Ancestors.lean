import StepRunner.Proofs.FileTree.Files
import StepRunner.Proofs.FileTree.Names

namespace StepRunner.Disk

open FileTree

variable {t t' : FileTree} {here root place : Location} {path base : String} {names : List String}

theorem makeDirectory_of_find (hslash : endsInSlash path = false) (husable : IsUsable path) :
    (makeDirectory here path).run t =
      match t.find here false path with
      | .ok (.entry ..) => (.error .alreadyExists, t)
      | .ok (.vacant place) => (.ok (), t.put place .directory)
      | .error e => (.error e, t) := by
  rw [makeDirectory_run, withoutEndSlashes_eq hslash, if_neg fun h => h.1 h.2.1, findBare,
    if_neg fun h => Nat.not_lt.2 husable.2.2 h.2, withoutEndSlashes_eq hslash]
  rcases t.find here false path with e | ⟨place, entry⟩ | place <;> rfl

/-- Where all is there that is needed the directory can be made or is there already. -/
private theorem makeDirectory_of_hasWay (h : IsPlain base path names)
    (hroot : t.NamesDirectory here base root) (hway : t.HasWay root names)
    (hend : t.get? (names.reverse ++ root) = none ∨
      t.get? (names.reverse ++ root) = some .directory) :
    (∃ t', (makeDirectory here path).run t = (.ok (), t')) ∨
      t.NamesDirectory here path (names.reverse ++ root) := by
  rcases hend with hnone | hdir
  · obtain ⟨first, last, hlast, hdot⟩ := h.exists_last
    rw [makeDirectory_of_find (endsInSlash_eq_false hlast hdot) h.isUsable,
      h.find_eq hroot hway (Or.inl rfl), targetAt, hnone]
    exact Or.inl ⟨_, rfl⟩
  · exact Or.inr (h.namesDirectory hroot hdir)

/-- Making directories succeeds where no file or link is in the way. -/
theorem makeWithAncestors_succeeds {fuel : Nat} (h : IsPlain base path names)
    (hroot : t.NamesDirectory here base root) (hhere : t.get? here = some .directory)
    (hfree : t.IsFree root names) (hend : t.get? (names.reverse ++ root) = none ∨
      t.get? (names.reverse ++ root) = some .directory) (hfuel : path.length < fuel) :
    ∃ t', (makeWithAncestors here (ancestry fuel path)).run t = (.ok (), t') := by
  induction fuel generalizing path names with
  | zero => omega
  | succ fuel ih =>
  obtain ⟨front, last, rfl⟩ := names.eq_nil_or_concat'.resolve_left h.names_ne_nil
  have hsteps : wayNames path ≠ [] := by simp [h.wayNames_eq]
  obtain ⟨above, habove⟩ := exists_parent? hsteps
  rw [ancestry_eq_cons, habove]
  simp only
  rw [makeWithAncestors_cons, if_neg h.ne_empty]
  by_cases hway : t.HasWay root (front ++ [last])
  · rcases makeDirectory_of_hasWay h hroot hway hend with ⟨made, hmade⟩ | hnames
    · exact ⟨made, by rw [hmade]⟩
    · rw [makeDirectory_of_namesDirectory hnames h.ne_empty]
      simp only
      rw [if_neg (by decide), if_pos ((isDirectory_iff h.ne_empty).2 ⟨_, hnames⟩)]
      exact ⟨t, rfl⟩
  have hnone : t.get? ((front ++ [last]).reverse ++ root) = none := by
    rcases hend with hnone | hdir
    · exact hnone
    · exact absurd (hasWay_of_get? (by rw [hdir]; simp)) hway
  have hfront : front ≠ [] := by
    rintro rfl
    apply hway
    intro before next back heq
    obtain ⟨rfl, _⟩ := List.append_eq_singleton_iff.1 heq.symm |>.resolve_right (by simp)
    exact hroot.get?_eq hhere
  obtain ⟨first, final, hlast, hdot⟩ := h.exists_last
  rw [makeDirectory_of_find (endsInSlash_eq_false hlast hdot) h.isUsable]
  rcases h.find_missing hroot hhere hfree hnone with hvacant | hmissing
  · rw [hvacant]
    exact ⟨_, rfl⟩
  rw [hmissing]
  simp only
  rw [if_pos trivial]
  have hplain := h.parent habove hfront
  have hfreeAbove := hfree.of_append
  have hshorter := length_parent?_lt habove hsteps
  obtain ⟨grown, hgrown⟩ := ih hplain hfreeAbove (hfree front last [] rfl) (by omega)
  rw [hgrown]
  simp only
  -- The directory above is there now, and with it the whole way to the one that is made.
  obtain ⟨less, rfl⟩ : ∃ less, fuel = less + 1 := ⟨fuel - 1, by omega⟩
  rw [ancestry_eq_cons] at hgrown
  have hgrows := makeWithAncestors_grows hhere hgrown
  obtain ⟨dir, hdir⟩ := namesDirectory_of_makeWithAncestors hhere hgrown
  have hroot' := hroot.mono hgrows.keeps
  have habove' := hplain.get?_eq hroot' (hgrows.keeps _ _ hhere) (hfreeAbove.of_grows hgrows)
    (hgrows.none_or_directory (hfree front last [] rfl)) hdir
  have hend' := hgrows.none_or_directory hend
  rcases makeDirectory_of_hasWay h hroot' (.concat habove') hend' with ⟨made, hmade⟩ | hnames
  · exact ⟨made, by rw [hmade]⟩
  · rw [makeDirectory_of_namesDirectory hnames h.ne_empty]
    simp only
    rw [if_pos ((isDirectory_iff h.ne_empty).2 ⟨_, hnames⟩)]
    exact ⟨grown, rfl⟩

end StepRunner.Disk
