import StepRunner.Proofs.CommandLine.Options

namespace StepRunner.CommandLine

/-- The values that count of an option that may be repeated: those after the name of the step, or
    those before it if there are none. -/
def countedValues (name : String) (before after : List Spelling) : List String :=
  if valuesOf name after = [] then valuesOf name before else valuesOf name after

/-- All values count unless there are some on each side of the name of the step. -/
theorem countedValues_eq_iff (name : String) (before after : List Spelling) :
    countedValues name before after = valuesOf name (before ++ after) ↔
      valuesOf name before = [] ∨ valuesOf name after = [] := by
  have happend : valuesOf name (before ++ after) = valuesOf name before ++ valuesOf name after :=
    List.filterMap_append
  rw [countedValues, happend]
  split_ifs with hafter
  · simp [hafter]
  · rw [eq_comm, List.append_left_eq_self]
    exact (or_iff_left hafter).symm

section Read

variable {env : Environment} {line : List String} {step step' : StepName} {settings : Settings}
  {given : Given} {before after : List Spelling}

theorem looksLikeOption_of_ofWord? {word : String} (h : StepName.ofWord? word = some step) :
    looksLikeOption word = false := by
  unfold StepName.ofWord? at h
  split at h
  case h_5 => cases h
  all_goals simp [looksLikeOption]

/-- The lists do not depend on the environment. -/
theorem lists_of_ofGiven (h : Settings.ofGiven env given = .ok settings) :
    settings.makeFlags = given.makeFlags ∧ settings.args = given.args := by
  simp only [Settings.ofGiven] at h
  split_ifs at h
  cases h
  exact ⟨rfl, rfl⟩

/-- What is read is read on each side of the name of the step. -/
theorem exists_of_read (h : read env line = .ok (step, settings)) :
    ∃ first second found rest firstSettings secondSettings,
      readOptions true {} line = .ok (first, some (step, rest)) ∧
      readOptions false {} rest = .ok (second, found) ∧
      Settings.ofGiven env first = .ok firstSettings ∧
      Settings.ofGiven env second = .ok secondSettings ∧
      settings = firstSettings.merge secondSettings := by
  obtain ⟨⟨first, found⟩, hfirst, h⟩ := bind_eq_ok_iff.1 h
  rcases found with _ | ⟨step', rest⟩
  · cases h
  obtain ⟨⟨second, found⟩, hsecond, h⟩ := bind_eq_ok_iff.1 h
  obtain ⟨secondSettings, hsecondSettings, h⟩ := bind_eq_ok_iff.1 h
  obtain ⟨firstSettings, hfirstSettings, h⟩ := bind_eq_ok_iff.1 h
  cases h
  exact ⟨first, second, found, rest, firstSettings, secondSettings, hfirst, hsecond,
    hfirstSettings, hsecondSettings, rfl⟩

/-- A line that is read is spelled by options around the name of the step. -/
theorem exists_spells_of_read (h : read env line = .ok (step, settings)) :
    ∃ before after, Spells line before step after := by
  obtain ⟨_, _, found, rest, _, _, hfirst, hsecond, _⟩ := exists_of_read h
  obtain ⟨before, _, hbefore, hline, _, word, hword, rfl⟩ := isReadAs_of_readOptions hfirst
  obtain ⟨after, tail, hafter, hrest, htail⟩ := isReadAs_of_readOptions hsecond
  refine ⟨before, after, ?_, word, tail, hword, ?_, by rw [hline, hrest]⟩
  · exact fun option hoption => (List.mem_append.1 hoption).elim (hbefore option) (hafter option)
  · cases found with
    | none => exact htail
    | some _ => exact absurd htail.1 (by decide)

/-- The lists that a line gives are the values that count. -/
theorem lists_of_read (h : read env line = .ok (step, settings))
    (hspells : Spells line before step' after) :
    step' = step ∧ settings.makeFlags = countedValues "make-flags" before after ∧
      settings.args = countedValues "args" before after := by
  obtain ⟨first, second, found, rest, firstSettings, secondSettings, hfirst, hsecond,
    hfirstSettings, hsecondSettings, rfl⟩ := exists_of_read h
  obtain ⟨hproper, word, tail, hword, htail, rfl⟩ := hspells
  obtain ⟨first', hfirst', hread⟩ := exists_given_of_readOptions
    (fun option hoption => hproper option (List.mem_append_left _ hoption)) hfirst
  rw [readOptions_word (looksLikeOption_of_ofWord? hword), hword] at hread
  cases hread
  obtain ⟨second', hsecond', hread⟩ := exists_given_of_readOptions
    (fun option hoption => hproper option (List.mem_append_right _ hoption)) hsecond
  have hend : second' = second := by
    rcases htail with rfl | rfl
    · rw [readOptions] at hread
      cases hread
      rfl
    · rw [readOptions_cons] at hread
      cases hread
      rfl
  subst hend
  have hmerge : (firstSettings.merge secondSettings).makeFlags =
        (if secondSettings.makeFlags = [] then firstSettings.makeFlags
          else secondSettings.makeFlags) ∧
      (firstSettings.merge secondSettings).args =
        if secondSettings.args = [] then firstSettings.args else secondSettings.args := ⟨rfl, rfl⟩
  obtain ⟨hmakeFlags, hargs⟩ := lists_of_ofGiven hfirstSettings
  obtain ⟨hmakeFlags', hargs'⟩ := lists_of_ofGiven hsecondSettings
  rw [hmakeFlags, hmakeFlags', hargs, hargs', hfirst'.1, hfirst'.2, hsecond'.1, hsecond'.2] at hmerge
  exact ⟨rfl, hmerge⟩

/-- The context has the settings' flags, and the arguments that their pairs give. -/
theorem of_context {ctx : StepContext} (h : settings.context = .ok ctx) :
    ctx.makeFlags = settings.makeFlags ∧ StepArguments.ofPairs settings.args = .ok ctx.args := by
  obtain ⟨args, hargs, h⟩ := bind_eq_ok_iff.1 h
  cases h
  exact ⟨rfl, hargs⟩

/-- A line that is read as asking for a step with some context is read with settings that give
    that context. -/
theorem exists_settings_of_read {ctx : StepContext}
    (h : ((read env line).toOption.map fun found => (found.1, found.2.context.toOption)) =
      some (step, some ctx)) :
    ∃ settings, read env line = .ok (step, settings) ∧ settings.context = .ok ctx := by
  rcases hread : read env line with _ | ⟨step', settings⟩
  · rw [hread] at h
    cases h
  rw [hread] at h
  rcases hctx : settings.context with _ | ctx'
  · simp [Except.toOption, hctx] at h
  · obtain ⟨rfl, rfl⟩ : step' = step ∧ ctx' = ctx := by simpa [Except.toOption, hctx] using h
    exact ⟨settings, rfl, hctx⟩

/-- Each line that is accepted is spelled by options around the name of its step. However it is
    spelled, its flags and `key=value` pairs are the values on one side of the name of the step:
    those after it, or those before it if there are none. So each list is complete, in the order
    of the line, unless its option stands on both sides. -/
theorem read_lists (h : read env line = .ok (step, settings)) :
    (∃ before after, Spells line before step after) ∧
    ∀ before step' after, Spells line before step' after →
      step' = step ∧
      settings.makeFlags = countedValues "make-flags" before after ∧
      settings.args = countedValues "args" before after ∧
      (∀ ctx, settings.context = .ok ctx →
        ctx.makeFlags = countedValues "make-flags" before after ∧
        StepArguments.ofPairs (countedValues "args" before after) = .ok ctx.args) ∧
      ∀ name, countedValues name before after = valuesOf name (before ++ after) ↔
        valuesOf name before = [] ∨ valuesOf name after = [] := by
  refine ⟨exists_spells_of_read h, fun before step' after hspells => ?_⟩
  obtain ⟨hstep, hmakeFlags, hargs⟩ := lists_of_read h hspells
  refine ⟨hstep, hmakeFlags, hargs, fun ctx hctx => ?_, fun name => countedValues_eq_iff ..⟩
  rw [← hmakeFlags, ← hargs]
  exact of_context hctx

theorem read_lists_compile : ∃ settings ctx,
    read [] ["--make-flags", "-j8", "-v", "compile", "--args", "a=b", "--args=a=c", "--"] =
      .ok (.compile, settings) ∧
    settings.context = .ok ctx ∧ ctx.makeFlags = ["-j8"] ∧
    StepArguments.ofPairs ["a=b", "a=c"] = .ok ctx.args := by
  obtain ⟨settings, hread, hctx⟩ := exists_settings_of_read <|
    show ((read [] ["--make-flags", "-j8", "-v", "compile", "--args", "a=b", "--args=a=c",
        "--"]).toOption.map fun found => (found.1, found.2.context.toOption)) =
      some (.compile, some { makeFlags := ["-j8"], args := ⟨[("a", "c")]⟩ }) by decide +kernel
  have hspells : Spells
      ["--make-flags", "-j8", "-v", "compile", "--args", "a=b", "--args=a=c", "--"]
      [.spaced "make-flags" "-j8", .letters ['v']] .compile
      [.spaced "args" "a=b", .joined "args" "a=c"] :=
    ⟨by simp [Spelling.IsProper, Spelling.valueNames, looksLikeOption, Given.takesAnything],
      "compile", ["--"], by simp [StepName.ofWord?], Or.inr rfl, by simp [wordsOf, Spelling.words]⟩
  obtain ⟨_, _, _, hlists, _⟩ := (read_lists hread).2 _ _ _ hspells
  obtain ⟨hmakeFlags, hargs⟩ := hlists _ hctx
  have hcounted : countedValues "make-flags" [.spaced "make-flags" "-j8", .letters ['v']]
        [.spaced "args" "a=b", .joined "args" "a=c"] = ["-j8"] ∧
      countedValues "args" [.spaced "make-flags" "-j8", .letters ['v']]
        [.spaced "args" "a=b", .joined "args" "a=c"] = ["a=b", "a=c"] := by
    simp [countedValues, valuesOf, Spelling.value?]
  rw [hcounted.1] at hmakeFlags
  rw [hcounted.2] at hargs
  exact ⟨settings, _, hread, hctx, hmakeFlags, hargs⟩

/-- A pair before the name of the step is lost if another one is after it. -/
theorem read_loses_pair : ∃ settings ctx,
    read [] ["--args", "target=t", "compile", "--args", "device=d", "--parent-dir", "s"] =
      .ok (.compile, settings) ∧
    settings.context = .ok ctx ∧
    Spells ["--args", "target=t", "compile", "--args", "device=d", "--parent-dir", "s"]
      [.spaced "args" "target=t"] .compile [.spaced "args" "device=d", .spaced "parent-dir" "s"] ∧
    StepArguments.ofPairs (valuesOf "args"
      [.spaced "args" "target=t", .spaced "args" "device=d", .spaced "parent-dir" "s"]) ≠
        .ok ctx.args := by
  obtain ⟨settings, hread, hctx⟩ := exists_settings_of_read <|
    show ((read [] ["--args", "target=t", "compile", "--args", "device=d", "--parent-dir",
        "s"]).toOption.map fun found => (found.1, found.2.context.toOption)) =
      some (.compile, some { args := ⟨[("device", "d")]⟩, parentDir := "s" }) by decide +kernel
  exact ⟨settings, _, hread, hctx,
    ⟨by simp [Spelling.IsProper, Spelling.valueNames, looksLikeOption, Given.takesAnything],
      "compile", [], by simp [StepName.ofWord?], Or.inl rfl, by simp [wordsOf, Spelling.words]⟩,
    by decide +kernel⟩

end Read

end StepRunner.CommandLine
