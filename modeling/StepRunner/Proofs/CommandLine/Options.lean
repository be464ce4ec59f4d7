import Mathlib.Data.List.TakeWhile
import StepRunner.CommandLine.Options
import StepRunner.Proofs.Action

namespace StepRunner.CommandLine

/-- One option as it stands on a command line. -/
inductive Spelling where
  /-- Two dashes and the name of a flag. -/
  | flag (name : String)
  /-- A dash and the letters of flags. -/
  | letters (chars : List Char)
  /-- Two dashes, a name, `=` and a value, in one word. -/
  | joined (name value : String)
  /-- Two dashes and a name in one word, a value in the next. -/
  | spaced (name value : String)

namespace Spelling

/-- The flags that have names. -/
def flagNames : List String := ["verbose", "json", "use-skp-playback-framework"]

/-- The options that take a value. -/
def valueNames : List String :=
  ["configuration", "builder-name", "perf-output-basedir", "gm-image-subdir", "parent-dir",
    "timeout-secs", "make-flags", "args"]

/-- The words that spell an option. -/
def words : Spelling → List String
  | flag name => ["--" ++ name]
  | letters chars => ["-" ++ String.ofList chars]
  | joined name value => ["--" ++ name ++ "=" ++ value]
  | spaced name value => ["--" ++ name, value]

/-- The option exists, and a value in a word of its own that looks like an option is one of
    `--make-flags`. -/
def IsProper : Spelling → Prop
  | flag name => name ∈ flagNames
  | letters chars => chars ≠ [] ∧ ∀ c ∈ chars, c = 'v'
  | joined name _ => name ∈ valueNames
  | spaced name value => name ∈ valueNames ∧ (looksLikeOption value → Given.takesAnything name)

/-- The value given for an option, if it is this one. -/
def value? (option : String) : Spelling → Option String
  | joined name value | spaced name value => if name = option then some value else none
  | flag _ | letters _ => none

/-- Sets the option. -/
def apply (beforeStep : Bool) (given : Given) : Spelling → Except Halt Given
  | flag name => (given.setFlag? name).getD (.error .rejected)
  | letters chars => readLetters beforeStep given chars
  | joined name value | spaced name value => (given.setValue? name value).getD (.error .rejected)

end Spelling

/-- The words that spell options, one after the other. -/
def wordsOf (options : List Spelling) : List String := options.flatMap Spelling.words

/-- The values given for an option, in the order of the words. -/
def valuesOf (option : String) (options : List Spelling) : List String :=
  options.filterMap (Spelling.value? option)

/-- A command line is options, the name of a step, and more options. Two dashes by themselves may
    stand at its end. -/
def Spells (line : List String) (before : List Spelling) (step : StepName)
    (after : List Spelling) : Prop :=
  (∀ option ∈ before ++ after, option.IsProper) ∧
    ∃ word tail, StepName.ofWord? word = some step ∧ (tail = [] ∨ tail = ["--"]) ∧
      line = wordsOf before ++ word :: (wordsOf after ++ tail)

/-- The lists are the values given for their options, after those that were there. -/
def Extends (given after : Given) (options : List Spelling) : Prop :=
  after.makeFlags = given.makeFlags ++ valuesOf "make-flags" options ∧
    after.args = given.args ++ valuesOf "args" options

theorem Extends.trans {first second third : Given} {options others : List Spelling}
    (h : Extends first second options) (h' : Extends second third others) :
    Extends first third (options ++ others) := by
  simp [Extends, valuesOf, h'.1, h'.2, h.1, h.2]

theorem valuesOf_singleton (name : String) (option : Spelling) :
    valuesOf name [option] = (option.value? name).toList := by
  rw [valuesOf, List.filterMap_cons]
  cases option.value? name <;> rfl

section Names

variable {name value : String} {given : Given}

theorem eq_not_mem_of_mem_names (h : name ∈ Spelling.flagNames ++ Spelling.valueNames) :
    '=' ∉ name.toList := by
  have hall : ∀ name ∈ Spelling.flagNames ++ Spelling.valueNames, '=' ∉ name.toList := by
    simp [Spelling.flagNames, Spelling.valueNames]
  exact hall name h

theorem ne_of_mem_names (h : name ∈ Spelling.flagNames ++ Spelling.valueNames) :
    name ≠ "help" ∧ name ≠ "version" ∧ name ≠ "" := by
  have hall : ∀ name ∈ Spelling.flagNames ++ Spelling.valueNames,
      name ≠ "help" ∧ name ≠ "version" ∧ name ≠ "" := by
    simp [Spelling.flagNames, Spelling.valueNames]
  exact hall name h

theorem setFlag?_isSome_iff : (given.setFlag? name).isSome ↔ name ∈ Spelling.flagNames := by
  unfold Given.setFlag? Spelling.flagNames
  split <;> simp_all

theorem setValue?_isSome_iff : (given.setValue? name value).isSome ↔
    name ∈ Spelling.valueNames := by
  unfold Given.setValue? Spelling.valueNames
  split <;> simp_all

end Names

section Words

variable {beforeStep : Bool} {given : Given} {name value word : String} {step : StepName}
  {rest : List String}

/-- How a line is read is decided by the characters of its first word. -/
alias readOptions_cons := readOptions.eq_2

/-- A long option up to its `=`. -/
theorem takeWhile_name (h : '=' ∉ name.toList) (tail : List Char) :
    (name.toList ++ '=' :: tail).takeWhile (· ≠ '=') = name.toList ∧
      (name.toList ++ '=' :: tail).dropWhile (· ≠ '=') = '=' :: tail := by
  have hname : ∀ c ∈ name.toList, decide (c ≠ '=') = true := fun c hc =>
    decide_eq_true (fun heq => h (heq ▸ hc))
  rw [List.takeWhile_append_of_pos hname, List.dropWhile_append_of_pos hname]
  simp

theorem readOptions_joined (h : '=' ∉ name.toList) :
    readOptions beforeStep given (("--" ++ name ++ "=" ++ value) :: rest) =
      (given.setValue? name value).getD (.error .rejected) >>=
        fun given => readOptions beforeStep given rest := by
  obtain ⟨htake, hdrop⟩ := takeWhile_name h value.toList
  have hlist : ("--" ++ name ++ "=" ++ value).toList =
      '-' :: '-' :: (name.toList ++ '=' :: value.toList) := by simp
  rw [readOptions_cons]
  simp only [hlist]
  split
  · simp_all
  · next long _ hlong =>
    obtain rfl : name.toList ++ '=' :: value.toList = long := by simpa using hlong
    rw [htake, hdrop]
    simp only [List.tail?_cons, String.ofList_toList]
    rcases given.setValue? name value with _ | _ | _ <;> rfl
  · next hne heq => exact absurd (List.cons.inj (List.cons.inj heq).2).1.symm hne
  · simp_all

/-- A long option without `=` is a flag, or takes the next word as its value. -/
theorem readOptions_long (h : '=' ∉ name.toList) (hname : name ≠ "") :
    readOptions beforeStep given (("--" ++ name) :: rest) =
      if name = "help" then .error .help
      else if name = "version" ∧ beforeStep then .error .version
      else if name ∈ Spelling.flagNames then
        (given.setFlag? name).getD (.error .rejected) >>=
          fun given => readOptions beforeStep given rest
      else
        match rest with
        | [] => .error .rejected
        | value :: rest =>
          if looksLikeOption value ∧ !Given.takesAnything name then .error .rejected
          else
            (given.setValue? name value).getD (.error .rejected) >>=
              fun given => readOptions beforeStep given rest := by
  have hall : ∀ c ∈ name.toList, decide (c ≠ '=') = true := fun c hc =>
    decide_eq_true (fun heq => h (heq ▸ hc))
  have htake : name.toList.takeWhile (· ≠ '=') = name.toList := List.takeWhile_eq_self_iff.2 hall
  have hdrop : name.toList.dropWhile (· ≠ '=') = [] := List.dropWhile_eq_nil_iff.2 hall
  have hlist : ("--" ++ name).toList = '-' :: '-' :: name.toList := by simp
  rw [readOptions_cons]
  simp only [hlist]
  split
  · simp_all
  · next long _ hlong =>
    obtain rfl : name.toList = long := by simpa using hlong
    rw [htake, hdrop]
    simp only [List.tail?_nil, String.ofList_toList]
    split
    · rfl
    split
    · rfl
    by_cases hflag : name ∈ Spelling.flagNames
    · obtain ⟨result, hresult⟩ := Option.isSome_iff_exists.1 (setFlag?_isSome_iff.2 hflag)
      rw [if_pos hflag, hresult]
      cases result <;> rfl
    · have hnone : given.setFlag? name = none := by
        simpa using mt setFlag?_isSome_iff.1 hflag
      rw [if_neg hflag, hnone]
      cases rest with
      | nil => rfl
      | cons value rest =>
        simp only
        split
        · rfl
        · rcases given.setValue? name value with _ | _ | _ <;> rfl
  · next hne heq => exact absurd (List.cons.inj (List.cons.inj heq).2).1.symm hne
  · simp_all

theorem readOptions_letters {letter : Char} {letters : List Char} (h : letter ≠ '-') :
    readOptions beforeStep given (("-" ++ String.ofList (letter :: letters)) :: rest) =
      readLetters beforeStep given (letter :: letters) >>=
        fun given => readOptions beforeStep given rest := by
  have hlist : ("-" ++ String.ofList (letter :: letters)).toList = '-' :: letter :: letters := by
    simp
  rw [readOptions_cons]
  simp only [hlist]
  split
  · simp_all
  · simp_all
  · next first others _ _ heq =>
    obtain ⟨rfl, rfl⟩ : letter = first ∧ letters = others := by simpa using heq
    cases readLetters beforeStep given (letter :: letters) <;> rfl
  · simp_all

/-- A word that does not look like an option has to name a step. -/
theorem readOptions_word (h : looksLikeOption word = false) :
    readOptions beforeStep given (word :: rest) =
      if !beforeStep then .error .rejected
      else
        match StepName.ofWord? word with
        | some step => .ok (given, some (step, rest))
        | none => .error (if word = "help" then helpOn rest else .rejected) := by
  rw [readOptions_cons]
  split
  · simp_all [looksLikeOption]
  · simp_all [looksLikeOption]
  · simp_all [looksLikeOption]
  · rfl

end Words

section Reading

variable {beforeStep : Bool} {given after : Given} {option : Spelling} {options : List Spelling}
  {line rest : List String} {found : Option (StepName × List String)}

theorem isSome_of_getD {α : Type} {found : Option (Except Halt α)} {value : α}
    (h : found.getD (.error .rejected) = .ok value) : found.isSome := by
  cases found with
  | none => cases h
  | some _ => rfl

theorem wordsOf_cons (option : Spelling) (options : List Spelling) :
    wordsOf (option :: options) = option.words ++ wordsOf options := List.flatMap_cons

/-- An option at the front of a line is set, and what follows it is read. -/
theorem readOptions_words (h : option.IsProper) :
    readOptions beforeStep given (option.words ++ rest) =
      option.apply beforeStep given >>= fun given => readOptions beforeStep given rest := by
  cases option with
  | flag name =>
    have hmem := List.mem_append_left Spelling.valueNames h
    obtain ⟨hhelp, hversion, hne⟩ := ne_of_mem_names hmem
    rw [Spelling.words, List.singleton_append, readOptions_long (eq_not_mem_of_mem_names hmem) hne,
      if_neg hhelp, if_neg (hversion ·.1), if_pos (show name ∈ Spelling.flagNames from h)]
    rfl
  | letters chars =>
    obtain ⟨hne, hall⟩ := h
    obtain ⟨letter, letters, rfl⟩ := List.exists_cons_of_ne_nil hne
    have hletter : letter ≠ '-' := by rw [hall letter List.mem_cons_self]; decide
    exact readOptions_letters hletter
  | joined name value =>
    exact readOptions_joined (eq_not_mem_of_mem_names (List.mem_append_right _ h))
  | spaced name value =>
    obtain ⟨hvalue, hlooks⟩ := h
    have hmem := List.mem_append_right Spelling.flagNames hvalue
    obtain ⟨hhelp, hversion, hne⟩ := ne_of_mem_names hmem
    have hflag : name ∉ Spelling.flagNames := by
      have hall : ∀ name ∈ Spelling.valueNames, name ∉ Spelling.flagNames := by
        simp [Spelling.flagNames, Spelling.valueNames]
      exact hall name hvalue
    have htaken : ¬(looksLikeOption value ∧ !Given.takesAnything name) := by simpa using hlooks
    rw [Spelling.words, List.cons_append, List.singleton_append,
      readOptions_long (eq_not_mem_of_mem_names hmem) hne, if_neg hhelp, if_neg (hversion ·.1),
      if_neg hflag]
    simp only [if_neg htaken]
    rfl

/-- A word is two dashes, an option, or does not look like one. -/
theorem word_cases (word : String) :
    looksLikeOption word = false ∨ word = "--" ∨
      (∃ name value : String, '=' ∉ name.toList ∧ word = "--" ++ name ++ "=" ++ value) ∨
      (∃ name : String, '=' ∉ name.toList ∧ name ≠ "" ∧ word = "--" ++ name) ∨
      ∃ letter letters, letter ≠ '-' ∧ word = "-" ++ String.ofList (letter :: letters) := by
  have hword : word = String.ofList word.toList := String.ofList_toList.symm
  rcases hlist : word.toList with _ | ⟨first, _ | ⟨second, long⟩⟩
  · exact Or.inl (by simp [looksLikeOption, hlist])
  · exact Or.inl (by simp [looksLikeOption, hlist])
  refine or_iff_not_imp_left.2 fun hlooks => ?_
  obtain rfl : first = '-' := by
    by_contra hfirst
    exact hlooks (by simp [looksLikeOption, hlist, hfirst])
  rw [hlist] at hword
  by_cases hsecond : second = '-'
  · subst hsecond
    by_cases heq : '=' ∈ long
    · obtain ⟨name, value, rfl, hname⟩ := List.eq_append_cons_of_mem heq
      refine Or.inr (Or.inl ⟨String.ofList name, String.ofList value, by simpa using hname, ?_⟩)
      exact hword.trans (String.ext_iff.2 (by simp))
    · by_cases hempty : long = []
      · exact Or.inl (by rw [hword, hempty])
      · refine Or.inr (Or.inr (Or.inl ⟨String.ofList long, by simpa using heq,
          by simpa using hempty, ?_⟩))
        exact hword.trans (String.ext_iff.2 (by simp))
  · exact Or.inr (Or.inr (Or.inr ⟨second, long, hsecond,
      hword.trans (String.ext_iff.2 (by simp))⟩))

/-- Letters that are read stand for the flag of that letter. -/
theorem eq_of_readLetters {letters : List Char}
    (h : readLetters beforeStep given letters = .ok after) : ∀ c ∈ letters, c = 'v' := by
  induction letters generalizing given with
  | nil => simp
  | cons letter letters ih =>
    by_cases hletter : letter = 'v'
    · rw [readLetters, if_pos hletter] at h
      split at h
      · exact List.forall_mem_cons.2 ⟨hletter, ih h⟩
      · cases h
    · rw [readLetters, if_neg hletter] at h
      split_ifs at h

/-- A line is options, and then the name of a step with what follows it, or the end. -/
def IsReadAs (beforeStep : Bool) (line : List String)
    (found : Option (StepName × List String)) : Prop :=
  ∃ options rest, (∀ option ∈ options, option.IsProper) ∧ line = wordsOf options ++ rest ∧
    match found with
    | none => rest = [] ∨ rest = ["--"]
    | some (step, others) =>
      beforeStep = true ∧ ∃ word, StepName.ofWord? word = some step ∧ rest = word :: others

theorem IsReadAs.cons (h : option.IsProper) (hline : IsReadAs beforeStep line found) :
    IsReadAs beforeStep (option.words ++ line) found := by
  obtain ⟨options, rest, hoptions, rfl, hend⟩ := hline
  exact ⟨option :: options, rest, List.forall_mem_cons.2 ⟨h, hoptions⟩,
    by rw [wordsOf_cons, List.append_assoc], hend⟩

/-- What is read is spelled by options, up to the name of the step. -/
theorem isReadAs_of_readOptions : ∀ {line : List String} {given : Given},
    readOptions beforeStep given line = .ok (after, found) → IsReadAs beforeStep line found
  | [], given, h => by
    rw [readOptions] at h
    cases h
    exact ⟨[], [], by simp, rfl, Or.inl rfl⟩
  | word :: line, given, h => by
    rcases word_cases word with hlooks | rfl | ⟨name, value, heq, rfl⟩ | ⟨name, heq, hne, rfl⟩ |
      ⟨letter, letters, hne, rfl⟩
    · rw [readOptions_word hlooks] at h
      split at h
      · cases h
      · next hbefore =>
        split at h
        · next step hstep =>
          cases h
          exact ⟨[], word :: line, by simp, rfl, by simpa using hbefore, word, hstep, rfl⟩
        · cases h
    · rw [readOptions_cons] at h
      simp only [String.reduceToList] at h
      split at h
      · next hline =>
        cases h
        exact ⟨[], ["--"], by simp, by rw [hline]; rfl, Or.inr rfl⟩
      · cases h
    · rw [readOptions_joined heq] at h
      obtain ⟨next, hset, h⟩ := bind_eq_ok_iff.1 h
      have hname : name ∈ Spelling.valueNames := setValue?_isSome_iff.1 (isSome_of_getD hset)
      exact .cons (show (Spelling.joined name value).IsProper from hname) (isReadAs_of_readOptions h)
    · rw [readOptions_long heq hne] at h
      split_ifs at h with hhelp hversion hflag
      · obtain ⟨next, hset, h⟩ := bind_eq_ok_iff.1 h
        exact .cons (show (Spelling.flag name).IsProper from hflag) (isReadAs_of_readOptions h)
      · cases line with
        | nil => cases h
        | cons value line =>
          simp only at h
          split_ifs at h with hlooks
          obtain ⟨next, hset, h⟩ := bind_eq_ok_iff.1 h
          have hname : name ∈ Spelling.valueNames := setValue?_isSome_iff.1 (isSome_of_getD hset)
          have hproper : (Spelling.spaced name value).IsProper := ⟨hname, by simpa using hlooks⟩
          exact .cons hproper (isReadAs_of_readOptions h)
    · rw [readOptions_letters hne] at h
      obtain ⟨next, hset, h⟩ := bind_eq_ok_iff.1 h
      have hproper : (Spelling.letters (letter :: letters)).IsProper :=
        ⟨List.cons_ne_nil _ _, eq_of_readLetters hset⟩
      exact .cons hproper (isReadAs_of_readOptions h)

/-- A flag leaves the lists as they are. -/
theorem lists_of_setFlag? {name : String} (h : given.setFlag? name = some (.ok after)) :
    after.makeFlags = given.makeFlags ∧ after.args = given.args := by
  unfold Given.setFlag? at h
  split at h
  case h_4 => cases h
  all_goals
    simp only [Option.some.injEq] at h
    split_ifs at h
    cases h
    exact ⟨rfl, rfl⟩

/-- A value is added to the list that it is for, and no other. -/
theorem extends_of_setValue? {name value : String}
    (h : given.setValue? name value = some (.ok after)) :
    Extends given after [.joined name value] := by
  rw [Extends, valuesOf_singleton, valuesOf_singleton]
  unfold Given.setValue? at h
  split at h
  case h_9 => cases h
  case h_8 | h_7 =>
    cases h
    simp [Spelling.value?]
  case h_6 =>
    simp only [Option.some.injEq] at h
    split at h
    · obtain ⟨_, _, h⟩ := bind_eq_ok_iff.1 h
      cases h
      simp [Spelling.value?]
    · cases h
  -- a path is looked at before it is kept
  case h_3 | h_5 =>
    obtain ⟨_, _, h⟩ := bind_eq_ok_iff.1 (Option.some.inj h)
    obtain ⟨_, _, h⟩ := bind_eq_ok_iff.1 h
    cases h
    simp [Spelling.value?]
  all_goals
    obtain ⟨_, _, h⟩ := bind_eq_ok_iff.1 (Option.some.inj h)
    cases h
    simp [Spelling.value?]

/-- Letters stand for flags, which leave the lists as they are. -/
theorem lists_of_readLetters {letters : List Char}
    (h : readLetters beforeStep given letters = .ok after) :
    after.makeFlags = given.makeFlags ∧ after.args = given.args := by
  induction letters generalizing given with
  | nil =>
    cases h
    exact ⟨rfl, rfl⟩
  | cons letter letters ih =>
    rw [readLetters] at h
    split_ifs at h
    split at h
    · next next hnext =>
      obtain ⟨hmakeFlags, hargs⟩ := lists_of_setFlag? hnext
      obtain ⟨hmakeFlags', hargs'⟩ := ih h
      exact ⟨hmakeFlags'.trans hmakeFlags, hargs'.trans hargs⟩
    · cases h

/-- Setting an option adds its value to the list that it is for. -/
theorem extends_of_apply (h : option.apply beforeStep given = .ok after) :
    Extends given after [option] := by
  have hget {found : Option (Except Halt Given)} (h : found.getD (.error .rejected) = .ok after) :
      found = some (.ok after) := by
    cases found with
    | none => cases h
    | some _ => exact congrArg some h
  cases option with
  | flag name =>
    obtain ⟨hmakeFlags, hargs⟩ := lists_of_setFlag? (hget h)
    simp [Extends, valuesOf, Spelling.value?, hmakeFlags, hargs]
  | letters chars =>
    obtain ⟨hmakeFlags, hargs⟩ := lists_of_readLetters h
    simp [Extends, valuesOf, Spelling.value?, hmakeFlags, hargs]
  | joined name value => exact extends_of_setValue? (hget h)
  | spaced name value => exact extends_of_setValue? (hget h)

/-- Reading options sets them and goes on. -/
theorem exists_given_of_readOptions (hproper : ∀ option ∈ options, option.IsProper)
    (h : readOptions beforeStep given (wordsOf options ++ rest) = .ok (after, found)) :
    ∃ middle, Extends given middle options ∧
      readOptions beforeStep middle rest = .ok (after, found) := by
  induction options generalizing given with
  | nil => exact ⟨given, by simp [Extends, valuesOf], h⟩
  | cons option options ih =>
    obtain ⟨hoption, hoptions⟩ := List.forall_mem_cons.1 hproper
    rw [wordsOf_cons, List.append_assoc, readOptions_words hoption] at h
    obtain ⟨next, hnext, h⟩ := bind_eq_ok_iff.1 h
    obtain ⟨middle, hmiddle, h⟩ := ih hoptions h
    exact ⟨middle, (extends_of_apply hnext).trans hmiddle, h⟩

end Reading

end StepRunner.CommandLine
