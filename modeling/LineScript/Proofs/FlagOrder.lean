import LineScript.Settings

/-!
# Flags in order

A flag sets one thing, so of the flags on a command line that set the same thing the last one
counts, and flags that set different things can change places. An argument that begins as flags do
and is none of them is refused: it changes nothing, and what stands behind it is not looked at.

`Flag.IsWritten` has the form of every flag, and `takeAll_append` says what a list of arguments does
without a refusal. What one setting is afterwards follows from it, because a flag for another
setting leaves it alone; the settings together are determined by their values.
-/

namespace LineScript

/-! ## How flags are written -/

theorem textAfter?_eq_some_iff {start text value : String} :
    textAfter? start text = some value ↔ text = start ++ value := by
  rw [textAfter?, ← String.toList_inj, String.toList_append]
  constructor
  · intro found
    split at found
    · next starts =>
      obtain ⟨rest, same⟩ := List.isPrefixOf_iff_prefix.mp starts
      cases found
      rw [← same, String.toList_ofList, ← String.length_toList, List.drop_left]
    · cases found
  · intro same
    rw [same, if_pos (List.isPrefixOf_iff_prefix.mpr (List.prefix_append _ _)),
      ← String.length_toList, List.drop_left, String.ofList_toList]

theorem textAfter?_append (start value : String) :
    textAfter? start (start ++ value) = some value :=
  textAfter?_eq_some_iff.mpr rfl

/-- The argument begins as flags do. -/
def isMarked (argument : String) : Bool :=
  "--".toList.isPrefixOf argument.toList

/-- The forms of the flags. -/
inductive Flag.IsWritten : String → Flag → Prop
  | maxSteps {text : String} {limit : UInt64} (number : numberOf? text = some limit) :
      IsWritten ("--max-steps=" ++ text) (.maxSteps (some limit))
  | noStepLimit : IsWritten "--no-step-limit" (.maxSteps none)
  | timeout {text : String} {milliseconds : UInt64} (number : numberOf? text = some milliseconds) :
      IsWritten ("--timeout-ms=" ++ text) (.timeout milliseconds)
  | requireMain : IsWritten "--require-main" .requireMain
  | color (mode : ColorMode) : IsWritten ("--color=" ++ mode.word) (.color mode)

/-- The argument that a refusal quotes. -/
def SettingError.argument : SettingError → String
  | badNumber setting value => setting ++ "=" ++ value
  | badSwitch setting value => setting ++ "=" ++ value
  | badColor value => "--color=" ++ value
  | unknownFlag flag => flag

/-- The argument begins as flags do and is none. -/
structure IsBad (argument : String) : Prop where
  marked : isMarked argument = true
  unknown : ∀ flag, ¬ Flag.IsWritten argument flag

namespace Flag

variable {argument : String} {flag : Flag}

theorem IsWritten.marked (written : IsWritten argument flag) : isMarked argument = true := by
  have front (rest : String) {start : String} (begins : isMarked start = true) :
      isMarked (start ++ rest) = true := by
    rw [isMarked, List.isPrefixOf_iff_prefix] at begins ⊢
    rw [String.toList_append]
    exact begins.trans (List.prefix_append _ _)
  cases written with
  | maxSteps number => exact front _ (by decide)
  | noStepLimit => decide
  | timeout number => exact front _ (by decide)
  | requireMain => decide
  | color mode => exact front _ (by decide)

/-- The third characters of the forms tell them apart. -/
theorem textAfter?_eq_none {start other : String} (rest : String)
    (apart : start.toList[2]? ≠ other.toList[2]?) (long : 2 < start.length)
    (long' : 2 < other.length) : textAfter? start (other ++ rest) = none := by
  refine Option.eq_none_iff_forall_ne_some.mpr fun value found => apart ?_
  have same := congrArg (fun text => text.toList[2]?) (textAfter?_eq_some_iff.mp found)
  simp only [String.toList_append] at same
  rw [List.getElem?_append_left (by rwa [String.length_toList]),
    List.getElem?_append_left (by rwa [String.length_toList])] at same
  exact same.symm

theorem ofText?_word (mode : ColorMode) : ColorMode.ofText? mode.word = some mode := by
  cases mode <;> decide

theorem ofWord_of_withValue? {argument : String} {value : Except SettingError Flag}
    (valued : withValue? argument = some value) : Flag.ofWord argument = value := by
  have noStepLimit : argument ≠ "--no-step-limit" := by
    rintro rfl
    have unvalued : withValue? "--no-step-limit" = none := by decide
    cases unvalued.symm.trans valued
  have requireMain : argument ≠ "--require-main" := by
    rintro rfl
    have unvalued : withValue? "--require-main" = none := by decide
    cases unvalued.symm.trans valued
  rw [Flag.ofWord, if_neg noStepLimit, if_neg requireMain, valued, Option.getD_some]

theorem IsWritten.ofWord (written : IsWritten argument flag) : Flag.ofWord argument = .ok flag := by
  cases written with
  | maxSteps number =>
    refine ofWord_of_withValue? ?_
    rw [withValue?, textAfter?_append]
    simp only [requireNumber, number, Except.map]
  | noStepLimit => rfl
  | timeout number =>
    refine ofWord_of_withValue? ?_
    rw [withValue?, textAfter?_eq_none _ (by decide) (by decide) (by decide), textAfter?_append]
    simp only [requireNumber, number, Except.map]
  | requireMain => rfl
  | color mode =>
    refine ofWord_of_withValue? ?_
    rw [withValue?, textAfter?_eq_none _ (by decide) (by decide) (by decide),
      textAfter?_eq_none _ (by decide) (by decide) (by decide), textAfter?_append]
    simp only [Option.map_some, ofText?_word]

theorem requireNumber_map_eq_ok {setting value : String} {make : UInt64 → Flag}
    (made : (requireNumber setting value).map make = .ok flag) :
    ∃ number, numberOf? value = some number ∧ make number = flag := by
  rw [requireNumber] at made
  split at made
  · next number read => exact ⟨number, read, Except.ok.inj made⟩
  · cases made

/-- A flag with a value is one of three. -/
theorem withValue?_cases {result : Except SettingError Flag}
    (valued : withValue? argument = some result) : ∃ value,
      (argument = "--max-steps=" ++ value ∧
        result = (requireNumber "--max-steps" value).map fun n => maxSteps (some n)) ∨
      (argument = "--timeout-ms=" ++ value ∧
        result = (requireNumber "--timeout-ms" value).map timeout) ∨
      (argument = "--color=" ++ value ∧
        ((∃ mode : ColorMode, mode.word = value ∧ result = .ok (color mode)) ∨
          result = .error (.badColor value))) := by
  rw [withValue?] at valued
  split at valued
  · next value found =>
    exact ⟨value, .inl ⟨textAfter?_eq_some_iff.mp found, (Option.some_inj.mp valued).symm⟩⟩
  · split at valued
    · next value found =>
      exact ⟨value, .inr (.inl
        ⟨textAfter?_eq_some_iff.mp found, (Option.some_inj.mp valued).symm⟩)⟩
    · obtain ⟨value, found, named⟩ := Option.map_eq_some_iff.mp valued
      refine ⟨value, .inr (.inr ⟨textAfter?_eq_some_iff.mp found, ?_⟩)⟩
      split at named
      · next mode read =>
        have word : mode.word = value := by simpa using List.find?_some read
        exact .inl ⟨mode, word, named.symm⟩
      · exact .inr named.symm

theorem isWritten_of_ofWord (word : Flag.ofWord argument = .ok flag) : IsWritten argument flag := by
  rw [Flag.ofWord] at word
  split at word
  · next same => cases word; exact same ▸ .noStepLimit
  · split at word
    · next same => cases word; exact same ▸ .requireMain
    · cases valued : withValue? argument with
      | none => rw [valued] at word; cases word
      | some value =>
        rw [valued, Option.getD_some] at word
        obtain ⟨text, ⟨rfl, read⟩ | ⟨rfl, read⟩ | ⟨rfl, ⟨mode, rfl, read⟩ | read⟩⟩ :=
          withValue?_cases valued
        · obtain ⟨limit, number, rfl⟩ := requireNumber_map_eq_ok (read.symm.trans word)
          exact .maxSteps number
        · obtain ⟨milliseconds, number, rfl⟩ := requireNumber_map_eq_ok (read.symm.trans word)
          exact .timeout number
        · cases read.symm.trans word
          exact .color mode
        · cases read.symm.trans word

theorem argument_of_requireNumber {setting value : String} {make : UInt64 → Flag}
    {reason : SettingError} (refused : (requireNumber setting value).map make = .error reason) :
    reason.argument = setting ++ "=" ++ value := by
  rw [requireNumber] at refused
  split at refused
  · cases refused
  · cases refused
    rfl

/-- A refusal quotes the argument that is refused. -/
theorem argument_of_ofWord {reason : SettingError}
    (refused : Flag.ofWord argument = .error reason) : reason.argument = argument := by
  cases valued : withValue? argument with
  | none =>
    rw [Flag.ofWord, valued] at refused
    split at refused
    · cases refused
    · split at refused <;> cases refused
      rfl
  | some value =>
    rw [ofWord_of_withValue? valued] at refused
    obtain ⟨text, ⟨rfl, read⟩ | ⟨rfl, read⟩ | ⟨rfl, ⟨mode, rfl, read⟩ | read⟩⟩ :=
      withValue?_cases valued
    · exact argument_of_requireNumber (read.symm.trans refused)
    · exact argument_of_requireNumber (read.symm.trans refused)
    · cases read.symm.trans refused
    · cases read.symm.trans refused
      rfl

end Flag

/-! ## One argument -/

section Argument

variable {argument : String} {flag : Flag}

theorem plain_or_written_or_bad (argument : String) :
    isMarked argument = false ∨ (∃ flag, Flag.IsWritten argument flag) ∨ IsBad argument := by
  by_cases marked : isMarked argument = true
  · by_cases written : ∃ flag, Flag.IsWritten argument flag
    · exact .inr (.inl written)
    · exact .inr (.inr ⟨marked, not_exists.mp written⟩)
  · exact .inl (Bool.not_eq_true _ ▸ marked)

theorem isSome_textAfter? (argument : String) :
    (textAfter? "--" argument).isSome = isMarked argument := by
  rw [textAfter?, isMarked]
  split
  · next starts => rw [starts, Option.isSome_some]
  · next starts => rw [Bool.not_eq_true] at starts; rw [starts, Option.isSome_none]

theorem Flag.ofArgument_of_isMarked (marked : isMarked argument = true) :
    Flag.ofArgument argument = (Flag.ofWord argument).map some := by
  rw [Flag.ofArgument, isSome_textAfter?, if_pos marked]

namespace Settings

theorem take_of_not_isMarked (settings : Settings) (plain : isMarked argument = false) :
    settings.take argument = (settings, .ok false) := by
  rw [take, Flag.ofArgument, isSome_textAfter?, plain]
  rfl

theorem take_of_isWritten (settings : Settings) (written : Flag.IsWritten argument flag) :
    settings.take argument = (settings.set flag, .ok true) := by
  rw [take, Flag.ofArgument_of_isMarked written.marked, written.ofWord]
  rfl

theorem exists_take_of_isBad (bad : IsBad argument) :
    ∃ reason : SettingError, reason.argument = argument ∧
      ∀ settings : Settings, settings.take argument = (settings, .error reason) := by
  cases word : Flag.ofWord argument with
  | ok flag => exact absurd (Flag.isWritten_of_ofWord word) (bad.unknown flag)
  | error reason =>
    refine ⟨reason, Flag.argument_of_ofWord word, fun settings => ?_⟩
    rw [take, Flag.ofArgument_of_isMarked bad.marked, word]
    rfl

theorem take_eq_of_error {settings : Settings} {reason : SettingError}
    (refused : (settings.take argument).2 = .error reason) :
    (settings.take argument).1 = settings := by
  obtain plain | ⟨flag, written⟩ | bad := plain_or_written_or_bad argument
  · rw [settings.take_of_not_isMarked plain]
  · rw [settings.take_of_isWritten written] at refused
    cases refused
  · obtain ⟨own, -, taken⟩ := exists_take_of_isBad bad
    rw [taken]

end Settings

end Argument

/-! ## What a flag sets -/

/-- The things that flags set. -/
inductive Setting where
  | stepLimit
  | timeLimit
  | entry
  | color
deriving DecidableEq

/-- What a setting can be. -/
def Setting.Value : Setting → Type
  | stepLimit => Option UInt64
  | timeLimit => Option UInt64
  | entry => EntryRule
  | color => ColorMode

/-- What a setting is. -/
def Settings.value (settings : Settings) : (setting : Setting) → setting.Value
  | .stepLimit => settings.config.limits.maxSteps
  | .timeLimit => settings.config.limits.timeoutMs
  | .entry => settings.config.entry
  | .color => settings.color

namespace Flag

/-- What a flag is for. -/
def setting : Flag → Setting
  | maxSteps _ => .stepLimit
  | timeout _ => .timeLimit
  | requireMain => .entry
  | color _ => .color

/-- What a flag sets it to. -/
def value : (flag : Flag) → flag.setting.Value
  | maxSteps limit => limit
  | timeout milliseconds => some milliseconds
  | requireMain => EntryRule.mainRequired
  | color mode => mode

end Flag

theorem Settings.value_set_self (settings : Settings) (flag : Flag) :
    (settings.set flag).value flag.setting = flag.value := by
  cases flag <;> rfl

theorem Settings.value_set_of_ne (settings : Settings) {flag : Flag} {setting : Setting}
    (other : flag.setting ≠ setting) :
    (settings.set flag).value setting = settings.value setting := by
  cases flag <;> cases setting <;> first | rfl | exact absurd rfl other

theorem Settings.eq_of_value {one two : Settings}
    (same : ∀ setting, one.value setting = two.value setting) : one = two := by
  obtain ⟨⟨entry, maxSteps, timeoutMs⟩, color⟩ := one
  obtain ⟨⟨entry', maxSteps', timeoutMs'⟩, color'⟩ := two
  have sameEntry : entry = entry' := same .entry
  have sameSteps : maxSteps = maxSteps' := same .stepLimit
  have sameTime : timeoutMs = timeoutMs' := same .timeLimit
  have sameColor : color = color' := same .color
  rw [sameEntry, sameSteps, sameTime, sameColor]

/-- The argument is a flag for the setting. -/
def Concerns (setting : Setting) (argument : String) : Prop :=
  ∃ flag, Flag.IsWritten argument flag ∧ flag.setting = setting

instance (setting : Setting) (argument : String) : Decidable (Concerns setting argument) :=
  match word : Flag.ofWord argument with
  | .ok flag => decidable_of_iff (flag.setting = setting)
      ⟨fun same => ⟨flag, Flag.isWritten_of_ofWord word, same⟩, fun ⟨_, written, same⟩ =>
        Except.ok.inj (word.symm.trans written.ofWord) ▸ same⟩
  | .error _ => isFalse fun ⟨_, written, _⟩ => by cases word.symm.trans written.ofWord

/-! ## A list of arguments -/

section Arguments

variable {front back arguments : List String} {setting : Setting} {flag : Flag}

/-- The arguments that do not begin as flags do. -/
def positional (arguments : List String) : List String :=
  arguments.filter fun argument => !isMarked argument

namespace Settings

theorem takeAll_cons_of_not_isBad (settings : Settings) {argument : String}
    (good : ¬ IsBad argument) (rest : List String) :
    settings.takeAll (argument :: rest) =
      (((settings.take argument).1.takeAll rest).1,
        ((settings.take argument).1.takeAll rest).2.map (positional [argument] ++ ·)) := by
  obtain plain | ⟨flag, written⟩ | bad := plain_or_written_or_bad argument
  · have added : positional [argument] = [argument] := by simp [positional, plain]
    rw [takeAll, settings.take_of_not_isMarked plain, added]
    rfl
  · have added : positional [argument] = [] := by simp [positional, written.marked]
    rw [takeAll, settings.take_of_isWritten written, added]
    exact Prod.ext rfl (id_map _).symm
  · exact absurd bad good

theorem takeAll_append (settings : Settings) (good : ∀ argument ∈ front, ¬ IsBad argument)
    (back : List String) :
    settings.takeAll (front ++ back) =
      (((settings.takeAll front).1.takeAll back).1,
        ((settings.takeAll front).1.takeAll back).2.map (positional front ++ ·)) := by
  induction front generalizing settings with
  | nil => exact Prod.ext rfl (id_map _).symm
  | cons argument front ih =>
    obtain ⟨here, later⟩ := List.forall_mem_cons.mp good
    rw [List.cons_append, takeAll_cons_of_not_isBad _ here, takeAll_cons_of_not_isBad _ here,
      ih _ later]
    refine Prod.ext rfl ?_
    rw [show positional (argument :: front) = positional [argument] ++ positional front from
      List.filter_append [argument] front]
    cases (((settings.take argument).1.takeAll front).1.takeAll back).2 with
    | error reason => rfl
    | ok others => simp only [Except.map, List.append_assoc]

/-- A list without a bad argument is taken. -/
theorem takeAll_snd (settings : Settings) (good : ∀ argument ∈ arguments, ¬ IsBad argument) :
    (settings.takeAll arguments).2 = .ok (positional arguments) := by
  have whole := settings.takeAll_append good []
  rw [List.append_nil] at whole
  rw [whole]
  simp only [takeAll, Except.map, List.append_nil]

/-- What stands behind a bad argument is not looked at. -/
theorem takeAll_append_bad (settings : Settings) (good : ∀ argument ∈ front, ¬ IsBad argument)
    {bad : String} {reason : SettingError}
    (refused : ∀ settings : Settings, settings.take bad = (settings, .error reason)) :
    settings.takeAll (front ++ bad :: back) = ((settings.takeAll front).1, .error reason) := by
  rw [settings.takeAll_append good, takeAll, refused]
  rfl

theorem value_take_of_not_concerns (settings : Settings) {argument : String}
    (other : ¬ Concerns setting argument) :
    (settings.take argument).1.value setting = settings.value setting := by
  obtain plain | ⟨flag, written⟩ | bad := plain_or_written_or_bad argument
  · rw [settings.take_of_not_isMarked plain]
  · rw [settings.take_of_isWritten written]
    exact settings.value_set_of_ne fun same => other ⟨flag, written, same⟩
  · obtain ⟨reason, -, refused⟩ := exists_take_of_isBad bad
    rw [refused]

theorem value_takeAll_of_not_concerns (settings : Settings)
    (good : ∀ argument ∈ arguments, ¬ IsBad argument)
    (others : ∀ argument ∈ arguments, ¬ Concerns setting argument) :
    (settings.takeAll arguments).1.value setting = settings.value setting := by
  induction arguments generalizing settings with
  | nil => rfl
  | cons argument rest ih =>
    obtain ⟨good, goodRest⟩ := List.forall_mem_cons.mp good
    obtain ⟨other, othersRest⟩ := List.forall_mem_cons.mp others
    rw [takeAll_cons_of_not_isBad _ good]
    exact (ih _ goodRest othersRest).trans (settings.value_take_of_not_concerns other)

/-- The last flag for a setting counts. -/
theorem value_takeAll_append_cons (settings : Settings) {argument : String}
    (good : ∀ other ∈ front ++ argument :: back, ¬ IsBad other)
    (written : Flag.IsWritten argument flag)
    (last : ∀ other ∈ back, ¬ Concerns flag.setting other) :
    (settings.takeAll (front ++ argument :: back)).1.value flag.setting = flag.value := by
  obtain ⟨goodFront, good⟩ := List.forall_mem_append.mp good
  obtain ⟨goodHere, goodBack⟩ := List.forall_mem_cons.mp good
  rw [settings.takeAll_append goodFront, takeAll_cons_of_not_isBad _ goodHere,
    take_of_isWritten _ written]
  exact (value_takeAll_of_not_concerns _ goodBack last).trans (value_set_self _ flag)

theorem value_takeAll_of_filter_eq (settings : Settings) {earlier : List String} {argument : String}
    (good : ∀ other ∈ arguments, ¬ IsBad other) (written : Flag.IsWritten argument flag)
    (flags : arguments.filter (Concerns flag.setting) = earlier ++ [argument]) :
    (settings.takeAll arguments).1.value flag.setting = flag.value := by
  obtain ⟨front, back, rfl, -, ends⟩ := List.filter_eq_append_iff.mp flags
  obtain ⟨plain, back, rfl, -, -, none⟩ := List.filter_eq_cons_iff.mp ends
  rw [← List.append_assoc] at good ⊢
  refine settings.value_takeAll_append_cons good written fun other inside concerns => ?_
  exact List.filter_eq_nil_iff.mp none other inside (decide_eq_true concerns)

/-- Two lists set the same when the flags for each setting are the same, in the same order. -/
theorem takeAll_fst_congr (settings : Settings) {reordered : List String}
    (good : ∀ argument ∈ arguments, ¬ IsBad argument)
    (good' : ∀ argument ∈ reordered, ¬ IsBad argument)
    (order : ∀ setting, reordered.filter (Concerns setting) = arguments.filter (Concerns setting)) :
    (settings.takeAll reordered).1 = (settings.takeAll arguments).1 := by
  refine eq_of_value fun setting => ?_
  obtain none | ⟨earlier, argument, flags⟩ :=
    List.eq_nil_or_concat (arguments.filter (Concerns setting))
  · have kept {list : List String} (good : ∀ argument ∈ list, ¬ IsBad argument)
        (none : list.filter (Concerns setting) = []) :
        (settings.takeAll list).1.value setting = settings.value setting :=
      settings.value_takeAll_of_not_concerns good fun argument inside concerns =>
        List.filter_eq_nil_iff.mp none argument inside (decide_eq_true concerns)
    exact (kept good' ((order setting).trans none)).trans (kept good none).symm
  · rw [List.concat_eq_append] at flags
    have last : argument ∈ arguments.filter (Concerns setting) := by simp [flags]
    obtain ⟨flag, written, rfl⟩ := of_decide_eq_true (List.mem_filter.mp last).2
    exact (settings.value_takeAll_of_filter_eq good' written ((order _).trans flags)).trans
      (settings.value_takeAll_of_filter_eq good written flags).symm

end Settings

end Arguments

/-! ## Flags in order -/

/-- What a list of arguments does to the settings when none is refused. -/
structure TakenInOrder (settings : Settings) (arguments : List String) (after : Settings)
    (others : List String) : Prop where
  good : ∀ argument ∈ arguments, ¬ IsBad argument
  others_eq : others = positional arguments
  last : ∀ {front argument back flag}, arguments = front ++ argument :: back →
    Flag.IsWritten argument flag → (∀ other ∈ back, ¬ Concerns flag.setting other) →
    after.value flag.setting = flag.value
  kept : ∀ {setting}, (∀ argument ∈ arguments, ¬ Concerns setting argument) →
    after.value setting = settings.value setting
  reordered : ∀ {reordered : List String}, reordered.Perm arguments →
    (∀ setting, reordered.filter (Concerns setting) = arguments.filter (Concerns setting)) →
    settings.takeAll reordered = (after, .ok (positional reordered))

/-- The first bad argument ends the list, and the arguments before it are taken. -/
inductive StoppedAt (settings : Settings) : List String → Settings → SettingError → Prop
  | first {front back : List String} {bad : String} {after : Settings} {reason : SettingError}
      (good : ∀ argument ∈ front, ¬ IsBad argument) (isBad : IsBad bad)
      (quoted : reason.argument = bad)
      (refused : ∀ settings : Settings, settings.take bad = (settings, .error reason))
      (before : settings.takeAll front = (after, .ok (positional front))) :
      StoppedAt settings (front ++ bad :: back) after reason

/-- What a list of arguments does to the settings. -/
structure IsLayered (settings : Settings) (arguments : List String) : Prop where
  taken : ∀ {after others}, settings.takeAll arguments = (after, .ok others) →
    TakenInOrder settings arguments after others
  stopped : ∀ {after reason}, settings.takeAll arguments = (after, .error reason) →
    StoppedAt settings arguments after reason
  atomic : ∀ {argument reason}, (settings.take argument).2 = .error reason →
    (settings.take argument).1 = settings

theorem takenInOrder (settings : Settings) {arguments : List String}
    (good : ∀ argument ∈ arguments, ¬ IsBad argument) :
    TakenInOrder settings arguments (settings.takeAll arguments).1 (positional arguments) := by
  constructor
  case good => exact good
  case others_eq => rfl
  case last =>
    rintro front argument back flag rfl written last
    exact settings.value_takeAll_append_cons good written last
  case kept => exact settings.value_takeAll_of_not_concerns good
  case reordered =>
    intro reordered perm order
    have good' : ∀ argument ∈ reordered, ¬ IsBad argument :=
      fun argument inside => good argument (perm.mem_iff.mp inside)
    exact Prod.ext (settings.takeAll_fst_congr good good' order) (settings.takeAll_snd good')

theorem good_or_first_bad (arguments : List String) :
    (∀ argument ∈ arguments, ¬ IsBad argument) ∨ ∃ front bad back,
      arguments = front ++ bad :: back ∧ (∀ argument ∈ front, ¬ IsBad argument) ∧ IsBad bad := by
  classical
  cases found : arguments.find? fun argument => decide (IsBad argument) with
  | none => exact .inl (by simpa using found)
  | some bad =>
    obtain ⟨isBad, front, back, whole, good⟩ := List.find?_eq_some_iff_append.mp found
    exact .inr ⟨front, bad, back, whole, by simpa using good, by simpa using isBad⟩

/-- A list of arguments sets what the last flag for each setting says, in whatever order flags for
different settings stand, and it stops at its first bad argument. -/
theorem takeAll_isLayered (settings : Settings) (arguments : List String) :
    IsLayered settings arguments := by
  constructor
  case taken =>
    intro after others taken
    obtain good | ⟨front, bad, back, rfl, good, isBad⟩ := good_or_first_bad arguments
    · have success := settings.takeAll_snd good
      rw [taken] at success
      have inOrder := takenInOrder settings good
      rwa [taken, ← Except.ok.inj success] at inOrder
    · obtain ⟨reason, -, refused⟩ := Settings.exists_take_of_isBad isBad
      rw [settings.takeAll_append_bad good refused] at taken
      cases taken
  case stopped =>
    intro after reason stopped
    obtain good | ⟨front, bad, back, rfl, good, isBad⟩ := good_or_first_bad arguments
    · have success := settings.takeAll_snd good
      rw [stopped] at success
      cases success
    · obtain ⟨own, quoted, refused⟩ := Settings.exists_take_of_isBad isBad
      rw [settings.takeAll_append_bad good refused] at stopped
      cases stopped
      exact .first good isBad quoted refused (Prod.ext rfl (settings.takeAll_snd good))
  case atomic =>
    intro argument reason refused
    exact Settings.take_eq_of_error refused

theorem takeAll_isLayered_stepLimit :
    Settings.standard.takeAll ["poem", "--no-step-limit", "--max-steps=+07", "--color=never"] =
      (⟨⟨.wholeSource, ⟨some 7, none⟩⟩, .never⟩, .ok ["poem"]) ∧
    Settings.standard.takeAll ["--no-step-limit", "--color=never", "--max-steps=+07", "poem"] =
      (⟨⟨.wholeSource, ⟨some 7, none⟩⟩, .never⟩, .ok ["poem"]) ∧
    StoppedAt .standard ["--timeout-ms=5", "--timeout-ms=soon", "--no-step-limit"]
      ⟨⟨.wholeSource, ⟨some 10000000, some 5⟩⟩, .auto⟩ (.badNumber "--timeout-ms" "soon") := by
  have taken : Settings.standard.takeAll
      ["poem", "--no-step-limit", "--max-steps=+07", "--color=never"] =
        (⟨⟨.wholeSource, ⟨some 7, none⟩⟩, .never⟩, .ok ["poem"]) := by rfl
  refine ⟨taken, ?_, (takeAll_isLayered .standard _).stopped (by rfl)⟩
  exact ((takeAll_isLayered .standard _).taken taken).reordered (by decide)
    (by rintro (_ | _ | _ | _) <;> decide +kernel)

end LineScript
