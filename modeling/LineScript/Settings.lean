import LineScript.Run
import LineScript.Diagnostic.Render
import LineScript.Text.Blank
import LineScript.Decimal.Digits

/-!
# Settings

The settings start from the standard configuration. Variables of the environment change them
first, and then the flags on the command line, each of which sets one thing. Arguments that do
not begin with two hyphens are not flags.
-/

namespace LineScript

/-- What can be set. -/
structure Settings where
  config : Config
  color : ColorMode
deriving DecidableEq

/-- The settings that hold when nothing is set. -/
def Settings.standard : Settings := ⟨.standard, .auto⟩

/-- Why a setting was refused. -/
inductive SettingError where
  | badNumber (setting value : String)
  | badSwitch (setting value : String)
  | badColor (value : String)
  | unknownFlag (flag : String)
deriving DecidableEq

/-- The wording of a refusal. -/
def SettingError.message : SettingError → String
  | badNumber setting value =>
    "invalid value `" ++ value ++ "` for " ++ setting ++ ": expected a non-negative integer"
  | badSwitch setting value =>
    "invalid value `" ++ value ++ "` for " ++ setting ++ ": expected `true` or `false`"
  | badColor value =>
    "invalid color mode `" ++ value ++ "`: expected `auto`, `always` or `never`"
  | unknownFlag flag => "unknown option `" ++ flag ++ "`"

/-- The number that a value stands for: decimal digits, after a plus sign or not, for a number
that fits in 64 bits. Blanks around it do not count. -/
def numberOf? (value : String) : Option UInt64 :=
  let text := trim value.toList
  let digits := if text.head? = some '+' then text.tail else text
  if digits.isEmpty || !digits.all Char.isDigit then none
  else
    let number := digitsValueUpTo UInt64.size digits
    if number < UInt64.size then some (UInt64.ofNat number) else none

/-- The value without the blanks around it, in lower-case ASCII letters. -/
def plainWord (value : String) : String :=
  String.ofList ((trim value.toList).map Char.toLower)

/-- The state of a switch that a value stands for. -/
def switchOf? (value : String) : Option Bool :=
  let word := plainWord value
  if word ∈ ["1", "true", "yes", "on"] then some true
  else if word ∈ ["0", "false", "no", "off", ""] then some false
  else none

/-- A number that is required of the setting with the given name. -/
def requireNumber (setting value : String) : Except SettingError UInt64 :=
  match numberOf? value with
  | some number => .ok number
  | none => .error (.badNumber setting value)

/-- What one flag sets. -/
inductive Flag where
  | maxSteps (limit : Option UInt64)
  | timeout (milliseconds : UInt64)
  | requireMain
  | color (mode : ColorMode)
deriving DecidableEq

/-- What follows `start` in a text that begins with it. -/
def textAfter? (start text : String) : Option String :=
  if start.toList.isPrefixOf text.toList then some (String.ofList (text.toList.drop start.length))
  else none

namespace Flag

/-- The flag with a value, given by the part of the argument before the value. -/
def withValue? (argument : String) : Option (Except SettingError Flag) :=
  match textAfter? "--max-steps=" argument with
  | some value => some ((requireNumber "--max-steps" value).map fun n => maxSteps (some n))
  | none =>
    match textAfter? "--timeout-ms=" argument with
    | some value => some ((requireNumber "--timeout-ms" value).map timeout)
    | none =>
      (textAfter? "--color=" argument).map fun value =>
        match ColorMode.ofText? value with
        | some mode => .ok (color mode)
        | none => .error (.badColor value)

/-- The flag that an argument beginning with two hyphens is. -/
def ofWord (argument : String) : Except SettingError Flag :=
  if argument = "--no-step-limit" then .ok (maxSteps none)
  else if argument = "--require-main" then .ok requireMain
  else (withValue? argument).getD (.error (.unknownFlag argument))

/-- The flag that an argument is, or nothing for an argument that is not a flag. -/
def ofArgument (argument : String) : Except SettingError (Option Flag) :=
  if (textAfter? "--" argument).isSome then (ofWord argument).map some else .ok none

end Flag

namespace Settings

/-- The settings after a flag. -/
def set (settings : Settings) : Flag → Settings
  | .maxSteps limit => { settings with config.limits.maxSteps := limit }
  | .timeout milliseconds => { settings with config.limits.timeoutMs := some milliseconds }
  | .requireMain => { settings with config.entry := .mainRequired }
  | .color mode => { settings with color := mode }

/-- The settings after an argument, and whether it was a flag. A refused argument leaves the
settings as they were. -/
def take (settings : Settings) (argument : String) : Settings × Except SettingError Bool :=
  match Flag.ofArgument argument with
  | .error reason => (settings, .error reason)
  | .ok none => (settings, .ok false)
  | .ok (some flag) => (settings.set flag, .ok true)

/-- The settings after a list of arguments, and the arguments that are not flags. The first
argument that is refused ends the list; what was set before it stays set. -/
def takeAll (settings : Settings) : List String → Settings × Except SettingError (List String)
  | [] => (settings, .ok [])
  | argument :: rest =>
    match settings.take argument with
    | (after, .error reason) => (after, .error reason)
    | (after, .ok true) => after.takeAll rest
    | (after, .ok false) =>
      let (last, others) := after.takeAll rest
      (last, others.map (argument :: ·))

/-- The names of the variables of the environment. -/
def stepsVariable : String := "CRUCK_MAX_STEPS"
/-- The variable that limits the time. -/
def timeVariable : String := "CRUCK_TIMEOUT_MS"
/-- The variable that requires `main`. -/
def mainVariable : String := "CRUCK_REQUIRE_MAIN"

/-- The flag that the value of a variable for the step limit stands for. -/
def stepsOf (value : String) : Except SettingError Flag :=
  if plainWord value = "none" then .ok (.maxSteps none)
  else (requireNumber stepsVariable value).map fun n => .maxSteps (some n)

/-- The settings after a variable that may have a value, which `read` makes a flag of. -/
def setFrom (settings : Settings) (value : Option String)
    (read : String → Except SettingError (Option Flag)) : Except SettingError Settings :=
  match value with
  | none => .ok settings
  | some text => (read text).map fun flag => flag.elim settings settings.set

/-- The standard settings, changed by the variables of an environment. -/
def ofEnvironment (look : String → Option String) : Except SettingError Settings := do
  let settings ← standard.setFrom (look stepsVariable) fun value =>
    (stepsOf value).map some
  let settings ← settings.setFrom (look timeVariable) fun value =>
    (requireNumber timeVariable value).map fun n => some (.timeout n)
  settings.setFrom (look mainVariable) fun value =>
    match switchOf? value with
    | some true => .ok (some .requireMain)
    | some false => .ok none
    | none => .error (.badSwitch mainVariable value)

end Settings

end LineScript
