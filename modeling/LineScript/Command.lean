import LineScript.Settings
import LineScript.Report
import LineScript.Service
import LineScript.Token.Table
import LineScript.Path

/-!
# The command line

A command line is first read as a `Command`, and then carried out by a `Host`, which gives it
the environment, the files and the streams. The same commands work on the system and on a host
that only keeps what was printed.
-/

namespace LineScript

/-- Why a file could not be read as a text. -/
inductive ReadError where
  | notFound
  | denied
  | invalidText
  | other (reason : String)
deriving DecidableEq

/-- The wording of a failure to read the file at a path. -/
def ReadError.message (path : String) : ReadError → String
  | notFound => "cannot find file '" ++ path ++ "'"
  | denied => "permission denied reading '" ++ path ++ "'"
  | invalidText => "'" ++ path ++ "' contains invalid UTF-8 data"
  | other reason => "error reading '" ++ path ++ "': " ++ reason

/-- What a command line asks for. -/
inductive Command where
  | usage
  | version
  /-- Runs the file named first among the arguments. -/
  | run (arguments : List String)
  /-- Runs a file; the arguments only set something. -/
  | runFile (path : String) (arguments : List String)
  | serve (arguments : List String)
  | lex (path : Option String)
  | explain (code : Option String)
  | unknown (word : String)
deriving DecidableEq

/-- The command of a list of arguments. A path of a program is a command to run it. -/
def Command.ofArguments : List String → Command
  | [] => .usage
  | word :: rest =>
    if word = "run" then .run rest
    else if word = "serve" then .serve rest
    else if word = "lex" then .lex rest.head?
    else if word = "--explain" ∨ word = "explain" then .explain rest.head?
    else if word = "help" ∨ word = "--help" ∨ word = "-h" then .usage
    else if word = "version" ∨ word = "--version" ∨ word = "-V" then .version
    else if Path.isProgram word then .runFile word rest
    else .unknown word

/-- Where commands are carried out. -/
structure Host (m : Type → Type) where
  /-- The value of a variable of the environment. -/
  look : String → m (Option String)
  /-- The text of a file. -/
  readFile : String → m (Except ReadError String)
  /-- The outcome of a run. -/
  run : Config → String → m Outcome
  /-- Answers requests until the input ends. -/
  serve : Config → m (Option StreamFault)
  print : String → m Unit
  complain : String → m Unit
  /-- Whether complaints go to a terminal. -/
  terminal : m Bool

namespace Command

/-- The name and number of this interpreter. -/
def versionLine : String := "Cruck 0.1.0-alpha.1"

/-- The description of all commands. -/
def usageText : String :=
  "Cruck interpreter\n" ++
  "\n" ++
  "Usage: cruck <command> [options]\n" ++
  "\n" ++
  "Commands:\n" ++
  "  run <file.cr>        Run a Cruck program\n" ++
  "  serve                Answer JSON run requests on stdin, one per line\n" ++
  "  lex <file.cr>        Tokenize and display tokens\n" ++
  "  explain <code>       Explain an error code (e.g., E2001)\n" ++
  "  help                 Show this help message\n" ++
  "  version              Show version information\n" ++
  "\n" ++
  "Run/serve options:\n" ++
  "  --max-steps=<n>      Abort after n executed steps (default 10000000)\n" ++
  "  --no-step-limit      Never abort on step count\n" ++
  "  --timeout-ms=<n>     Abort after n milliseconds\n" ++
  "  --require-main       Reject programs without `func main() \x7b`\n" ++
  "  --color=<mode>       Diagnostic colors: auto, always, never\n" ++
  "\n" ++
  "Environment:\n" ++
  "  CRUCK_MAX_STEPS      Step budget, or `none`\n" ++
  "  CRUCK_TIMEOUT_MS     Time budget in milliseconds\n" ++
  "  CRUCK_REQUIRE_MAIN   Same as --require-main when `true`\n" ++
  "  RUST_LOG             Enable logging (e.g. `cruck_eval=debug`)\n" ++
  "  CRUCK_LOG_TREE       Render logs as a span tree\n" ++
  "\n" ++
  "Examples:\n" ++
  "  cruck run hello.cr\n" ++
  "  cruck hello.cr --max-steps=1000\n" ++
  "  echo '\x7b\"kind\":\"run\",\"sourceText\":\"print \\\"hi\\\";\"\x7d' | cruck serve\n" ++
  "  cruck explain E1002\n"

variable {m : Type → Type} [Monad m]

/-- Complains and fails. -/
def fail (host : Host m) (text : String) : m UInt32 := do
  host.complain text
  return 1

/-- Goes on with the settings of the environment and the arguments, and with the arguments that
are not flags, if nothing is wrong with them. -/
def withSettings (host : Host m) (arguments : List String)
    (go : Settings → List String → m UInt32) : m UInt32 := do
  let steps ← host.look Settings.stepsVariable
  let time ← host.look Settings.timeVariable
  let needsMain ← host.look Settings.mainVariable
  let values := [(Settings.stepsVariable, steps), (Settings.timeVariable, time),
    (Settings.mainVariable, needsMain)]
  match Settings.ofEnvironment fun name => (values.lookup name).join with
  | .error reason => fail host ("error: " ++ reason.message ++ "\n")
  | .ok settings =>
    match settings.takeAll arguments with
    | (_, .error reason) =>
      fail host ("error: " ++ reason.message ++
        "\nRun `cruck help` for the list of options.\n")
    | (settings, .ok others) => go settings others

/-- Runs a file and reports the outcome. -/
def runPath (host : Host m) (path : String) (settings : Settings) : m UInt32 := do
  match ← host.readFile path with
  | .error reason => fail host ("error: " ++ reason.message path ++ "\n")
  | .ok text =>
    let outcome ← host.run settings.config text
    let report := outcome.report text path (settings.color.colored (← host.terminal)) .unlimited
    host.print report.out.text
    host.complain report.err
    match report.result with
    | .ok true => return 0
    | .ok false => return 1
    | .error reason => fail host ("error: cannot write output: " ++ reason.message ++ "\n")

/-- Carries out a command; the result is the exit status. -/
def execute (host : Host m) : Command → m UInt32
  | usage => do
    host.print usageText
    return 0
  | version => do
    host.print (versionLine ++ "\n")
    return 0
  | run arguments =>
    withSettings host arguments fun settings others =>
      match others with
      | path :: _ => runPath host path settings
      | [] =>
        fail host "error: missing file path\nUsage: cruck run <file.cr> [options]\n"
  | runFile path arguments =>
    withSettings host arguments fun settings _ => runPath host path settings
  | serve arguments =>
    withSettings host arguments fun settings _ => do
      match ← host.serve settings.config with
      | none => return 0
      | some reason => fail host ("error: " ++ reason.message ++ "\n")
  | lex none => fail host "Usage: cruck lex <file.cr>\n"
  | lex (some path) => do
    match ← host.readFile path with
    | .error reason => fail host ("error: " ++ reason.message path ++ "\n")
    | .ok text =>
      host.print ("Tokens for '" ++ path ++ "':\n" ++ (Source.ofText text).tokenTable)
      return 0
  | explain none =>
    fail host "Usage: cruck explain <ERROR_CODE>\nExample: cruck explain E2001\n"
  | explain (some typed) =>
    match Code.ofText? typed with
    | some code => do
      host.print (code.number ++ ": " ++ code.explanation ++ "\n")
      return 0
    | none =>
      fail host ("Unknown error code: " ++ typed ++ "\n\nKnown codes:\n" ++
        String.join (Code.all.map fun code => "  " ++ code.number ++ "\n"))
  | unknown word => do
    host.complain ("Unknown command: " ++ word ++ "\n\n")
    host.print usageText
    return 1

end Command

end LineScript
