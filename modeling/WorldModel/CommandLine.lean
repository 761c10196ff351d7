/-
The command line.

The arguments are `[--config FILE] COMMAND` and the options of the command, which is one
of

* `check`: import a problem and report what was taken and what was skipped;
* `normalize`: import a problem and write it back, to a file with `--output`;
* `goal`: say whether the initial state satisfies the goal;
* `export`: write the imported world as JSON, indented with `--pretty`;
* `domain`: write a domain as text.

All but the last take `--domain` and `--problem`, the last takes `--domain`. The
configuration file may be named before or behind the command; what stands behind it
counts if both do. A value follows its option or an equals sign, and no option may be
repeated. Settings are loaded first, and an error in them ends the program whatever the
command.
-/
import WorldModel.Files.Load
import WorldModel.Snapshot

set_option autoImplicit false

namespace WorldModel.CommandLine

/-! ## Commands -/

/-- What the program is asked to do. -/
inductive Command where
  | check (domain problem : String)
  | normalize (domain problem : String) (output : Option String)
  | goal (domain problem : String)
  | export (domain problem : String) (pretty : Bool)
  | domain (domain : String)
deriving DecidableEq

/-- A request: a command with its configuration file, or the version of the program. -/
inductive Request where
  | run (config : Option String) (command : Command)
  | version
deriving DecidableEq

/-! ## Options -/

/-- The options of a command that take a value, and those that take none. -/
structure OptionNames where
  valued : List String
  flags : List String

/-- The options given: values by name, and flags. -/
structure OptionsGiven where
  values : List (String × String)
  flags : List String
deriving Inhabited

/-- Adds a value, once for every name and never an empty one. -/
def OptionsGiven.addValue (o : OptionsGiven) (name value : String) : Option OptionsGiven :=
  if value = "" ∨ o.values.any (·.1 == name) then none
  else some { o with values := o.values ++ [(name, value)] }

/-- Adds a flag, once. -/
def OptionsGiven.addFlag (o : OptionsGiven) (name : String) : Option OptionsGiven :=
  if o.flags.contains name then none else some { o with flags := o.flags ++ [name] }

/-- The value of an option. -/
def OptionsGiven.value? (o : OptionsGiven) (name : String) : Option String :=
  (o.values.find? (·.1 == name)).map (·.2)

/-- Whether an argument can only be an option: a dash with something behind it. -/
def looksLikeOption (arg : String) : Bool :=
  match arg.toList with
  | '-' :: _ :: _ => true
  | _ => false

/-- The name and the value of an argument with an equals sign. -/
def splitEquals? (arg : String) : Option (String × String) :=
  let cs := arg.toList
  match cs.dropWhile (· != '=') with
  | [] => none
  | _ :: value => some (String.ofList (cs.takeWhile (· != '=')), String.ofList value)

/-- Reads options up to the first argument that is none, which comes with the rest. Two
dashes alone end the options; nothing is returned if an option is not known, is
repeated, or lacks its value. -/
def readOptions (names : OptionNames) (o : OptionsGiven) :
    List String → Option (OptionsGiven × List String)
  | [] => some (o, [])
  | arg :: args =>
    if !looksLikeOption arg then some (o, arg :: args)
    else if names.flags.contains arg then
      match o.addFlag arg with
      | some o => readOptions names o args
      | none => none
    else if names.valued.contains arg then
      match args with
      | [] => none
      | value :: rest =>
        if looksLikeOption value then none
        else
          match o.addValue arg value with
          | some o => readOptions names o rest
          | none => none
    else
      match splitEquals? arg with
      | none => if arg = "--" ∧ args.isEmpty then some (o, []) else none
      | some (name, value) =>
        if !names.valued.contains name then none
        else
          match o.addValue name value with
          | some o => readOptions names o args
          | none => none

/-! ## Requests -/

/-- The commands by name, with their own options. -/
def optionNames? (command : String) : Option OptionNames :=
  if command = "check" ∨ command = "goal" then
    some ⟨["--config", "--domain", "--problem"], []⟩
  else if command = "normalize" then
    some ⟨["--config", "--domain", "--problem", "--output"], []⟩
  else if command = "export" then
    some ⟨["--config", "--domain", "--problem"], ["--pretty"]⟩
  else if command = "domain" then some ⟨["--config", "--domain"], []⟩
  else none

/-- A command from its name and options. -/
def command? (name : String) (o : OptionsGiven) : Option Command := do
  let domain ← o.value? "--domain"
  if name = "domain" then some (.domain domain)
  else
    let problem ← o.value? "--problem"
    if name = "check" then some (.check domain problem)
    else if name = "normalize" then some (.normalize domain problem (o.value? "--output"))
    else if name = "goal" then some (.goal domain problem)
    else if name = "export" then some (.export domain problem (o.flags.contains "--pretty"))
    else none

/-- Whether the version is asked for, among the options before the command and before
anything is wrong with them; after that nothing matters. `configured` tells whether the
configuration file has been named. -/
def asksVersion (configured : Bool) : List String → Bool
  | [] => false
  | arg :: args =>
    if arg = "--version" ∨ arg.toList.take 2 = ['-', 'V'] then true
    else if configured then false
    else if arg = "--config" then
      match args with
      | value :: rest => value ≠ "" && !looksLikeOption value && asksVersion true rest
      | [] => false
    else
      match splitEquals? arg with
      | some (name, value) => name = "--config" && value ≠ "" && asksVersion true args
      | none => false

/-- **The request of some arguments**, nothing if they are no proper use. -/
def request? (args : List String) : Option Request := do
  if asksVersion false args then return .version
  let (top, rest) ← readOptions ⟨["--config"], []⟩ default args
  match rest with
  | [] => none
  | name :: args =>
    let (given, extra) ← readOptions (← optionNames? name) default args
    if !extra.isEmpty then none
    else
      let command ← command? name given
      return .run ((given.value? "--config").or (top.value? "--config")) command

/-! ## Running -/

/-- What the program leaves: its exit code, what it prints, and what it complains
about. -/
structure Result where
  code : Nat
  output : String
  complaint : String
deriving DecidableEq, Inhabited

/-- Everything went well. -/
def success (output : String) : Result :=
  ⟨0, output, ""⟩

/-- Something went wrong. -/
def failure (complaint : String) : Result :=
  ⟨1, "", complaint⟩

/-- The result when the arguments are no proper use. -/
def misuse : Result :=
  ⟨2, "", "usage: [--config FILE] check|normalize|goal|export|domain --domain FILE [--problem FILE]"⟩

/-- The answer on the goal of a world. -/
def goalResult (w : World) : Result :=
  if w.goal.isEmpty then success "no goal\n"
  else if w.holds w.goal then success ("satisfied: " ++ w.goal.text ++ "\n")
  else ⟨1, "not satisfied: " ++ w.goal.text ++ "\n", ""⟩

/-- A world as JSON on a line of its own. -/
def exportText (w : World) (pretty : Bool) : String :=
  (if pretty then w.toJson.indented 0 else w.toJson.compact) ++ "\n"

variable {m : Type → Type} [Monad m]

/-- Loads a world and goes on with it. -/
def withWorld (files : FileAccess m) (domain problem : String)
    (next : World → ImportReport → m Result) : m Result := do
  match ← World.load files domain problem with
  | .error e => return failure e.message
  | .ok (w, report) => next w report

/-- Writes text to a file and says so. -/
def writeTo (files : FileAccess m) (path text : String) : m Result := do
  if ← files.write path text then return success ("Wrote " ++ path ++ "\n")
  else return failure ("failed to write " ++ path)

/-- Carries out a command. -/
def perform (files : FileAccess m) (settings : Settings) : Command → m Result
  | .check domain problem =>
    withWorld files domain problem fun _ report => return success report.text
  | .normalize domain problem output =>
    withWorld files domain problem fun w _ =>
      match output with
      | some path => writeTo files path (w.problemText settings)
      | none => return success (w.problemText settings)
  | .goal domain problem =>
    withWorld files domain problem fun w _ => return goalResult w
  | .export domain problem pretty =>
    withWorld files domain problem fun w _ => return success (exportText w pretty)
  | .domain path => do
    match ← Domain.load files path with
    | .error e => return failure e.message
    | .ok d => return success d.text

/-- **Runs the program** on its arguments. -/
def run (files : FileAccess m) (args : List String) : m Result := do
  match request? args with
  | none => return misuse
  | some .version => return success "plan-kb 0.1.0\n"
  | some (.run none command) => perform files .standard command
  | some (.run (some path) command) =>
    match ← Settings.load files path with
    | .error e => return failure e.message
    | .ok settings => perform files settings command

end WorldModel.CommandLine
