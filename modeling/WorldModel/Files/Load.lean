/-
Worlds and settings from files.

A world comes from the description of a domain and a problem; the domain is read and
checked before the problem is looked for. Settings are saved with the folders on the
way to them.
-/
import WorldModel.Domain.File
import WorldModel.Files.Access
import WorldModel.Settings
import WorldModel.World.Import

set_option autoImplicit false

namespace WorldModel

/-! ## Worlds -/

/-- Why files give no world. -/
inductive LoadError where
  | unreadableDomain (path : String)
  | description (error : DescriptionError)
  | unreadable (path : String)
  | problem (error : ProblemError)
deriving DecidableEq

/-- The message of an error. -/
def LoadError.message : LoadError → String
  | unreadableDomain path => s!"failed to read domain file: {path}"
  | description e => e.message
  | unreadable path => s!"failed to read {path}"
  | problem e => e.message

variable {m : Type → Type} [Monad m]

/-- A domain from a file. -/
def Domain.load (files : FileAccess m) (path : String) : m (Except LoadError Domain) := do
  match ← files.read path with
  | none => return .error (.unreadableDomain path)
  | some s => return (Domain.ofText s).mapError .description

/-- **A world from a domain and a problem**, with the report on what was imported. -/
def World.load (files : FileAccess m) (domainPath problemPath : String) :
    m (Except LoadError (World × ImportReport)) := do
  match ← Domain.load files domainPath with
  | .error e => return .error e
  | .ok d =>
    match ← files.read problemPath with
    | none => return .error (.unreadable problemPath)
    | some s => return ((World.empty d).importProblem s).mapError .problem

/-! ## Settings -/

/-- Why settings could not be loaded or saved. -/
inductive SettingsError where
  | unreadable (path : String)
  | malformed (path : String)
  | unwritable (path : String)
deriving DecidableEq

/-- The message of an error. -/
def SettingsError.message : SettingsError → String
  | unreadable path => s!"failed to read config: {path}"
  | malformed path => s!"failed to parse config: {path}"
  | unwritable path => s!"failed to write config: {path}"

/-- Settings from a file. -/
def Settings.load (files : FileAccess m) (path : String) : m (Except SettingsError Settings) := do
  match ← files.read path with
  | none => return .error (.unreadable path)
  | some s =>
    match Settings.ofText? s with
    | some settings => return .ok settings
    | none => return .error (.malformed path)

/-- Saves settings in a file. -/
def Settings.save (files : FileAccess m) (s : Settings) (path : String) :
    m (Except SettingsError Unit) := do
  if ← files.makeFolders (parentPath path) then
    if ← files.write path s.text then return .ok ()
    else return .error (.unwritable path)
  else return .error (.unwritable (parentPath path))

end WorldModel
