import ContractAtlas.Log.Line
import ContractAtlas.Text.Uppercase

/-!
# Setting up the log

The log is set up once; later requests change nothing, and a request that fails counts
as well.  A level that is asked for by name wins over the level of the environment.
-/

namespace ContractAtlas.Log

/-- How the log is set up. -/
structure Setup where
  /-- Whether it has been set up before. -/
  done : Bool := false
  threshold : Level := .warning
  /-- The layouts of the lines that are written. -/
  layouts : List Layout := []
  /-- The loggers that are heard from a level of their own on. -/
  ownLevels : List (String × Level) := []
  deriving DecidableEq, Repr

/-- The loggers of other libraries that are only heard from `quietLevel` on. -/
def quietLoggers : List String :=
  ["httpx", "httpcore", "uvicorn.access", "watchfiles", "multipart"]

def quietLevel : Level := .warning

/-- A level's name that no level has. -/
structure UnknownLevel where
  name : String
  deriving DecidableEq, Repr

def UnknownLevel.message (unknown : UnknownLevel) : String :=
  Level.unknownMessage unknown.name

/-- The threshold for a name in any case, or that of the environment if there is no
name. -/
def thresholdFor (development : Bool) (name : String) : Except UnknownLevel Level :=
  if name.isEmpty then .ok (if development then .debug else .info)
  else
    let upper := String.ofList (Text.uppercase name.toList)
    match Level.ofName? upper with
    | some level => .ok level
    | none => .error ⟨upper⟩

/-- Set up the log, if that has not been done before. -/
def Setup.configure (setup : Setup) (development : Bool) (name : String) :
    Setup × Option UnknownLevel :=
  if setup.done then (setup, none)
  else
    match thresholdFor development name with
    | .ok threshold =>
      let setup : Setup := {
        done := true
        threshold
        layouts := [if development then .terminal else .object]
        ownLevels := quietLoggers.map (·, quietLevel) }
      (setup, none)
    | .error unknown => ({ setup with done := true }, some unknown)

theorem Setup.configure_of_done {setup : Setup} (h : setup.done = true) (development : Bool)
    (name : String) : setup.configure development name = (setup, none) := by
  simp [configure, h]

end ContractAtlas.Log
