import ContractAtlas.Text.Quoted

/-!
# Log levels

The weight of a log record is an integer.  Six weights have a name, and two of those
have a second name by which they can be asked for.
-/

namespace ContractAtlas.Log

structure Level where
  weight : Int
  deriving DecidableEq, Repr

namespace Level

def critical : Level := ⟨50⟩
def error : Level := ⟨40⟩
def warning : Level := ⟨30⟩
def info : Level := ⟨20⟩
def debug : Level := ⟨10⟩
def notset : Level := ⟨0⟩

/-- The names of levels.  Of two names of one level the first is the one shown. -/
def named : List (String × Level) := [
  ("CRITICAL", critical),
  ("FATAL", critical),
  ("ERROR", error),
  ("WARNING", warning),
  ("WARN", warning),
  ("INFO", info),
  ("DEBUG", debug),
  ("NOTSET", notset)]

def ofName? (name : String) : Option Level :=
  named.lookup name

/-- The name of a level, or its weight if it has none. -/
def name (level : Level) : String :=
  match named.find? (·.2 = level) with
  | some (name, _) => name
  | none => s!"Level {level.weight}"

/-- What is said when no level has a name. -/
def unknownMessage (name : String) : String :=
  "Unknown level: " ++ String.ofList (Text.quote (Text.ofString name))

theorem ofName?_name {level : Level} (h : ∃ name, (name, level) ∈ named) :
    ofName? level.name = some level := by
  obtain ⟨name, hmem⟩ := h
  simp only [named, List.mem_cons, List.not_mem_nil, or_false, Prod.mk.injEq] at hmem
  rcases hmem with h | h | h | h | h | h | h | h <;> rw [h.2] <;> rfl

end Level

end ContractAtlas.Log
