import ContractAtlas.Numeral.Integer
import ContractAtlas.Schema.Decoder

/-!
# Settings

What a deployment can choose, with a default for everything.  Settings are read from
environment variables, whose names may be written in any case; of several spellings of
one name the last counts.  All malformed values are reported, in the order of the
settings.
-/

namespace ContractAtlas

open ContractAtlas.Schema

/-- The variables of an environment in their order. -/
abbrev Environment := List (String × String)

structure Settings where
  /-- The origins from which browsers may ask, separated by commas. -/
  allowedOrigins : String := "http://localhost:3000"
  maxInputBytes : Int := 200000
  maxBatchContracts : Int := 20
  analysisRate : String := "30/minute"
  rateLimited : Bool := true
  environment : String := "development"
  logLevel : String := ""
  deriving DecidableEq, Repr

namespace Settings

/-- The value of a variable, its name in any case. -/
def valueOf? (environment : Environment) (name : String) : Option String :=
  (environment.reverse.find? fun entry => entry.1.toLower == name.toLower).map (·.2)

/-- A setting from its variable, or its default. -/
def setting {α : Type} (environment : Environment) (name : String) (absent : α)
    (read : String → Checked α) : Checked α :=
  match valueOf? environment name with
  | some value => (read value).within (.field name)
  | none => .valid absent

/-- What stands before a point that only zeros follow, or everything if there is no
point. -/
def wholePart? (chars : List Char) : Option (List Char) :=
  match chars.span (· ≠ '.') with
  | (whole, []) => some whole
  | (whole, _ :: fraction) =>
    if fraction.isEmpty || fraction.any (· ≠ '0') then none else some whole

/-- The ASCII digits of a whole number without leading zeros. -/
def wholeDigits? (chars : List Char) : Option (List Char) := do
  let digits ← Numeral.ungroup? (← wholePart? chars)
  if digits.isEmpty || digits.any (!·.isDigit) then none
  else some (digits.dropWhile (· == '0'))

/-- A whole number with an optional sign, spaces around it, single underscores between
its digits, and a fraction of zeros. -/
def wholeNumber (value : String) : Checked Int :=
  let (negative, chars) := Numeral.splitSign (Text.trimSpaces value.toList)
  match wholeDigits? chars with
  | none => .fault .unreadableInteger
  | some digits =>
    if Numeral.digitLimit < digits.length then .fault .integerTooLong
    else .valid (Numeral.signed negative ((Text.digitsValue? digits).getD 0))

/-- The settings that an environment makes. -/
def ofEnvironment (environment : Environment) : Checked Settings :=
  let defaults : Settings := {}
  Settings.mk
    <$> setting environment "ALLOWED_ORIGINS" defaults.allowedOrigins .valid
    <*> setting environment "MAX_INPUT_SIZE_BYTES" defaults.maxInputBytes wholeNumber
    <*> setting environment "MAX_BATCH_CONTRACTS" defaults.maxBatchContracts wholeNumber
    <*> setting environment "ANALYZE_RATE_LIMIT" defaults.analysisRate .valid
    <*> setting environment "RATE_LIMIT_ENABLED" defaults.rateLimited wordFlag
    <*> setting environment "ENVIRONMENT" defaults.environment .valid
    <*> setting environment "LOG_LEVEL" defaults.logLevel .valid

/-- The allowed origins one by one, without blanks around them. -/
def origins (settings : Settings) : List String :=
  let parts := (settings.allowedOrigins.toList.splitOn ',').map Text.trim
  (parts.filter fun origin => !origin.isEmpty).map String.ofList

/-- Whether the service runs on a developer's machine. -/
def isDevelopment (settings : Settings) : Bool :=
  settings.environment.toLower == "development"

end Settings

end ContractAtlas
