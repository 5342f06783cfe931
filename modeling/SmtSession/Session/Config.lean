import SmtSession.Json

/-!
# Configurations

What a session is told before it starts, and how this is read from a JSON text.
-/

namespace SmtSession

/-- The versions of the standard. -/
inductive Version where
  | v20
  | v25
  | v26
  deriving DecidableEq

/-- The name of a version in configurations. -/
def Version.name : Version → String
  | .v20 => "V20"
  | .v25 => "V25"
  | .v26 => "V26"

/-- The version with the given name, if there is one. -/
def Version.ofName? (name : String) : Option Version :=
  [Version.v20, .v25, .v26].find? (·.name == name)

@[simp] theorem Version.ofName?_name (version : Version) :
    Version.ofName? version.name = some version := by
  cases version <;> rfl

/-- What a session is told before it starts. -/
structure Config where
  /-- The program that is the solver. -/
  executable : String := "z3"
  /-- The number of seconds after which the solver gives up. -/
  timeout : Option Nat := none
  /-- Whether the logic may be set again, and assertions may be asked for without the option. -/
  relax : Bool := false
  version : Version := .v25
  /-- The file that receives a copy of what is sent. -/
  transcript : Option String := none
  /-- Whether every reply that starts with `success` is an acknowledgement. -/
  lenient : Bool := false
  /-- The level of verbosity at the start. -/
  verbosity : Nat := 0
  deriving DecidableEq

namespace Config

/-- The arguments that the solver is started with. -/
def arguments (config : Config) : List String :=
  ["-smt2", "-in"] ++
    match config.timeout with
    | some seconds => ["-T:" ++ seconds.repr]
    | none => []

/-! ### Reading a configuration -/

/-- The names of the fields of a configuration, in their order. -/
def fieldNames : List String :=
  ["executable", "timeout", "relax", "version", "transcript", "lenient_success", "verbosity"]

/-- The fields of a value.  An object names them, each at most once, and may hold others; an array
gives the first ones in their order. -/
def fields? : JsonValue → Option (List (String × JsonValue))
  | .object fields => do
    let fields ← fields.mapM fun field => field.1.map (·, field.2)
    let names := fields.map Prod.fst
    if fieldNames.all (names.count · ≤ 1) then return fields else none
  | .array items => if items.length ≤ fieldNames.length then some (fieldNames.zip items) else none
  | _ => none

/-- A string that is a text. -/
def text? : JsonValue → Option String
  | .string value => value
  | _ => none

/-- A truth value. -/
def flag? : JsonValue → Option Bool
  | .bool value => some value
  | _ => none

/-- A natural number of 32 bits. -/
def word? : JsonValue → Option Nat
  | .number text =>
    if text.toList.all Char.isDigit then
      let value := Nat.ofDigitChars 10 text.toList 0
      if value < UInt32.size then some value else none
    else none
  | _ => none

/-- A version: its name, or an object with the name as its only key and nothing in it. -/
def version? : JsonValue → Option Version
  | .string name => name.bind Version.ofName?
  | .object [(name, .null)] => name.bind Version.ofName?
  | _ => none

/-- A value that may be absent. -/
def optional? {α : Type} (read : JsonValue → Option α) : JsonValue → Option (Option α)
  | .null => some none
  | value => (read value).map some

/-- The field of the given name, the given value standing for a missing one. -/
def field? {α : Type} (fields : List (String × JsonValue)) (name : String)
    (read : JsonValue → Option α) (missing : α) : Option α :=
  match fields.lookup name with
  | some value => read value
  | none => some missing

/-- The configuration that a JSON text spells.  Fields that are missing have their default. -/
def ofText? (text : String) : Option Config := do
  let fields ← fields? (← JsonValue.parse? text)
  let missing : Config := {}
  return {
    executable := ← field? fields "executable" text? missing.executable
    timeout := ← field? fields "timeout" (optional? word?) missing.timeout
    relax := ← field? fields "relax" flag? missing.relax
    version := ← field? fields "version" version? missing.version
    transcript := ← field? fields "transcript" (optional? text?) missing.transcript
    lenient := ← field? fields "lenient_success" flag? missing.lenient
    verbosity := ← field? fields "verbosity" word? missing.verbosity }

end Config

end SmtSession
