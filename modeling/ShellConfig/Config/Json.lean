import ShellConfig.Config.Basic
import ShellConfig.Json.Parser

/-!
Configurations as JSON: an object with the field `Vars`, which gives each variable its values, and
the field `Lines`, a list of lists of words.
-/

set_option autoImplicit false

namespace ShellConfig
namespace Config

/-- The configuration as a JSON value. -/
def toJson (config : Config) : Json :=
  .object [
    (some "Vars", .object (config.vars.entries.map fun entry =>
      (some entry.1, Json.ofStrings entry.2))),
    (some "Lines", .array (config.lines.map Json.ofStrings))]

/-- The variables that an object gives. The last value counts where a name is repeated, and its
first place. -/
def varsOfJson? : Json → Option (OrderedMap (List String))
  | .object fields => do
    let entries ← fields.mapM fun field => do
      let name ← field.1
      let values ← field.2.strings?
      pure (name, values)
    pure (OrderedMap.ofList entries)
  | _ => none

/-- The lines that a list gives. -/
def linesOfJson? : Json → Option (List (List String))
  | .array items => items.mapM Json.strings?
  | _ => none

/-- The value of a field that occurs once. -/
def uniqueField? (name : String) (fields : List (JsonText × Json)) : Option Json :=
  match fields.filter (·.1 = some name) with
  | [field] => some field.2
  | _ => none

/-- The configuration that a JSON value stands for. Each of the two fields occurs once; others are
passed over. A list of the two values stands for the same. -/
def ofJson? : Json → Option Config
  | .array [vars, lines] => do
    let vars ← varsOfJson? vars
    let lines ← linesOfJson? lines
    pure ⟨vars, lines⟩
  | .object fields => do
    if fields.any (·.1.isNone) then none
    let vars ← (uniqueField? "Vars" fields).bind varsOfJson?
    let lines ← (uniqueField? "Lines" fields).bind linesOfJson?
    pure ⟨vars, lines⟩
  | _ => none

/-- The configuration as JSON on one line. -/
def compactJson (config : Config) : String := config.toJson.compactText

/-- The configuration as JSON on many lines. -/
def indentedJson (config : Config) : String := config.toJson.indentedText

/-- The configuration that a JSON text stands for. -/
def parseJson? (text : String) : Option Config := (Json.parse? text).bind ofJson?

end Config
end ShellConfig
