import Blockmark.Settings.Error
import Blockmark.Settings.Path
import Blockmark.Settings.Toml

/-!
# Sources of settings

Setting files and environment variables. A source gives a list of settings, which are laid one
after the other over those that are there.
-/

namespace Blockmark.Settings

inductive Source
  | text (toml : String)
  /-- A file; it has no content if it does not exist. -/
  | file (content : Option String) (required : Bool)
  | environment (held : List (String × String))
  deriving Repr, Inhabited

def variableLead : String := "larkdoc_"

def pointed : List Char → List Char
  | '_' :: '_' :: rest => '.' :: pointed rest
  | c :: rest => c :: pointed rest
  | [] => []

def variableKey? (name : String) : Option String :=
  (Text.stripPrefix? variableLead (Text.lowercase name)).map fun rest =>
    String.ofList (pointed rest.toList)

/-- The value that an environment variable stands for: a truth value, an integer or a number if it
is spelled like one. -/
def variableValue (text : String) : Value :=
  if Text.lowercase text = "true" then .bool true
  else if Text.lowercase text = "false" then .bool false
  else match readInteger? text.toList with
    | some n => .integer n
    | none =>
      match readFloat? text.toList with
      | some double => .float double
      | none => .string text

def variableSettings (held : List (String × String)) : List (String × Value) :=
  held.filterMap fun (name, text) =>
    (variableKey? name).map fun key => (key, variableValue text)

def fileSettings (toml : String) : Except LoadError (List (String × Value)) :=
  match Toml.parse? toml with
  | some settings => .ok settings
  | none => .error .malformedFile

namespace Source

def settings : Source → Except LoadError (List (String × Value))
  | .text toml => fileSettings toml
  | .file (some toml) _ => fileSettings toml
  | .file none required => if required then .error .missingFile else .ok []
  | .environment held => .ok (variableSettings held)

end Source

/-- Lays one setting over others. Its key is a path if it can be read as one. -/
def laySetting (target : Value) (setting : String × Value) : Value :=
  match parsePath? setting.1 with
  | some steps => store setting.2 steps target
  | none => target.put setting.1 setting.2

def laySource (target : Value) (source : Source) : Except LoadError Value := do
  return (← source.settings).foldl laySetting target

end Blockmark.Settings
