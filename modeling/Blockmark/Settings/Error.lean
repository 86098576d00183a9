import Blockmark.Decimal.Shortest
import Blockmark.Settings.Value
import Blockmark.Text.Quoted

/-!
# Failures of loading settings

Why settings cannot be loaded, and how that is said.
-/

namespace Blockmark.Settings

def floatText (value : Double) : String :=
  match value with
  | .finite .. => if value.text.toList.contains '.' then value.text else value.text ++ ".0"
  | _ => value.text

def Value.describe : Value → String
  | .nil => "unit value"
  | .bool value => "boolean `" ++ toString value ++ "`"
  | .integer value => "integer `" ++ toString value ++ "`"
  | .float value => "floating point `" ++ floatText value ++ "`"
  | .string value => "string " ++ Text.quote value
  | .array _ => "sequence"
  | .table _ => "map"

inductive OptionType
  | switch
  | text
  deriving DecidableEq, Repr, Inhabited

def OptionType.description : OptionType → String
  | .switch => "a boolean"
  | .text => "a string"

inductive LoadError
  | malformedPath (key : String)
  | malformedFile
  | missingFile
  | wrongType (place : String) (found : Value) (expected : OptionType)
  | notOptions (found : Value)
  | invalidScheme (scheme : String)
  | missingImageDir
  deriving Inhabited

namespace LoadError

def message : LoadError → String
  | malformedPath key => "malformed path " ++ Text.quote key
  | malformedFile => "malformed setting file"
  | missingFile => "missing setting file"
  | wrongType _ found expected =>
    "invalid type: " ++ found.describe ++ ", expected " ++ expected.description
  | notOptions found => "invalid type: " ++ found.describe ++ ", expected struct ConvertOptions"
  | invalidScheme scheme =>
    "convert.uri_scheme " ++ Text.quote scheme ++ " is not a valid URI scheme"
  | missingImageDir => "convert.image_dir must be set when convert.download_images is on"

end LoadError

end Blockmark.Settings
