import Blockmark.Link.Scheme
import Blockmark.Options
import Blockmark.Settings.Error

/-!
# Conversion options as settings

The options stand in a table under their names, or in a list in their order. Options that are not
set have their defaults.
-/

namespace Blockmark.Settings

def wordSwitch? (word : String) : Option Bool :=
  if ["1", "true", "on", "yes"].contains word then some true
  else if ["0", "false", "off", "no"].contains word then some false
  else none

/-- A value as a truth value. Numbers are true unless they are zero. -/
def readSwitch (place : String) : Value → Except LoadError Bool
  | .bool value => .ok value
  | .integer value => .ok (value != 0)
  | .float value => .ok (!value.isZero)
  | .string value =>
    let word := Text.lowercase value
    match wordSwitch? word with
    | some value => .ok value
    | none => .error (.wrongType place (.string word) .switch)
  | found => .error (.wrongType place found .switch)

def readText (place : String) : Value → Except LoadError String
  | .string value => .ok value
  | .bool value => .ok (toString value)
  | .integer value => .ok (toString value)
  | .float value => .ok value.text
  | found => .error (.wrongType place found .text)

structure OptionSetting where
  name : String
  set : (place : String) → Value → ConvertOptions → Except LoadError ConvertOptions

def switchSetting (name : String) (set : Bool → ConvertOptions → ConvertOptions) :
    OptionSetting where
  name
  set place value options := do return set (← readSwitch place value) options

def textSetting (name : String) (set : String → ConvertOptions → ConvertOptions) :
    OptionSetting where
  name
  set place value options := do return set (← readText place value) options

/-- All options in the order of a list of them. -/
def optionSettings : List OptionSetting := [
  switchSetting "expand_mentions" fun value options => { options with expandMentions := value },
  switchSetting "download_images" fun value options => { options with downloadImages := value },
  switchSetting "upload_images" fun value options => { options with uploadImages := value },
  textSetting "document_id" fun value options => { options with documentId := value },
  textSetting "uri_scheme" fun value options => { options with uriScheme := value },
  textSetting "image_dir" fun value options => { options with imageDir := value }]

def setIfFound (place : String) (value : Option Value) (setting : OptionSetting)
    (options : ConvertOptions) : Except LoadError ConvertOptions :=
  match value with
  | none => .ok options
  | some value => setting.set place value options

def optionsOfTable (entries : List (String × Value)) : Except LoadError ConvertOptions :=
  optionSettings.foldlM (fun options setting =>
    setIfFound ("convert." ++ setting.name) (lookup setting.name entries) setting options) {}

def optionsOfItems (items : List Value) : Except LoadError ConvertOptions :=
  optionSettings.zipIdx.foldlM (fun options (setting, i) =>
    setIfFound ("convert[" ++ toString i ++ "]") items[i]? setting options) {}

def readOptions : Value → Except LoadError ConvertOptions
  | .table entries => optionsOfTable entries
  | .array items => optionsOfItems items
  | found => .error (.notOptions found)

def optionsTable (options : ConvertOptions) : Value :=
  .table [("expand_mentions", .bool options.expandMentions),
    ("download_images", .bool options.downloadImages),
    ("upload_images", .bool options.uploadImages), ("document_id", .string options.documentId),
    ("uri_scheme", .string options.uriScheme), ("image_dir", .string options.imageDir)]

def checkOptions (options : ConvertOptions) : Except LoadError ConvertOptions :=
  if !Link.isScheme options.uriScheme.toList then .error (.invalidScheme options.uriScheme)
  else if options.downloadImages && (Text.trim options.imageDir.toList).isEmpty then
    .error .missingImageDir
  else .ok options

end Blockmark.Settings
