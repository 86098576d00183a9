import Blockmark.Settings.Options
import Blockmark.Settings.Source

/-!
# Loading settings

A loader collects sources and overrides. The sources are laid over the defaults in the order in
which they were added, and the overrides over all of them.
-/

namespace Blockmark.Settings

structure Config where
  convert : ConvertOptions := {}
  deriving DecidableEq, Repr, Inhabited

structure Loader where
  sources : List Source := []
  /-- Values under paths; there is one for each path. -/
  overrides : List (List Step × Value) := []
  deriving Inhabited

def defaults : Value :=
  .table [("convert", optionsTable {})]

def setOverrideAt (steps : List Step) (value : Value) :
    List (List Step × Value) → List (List Step × Value)
  | [] => [(steps, value)]
  | entry :: entries =>
    if entry.1 = steps then (steps, value) :: entries
    else entry :: setOverrideAt steps value entries

namespace Loader

def addSource (loader : Loader) (source : Source) : Loader :=
  { loader with sources := loader.sources ++ [source] }

def withToml (loader : Loader) (toml : String) : Loader :=
  loader.addSource (.text toml)

def withFile (loader : Loader) (content : Option String) : Loader :=
  loader.addSource (.file content true)

def withOptionalFile (loader : Loader) (content : Option String) : Loader :=
  loader.addSource (.file content false)

def withVariables (loader : Loader) (held : List (String × String)) : Loader :=
  loader.addSource (.environment held)

def overrideAt (loader : Loader) (steps : List Step) (value : Value) : Loader :=
  { loader with overrides := setOverrideAt steps value loader.overrides }

/-- Overrides what all sources say about a key, which has to be a path. -/
def setOverride (loader : Loader) (key : String) (value : Value) : Except LoadError Loader :=
  match parsePath? key with
  | some steps => .ok (loader.overrideAt steps value)
  | none => .error (.malformedPath key)

def forDocument (loader : Loader) (documentId : String) : Loader :=
  loader.overrideAt [.key "convert", .key "document_id"] (.string documentId)

def merged (loader : Loader) : Except LoadError Value := do
  let settings ← loader.sources.foldlM laySource defaults
  return loader.overrides.foldl (fun settings entry => store entry.2 entry.1 settings) settings

def build (loader : Loader) : Except LoadError Config := do
  let settings ← loader.merged
  match lookup "convert" settings.entries with
  | none => return {}
  | some value => return { convert := ← checkOptions (← readOptions value) }

def options (loader : Loader) : Except LoadError ConvertOptions := do
  return (← loader.build).convert

end Loader

end Blockmark.Settings
