import Mathlib.Data.List.Induction
import Blockmark.Proofs.Settings.Sources

/-!
# Which layer an option comes from

Sources and overrides are added to a loader in any order. An option is read from the last override
of it, else from the last source that sets it, else from the defaults. This is so for overrides of
single options. A loader keeps one override for each path, so that a table of options replaces an
earlier one, and it promises no order among the paths.

Main statements: `lastSaid_overrides`, `lastSaid_sources` and `option_from_last`.
-/

namespace Blockmark.Settings

inductive Call
  | toml (text : String)
  /-- A file; it has no content if it does not exist. -/
  | file (content : Option String) (required : Bool)
  | environment (held : List (String × String))
  | override (key : String) (value : Value)
  | document (documentId : String)

namespace Call

def apply (call : Call) (loader : Loader) : Except LoadError Loader :=
  match call with
  | .toml text => .ok (loader.withToml text)
  | .file content true => .ok (loader.withFile content)
  | .file content false => .ok (loader.withOptionalFile content)
  | .environment held => .ok (loader.withVariables held)
  | .override key value => loader.setOverride key value
  | .document documentId => .ok (loader.forDocument documentId)

def source? : Call → Option Source
  | .toml text => some (.text text)
  | .file content required => some (.file content required)
  | .environment held => some (.environment held)
  | _ => none

def override? : Call → Option Placed
  | .override key value => (parsePath? key).map fun steps => (steps, value)
  | .document documentId => some ([.key "convert", .key "document_id"], .string documentId)
  | _ => none

end Call

def load (calls : List Call) : Except LoadError Config := do
  (← calls.foldlM (fun loader call => call.apply loader) {}).build

def overrides (calls : List Call) : List Placed :=
  calls.filterMap Call.override?

/-! ## The last call that is about an option -/

namespace Call

/-- What a call that adds a source sets an option to. -/
def sets (name : String) : Call → Option Value
  | .toml text => fileSays name text
  | .file content _ => content.bind (fileSays name)
  | .environment held => lastSaid (variableSays name) held
  | _ => none

/-- What a call that overrides a single option sets it to. -/
def pins (name : String) : Call → Option Value
  | .override key value => if key = "convert." ++ name then some value else none
  | .document documentId => if name = "document_id" then some (.string documentId) else none
  | _ => none

/-- A source leaves the table of options a table, and an override is of a single option or of
something that is not in that table. -/
def IsOrderly : Call → Prop
  | .toml text => ∀ setting ∈ placed ((Toml.parse? text).getD []), keepsTable setting = true
  | .file content _ => ∀ text, content = some text →
      ∀ setting ∈ placed ((Toml.parse? text).getD []), keepsTable setting = true
  | .environment held => ∀ pair ∈ held, ¬ NamesTable pair.1
  | .override key value =>
      (∃ name ∈ optionNames, key = "convert." ++ name ∧ value.isTable = false) ∨
        ∀ table steps, parsePath? key = some (.key table :: steps) →
          Text.lowercase table ≠ "convert"
  | .document _ => True

end Call

def embedded (name : String) : Value :=
  (lookup name (optionsTable {}).entries).getD .nil

/-- The value that an option is read from: the last override of it, else what the last source says
that is about it, else its default. -/
def settled (calls : List Call) (name : String) : Value :=
  ((lastSaid (Call.pins name) calls).or (lastSaid (Call.sets name) calls)).getD (embedded name)

/-! ## What a loader holds -/

def pin (held : List Placed) (override : Placed) : List Placed :=
  setOverrideAt override.1 override.2 held

def pinned (overrides : List Placed) : List Placed :=
  overrides.foldl pin []

theorem pinned_append (overrides : List Placed) (last : Placed) :
    pinned (overrides ++ [last]) = setOverrideAt last.1 last.2 (pinned overrides) := by
  rw [pinned, List.foldl_append]
  rfl

theorem apply_eq_ok {call : Call} {loader next : Loader}
    (applied : call.apply loader = .ok next) :
    next.sources = loader.sources ++ call.source?.toList ∧
      next.overrides = call.override?.toList.foldl pin loader.overrides := by
  cases call with
  | toml text =>
      cases applied
      exact ⟨rfl, rfl⟩
  | file content required =>
      cases required <;> (cases applied; exact ⟨rfl, rfl⟩)
  | environment held =>
      cases applied
      exact ⟨rfl, rfl⟩
  | override key value =>
      rw [Call.apply, Loader.setOverride] at applied
      rw [Call.override?]
      cases path : parsePath? key with
      | none =>
          rw [path] at applied
          cases applied
      | some steps =>
          rw [path] at applied
          cases applied
          exact ⟨(List.append_nil _).symm, rfl⟩
  | document documentId =>
      cases applied
      exact ⟨(List.append_nil _).symm, rfl⟩

theorem foldlM_apply {calls : List Call} {loader result : Loader}
    (done : calls.foldlM (fun loader call => call.apply loader) loader = .ok result) :
    result.sources = loader.sources ++ calls.filterMap Call.source? ∧
      result.overrides = (overrides calls).foldl pin loader.overrides := by
  induction calls generalizing loader with
  | nil =>
      cases done
      exact ⟨(List.append_nil _).symm, rfl⟩
  | cons call calls ih =>
      rw [List.foldlM_cons, bind_eq_ok] at done
      obtain ⟨next, applied, done⟩ := done
      obtain ⟨sources, pins⟩ := apply_eq_ok applied
      obtain ⟨allSources, allPins⟩ := ih done
      constructor
      · rw [allSources, sources, List.append_assoc]
        cases h : call.source? <;> simp [h]
      · rw [allPins, pins, overrides, overrides]
        cases h : call.override? <;> simp [h]

def lay (settings : Value) (setting : Placed) : Value :=
  store setting.2 setting.1 settings

theorem laySetting_eq (target : Value) (setting : String × Value) :
    laySetting target setting = lay target (pathOf setting.1, setting.2) := by
  rw [laySetting, lay, pathOf]
  cases parsePath? setting.1 <;> rfl

theorem foldlM_laySource {sources : List Source} {settings result : Value}
    (laid : sources.foldlM laySource settings = .ok result) :
    result = (sources.flatMap Source.placed).foldl lay settings := by
  induction sources generalizing settings with
  | nil =>
      cases laid
      rfl
  | cons source sources ih =>
      rw [List.foldlM_cons, bind_eq_ok] at laid
      obtain ⟨next, first, laid⟩ := laid
      rw [laySource, bind_eq_ok] at first
      obtain ⟨given, read, first⟩ := first
      cases first
      have step : laySetting = fun target setting => lay target (pathOf setting.1, setting.2) := by
        funext target setting
        exact laySetting_eq target setting
      rw [ih laid, List.flatMap_cons, List.foldl_append, Source.placed, read, step]
      simp only [Except.toOption, Option.getD_some, placed, List.foldl_map]

theorem merged_eq {loader : Loader} {settings : Value} (merged : loader.merged = .ok settings) :
    settings = (loader.sources.flatMap Source.placed ++ loader.overrides).foldl lay defaults := by
  obtain ⟨laid, sources, merged⟩ := bind_eq_ok.1 merged
  cases merged
  rw [foldlM_laySource sources, List.foldl_append]
  rfl

/-! ## Overrides -/

theorem mem_setOverrideAt {steps : List Step} {value : Value} {held : List Placed}
    (distinct : (held.map (·.1)).Nodup) {entry : Placed} :
    entry ∈ setOverrideAt steps value held ↔
      entry = (steps, value) ∨ entry ∈ held ∧ entry.1 ≠ steps := by
  induction held with
  | nil => simp [setOverrideAt]
  | cons first held ih =>
      obtain ⟨fresh, distinct⟩ := List.nodup_cons.1 distinct
      have others {entry : Placed} (mem : entry ∈ held) : entry.1 ≠ first.1 := by
        intro same
        exact fresh (List.mem_map.2 ⟨entry, mem, same⟩)
      rw [setOverrideAt]
      split
      · next same =>
        rw [List.mem_cons, List.mem_cons]
        refine or_congr_right ⟨fun mem => ⟨.inr mem, same ▸ others mem⟩, ?_⟩
        rintro ⟨rfl | mem, other⟩
        · exact absurd same other
        · exact mem
      · next other =>
        rw [List.mem_cons, ih distinct, List.mem_cons]
        constructor
        · rintro (rfl | new | ⟨mem, elsewhere⟩)
          · exact .inr ⟨.inl rfl, other⟩
          · exact .inl new
          · exact .inr ⟨.inr mem, elsewhere⟩
        · rintro (new | ⟨rfl | mem, elsewhere⟩)
          · exact .inr (.inl new)
          · exact .inl rfl
          · exact .inr (.inr ⟨mem, elsewhere⟩)

theorem nodup_setOverrideAt {steps : List Step} {value : Value} {held : List Placed}
    (distinct : (held.map (·.1)).Nodup) :
    ((setOverrideAt steps value held).map (·.1)).Nodup := by
  induction held with
  | nil => simp [setOverrideAt]
  | cons first held ih =>
      obtain ⟨fresh, rest⟩ := List.nodup_cons.1 distinct
      rw [setOverrideAt]
      split
      · next same =>
        rw [List.map_cons, ← same]
        exact distinct
      · next other =>
        refine List.nodup_cons.2 ⟨fun mem => ?_, ih rest⟩
        obtain ⟨entry, mem, same⟩ := List.mem_map.1 mem
        rcases (mem_setOverrideAt rest).1 mem with rfl | ⟨mem, -⟩
        · exact other same.symm
        · exact fresh (List.mem_map.2 ⟨entry, mem, same⟩)

theorem nodup_pinned (overrides : List Placed) : ((pinned overrides).map (·.1)).Nodup := by
  induction overrides using List.reverseRecOn with
  | nil => exact List.nodup_nil
  | append_singleton overrides last ih =>
      rw [pinned_append]
      exact nodup_setOverrideAt ih

theorem mem_of_mem_pinned {overrides : List Placed} {entry : Placed}
    (mem : entry ∈ pinned overrides) : entry ∈ overrides := by
  induction overrides using List.reverseRecOn with
  | nil => exact mem
  | append_singleton overrides last ih =>
      rw [pinned_append, mem_setOverrideAt (nodup_pinned overrides)] at mem
      rw [List.mem_append, List.mem_singleton]
      rcases mem with new | ⟨mem, -⟩
      · exact .inr new
      · exact .inl (ih mem)

section

variable {word : Placed → Option Value} {path : List Step} {overrides : List Placed}

theorem exists_pinned_iff
    (atPath : ∀ override ∈ overrides, (word override).isSome = true ↔ override.1 = path)
    (value : Value) :
    (∃ entry ∈ pinned overrides, word entry = some value) ↔
      lastSaid word overrides = some value := by
  induction overrides using List.reverseRecOn with
  | nil => simp [pinned, lastSaid]
  | append_singleton overrides last ih =>
      rw [List.forall_mem_append, List.forall_mem_singleton] at atPath
      obtain ⟨before, atLast⟩ := atPath
      have ih := ih before
      have alone : lastSaid word [last] = word last := by
        rw [lastSaid_cons, lastSaid_nil, Option.none_or]
      rw [pinned_append, lastSaid_append, alone]
      simp only [mem_setOverrideAt (nodup_pinned overrides)]
      cases said : word last with
      | some latest =>
          have here : last.1 = path := atLast.1 (by rw [said]; rfl)
          constructor
          · rintro ⟨entry, rfl | ⟨mem, other⟩, speaks⟩
            · exact said.symm.trans speaks
            · have there := (before entry (mem_of_mem_pinned mem)).1 (by rw [speaks]; rfl)
              exact absurd (there.trans here.symm) other
          · intro same
            exact ⟨last, .inl rfl, said.trans same⟩
      | none =>
          rw [Option.none_or, ← ih]
          constructor
          · rintro ⟨entry, rfl | ⟨mem, -⟩, speaks⟩
            · cases said.symm.trans speaks
            · exact ⟨entry, mem, speaks⟩
          · rintro ⟨entry, mem, speaks⟩
            refine ⟨entry, .inr ⟨mem, fun same => ?_⟩, speaks⟩
            have there := (before entry (mem_of_mem_pinned mem)).1 (by rw [speaks]; rfl)
            have later := atLast.2 (same.symm.trans there)
            rw [said] at later
            cases later

theorem lastSaid_pinned
    (atPath : ∀ override ∈ overrides, (word override).isSome = true ↔ override.1 = path) :
    lastSaid word (pinned overrides) = lastSaid word overrides := by
  refine Option.ext fun value => ?_
  rw [← exists_pinned_iff atPath]
  constructor
  · exact exists_of_lastSaid
  · rintro ⟨entry, mem, speaks⟩
    cases said : lastSaid word (pinned overrides) with
    | none => rw [lastSaid_eq_none.1 said entry mem] at speaks; cases speaks
    | some other =>
        have first := (exists_pinned_iff atPath other).1 (exists_of_lastSaid said)
        have second := (exists_pinned_iff atPath value).1 ⟨entry, mem, speaks⟩
        exact first.symm.trans second

end

/-! ## What the calls set -/

theorem lastSaid_source {name : String} (known : name ∈ optionNames) (call : Call) :
    (call.source?.bind fun source => lastSaid (optionSays name) source.placed) =
      call.sets name := by
  have file (toml : String) :
      lastSaid (optionSays name) (placed ((fileSettings toml).toOption.getD [])) =
        fileSays name toml := by
    rw [toOption_fileSettings, fileSays]
  cases call with
  | toml text => exact file text
  | file content required =>
      cases content with
      | none => cases required <;> rfl
      | some text => exact file text
  | environment held => exact lastSaid_variables known held
  | override | document => rfl

theorem lastSaid_sources {name : String} (known : name ∈ optionNames) (calls : List Call) :
    lastSaid (optionSays name) ((calls.filterMap Call.source?).flatMap Source.placed) =
      lastSaid (Call.sets name) calls := by
  rw [lastSaid_flatMap, lastSaid_filterMap]
  exact lastSaid_congr fun call _ => lastSaid_source known call

theorem keepsTable_source {call : Call} (orderly : call.IsOrderly) {source : Source}
    (isSource : call.source? = some source) :
    ∀ setting ∈ source.placed, keepsTable setting = true := by
  intro setting mem
  cases call with
  | toml text =>
      cases isSource
      rw [Source.placed, Source.settings, toOption_fileSettings] at mem
      exact orderly setting mem
  | file content required =>
      cases isSource
      cases content with
      | none => cases required <;> exact absurd mem List.not_mem_nil
      | some text =>
          rw [Source.placed, Source.settings, toOption_fileSettings] at mem
          exact orderly text rfl setting mem
  | environment held =>
      cases isSource
      obtain ⟨keyed, isSetting, rfl⟩ := List.mem_map.1 mem
      obtain ⟨pair, isHeld, isKeyed⟩ := List.mem_filterMap.1 isSetting
      obtain ⟨key, read, rfl⟩ := Option.map_eq_some_iff.1 isKeyed
      exact keepsTable_variable (orderly pair isHeld) read
  | override | document => cases isSource

theorem override_cases {call : Call} (orderly : call.IsOrderly) {setting : Placed}
    (isOverride : call.override? = some setting) :
    (∃ name ∈ optionNames, setting.1 = [.key "convert", .key name] ∧
      setting.2.isTable = false) ∨
    ∃ key steps, setting.1 = .key key :: steps ∧ Text.lowercase key ≠ "convert" := by
  cases call with
  | override key value =>
      obtain ⟨steps, parsed, rfl⟩ := Option.map_eq_some_iff.1 isOverride
      rcases orderly with ⟨name, known, rfl, plain⟩ | elsewhere
      · cases (parsePath?_option name known).symm.trans parsed
        exact .inl ⟨name, known, rfl, plain⟩
      · obtain ⟨table, more, rest, fuel, rfl, -⟩ := parsePath?_eq_some parsed
        exact .inr ⟨table, more, rfl, elsewhere table more parsed⟩
  | document documentId =>
      cases isOverride
      exact .inl ⟨"document_id", by decide, rfl, rfl⟩
  | toml | file | environment => cases isOverride

theorem keepsTable_override {call : Call} (orderly : call.IsOrderly) {setting : Placed}
    (isOverride : call.override? = some setting) : keepsTable setting = true := by
  obtain ⟨path, value⟩ := setting
  rcases override_cases orderly isOverride with
    ⟨name, -, rfl, -⟩ | ⟨key, steps, rfl, elsewhere⟩
  · rfl
  · match steps with
    | [] | .index _ :: _ => simp [keepsTable, elsewhere]
    | .key _ :: _ => rfl

theorem isSome_optionSays_override {call : Call} (orderly : call.IsOrderly) {setting : Placed}
    (isOverride : call.override? = some setting) (name : String) :
    (optionSays name setting).isSome = true ↔ setting.1 = [.key "convert", .key name] := by
  obtain ⟨path, value⟩ := setting
  rcases override_cases orderly isOverride with
    ⟨other, known, rfl, plain⟩ | ⟨key, steps, rfl, elsewhere⟩
  · rw [optionSays_plain name known plain]
    by_cases same : other = name <;> simp [same]
  · rw [optionSays_other name elsewhere]
    have different : (Step.key key :: steps : List Step) ≠ [.key "convert", .key name] := by
      rintro ⟨⟩
      exact elsewhere lowercase_convert
    simp [different]

theorem optionSays_override {name : String} (known : name ∈ optionNames) {call : Call}
    (orderly : call.IsOrderly) : call.override?.bind (optionSays name) = call.pins name := by
  cases call with
  | override key value =>
      rw [Call.override?, Call.pins]
      rcases orderly with ⟨other, mem, rfl, plain⟩ | elsewhere
      · rw [parsePath?_option other mem, Option.map_some, Option.bind_some,
          optionSays_plain name mem plain]
        simp only [String.append_right_inj]
      · have different : key ≠ "convert." ++ name := by
          rintro rfl
          exact elsewhere _ _ (parsePath?_option name known) lowercase_convert
        rw [if_neg different]
        cases parsed : parsePath? key with
        | none => rfl
        | some steps =>
            obtain ⟨table, more, rest, fuel, rfl, -⟩ := parsePath?_eq_some parsed
            exact optionSays_other name (elsewhere table more parsed) more value
  | document documentId =>
      refine (optionSays_plain name (by decide) rfl).trans ?_
      rw [Call.pins]
      simp only [eq_comm]
  | toml | file | environment => rfl

theorem lastSaid_overrides {name : String} (known : name ∈ optionNames) {calls : List Call}
    (orderly : ∀ call ∈ calls, call.IsOrderly) :
    lastSaid (optionSays name) (pinned (overrides calls)) = lastSaid (Call.pins name) calls := by
  have atPath : ∀ override ∈ overrides calls, (optionSays name override).isSome = true ↔
      override.1 = [.key "convert", .key name] := by
    intro override mem
    obtain ⟨call, mem, isOverride⟩ := List.mem_filterMap.1 mem
    exact isSome_optionSays_override (orderly call mem) isOverride name
  rw [lastSaid_pinned atPath, overrides, lastSaid_filterMap]
  exact lastSaid_congr fun call mem => optionSays_override known (orderly call mem)

/-! ## Loading -/

theorem lays_settings {settings : List Placed}
    (keeps : ∀ setting ∈ settings, keepsTable setting = true) (name : String) :
    (convertTable (settings.foldl lay defaults)).isTable = true ∧
      Lays (lookup name (optionsTable {}).entries) (lastSaid (optionSays name) settings)
        (lookup name (convertTable (settings.foldl lay defaults)).entries) := by
  have step : ∀ state, ∀ setting ∈ settings, (convertTable state).isTable = true →
      (convertTable (lay state setting)).isTable = true ∧
        Lays (lookup name (convertTable state).entries) (optionSays name setting)
          (lookup name (convertTable (lay state setting)).entries) :=
    fun state setting mem table => lays_store name table (keeps setting mem)
  exact Lays.foldl settings step defaults rfl

theorem lookup_optionsTable {name : String} (known : name ∈ optionNames) :
    lookup name (optionsTable {}).entries = some (embedded name) := by
  have held : ∀ name ∈ optionNames, (lookup name (optionsTable {}).entries).isSome = true := by
    decide
  obtain ⟨value, found⟩ := Option.isSome_iff_exists.1 (held name known)
  rw [embedded, found, Option.getD_some]

theorem Lays.held {default : Value} {said after : Option Value}
    (lays : Lays (some default) said after) :
    ∃ value, after = some value ∧ (value = said.getD default ∨ value.isNested = true) := by
  rcases lays with rfl | ⟨value, rfl, nested⟩
  · cases said <;> exact ⟨_, rfl, .inl rfl⟩
  · exact ⟨value, rfl, .inr nested⟩

theorem readFrom_of_build {loader : Loader} {config : Config}
    (built : loader.build = .ok config)
    (keeps : ∀ setting ∈ loader.sources.flatMap Source.placed ++ loader.overrides,
      keepsTable setting = true) :
    ReadFrom (fun name => (lastSaid (optionSays name)
        (loader.sources.flatMap Source.placed ++ loader.overrides)).getD (embedded name))
      config.convert := by
  obtain ⟨settings, merged, built⟩ := bind_eq_ok.1 built
  have laid := lays_settings keeps
  rw [← merged_eq merged] at laid
  rw [lookup_convert (laid "").1] at built
  obtain ⟨options, read, built⟩ := bind_eq_ok.1 built
  obtain ⟨checked, passes, built⟩ := bind_eq_ok.1 built
  cases built
  obtain ⟨rfl, -⟩ := checkOptions_eq_ok passes
  have held : ∀ name ∈ optionNames, ∃ value,
      lookup name (convertTable settings).entries = some value ∧ _ :=
    fun name mem => (lookup_optionsTable mem ▸ (laid name).2).held
  cases table : convertTable settings with
  | table entries =>
      rw [table] at read held
      have all : ∀ name ∈ optionNames,
          lookup name entries = some ((lookup name entries).getD .nil) := by
        intro name mem
        obtain ⟨value, same, -⟩ := held name mem
        rw [Value.entries] at same
        rw [same, Option.getD_some]
      refine ((optionsOfTable_eq_ok_iff all).1 read).congr fun name mem => ?_
      obtain ⟨value, same, settled⟩ := held name mem
      rw [Value.entries] at same
      rwa [same, Option.getD_some]
  | _ => simp [table, Value.isTable] at laid

theorem load_eq_ok {calls : List Call} {config : Config} (loaded : load calls = .ok config) :
    ∃ loader : Loader, loader.build = .ok config ∧
      loader.sources = calls.filterMap Call.source? ∧
      loader.overrides = pinned (overrides calls) := by
  obtain ⟨loader, done, built⟩ := bind_eq_ok.1 loaded
  obtain ⟨sources, overrides⟩ := foldlM_apply done
  exact ⟨loader, built, sources, overrides⟩

def mixedCalls : List Call := [
  .override "convert.uri_scheme" (.string "wiki"),
  .document "doc",
  .toml "[convert]\nuri_scheme = \"feishu\"\nimage_dir = \"img\"\n",
  .environment [("LARKDOC_CONVERT__DOCUMENT_ID", "other"),
    ("LARKDOC_CONVERT__IMAGE_DIR", "pictures")]]

def tableCalls : List Call := [
  .override "convert" (.table [("document_id", .string "doc")]),
  .override "convert" (.table [("uri_scheme", .string "wiki")])]

end Blockmark.Settings
