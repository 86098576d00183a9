import Blockmark.Settings.Loader

/-!
# What settings leave in the table of options

A setting is a value at a path. Laid over others it says something about some of the options, and
of the others it keeps what was there. Of several settings the last one that says something about
an option decides. Tables and lists that get to the place of an option are the exception: they are
mixed with what is there, and no option can be read from them.

Main statements: `lays_store` for one setting, and `Lays.foldl` for many.
-/

namespace Blockmark.Settings

abbrev Placed := List Step × Value

namespace Value

def isTable : Value → Bool
  | .table _ => true
  | _ => false

def isNested : Value → Bool
  | .table _ | .array _ => true
  | _ => false

end Value

def lastSaid {α : Type} (word : α → Option Value) (settings : List α) : Option Value :=
  settings.reverse.findSome? word

def entrySays (name : String) (entry : String × Value) : Option Value :=
  if Text.lowercase entry.1 = name ∧ entry.2.isTable = false then some entry.2 else none

/-- What a setting says about an option. -/
def optionSays (name : String) : Placed → Option Value
  | ([.key table], .table entries) =>
    if Text.lowercase table = "convert" then lastSaid (entrySays name) entries else none
  | ([.key table, .key key], value) =>
    if Text.lowercase table = "convert" then entrySays name (key, value) else none
  | _ => none

/-- Whether a setting leaves a table of options a table. Every path starts with a key. -/
def keepsTable : Placed → Bool
  | ([.key table], value) => Text.lowercase table != "convert" || value.isTable
  | (.key table :: .index _ :: _, _) => Text.lowercase table != "convert"
  | (.key _ :: .key _ :: _, _) => true
  | _ => false

/-! ## The last word -/

section

variable {α : Type} {word : α → Option Value}

theorem lastSaid_nil : lastSaid word [] = none := rfl

theorem lastSaid_append (settings more : List α) :
    lastSaid word (settings ++ more) = (lastSaid word more).or (lastSaid word settings) := by
  rw [lastSaid, List.reverse_append, List.findSome?_append]
  rfl

theorem lastSaid_cons (setting : α) (settings : List α) :
    lastSaid word (setting :: settings) = (lastSaid word settings).or (word setting) := by
  rw [← List.singleton_append, lastSaid_append]
  congr 1
  cases h : word setting <;> simp [lastSaid, h]

theorem exists_of_lastSaid {settings : List α} {value : Value}
    (said : lastSaid word settings = some value) :
    ∃ setting ∈ settings, word setting = some value := by
  obtain ⟨setting, mem, said⟩ := List.exists_of_findSome?_eq_some said
  exact ⟨setting, List.mem_reverse.1 mem, said⟩

theorem lastSaid_congr {other : α → Option Value} {settings : List α}
    (same : ∀ setting ∈ settings, word setting = other setting) :
    lastSaid word settings = lastSaid other settings := by
  induction settings with
  | nil => rfl
  | cons setting settings ih =>
      obtain ⟨first, same⟩ := List.forall_mem_cons.1 same
      rw [lastSaid_cons, lastSaid_cons, ih same, first]

theorem lastSaid_map {β : Type} (make : β → α) (sources : List β) :
    lastSaid word (sources.map make) = lastSaid (word ∘ make) sources := by
  rw [lastSaid, ← List.map_reverse, List.findSome?_map, lastSaid]

theorem lastSaid_filterMap {β : Type} (make : β → Option α) (sources : List β) :
    lastSaid word (sources.filterMap make) =
      lastSaid (fun source => (make source).bind word) sources := by
  induction sources with
  | nil => rfl
  | cons source sources ih =>
      rw [lastSaid_cons, ← ih, List.filterMap_cons]
      cases make source with
      | none => rw [Option.bind_none, Option.or_none]
      | some setting => rw [Option.bind_some, lastSaid_cons]

theorem lastSaid_flatMap {β : Type} (make : β → List α) (sources : List β) :
    lastSaid word (sources.flatMap make) =
      lastSaid (fun source => lastSaid word (make source)) sources := by
  induction sources with
  | nil => rfl
  | cons source sources ih => rw [List.flatMap_cons, lastSaid_append, lastSaid_cons, ih]

theorem lastSaid_eq_none {settings : List α} :
    lastSaid word settings = none ↔ ∀ setting ∈ settings, word setting = none := by
  simp [lastSaid]

end

/-- What is held after a setting: what it says, else what was held before it, unless something
nested got there. -/
def Lays (before said after : Option Value) : Prop :=
  after = said.or before ∨ ∃ value, after = some value ∧ value.isNested = true

theorem Lays.trans {before said between more after : Option Value}
    (first : Lays before said between) (second : Lays between more after) :
    Lays before (more.or said) after := by
  rcases second with rfl | nested
  · cases more with
    | some value => exact .inl rfl
    | none => exact first
  · -- Something nested that comes later hides whatever came first.
    exact .inr nested

theorem Lays.foldl {α σ : Type} {word : α → Option Value} {held : σ → Option Value}
    {lay : σ → α → σ} {inside : σ → Prop} (settings : List α)
    (step : ∀ state, ∀ setting ∈ settings, inside state →
      inside (lay state setting) ∧ Lays (held state) (word setting) (held (lay state setting)))
    (state : σ) (within : inside state) :
    inside (settings.foldl lay state) ∧
      Lays (held state) (lastSaid word settings) (held (settings.foldl lay state)) := by
  induction settings generalizing state with
  | nil => exact ⟨within, .inl rfl⟩
  | cons setting settings ih =>
      obtain ⟨within, first⟩ := step state setting List.mem_cons_self within
      obtain ⟨within, more⟩ := ih
        (fun state setting mem => step state setting (List.mem_cons_of_mem _ mem)) _ within
      rw [lastSaid_cons]
      exact ⟨within, first.trans more⟩

/-! ## Entries of a table -/

theorem putAll_eq_foldl (target : Value) (incoming : List (String × Value)) :
    target.putAll incoming =
      incoming.foldl (fun target entry => target.put entry.1 entry.2) target := by
  induction incoming generalizing target with
  | nil => rw [Value.putAll, List.foldl_nil]
  | cons entry incoming ih => rw [Value.putAll, List.foldl_cons, ih]

theorem put_plain (key : String) (target : Value) {value : Value}
    (plain : value.isTable = false) :
    target.put key value = .table (setEntry (Text.lowercase key) value target.entries) := by
  cases value with
  | table => cases plain
  | _ => rw [Value.put]

theorem isTable_put (key : String) (target value : Value) :
    (target.put key value).isTable = true := by
  cases value <;> rw [Value.put] <;> rfl

theorem isTable_putAll {target : Value} (table : target.isTable = true)
    (incoming : List (String × Value)) : (target.putAll incoming).isTable = true := by
  induction incoming generalizing target with
  | nil => rwa [Value.putAll]
  | cons entry incoming ih =>
      rw [Value.putAll]
      exact ih (isTable_put entry.1 target entry.2)

theorem isNested_of_isTable {value : Value} (table : value.isTable = true) :
    value.isNested = true := by
  cases value with
  | table => rfl
  | _ => cases table

theorem lays_put (name : String) (target : Value) (entry : String × Value) :
    Lays (lookup name target.entries) (entrySays name entry)
      (lookup name (target.put entry.1 entry.2).entries) := by
  obtain ⟨key, value⟩ := entry
  cases table : value.isTable with
  | false =>
      left
      rw [put_plain key target table, Value.entries, lookup_setEntry, entrySays]
      by_cases same : Text.lowercase key = name <;> simp [same, table]
  | true =>
      cases value with
      | table incoming =>
          have silent : entrySays name (key, .table incoming) = none := by
            simp [entrySays, Value.isTable]
          rw [silent, Value.put, Value.entries, lookup_setEntry]
          by_cases same : Text.lowercase key = name
          · rw [if_pos same, same]
            cases incoming with
            | nil =>
                -- Without entries nothing changes, but a new name gets a table.
                cases lookup name target.entries with
                | none => exact .inr ⟨.table [], by rw [Value.putAll, Option.getD_none], rfl⟩
                | some held => exact .inl (by rw [Value.putAll]; rfl)
            | cons entry incoming =>
                refine .inr ⟨_, rfl, isNested_of_isTable ?_⟩
                rw [Value.putAll]
                exact isTable_putAll (isTable_put _ _ _) incoming
          · exact .inl (if_neg same)
      | _ => cases table

theorem lays_putAll (name : String) (target : Value) (incoming : List (String × Value)) :
    Lays (lookup name target.entries) (lastSaid (entrySays name) incoming)
      (lookup name (target.putAll incoming).entries) := by
  rw [putAll_eq_foldl]
  have step : ∀ state : Value, ∀ entry ∈ incoming, True → True ∧
      Lays (lookup name state.entries) (entrySays name entry)
        (lookup name (state.put entry.1 entry.2).entries) :=
    fun state entry _ _ => ⟨trivial, lays_put name state entry⟩
  exact (Lays.foldl incoming step target trivial).2

/-! ## The table of options -/

def convertTable (settings : Value) : Value :=
  (lookup "convert" settings.entries).getD .nil

theorem convertTable_other {key : String} (other : Text.lowercase key ≠ "convert")
    (value : Value) (entries : List (String × Value)) :
    convertTable (.table (setEntry (Text.lowercase key) value entries)) =
      convertTable (.table entries) := by
  rw [convertTable, convertTable, Value.entries, lookup_setEntry, if_neg other]
  rfl

theorem convertTable_same {key : String} (same : Text.lowercase key = "convert")
    (value : Value) (entries : List (String × Value)) :
    convertTable (.table (setEntry (Text.lowercase key) value entries)) = value := by
  rw [convertTable, Value.entries, lookup_setEntry, if_pos same, Option.getD_some]

theorem isNested_store (value : Value) (step : Step) (steps : List Step) (target : Value) :
    (store value (step :: steps) target).isNested = true := by
  cases step with
  | key name =>
      cases steps with
      | nil => exact isNested_of_isTable (isTable_put name target value)
      | cons => rfl
  | index index => cases steps <;> rfl

theorem lays_inner (name key : String) (steps : List Step) (value table : Value) :
    (store value (.key key :: steps) table).isTable = true ∧
      Lays (lookup name table.entries)
        (if steps = [] then entrySays name (key, value) else none)
        (lookup name (store value (.key key :: steps) table).entries) := by
  cases steps with
  | nil => exact ⟨isTable_put key table value, lays_put name table (key, value)⟩
  | cons step steps =>
      refine ⟨rfl, ?_⟩
      rw [store, Value.alterKey, Value.entries, lookup_setEntry]
      · by_cases same : Text.lowercase key = name
        · rw [if_pos same]
          exact .inr ⟨_, rfl, isNested_store value step steps _⟩
        · exact .inl (if_neg same)
      · exact List.cons_ne_nil step steps

theorem lookup_convert {settings : Value} (table : (convertTable settings).isTable = true) :
    lookup "convert" settings.entries = some (convertTable settings) := by
  unfold convertTable at table ⊢
  cases held : lookup "convert" settings.entries with
  | none => simp [held, Value.isTable] at table
  | some value => rfl

theorem exists_store (value : Value) (key : String) (steps : List Step) (settings : Value) :
    ∃ laid, store value (.key key :: steps) settings =
      .table (setEntry (Text.lowercase key) laid settings.entries) := by
  cases steps with
  | nil => cases value <;> exact ⟨_, by rw [store, Value.put]⟩
  | cons => exact ⟨_, rfl⟩

theorem optionSays_other (name : String) {key : String}
    (other : Text.lowercase key ≠ "convert") (steps : List Step) (value : Value) :
    optionSays name (.key key :: steps, value) = none := by
  rw [optionSays.eq_def]
  split
  · next same => cases same; exact if_neg other
  · next same => cases same; exact if_neg other
  · rfl

theorem lays_store (name : String) {settings : Value}
    (table : (convertTable settings).isTable = true) {setting : Placed}
    (keeps : keepsTable setting = true) :
    (convertTable (store setting.2 setting.1 settings)).isTable = true ∧
      Lays (lookup name (convertTable settings).entries) (optionSays name setting)
        (lookup name (convertTable (store setting.2 setting.1 settings)).entries) := by
  obtain ⟨steps, value⟩ := setting
  match steps, keeps with
  | .key key :: steps, keeps =>
      by_cases same : Text.lowercase key = "convert"
      · have held := same ▸ lookup_convert table
        match steps, keeps with
        | [], keeps =>
            cases value with
            | table incoming =>
                rw [store, Value.put, convertTable_same same, held, Option.getD_some, optionSays,
                  if_pos same]
                exact ⟨isTable_putAll table incoming, lays_putAll name _ incoming⟩
            | _ => simp [keepsTable, same, Value.isTable] at keeps
        | .index index :: steps, keeps => simp [keepsTable, same] at keeps
        | .key inner :: steps, _ =>
            have laid : convertTable (store value (.key key :: .key inner :: steps) settings) =
                store value (.key inner :: steps) (convertTable settings) := by
              rw [store, Value.alterKey, convertTable_same same, held, Option.getD_some]
              simp
            have word : optionSays name (.key key :: .key inner :: steps, value) =
                if steps = [] then entrySays name (inner, value) else none := by
              cases steps with
              | nil => exact if_pos same
              | cons => rfl
            rw [laid, word]
            exact lays_inner name inner steps value _
      · -- Settings of another table leave this one alone.
        obtain ⟨laid, eq⟩ := exists_store value key steps settings
        rw [eq, convertTable_other same, optionSays_other name same]
        exact ⟨table, .inl rfl⟩

end Blockmark.Settings
