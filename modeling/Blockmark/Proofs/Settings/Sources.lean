import Blockmark.Proofs.Settings.Reading
import Blockmark.Proofs.Text.Lowercase

/-!
# What sources say about an option

The settings of a file are at the paths that their keys are read as. An environment variable sets
an option if its name is that of the option behind that of the table, in any letter case; it stands
for all options at once if its name ends with that of the table.

Main statements: `lastSaid_variables` and `keepsTable_variable`.
-/

namespace Blockmark.Settings

def pathOf (key : String) : List Step :=
  (parsePath? key).getD [.key key]

def placed (settings : List (String × Value)) : List Placed :=
  settings.map fun setting => (pathOf setting.1, setting.2)

def fileSays (name toml : String) : Option Value :=
  lastSaid (optionSays name) (placed ((Toml.parse? toml).getD []))

/-- What an environment variable, given as its name and text, says about an option. -/
def variableSays (name : String) (held : String × String) : Option Value :=
  if Text.lowercase held.1 = "larkdoc_convert__" ++ name ∨
      Text.lowercase held.1 = "larkdoc_convert." ++ name then
    some (variableValue held.2)
  else none

/-- An environment variable of this name sets all options at once, or makes a list of them. -/
def NamesTable (name : String) : Prop :=
  Text.lowercase name = "larkdoc_convert" ∨
    "larkdoc_convert[".toList <+: (Text.lowercase name).toList

instance (name : String) : Decidable (NamesTable name) :=
  inferInstanceAs (Decidable (_ ∨ _))

def Source.placed (source : Source) : List Placed :=
  Settings.placed (source.settings.toOption.getD [])

theorem toOption_fileSettings (toml : String) :
    (fileSettings toml).toOption = Toml.parse? toml := by
  unfold fileSettings
  cases Toml.parse? toml <;> rfl

/-! ## Names of options -/

theorem lowercase_convert : Text.lowercase "convert" = "convert" := by decide +kernel

theorem lowercase_of_mem : ∀ name ∈ optionNames, Text.lowercase name = name := by decide +kernel

theorem optionSays_plain (name : String) {other : String} (known : other ∈ optionNames)
    {value : Value} (plain : value.isTable = false) :
    optionSays name ([.key "convert", .key other], value) =
      if other = name then some value else none := by
  rw [optionSays, if_pos lowercase_convert, entrySays, lowercase_of_mem other known]
  simp [plain]

theorem exists_of_optionSays {name : String} {path : List Step} {value said : Value}
    (plain : value.isTable = false) (speaks : optionSays name (path, value) = some said) :
    ∃ table key, path = [.key table, .key key] ∧ Text.lowercase table = "convert" ∧
      Text.lowercase key = name := by
  rw [optionSays.eq_def] at speaks
  split at speaks
  · next same => cases same; cases plain
  · next table key _ same =>
    cases same
    rw [Option.ite_none_right_eq_some, entrySays, Option.ite_none_right_eq_some] at speaks
    exact ⟨table, key, rfl, speaks.1, speaks.2.1.1⟩
  · cases speaks

theorem eq_convert {key : String} (same : Text.lowercase key = "convert")
    (small : ∀ c ∈ key.toList, c.isUpper = false) : key = "convert" :=
  Text.eq_of_lowercase_eq same (by simp) small

/-! ## Paths -/

theorem readKey?_eq_some {text rest : List Char} {step : Step}
    (read : readKey? text = some (step, rest)) :
    ∃ name : String, step = .key name ∧ text = name.toList ++ rest ∧
      ∀ c ∈ name.toList, isKeyChar c = true := by
  unfold readKey? at read
  split at read
  · cases read
  · cases read
    refine ⟨_, rfl, ?_, fun c mem => ?_⟩
    · rw [String.toList_ofList, List.takeWhile_append_dropWhile]
    · rw [String.toList_ofList] at mem
      exact List.mem_takeWhile_imp mem

theorem readIndex?_eq_some {text rest : List Char} {step : Step}
    (read : readIndex? text = some (step, rest)) : ∃ index, step = .index index := by
  unfold readIndex? at read
  dsimp only at read
  split at read
  · rw [Option.ite_none_left_eq_some] at read
    exact ⟨_, (congrArg Prod.fst (Option.some.inj read.2)).symm⟩
  · cases read

theorem readSteps?_cons_eq_some {fuel : Nat} {c : Char} {rest : List Char} {steps : List Step}
    (read : readSteps? fuel (c :: rest) = some steps) :
    ∃ step more behind fuel, steps = step :: behind ∧ readSteps? fuel more = some behind ∧
      (c = '.' ∧ readKey? rest = some (step, more) ∨
        c = '[' ∧ readIndex? rest = some (step, more)) := by
  cases fuel with
  | zero => cases read
  | succ fuel =>
      have parts {first : Option (Step × List Char)}
          (read : (first.bind fun found =>
            (readSteps? fuel found.2).bind fun behind => some (found.1 :: behind)) = some steps) :
          ∃ step more behind, first = some (step, more) ∧ readSteps? fuel more = some behind ∧
            steps = step :: behind := by
        obtain ⟨⟨step, more⟩, found, read⟩ := Option.bind_eq_some_iff.1 read
        obtain ⟨behind, readMore, done⟩ := Option.bind_eq_some_iff.1 read
        exact ⟨step, more, behind, found, readMore, (Option.some.inj done).symm⟩
      rw [readSteps?] at read
      split at read
      · next point =>
        obtain ⟨step, more, behind, found, readMore, rfl⟩ := parts read
        exact ⟨step, more, behind, fuel, rfl, readMore, .inl ⟨point, found⟩⟩
      split at read
      · next bracket =>
        obtain ⟨step, more, behind, found, readMore, rfl⟩ := parts read
        exact ⟨step, more, behind, fuel, rfl, readMore, .inr ⟨bracket, found⟩⟩
      · cases read

theorem parsePath?_eq_some {text : String} {steps : List Step}
    (parsed : parsePath? text = some steps) :
    ∃ name more rest fuel, steps = .key name :: more ∧ text.toList = name.toList ++ rest ∧
      (∀ c ∈ name.toList, isKeyChar c = true) ∧ readSteps? fuel rest = some more := by
  simp only [parsePath?, Option.bind_eq_bind, Option.bind_eq_some_iff] at parsed
  obtain ⟨⟨first, rest⟩, read, more, readMore, done⟩ := parsed
  cases done
  obtain ⟨name, rfl, eq, chars⟩ := readKey?_eq_some read
  exact ⟨name, more, rest, rest.length, rfl, eq, chars, readMore⟩

theorem toList_of_parsePath?_pair {text table option : String}
    (parsed : parsePath? text = some [.key table, .key option]) :
    text.toList = table.toList ++ '.' :: option.toList ∧
      ∀ c ∈ option.toList, isKeyChar c = true := by
  obtain ⟨name, more, rest, fuel, steps, eq, -, read⟩ := parsePath?_eq_some parsed
  cases steps
  cases rest with
  | nil => cases fuel <;> cases read
  | cons c rest =>
      obtain ⟨step, tail, behind, fuel, steps, readTail, point | bracket⟩ :=
        readSteps?_cons_eq_some read
      · cases steps
        obtain ⟨option, same, isOption, chars⟩ := readKey?_eq_some point.2
        cases same
        cases tail with
        | nil =>
            rw [eq, point.1, isOption, List.append_nil]
            exact ⟨rfl, chars⟩
        | cons c tail =>
            obtain ⟨step, more, behind, fuel, steps, -⟩ := readSteps?_cons_eq_some readTail
            cases steps
      · obtain ⟨index, same⟩ := readIndex?_eq_some bracket.2
        cases same
        cases steps

theorem near_of_isKeyChar {c : Char} (isKey : isKeyChar c = true) : c.toNat < 0x80 := by
  have range : c.val.toNat ≤ 122 ∨ c = '_' ∨ c = '-' ∨ c = ' ' := by
    simp only [isKeyChar, Text.isLetter, Text.isDigit, Bool.or_eq_true, Bool.and_eq_true,
      decide_eq_true_eq, beq_iff_eq, Char.le_def, UInt32.le_iff_toNat_le] at isKey
    grind
  rcases range with near | rfl | rfl | rfl
  · exact Nat.lt_of_le_of_lt near (by decide)
  all_goals decide

theorem parsePath?_option : ∀ name ∈ optionNames,
    parsePath? ("convert." ++ name) = some [.key "convert", .key name] := by
  decide +kernel

theorem exists_of_keyed {name : String} {key : String} {value said : Value}
    (plain : value.isTable = false) (speaks : optionSays name (pathOf key, value) = some said) :
    ∃ table option, parsePath? key = some [.key table, .key option] ∧
      Text.lowercase table = "convert" ∧ Text.lowercase option = name := by
  obtain ⟨table, option, path, rest⟩ := exists_of_optionSays plain speaks
  refine ⟨table, option, ?_, rest⟩
  unfold pathOf at path
  cases parsed : parsePath? key with
  | none => rw [parsed] at path; cases path
  | some steps => rw [parsed, Option.getD_some] at path; rw [path]

/-! ## Names of variables -/

theorem pointed_eq_append {name rest : List Char} (plain : '.' ∉ name) {text : List Char}
    (eq : pointed text = name ++ rest) :
    ∃ behind, text = name ++ behind ∧ pointed behind = rest := by
  induction name generalizing text with
  | nil => exact ⟨text, rfl, eq⟩
  | cons first name ih =>
      rw [List.mem_cons, not_or] at plain
      obtain ⟨other, plain⟩ := plain
      rw [pointed.eq_def] at eq
      split at eq
      · exact absurd (List.cons.inj eq).1 other
      · obtain ⟨rfl, more⟩ := List.cons.inj eq
        obtain ⟨behind, rfl, same⟩ := ih plain more
        exact ⟨behind, rfl, same⟩
      · cases eq

theorem pointed_eq_point {text rest : List Char} (eq : pointed text = '.' :: rest) :
    ∃ behind, (text = '.' :: behind ∨ text = '_' :: '_' :: behind) ∧ pointed behind = rest := by
  rw [pointed.eq_def] at eq
  split at eq
  · exact ⟨_, .inr rfl, (List.cons.inj eq).2⟩
  · obtain ⟨rfl, more⟩ := List.cons.inj eq
    exact ⟨_, .inl rfl, more⟩
  · cases eq

theorem mem_pointed {text : List Char} {c : Char} (mem : c ∈ pointed text) :
    c = '.' ∨ c ∈ text := by
  induction text using pointed.induct with
  | case1 rest ih =>
      rw [pointed, List.mem_cons] at mem
      rcases mem with point | mem
      · exact .inl point
      · exact (ih mem).imp_right fun mem => List.mem_cons_of_mem _ (List.mem_cons_of_mem _ mem)
  | case2 c rest single ih =>
      rw [pointed.eq_2 c rest single, List.mem_cons] at mem
      rcases mem with rfl | mem
      · exact .inr List.mem_cons_self
      · exact (ih mem).imp_right (List.mem_cons_of_mem _)
  | case3 => exact absurd mem List.not_mem_nil

theorem variableKey?_eq_some {name key : String} (read : variableKey? name = some key) :
    ∃ rest : List Char, (Text.lowercase name).toList = variableLead.toList ++ rest ∧
      key.toList = pointed rest := by
  obtain ⟨rest, stripped, rfl⟩ := Option.map_eq_some_iff.1 read
  exact ⟨rest.toList, Text.toList_of_stripPrefix? stripped, String.toList_ofList⟩

theorem isUpper_variableKey? {name key : String} (read : variableKey? name = some key) :
    ∀ c ∈ key.toList, c.isUpper = false := by
  intro c mem
  obtain ⟨rest, lower, points⟩ := variableKey?_eq_some read
  rw [points] at mem
  rcases mem_pointed mem with rfl | mem
  · decide
  · have held : c ∈ (Text.lowercase name).toList := by
      rw [lower]
      exact List.mem_append_right _ mem
    exact Text.isUpper_lowercase held

theorem eq_nil_of_pointed {text : List Char} (eq : pointed text = []) : text = [] := by
  rw [pointed.eq_def] at eq
  split at eq
  · cases eq
  · cases eq
  · rfl

theorem lowercase_eq_of_key {name : String} (known : name ∈ optionNames) {held key : String}
    (read : variableKey? held = some key)
    (same : key.toList = "convert".toList ++ '.' :: name.toList) :
    Text.lowercase held = "larkdoc_convert__" ++ name ∨
      Text.lowercase held = "larkdoc_convert." ++ name := by
  have noPoint : ∀ name ∈ optionNames, '.' ∉ name.toList := by decide
  obtain ⟨rest, lower, points⟩ := variableKey?_eq_some read
  obtain ⟨mark, rfl, marked⟩ := pointed_eq_append (by decide) (points.symm.trans same)
  obtain ⟨behind, marks, isName⟩ := pointed_eq_point marked
  rw [← List.append_nil name.toList] at isName
  obtain ⟨none, rfl, isNone⟩ := pointed_eq_append (noPoint name known) isName
  rw [eq_nil_of_pointed isNone, List.append_nil] at marks
  rw [← String.toList_inj, ← String.toList_inj, lower, String.toList_append, String.toList_append]
  rcases marks with rfl | rfl
  · exact .inr rfl
  · exact .inl rfl

theorem variableKey?_option {name : String} (known : name ∈ optionNames) {held : String}
    (names : Text.lowercase held = "larkdoc_convert__" ++ name ∨
      Text.lowercase held = "larkdoc_convert." ++ name) :
    variableKey? held = some ("convert." ++ name) := by
  have keys : ∀ name ∈ optionNames, ∀ lead ∈ ["larkdoc_convert__", "larkdoc_convert."],
      (Text.stripPrefix? variableLead (lead ++ name)).map
        (fun rest => String.ofList (pointed rest.toList)) = some ("convert." ++ name) := by
    decide +kernel
  rcases names with lower | lower
  · rw [variableKey?, lower]
    exact keys name known _ (by decide)
  · rw [variableKey?, lower]
    exact keys name known _ (by decide)

/-! ## What variables set -/

theorem isTable_variableValue (text : String) : (variableValue text).isTable = false := by
  unfold variableValue
  split
  · rfl
  split
  · rfl
  cases readInteger? text.toList with
  | some n => rfl
  | none => cases readFloat? text.toList <;> rfl

theorem optionSays_variable {name : String} (known : name ∈ optionNames)
    (held : String × String) :
    ((variableKey? held.1).bind fun key => optionSays name (pathOf key, variableValue held.2)) =
      variableSays name held := by
  have plain := isTable_variableValue held.2
  unfold variableSays
  split
  · next names =>
    rw [variableKey?_option known names, Option.bind_some, pathOf, parsePath?_option name known,
      Option.getD_some, optionSays_plain name known plain, if_pos rfl]
  · next others =>
    rw [Option.bind_eq_none_iff]
    intro key read
    rw [Option.eq_none_iff_forall_ne_some]
    intro said speaks
    obtain ⟨table, option, parsed, isTable, isOption⟩ := exists_of_keyed plain speaks
    obtain ⟨text, chars⟩ := toList_of_parsePath?_pair parsed
    -- The key is made of lower-case letters, so that its parts are the names themselves.
    have small := isUpper_variableKey? read
    rw [text] at small
    have convert : table = "convert" :=
      eq_convert isTable fun c mem => small c (List.mem_append_left _ mem)
    have isName : option = name := by
      rw [← isOption]
      refine (Text.lowercase_self fun c mem => ⟨near_of_isKeyChar (chars c mem), ?_⟩).symm
      exact small c (List.mem_append_right _ (List.mem_cons_of_mem _ mem))
    rw [convert, isName] at text
    exact others (lowercase_eq_of_key known read text)

theorem lastSaid_variables {name : String} (known : name ∈ optionNames)
    (held : List (String × String)) :
    lastSaid (optionSays name) (Source.placed (.environment held)) =
      lastSaid (variableSays name) held := by
  have settings : Source.placed (.environment held) = placed (variableSettings held) := rfl
  rw [settings, placed, variableSettings, lastSaid_map, lastSaid_filterMap]
  refine lastSaid_congr fun pair _ => ?_
  rw [← optionSays_variable known, Option.bind_map]
  rfl

theorem namesTable_of_key {held key : String} (read : variableKey? held = some key)
    {tail : List Char} (same : key.toList = "convert".toList ++ tail)
    (tails : tail = [] ∨ ∃ more, tail = '[' :: more) : NamesTable held := by
  obtain ⟨rest, lower, points⟩ := variableKey?_eq_some read
  obtain ⟨behind, rfl, isTail⟩ := pointed_eq_append (by decide) (points.symm.trans same)
  rcases tails with rfl | ⟨more, rfl⟩
  · left
    rw [eq_nil_of_pointed isTail, List.append_nil] at lower
    exact String.toList_inj.1 lower
  · right
    have bracket : pointed behind = ['['] ++ more := isTail
    obtain ⟨more, rfl, -⟩ := pointed_eq_append (by decide) bracket
    exact ⟨more, lower.symm⟩

theorem keepsTable_variable {held : String × String} (others : ¬ NamesTable held.1) {key : String}
    (read : variableKey? held.1 = some key) :
    keepsTable (pathOf key, variableValue held.2) = true := by
  have small := isUpper_variableKey? read
  unfold pathOf
  cases parsed : parsePath? key with
  | none =>
      have other : Text.lowercase key ≠ "convert" := by
        intro same
        have isTable : key.toList = "convert".toList ++ [] := by
          rw [eq_convert same small, List.append_nil]
        exact others (namesTable_of_key read isTable (.inl rfl))
      simp [keepsTable, other]
  | some steps =>
      obtain ⟨name, more, rest, fuel, rfl, text, -, readMore⟩ := parsePath?_eq_some parsed
      rw [text] at small
      have other (tails : rest = [] ∨ ∃ more, rest = '[' :: more) :
          Text.lowercase name ≠ "convert" := by
        intro same
        have convert := eq_convert same fun c mem => small c (List.mem_append_left _ mem)
        exact others (namesTable_of_key read (convert ▸ text) tails)
      cases rest with
      | nil =>
          have steps : more = [] := by cases fuel <;> cases readMore <;> rfl
          subst steps
          simp [keepsTable, other (.inl rfl)]
      | cons c rest =>
          obtain ⟨step, behind, more, fuel, rfl, -, point | bracket⟩ :=
            readSteps?_cons_eq_some readMore
          · obtain ⟨inner, rfl, -⟩ := readKey?_eq_some point.2
            rfl
          · obtain ⟨index, rfl⟩ := readIndex?_eq_some bracket.2
            simp [keepsTable, other (.inr ⟨rest, by rw [bracket.1]⟩)]

end Blockmark.Settings
