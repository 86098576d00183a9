import Blockmark.Proofs.Json.Scanning
import Blockmark.Proofs.Settings.Precedence

/-!
# Options that are texts, in variables

A variable that is spelled like a truth value or a number is read as one, also where its option is
a text. The option is then what that value is written as, which is the text of the variable only if
it was spelled the way in which values are written.

Main statement: `variable_kept_iff`.
-/

namespace Blockmark.Settings

open Json (natText natOfDigits readSign)

/-! ## Integers -/

/-- No plus sign, and no zero in front of other digits or behind a minus sign. -/
def IsTerse (text : List Char) : Prop :=
  text.head? ≠ some '+' ∧ ((readSign text).2.head? = some '0' → text = ['0'])

theorem toList_toString_natCast (n : Nat) : (toString (n : Int)).toList = natText n := by
  have same : toString (n : Int) = toString n := rfl
  rw [same, Nat.toString_eq_ofList_toDigits, String.toList_ofList, natText]

theorem toList_toString_neg {n : Nat} (positive : 0 < n) :
    (toString (-n : Int)).toList = '-' :: natText n := by
  obtain ⟨n, rfl⟩ := Nat.exists_eq_succ_of_ne_zero (Nat.ne_of_gt positive)
  have same : toString (-(n.succ : Nat) : Int) = "-" ++ toString n.succ := rfl
  have written : (toString n.succ).toList = natText n.succ := by
    rw [Nat.toString_eq_ofList_toDigits, String.toList_ofList, natText]
  rw [same, String.toList_append, written]
  rfl

theorem readSign_natText (n : Nat) : readSign (natText n) = (false, natText n) := by
  have digits : ∀ c ∈ natText n, Text.isDigit c = true := fun c => Json.isDigit_of_mem_natText
  unfold readSign
  split
  · next rest eq => exact absurd (digits '-' (by rw [eq]; exact List.mem_cons_self)) (by decide)
  · next rest eq => exact absurd (digits '+' (by rw [eq]; exact List.mem_cons_self)) (by decide)
  · rfl

theorem isTerse_natText (n : Nat) : IsTerse (natText n) := by
  refine ⟨fun plus => ?_, fun zero => ?_⟩
  · have digit := Json.isDigit_of_mem_natText (List.mem_of_mem_head? plus)
    exact absurd digit (by decide)
  · rw [readSign_natText] at zero
    rcases Nat.eq_zero_or_pos n with rfl | positive
    · rfl
    · exact absurd zero (Json.head?_natText_ne positive)

theorem isTerse_neg {n : Nat} (positive : 0 < n) : IsTerse ('-' :: natText n) :=
  ⟨by simp, fun zero => absurd zero (Json.head?_natText_ne positive)⟩

theorem isTerse_toString (n : Int) : IsTerse (toString n).toList := by
  rcases Int.eq_nat_or_neg n with ⟨n, rfl | rfl⟩
  · rw [toList_toString_natCast]
    exact isTerse_natText n
  · rcases Nat.eq_zero_or_pos n with rfl | positive
    · exact isTerse_natText 0
    · rw [toList_toString_neg positive]
      exact isTerse_neg positive

theorem readInteger?_eq_some {text digits : List Char} {negative : Bool}
    (parts : readSign text = (negative, digits)) {n : Int} (read : readInteger? text = some n) :
    digits ≠ [] ∧ (∀ c ∈ digits, Text.isDigit c = true) ∧
      n = if negative then -(natOfDigits digits : Int) else natOfDigits digits := by
  simp only [readInteger?, parts] at read
  split at read
  · cases read
  · next isNumber =>
    have isNumber : digits ≠ [] ∧ ∀ c ∈ digits, Text.isDigit c = true := by simpa using isNumber
    rw [Option.ite_none_right_eq_some] at read
    exact ⟨isNumber.1, isNumber.2, (Option.some.inj read.2).symm⟩

theorem toString_eq_iff {text : List Char} {n : Int} (read : readInteger? text = some n) :
    (toString n).toList = text ↔ IsTerse text := by
  constructor
  · rintro rfl
    exact isTerse_toString n
  · rintro ⟨plus, zero⟩
    cases parts : readSign text with
    | mk negative digits =>
        obtain ⟨some, each, rfl⟩ := readInteger?_eq_some parts read
        rw [parts] at zero
        unfold readSign at parts
        split at parts
        · cases parts
          have lead : digits.head? ≠ .some '0' := fun isZero => by cases zero isZero
          have same := Json.natText_natOfDigits some each fun isZero => absurd isZero lead
          have positive : 0 < natOfDigits digits := by
            refine Nat.pos_of_ne_zero fun none => lead ?_
            rw [← same, none]
            rfl
          rw [if_pos rfl, toList_toString_neg positive, same]
        · exact absurd rfl plus
        · cases parts
          rw [if_neg Bool.false_ne_true, toList_toString_natCast]
          exact Json.natText_natOfDigits some each zero

/-! ## Any text -/

def readBack (text : String) : String :=
  if Text.lowercase text = "true" then "true"
  else if Text.lowercase text = "false" then "false"
  else match readInteger? text.toList with
    | some n => toString n
    | none =>
      match readFloat? text.toList with
      | some double => double.text
      | none => text

/-- The texts that are not changed: those that are spelled like no value, and the values in the
spelling in which they are written. -/
def IsKept (text : String) : Prop :=
  if Text.lowercase text = "true" ∨ Text.lowercase text = "false" then
    text = "true" ∨ text = "false"
  else match readInteger? text.toList with
    | some _ => IsTerse text.toList
    | none => ∀ double, readFloat? text.toList = some double → double.text = text

theorem readText_variableValue (place text : String) :
    readText place (variableValue text) = .ok (readBack text) := by
  unfold variableValue readBack
  split
  · rfl
  split
  · rfl
  cases readInteger? text.toList with
  | some n => rfl
  | none => cases readFloat? text.toList <;> rfl

theorem readBack_eq_iff (text : String) : readBack text = text ↔ IsKept text := by
  have lowerTrue : Text.lowercase "true" = "true" := by decide +kernel
  have lowerFalse : Text.lowercase "false" = "false" := by decide +kernel
  unfold readBack IsKept
  by_cases isTrue : Text.lowercase text = "true"
  · rw [if_pos isTrue, if_pos (.inl isTrue)]
    refine ⟨fun same => .inl same.symm, ?_⟩
    rintro (rfl | rfl)
    · rfl
    · exact absurd (lowerFalse.symm.trans isTrue) (by decide)
  by_cases isFalse : Text.lowercase text = "false"
  · rw [if_neg isTrue, if_pos isFalse, if_pos (.inr isFalse)]
    refine ⟨fun same => .inr same.symm, ?_⟩
    rintro (rfl | rfl)
    · exact absurd lowerTrue isTrue
    · rfl
  rw [if_neg isTrue, if_neg isFalse, if_neg (not_or.2 ⟨isTrue, isFalse⟩)]
  cases integer : readInteger? text.toList with
  | some n => exact String.toList_inj.symm.trans (toString_eq_iff integer)
  | none => cases readFloat? text.toList <;> simp

/-! ## Options -/

inductive TextOption
  | documentId
  | uriScheme
  | imageDir

namespace TextOption

def name : TextOption → String
  | documentId => "document_id"
  | uriScheme => "uri_scheme"
  | imageDir => "image_dir"

def variableName : TextOption → String
  | documentId => "LARKDOC_CONVERT__DOCUMENT_ID"
  | uriScheme => "LARKDOC_CONVERT__URI_SCHEME"
  | imageDir => "LARKDOC_CONVERT__IMAGE_DIR"

def get (options : ConvertOptions) : TextOption → String
  | documentId => options.documentId
  | uriScheme => options.uriScheme
  | imageDir => options.imageDir

def set (text : String) (options : ConvertOptions) : TextOption → ConvertOptions
  | documentId => { options with documentId := text }
  | uriScheme => { options with uriScheme := text }
  | imageDir => { options with imageDir := text }

theorem get_set (option : TextOption) (text : String) (options : ConvertOptions) :
    option.get (option.set text options) = text := by
  cases option <;> rfl

def load (option : TextOption) (text : String) : Except LoadError Config :=
  (({} : Loader).withVariables [(option.variableName, text)]).build

theorem name_mem (option : TextOption) : option.name ∈ optionNames := by
  cases option <;> decide

theorem placed_variable (option : TextOption) (text : String) :
    Source.placed (.environment [(option.variableName, text)]) =
      [([.key "convert", .key option.name], variableValue text)] := by
  have names : Text.lowercase option.variableName = "larkdoc_convert__" ++ option.name := by
    cases option <;> decide +kernel
  have key := variableKey?_option option.name_mem (.inl names)
  have path : pathOf ("convert." ++ option.name) = [.key "convert", .key option.name] := by
    rw [pathOf, parsePath?_option _ option.name_mem, Option.getD_some]
  simp [Source.placed, placed, Source.settings, variableSettings, key, path, Except.toOption]

theorem merged_variables (held : List (String × String)) :
    (({} : Loader).withVariables held).merged =
      .ok ((variableSettings held).foldl laySetting defaults) := rfl

theorem merged_variable (option : TextOption) (text : String) :
    (({} : Loader).withVariables [(option.variableName, text)]).merged =
      .ok (.table [("convert", .table
        (setEntry option.name (variableValue text) (optionsTable {}).entries))]) := by
  have merged := merged_variables [(option.variableName, text)]
  have laid : store (variableValue text) [.key option.name] (optionsTable {}) =
      .table (setEntry option.name (variableValue text) (optionsTable {}).entries) := by
    rw [store, put_plain _ _ (isTable_variableValue text), lowercase_of_mem _ option.name_mem]
  rw [merged, merged_eq merged]
  simp only [Loader.withVariables, Loader.addSource, List.nil_append, List.append_nil,
    List.flatMap_singleton, placed_variable, List.foldl_cons, List.foldl_nil, lay]
  rw [← laid]
  simp [store, Value.alterKey, lowercase_convert, defaults, Value.entries, lookup, setEntry]

theorem readFrom_set (option : TextOption) (text : String) :
    ReadFrom (fun name => if option.name = name then variableValue text else embedded name)
      (option.set (readBack text) {}) := by
  cases option <;> constructor <;>
    simp [name, set, readText_variableValue, embedded, optionsTable, Value.entries, lookup,
      readSwitch_bool, readText_string]

theorem load_eq (option : TextOption) (text : String) :
    option.load text = (checkOptions (option.set (readBack text) {})).map Config.mk := by
  have held : ∀ name ∈ optionNames,
      lookup name (setEntry option.name (variableValue text) (optionsTable {}).entries) =
        some (if option.name = name then variableValue text else embedded name) := by
    intro name mem
    rw [lookup_setEntry, lookup_optionsTable mem]
    split <;> rfl
  have read := (optionsOfTable_eq_ok_iff held).2 (option.readFrom_set text)
  have found (value : Value) : lookup "convert" (Value.table [("convert", value)]).entries =
      some value := by
    simp [lookup, Value.entries]
  rw [load, Loader.build, merged_variable]
  simp only [bind, Except.bind, found, readOptions, read]
  cases checkOptions (option.set (readBack text) {}) <;> rfl

end TextOption

/-- One variable sets its option to the text that its value is written as. That is the text of the
variable if and only if it is kept. -/
theorem variable_kept_iff (option : TextOption) (text : String) :
    option.load text = (checkOptions (option.set (readBack text) {})).map Config.mk ∧
      ∀ config, option.load text = .ok config →
        (option.get config.convert = text ↔ IsKept text) := by
  refine ⟨option.load_eq text, fun config loaded => ?_⟩
  rw [option.load_eq text] at loaded
  cases passes : checkOptions (option.set (readBack text) {}) with
  | error fault =>
      rw [passes] at loaded
      cases loaded
  | ok options =>
      rw [passes] at loaded
      cases loaded
      rw [(checkOptions_eq_ok passes).1, option.get_set]
      exact readBack_eq_iff text

theorem variable_kept_larksuite :
    TextOption.uriScheme.load "larksuite" = .ok ⟨{ uriScheme := "larksuite" }⟩ ∧
      IsKept "larksuite" := by
  have loaded : TextOption.uriScheme.load "larksuite" = .ok ⟨{ uriScheme := "larksuite" }⟩ :=
    eq_ok_of_toOption (by decide +kernel)
  exact ⟨loaded, ((variable_kept_iff .uriScheme "larksuite").2 _ loaded).1 rfl⟩

theorem variable_rewritten :
    ¬ ∀ (option : TextOption) (text : String) (config : Config),
      option.load text = .ok config → option.get config.convert = text := by
  intro kept
  have loaded : TextOption.documentId.load "007" = .ok ⟨{ documentId := "7" }⟩ :=
    eq_ok_of_toOption (by decide +kernel)
  exact absurd (kept .documentId "007" _ loaded) (by decide)

end Blockmark.Settings
