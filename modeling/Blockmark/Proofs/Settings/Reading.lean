import Blockmark.Proofs.Settings.Merging
import Mathlib.Data.List.TakeWhile
import Mathlib.Tactic.ByContra

/-!
# Options that are read from a table

Every option is read from the value under its name, and nothing else is read. What passes the check
can be used: its scheme is one, and images have a directory to go to.

Main statements: `optionsOfTable_eq_ok_iff` and `usable_of_build`.
-/

namespace Blockmark.Settings

theorem bind_eq_ok {ε α β : Type} {action : Except ε α} {next : α → Except ε β} {result : β} :
    action >>= next = .ok result ↔ ∃ value, action = .ok value ∧ next value = .ok result := by
  cases action <;> simp [bind, Except.bind]

theorem pure_eq_ok {ε α : Type} {value result : α} :
    (pure value : Except ε α) = .ok result ↔ value = result := by
  simp [pure, Except.pure]

theorem eq_ok_of_toOption {ε α : Type} {action : Except ε α} {result : α}
    (done : action.toOption = some result) : action = .ok result := by
  cases action with
  | error => cases done
  | ok value => exact congrArg Except.ok (Option.some.inj done)

/-! ## Reading -/

def optionNames : List String :=
  optionSettings.map (·.name)

/-- The options are what is read from the values of their names. -/
structure ReadFrom (value : String → Value) (options : ConvertOptions) : Prop where
  expandMentions :
    readSwitch "convert.expand_mentions" (value "expand_mentions") = .ok options.expandMentions
  downloadImages :
    readSwitch "convert.download_images" (value "download_images") = .ok options.downloadImages
  uploadImages :
    readSwitch "convert.upload_images" (value "upload_images") = .ok options.uploadImages
  documentId : readText "convert.document_id" (value "document_id") = .ok options.documentId
  uriScheme : readText "convert.uri_scheme" (value "uri_scheme") = .ok options.uriScheme
  imageDir : readText "convert.image_dir" (value "image_dir") = .ok options.imageDir

theorem optionsOfTable_eq_ok_iff {entries : List (String × Value)} {value : String → Value}
    (held : ∀ name ∈ optionNames, lookup name entries = some (value name))
    {options : ConvertOptions} :
    optionsOfTable entries = .ok options ↔ ReadFrom value options := by
  have mentions := held "expand_mentions" (by decide)
  have downloads := held "download_images" (by decide)
  have uploads := held "upload_images" (by decide)
  have document := held "document_id" (by decide)
  have scheme := held "uri_scheme" (by decide)
  have directory := held "image_dir" (by decide)
  simp only [optionsOfTable, optionSettings, List.foldlM_cons, List.foldlM_nil, switchSetting,
    textSetting, setIfFound, mentions, downloads, uploads, document, scheme, directory,
    bind_eq_ok, pure_eq_ok, String.reduceAppend]
  constructor
  · rintro ⟨_, ⟨mentions, readMentions, rfl⟩, _, ⟨downloads, readDownloads, rfl⟩, _,
      ⟨uploads, readUploads, rfl⟩, _, ⟨document, readDocument, rfl⟩, _,
      ⟨scheme, readScheme, rfl⟩, _, ⟨directory, readDirectory, rfl⟩, rfl⟩
    exact ⟨readMentions, readDownloads, readUploads, readDocument, readScheme, readDirectory⟩
  · rintro ⟨readMentions, readDownloads, readUploads, readDocument, readScheme, readDirectory⟩
    exact ⟨_, ⟨_, readMentions, rfl⟩, _, ⟨_, readDownloads, rfl⟩, _, ⟨_, readUploads, rfl⟩, _,
      ⟨_, readDocument, rfl⟩, _, ⟨_, readScheme, rfl⟩, _, ⟨_, readDirectory, rfl⟩, rfl⟩

theorem readSwitch_bool (place : String) (value : Bool) :
    readSwitch place (.bool value) = .ok value := rfl

theorem readText_string (place value : String) : readText place (.string value) = .ok value := rfl

theorem readSwitch_nested {value : Value} (nested : value.isNested = true) (place : String)
    (switch : Bool) : readSwitch place value ≠ .ok switch := by
  cases value with
  | table | array => simp [readSwitch]
  | _ => cases nested

theorem readText_nested {value : Value} (nested : value.isNested = true) (place : String)
    (text : String) : readText place value ≠ .ok text := by
  cases value with
  | table | array => simp [readText]
  | _ => cases nested

theorem ReadFrom.congr {value other : String → Value} {options : ConvertOptions}
    (read : ReadFrom value options)
    (like : ∀ name ∈ optionNames, value name = other name ∨ (value name).isNested = true) :
    ReadFrom other options := by
  have switch {name place : String} {result : Bool} (mem : name ∈ optionNames)
      (read : readSwitch place (value name) = .ok result) :
      readSwitch place (other name) = .ok result := by
    rcases like name mem with same | nested
    · rwa [← same]
    · exact absurd read (readSwitch_nested nested place result)
  have text {name place : String} {result : String} (mem : name ∈ optionNames)
      (read : readText place (value name) = .ok result) :
      readText place (other name) = .ok result := by
    rcases like name mem with same | nested
    · rwa [← same]
    · exact absurd read (readText_nested nested place result)
  exact ⟨switch (by decide) read.expandMentions, switch (by decide) read.downloadImages,
    switch (by decide) read.uploadImages, text (by decide) read.documentId,
    text (by decide) read.uriScheme, text (by decide) read.imageDir⟩

/-! ## Checking -/

structure Usable (options : ConvertOptions) : Prop where
  scheme : ∃ first more, options.uriScheme.toList = first :: more ∧
    Text.isLetter first = true ∧
    ∀ c ∈ more, Text.isLetter c = true ∨ Text.isDigit c = true ∨ c ∈ ['+', '-', '.']
  directory : options.downloadImages = true →
    ∃ c ∈ options.imageDir.toList, Text.isBlank c = false

theorem exists_of_isScheme {text : List Char} (valid : Link.isScheme text = true) :
    ∃ first more, text = first :: more ∧ Text.isLetter first = true ∧
      ∀ c ∈ more, Text.isLetter c = true ∨ Text.isDigit c = true ∨ c ∈ ['+', '-', '.'] := by
  cases text with
  | nil => cases valid
  | cons first more =>
      obtain ⟨letter, others⟩ := Bool.and_eq_true_iff.1 valid
      refine ⟨first, more, rfl, letter, ?_⟩
      intro c mem
      have char := List.all_eq_true.1 others c mem
      simpa [Link.isSchemeChar, or_assoc] using char

theorem exists_of_trim {text : List Char} (some : (Text.trim text).isEmpty = false) :
    ∃ c ∈ text, Text.isBlank c = false := by
  by_contra none
  have blank : ∀ c ∈ text, Text.isBlank c = true := by simpa using none
  have start : Text.trimStart text = [] := List.dropWhile_eq_nil_iff.2 blank
  simp [Text.trim, start, Text.trimEnd] at some

theorem checkOptions_eq_ok {options checked : ConvertOptions}
    (passes : checkOptions options = .ok checked) : checked = options ∧ Usable options := by
  unfold checkOptions at passes
  split at passes
  · cases passes
  · next valid =>
    split at passes
    · cases passes
    · next directed =>
      cases passes
      refine ⟨rfl, exists_of_isScheme (by simpa using valid), fun downloads => ?_⟩
      exact exists_of_trim (by simpa [downloads] using directed)

theorem usable_default : Usable {} :=
  ⟨exists_of_isScheme (by decide), fun downloads => by cases downloads⟩

theorem Loader.usable_of_build {loader : Loader} {config : Config}
    (built : loader.build = .ok config) : Usable config.convert := by
  obtain ⟨settings, -, built⟩ := bind_eq_ok.1 built
  split at built
  · cases built
    exact usable_default
  · obtain ⟨options, -, built⟩ := bind_eq_ok.1 built
    obtain ⟨checked, passes, built⟩ := bind_eq_ok.1 built
    cases built
    obtain ⟨rfl, usable⟩ := checkOptions_eq_ok passes
    exact usable

end Blockmark.Settings
