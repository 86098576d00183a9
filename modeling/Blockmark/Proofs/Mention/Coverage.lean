import Blockmark.Converter
import Blockmark.Proofs.Mention.Cache
import Blockmark.Proofs.Mention.Walk
import Blockmark.Proofs.Render.Shown

/-!
# Mentions that are looked up and mentions that are shown

Before a document is shown, another walk collects the users to look up. Both walks stop at the same
depth and pass over what they have met, but they follow different paths: the children of a heading,
say, are looked at and never shown. So a block may be looked at on the last level, where the walk
goes no further, and be shown higher up with everything below it. This is the only way in which a
shown block is never looked at.

Main statements: `lookedAt_of_shows` and `mem_collect_of_rendersUser`.
-/

namespace Blockmark.Mention

open Render

/-- A shown block that was looked at on the last level leads to a shown block that was never looked
at. -/
def CutShort (forest : Forest) (roots : List BlockId) : Prop :=
  ∃ above shown, Occurs (planRoots forest roots).1 above ∧ shown ∈ above.parts ∧
    ∃ block next, above.block? = some block ∧ shown.block? = some next ∧
      (block, 0) ∈ looks forest roots ∧ ¬ LookedAt forest roots next

section

variable {forest : Forest} {roots : List BlockId}

theorem not_cutShort_of_levels (left : ∀ entry ∈ looks forest roots, entry.2 ≠ 0) :
    ¬ CutShort forest roots := by
  rintro ⟨above, shown, occurs, mem, block, next, isBlock, isNext, last, fresh⟩
  exact left _ last rfl

theorem lookedAt_of_shows (whole : ¬ CutShort forest roots) {block : Block}
    (shows : Shows forest roots block) : LookedAt forest roots block := by
  obtain ⟨shown, occurs, isBlock⟩ := shows
  induction occurs generalizing block with
  | top mem =>
      obtain ⟨id, listed, found⟩ := (stems_planRoots roots _ mem).found isBlock
      exact lookedAt_of_root listed found
  | @part above shown occurs mem ih =>
      obtain ⟨ids, stems⟩ := occurs.stems (stems_planRoots roots)
      obtain ⟨upper, isUpper, below⟩ := stems.leads mem
      obtain ⟨id, listed, found⟩ := below.found isBlock
      obtain ⟨levels, entered⟩ := ih isUpper
      by_cases last : levels = 0
      · subst last
        by_contra fresh
        exact whole ⟨above, shown, occurs, mem, upper, block, isUpper, isBlock, entered, fresh⟩
      · exact lookedAt_below entered last listed found

theorem lookedAt_iff_not_cutShort :
    (∀ block, Shows forest roots block → LookedAt forest roots block) ↔
      ¬ CutShort forest roots := by
  constructor
  · rintro looked ⟨above, shown, occurs, mem, block, next, _, isNext, _, fresh⟩
    exact fresh (looked next ⟨shown, occurs.part mem, isNext⟩)
  · exact fun whole block shows => lookedAt_of_shows whole shows

theorem mentionedBy_of_renderedUsers {kind : Kind} {userId : String}
    (mem : userId ∈ renderedUsers kind) : userId ∈ mentionedBy kind := by
  unfold renderedUsers at mem
  split at mem
  · cases mem
  · cases mem
  · exact mem

theorem mem_collect_of_rendersUser (whole : ¬ CutShort forest roots) {userId : String}
    (renders : RendersUser forest roots userId) : userId ∈ collect forest roots := by
  obtain ⟨shown, occurs, mem⟩ := renders
  cases shown with
  | own block ordinal below =>
      have looked := lookedAt_of_shows whole ⟨_, occurs, rfl⟩
      exact mem_collect.2 ⟨block, looked, mentionedBy_of_renderedUsers mem⟩
  | passage block below => cases mem
  | gap => cases mem

theorem isSome_get?_exportDocument {converter : Converter} {resolver : Nat → Resolver}
    (expands : converter.options.expandMentions = true)
    (installed : converter.resolver = some resolver)
    (answers : ∀ call asked, ∃ users, resolver call asked = .ok users ∧ asked ⊆ users.map (·.1))
    {userId : String} (mem : userId ∈ collect forest roots) :
    ((converter.exportDocument forest roots).2.cache.get? userId).isSome := by
  rw [Converter.exportDocument, Converter.resolveMentions, if_pos expands, installed]
  exact Cache.isSome_get?_fill (answers _) mem

/-- Every shown block is looked at exactly if no walk is cut short. Then the users whose mentions
are rendered are collected, and an answer about everyone who is asked for makes all of them
known. -/
theorem covers_iff_not_cutShort (forest : Forest) (roots : List BlockId) :
    ((∀ block, Shows forest roots block → LookedAt forest roots block) ↔
      ¬ CutShort forest roots) ∧
    (¬ CutShort forest roots →
      (∀ userId, RendersUser forest roots userId → userId ∈ collect forest roots) ∧
      ∀ (converter : Converter) (resolver : Nat → Resolver),
        converter.options.expandMentions = true → converter.resolver = some resolver →
        (∀ call asked, ∃ users, resolver call asked = .ok users ∧ asked ⊆ users.map (·.1)) →
        ∀ userId, RendersUser forest roots userId →
          ((converter.exportDocument forest roots).2.cache.get? userId).isSome) := by
  refine ⟨lookedAt_iff_not_cutShort, fun whole => ⟨?_, ?_⟩⟩
  · exact fun userId renders => mem_collect_of_rendersUser whole renders
  · intro converter resolver expands installed answers userId renders
    exact isSome_get?_exportDocument expands installed answers
      (mem_collect_of_rendersUser whole renders)

end

theorem get?_single {userId other : String} (info : UserInfo) (apart : other ≠ userId) :
    ({} : Cache).get? other = (⟨[(userId, info)]⟩ : Cache).get? other := by
  simp [Cache.get?, apart.symm]

theorem covers_shared_child :
    let forest : Forest := ⟨[⟨"a", .bare .quoteContainer, ["b", "c"]⟩,
      ⟨"b", .text .quote none, ["c", "a", "d"]⟩,
      ⟨"c", .text .paragraph (some ⟨[.mentionUser "u1"], {}⟩), []⟩]⟩
    ¬ CutShort forest ["a"] ∧ RendersUser forest ["a"] "u1" ∧
      "u1" ∈ collect forest ["a"] ∧
      (((⟨{ expandMentions := true }, some fun _ asked => .ok (asked.map (·, ⟨"Ann", none⟩)), {},
        []⟩ : Converter).exportDocument forest ["a"]).2.cache.get? "u1").isSome := by
  intro forest
  have whole : ¬ CutShort forest ["a"] := not_cutShort_of_levels (by decide +kernel)
  have differs : document forest ⟨{ expandMentions := true }, {}⟩ ["a"] ≠
      document forest ⟨{ expandMentions := true }, ⟨[("u1", ⟨"Ann", none⟩)]⟩⟩ ["a"] := by
    decide +kernel
  have renders : RendersUser forest ["a"] "u1" :=
    rendersUser_of_document_ne (fun _ => get?_single ⟨"Ann", none⟩) differs
  have covers := (covers_iff_not_cutShort forest ["a"]).2 whole
  refine ⟨whole, renders, covers.1 "u1" renders, ?_⟩
  exact covers.2 _ _ rfl rfl (fun _ asked => ⟨_, rfl, fun user mem => by simpa using mem⟩) "u1"
    renders

/-! ## A mention that is missed -/

def stairs : List BlockId → List Block
  | id :: next :: ids => ⟨id, .bare .view, [next]⟩ :: stairs (next :: ids)
  | _ => []

def shortcut : Forest := ⟨
  ⟨"heading", .heading 1 none, ["1"]⟩ ::
  ⟨"text", .text .paragraph none, ["99"]⟩ ::
  ⟨"99", .text .paragraph none, ["mention"]⟩ ::
  ⟨"mention", .text .paragraph (some ⟨[.mentionUser "u1"], {}⟩), []⟩ ::
  stairs [
    "1", "2", "3", "4", "5", "6", "7", "8", "9", "10", "11", "12", "13", "14", "15", "16",
    "17", "18", "19", "20", "21", "22", "23", "24", "25", "26", "27", "28", "29", "30", "31",
    "32", "33", "34", "35", "36", "37", "38", "39", "40", "41", "42", "43", "44", "45", "46",
    "47", "48", "49", "50", "51", "52", "53", "54", "55", "56", "57", "58", "59", "60", "61",
    "62", "63", "64", "65", "66", "67", "68", "69", "70", "71", "72", "73", "74", "75", "76",
    "77", "78", "79", "80", "81", "82", "83", "84", "85", "86", "87", "88", "89", "90", "91",
    "92", "93", "94", "95", "96", "97", "98", "99"]⟩

theorem collect_shortcut : collect shortcut ["heading", "text"] = [] := by decide +kernel

theorem shortcut_missed :
    RendersUser shortcut ["heading", "text"] "u1" ∧
      "u1" ∉ collect shortcut ["heading", "text"] ∧
      ((⟨{ expandMentions := true }, some fun _ asked => .ok (asked.map (·, ⟨"Ann", none⟩)), {},
        []⟩ : Converter).exportDocument shortcut ["heading", "text"]).1.markdown =
        "#\n\n@[user:u1]\n" := by
  have differs : document shortcut ⟨{ expandMentions := true }, {}⟩ ["heading", "text"] ≠
      document shortcut ⟨{ expandMentions := true }, ⟨[("u1", ⟨"Ann", none⟩)]⟩⟩
        ["heading", "text"] := by
    decide +kernel
  refine ⟨?_, ?_, ?_⟩
  · exact rendersUser_of_document_ne (fun _ => get?_single ⟨"Ann", none⟩) differs
  · rw [collect_shortcut]
    exact List.not_mem_nil
  · rw [Converter.exportDocument, Converter.resolveMentions, if_pos rfl, collect_shortcut]
    decide +kernel

end Blockmark.Mention
