import Blockmark.Proofs.Forest.Preorder
import Blockmark.Proofs.Render.Carrying
import Blockmark.Proofs.Render.Tracking

/-!
# Exporting prose

What becomes of the text of blocks: where all texts are plain words, the lines of the Markdown that
end in a letter are these texts behind some marks, in the order of the blocks. No text is lost,
written twice or moved, however lists, quotes and callouts are nested.

Main statement: `prose_lines`.
-/

namespace Blockmark.Render

open Text

def isPhrase (isWord : Char → Bool) (text : List Char) : Bool :=
  text.all (fun c => isWord c || c = ' ') && text.head?.any isWord && text.getLast?.any isWord

def isProseRole : TextRole → Bool
  | .paragraph | .bullet | .ordered | .todo | .quote => true
  | _ => false

def isContainer : BareRole → Bool
  | .quoteContainer | .view | .syncSource | .agenda | .agendaItem | .agendaItemTitle
  | .agendaItemContent => true
  | _ => false

def isPlainPhrase (isWord : Char → Bool) (body : TextBody) : Bool :=
  match body.elements with
  | [.run span] => span.style.isPlain && span.link.isNone && isPhrase isWord span.content.toList
  | _ => false

/-- A text of one plain run, or a container without a text of its own. -/
def isProse (isWord : Char → Bool) : Kind → Bool
  | .text role (some body) => isProseRole role && isPlainPhrase isWord body
  | .bare role => isContainer role
  | .callout _ | .gridColumn _ => true
  | _ => false

def texts (blocks : List Block) : List (List Char) :=
  (blocks.filter (·.kind.body?.isSome)).map (·.kind.ownText)

theorem texts_append (blocks more : List Block) :
    texts (blocks ++ more) = texts blocks ++ texts more := by
  simp [texts]

variable {isWord : Char → Bool}

/-! ## Phrases -/

structure Phrase (isWord : Char → Bool) (text : List Char) : Prop where
  starts : ∃ c, text.head? = some c ∧ isBlank c = false
  ends : ∃ c, text.getLast? = some c ∧ isWord c = true ∧ isBlank c = false
  whole : '\n' ∉ text ∧ '\r' ∉ text

theorem phrase_of_isPhrase (letters : Letters isWord) {text : List Char}
    (phrase : isPhrase isWord text = true) : Phrase isWord text := by
  simp only [isPhrase, Bool.and_eq_true, List.all_eq_true, Option.any_eq_true] at phrase
  obtain ⟨⟨inside, first, isFirst, letter⟩, last, isLast, letter'⟩ := phrase
  have absent (c : Char) (blank : isBlank c = true) (other : c ≠ ' ') : c ∉ text := by
    intro mem
    rcases Bool.or_eq_true_iff.1 (inside c mem) with letter | space
    · rw [(letters c letter).1] at blank
      cases blank
    · exact other (of_decide_eq_true space)
  exact ⟨⟨first, isFirst, (letters first letter).1⟩,
    ⟨last, isLast, letter', (letters last letter').1⟩,
    absent '\n' (by decide) (by decide), absent '\r' (by decide) (by decide)⟩

theorem Phrase.ne_nil {text : List Char} (phrase : Phrase isWord text) : text ≠ [] := by
  obtain ⟨c, first, -⟩ := phrase.starts
  rintro rfl
  cases first

theorem Phrase.renderRun_eq {content : String} (phrase : Phrase isWord content.toList) :
    renderRun { content } = content.toList := by
  obtain ⟨first, isFirst, inked⟩ := phrase.starts
  obtain ⟨last, isLast, -, inked'⟩ := phrase.ends
  obtain ⟨rest, split⟩ := List.head?_eq_some_iff.1 isFirst
  obtain ⟨front, split'⟩ := List.getLast?_eq_some_iff.1 isLast
  have start : trimStart content.toList = content.toList := by
    rw [trimStart, split, List.dropWhile_cons_of_neg (by simp [inked])]
  have finish : trimEnd content.toList = content.toList := by
    rw [trimEnd, split', List.reverse_append, List.reverse_singleton, List.singleton_append,
      List.dropWhile_cons_of_neg (by simp [inked']), List.reverse_cons, List.reverse_reverse]
  have noLead : leadingBlanks content.toList = [] := by
    rw [leadingBlanks, split, List.takeWhile_cons_of_neg (by simp [inked])]
  have noTrail : trailingBlanks content.toList = [] := by
    rw [trailingBlanks, split', List.reverse_append, List.reverse_singleton, List.singleton_append,
      List.takeWhile_cons_of_neg (by simp [inked']), List.reverse_nil]
  have some : content.toList.isEmpty = false := by simpa using phrase.ne_nil
  simp [renderRun, trim, start, finish, some, noLead, noTrail, applyStyle]

/-! ## One block -/

theorem body_of_isPlainPhrase (letters : Letters isWord) {body : TextBody}
    (plain : isPlainPhrase isWord body = true) (setting : Setting) :
    renderBody? setting (some body) = body.plainText.toList ∧
      Phrase isWord body.plainText.toList := by
  obtain ⟨elements, style⟩ := body
  unfold isPlainPhrase at plain
  split at plain
  · next span only =>
    obtain rfl : elements = [.run span] := only
    obtain ⟨content, flags, link⟩ := span
    simp only [Bool.and_eq_true, StyleFlags.isPlain, decide_eq_true_eq, Option.isNone_iff_eq_none]
      at plain
    obtain ⟨⟨rfl, rfl⟩, phrase⟩ := plain
    have phrase := phrase_of_isPhrase letters phrase
    have same : TextBody.plainText ⟨[.run { content }], style⟩ = content := by
      simp [TextBody.plainText, TextElement.plainText, String.join]
    rw [same]
    exact ⟨by simp [renderBody?, renderBody, renderElement, phrase.renderRun_eq], phrase⟩
  · cases plain

theorem carries_marked (letters : Letters isWord) {text : List Char} (phrase : Phrase isWord text)
    {marker : List Char} (whole : '\n' ∉ marker ∧ '\r' ∉ marker) :
    Carries isWord [text] (marker ++ text) := by
  obtain ⟨last, isLast, letter, -⟩ := phrase.ends
  exact carries_word letters isLast letter (by simp [whole, phrase.whole])

theorem descent_of_isProse {kind : Kind} (prose : isProse isWord kind = true) :
    descent kind = .children := by
  cases kind with
  | text role body =>
      cases body with
      | none => cases prose
      | some body =>
          cases role with
          | paragraph | bullet | ordered | todo | quote => rfl
          | _ => cases prose
  | bare role =>
      cases role with
      | quoteContainer | view | syncSource | agenda | agendaItem | agendaItemTitle
      | agendaItemContent => rfl
      | _ => cases prose
  | callout | gridColumn => rfl
  | _ => cases prose

theorem siblingText_eq_blockText {forest : Forest} {setting : Setting} (frame : Frame)
    (ordinal : Nat) {block : Block} (below : List Piece)
    (other : ∀ body, block.kind ≠ .text .quote body) :
    siblingText forest setting frame ordinal block below =
      blockText forest setting ordinal block below := by
  unfold siblingText
  split
  · next body kind _ => exact absurd kind (other body)
  · rfl

theorem carries_text (letters : Letters isWord) (forest : Forest) (setting : Setting)
    (frame : Frame) (ordinal : Nat) (id : BlockId) {role : TextRole} {body : TextBody}
    {children : List BlockId} (among : isProseRole role = true)
    (plain : isPlainPhrase isWord body = true) {below : List Piece} {words : List (List Char)}
    (inner : Carries isWord words (joinShown below)) (leaf : children = [] → below = []) :
    Carries isWord (body.plainText.toList :: words)
      (siblingText forest setting frame ordinal ⟨id, .text role (some body), children⟩ below) := by
  obtain ⟨shown, phrase⟩ := body_of_isPlainPhrase letters plain setting
  have own : Carries isWord [body.plainText.toList] body.plainText.toList :=
    carries_marked letters phrase (by simp : '\n' ∉ [] ∧ '\r' ∉ [])
  have item (width : Nat) {marker : List Char} (whole : '\n' ∉ marker ∧ '\r' ∉ marker) :
      Carries isWord (body.plainText.toList :: words)
        (listItem marker width (renderBody? setting (some body)) (joinShown below)) := by
    rw [shown]
    exact carries_listItem (carries_marked letters phrase whole)
      (List.append_ne_nil_of_right_ne_nil _ phrase.ne_nil) phrase.whole.1 inner
  have both : Carries isWord (body.plainText.toList :: words)
      (joinParagraphs [renderBody? setting (some body), joinShown below]) :=
    shown ▸ carries_joinParagraphs own inner
  cases role with
  | paragraph =>
      rw [siblingText_eq_blockText frame ordinal below (by simp)]
      exact both
  | bullet =>
      rw [siblingText_eq_blockText frame ordinal below (by simp)]
      exact item 2 (by decide : '\n' ∉ ['-', ' '] ∧ '\r' ∉ ['-', ' '])
  | ordered =>
      rw [siblingText_eq_blockText frame ordinal below (by simp)]
      exact item _ (whole_numberMarker ordinal)
  | todo =>
      rw [siblingText_eq_blockText frame ordinal below (by simp)]
      exact item 2 (whole_checkMarker _)
  | quote =>
      -- A quote without children is not quoted again inside a quote container.
      have quoted := (carries_quoteLines letters both).1
      unfold siblingText
      split
      · next same childless =>
        cases same
        rw [leaf childless] at inner
        rw [inner.words_eq_nil, shown]
        exact own
      · exact quoted
  | _ => cases among

theorem carries_siblingText (letters : Letters isWord) (forest : Forest) (setting : Setting)
    (frame : Frame) (ordinal : Nat) {block : Block} (prose : isProse isWord block.kind = true)
    {below : List Piece} {words : List (List Char)} (inner : Carries isWord words (joinShown below))
    (leaf : block.children = [] → below = []) :
    Carries isWord (texts [block] ++ words)
      (siblingText forest setting frame ordinal block below) := by
  obtain ⟨id, kind, children⟩ := block
  cases kind with
  | text role body =>
      cases body with
      | none => cases prose
      | some body =>
          obtain ⟨among, plain⟩ := Bool.and_eq_true_iff.1 prose
          exact carries_text letters forest setting frame ordinal id among plain inner leaf
  | bare role =>
      rw [siblingText_eq_blockText frame ordinal below (by simp)]
      cases role with
      | quoteContainer => exact (carries_quoteLines letters inner).1
      | view | syncSource | agenda | agendaItem | agendaItemTitle | agendaItemContent => exact inner
      | _ => cases prose
  | callout callout =>
      rw [siblingText_eq_blockText frame ordinal below (by simp)]
      exact carries_calloutText letters callout inner
  | gridColumn =>
      rw [siblingText_eq_blockText frame ordinal below (by simp)]
      exact inner
  | _ => cases prose

/-! ## All blocks -/

structure Plain (isWord : Char → Bool) (forest : Forest) : Prop where
  present : ∀ block ∈ forest.blocks, ∀ child ∈ block.children, forest.contains child = true
  prose : ∀ block ∈ forest.blocks, isProse isWord block.kind = true

theorem walk_of_isProse {block : Block} (prose : isProse isWord block.kind = true) :
    Walk.below block = .siblings 0 block.children := by
  rw [Walk.below, descent_of_isProse prose]

-- The parts are kept apart here, not joined: the texts of the siblings are joined in groups, and
-- which of them make a group is only known from all of them.
theorem carries_siblings (letters : Letters isWord) {forest : Forest}
    (plain : Plain isWord forest) (setting : Setting) (sub : Walk → List Shown)
    (ids : List BlockId) (present : ∀ id ∈ ids, forest.contains id = true)
    (deeper : ∀ id ∈ ids, ∀ block, forest.get? id = some block → ∃ blocks,
      forest.Preorder block.children blocks ∧ ∀ frame, Carries isWord (texts blocks)
        (joinShown (Shown.pieces forest setting frame (sub (.siblings 0 block.children)))))
    (nothing : sub (.siblings 0 []) = []) :
    ∃ blocks, forest.Preorder ids blocks ∧ ∀ before frame, ∃ parts, parts.flatten = texts blocks ∧
      List.Forall₂ (fun words piece => Carries isWord words piece.text) parts
        (Shown.pieces forest setting frame (outlineSiblings forest sub before ids)) := by
  induction ids with
  | nil => exact ⟨[], .nil, fun _ _ => ⟨[], rfl, .nil⟩⟩
  | cons id ids ih =>
      obtain ⟨block, found⟩ := Option.isSome_iff_exists.1 (present id List.mem_cons_self)
      obtain ⟨below, inside, inner⟩ := deeper id List.mem_cons_self block found
      obtain ⟨rest, behind, siblings⟩ := ih (fun id mem => present id (List.mem_cons_of_mem _ mem))
        fun id mem => deeper id (List.mem_cons_of_mem _ mem)
      have prose := plain.prose block (Forest.mem_of_get? found)
      refine ⟨block :: below ++ rest, .cons found inside behind, fun before frame => ?_⟩
      obtain ⟨parts, same, matched⟩ := siblings (ordinalBehind before block.kind) frame
      have own := carries_siblingText letters forest setting frame
        (ordinalBehind before block.kind) prose (inner (innerFrame block.kind))
        fun leaf => by rw [leaf, nothing]; rfl
      refine ⟨(texts [block] ++ texts below) :: parts, ?_, ?_⟩
      · rw [List.flatten_cons, same, ← texts_append, ← texts_append]
        rfl
      · rw [outlineSiblings, found]
        dsimp only
        rw [walk_of_isProse prose]
        exact .cons own matched

theorem carries_outline (letters : Letters isWord) {forest : Forest}
    (plain : Plain isWord forest) (setting : Setting) (levels : Nat) (ids : List BlockId)
    (present : ∀ id ∈ ids, forest.contains id = true)
    (fits : level (meets forest) levels (forest.entries .sibling ids) = []) :
    ∃ blocks, forest.Preorder ids blocks ∧ ∀ frame, Carries isWord (texts blocks)
      (joinShown
        (Shown.pieces forest setting frame (outline forest levels (.siblings 0 ids)))) := by
  induction levels generalizing ids with
  | zero =>
      -- All ids exist, so that nothing is left on this level only if there are no ids.
      have none : ids = [] := by
        rw [List.eq_nil_iff_forall_not_mem]
        intro id mem
        have there : (⟨.sibling, id⟩ : Entry) ∈ forest.entries .sibling ids :=
          Forest.mem_entries.2 ⟨rfl, mem, present id mem⟩
        rw [level] at fits
        rw [fits] at there
        cases there
      rw [none]
      exact ⟨[], .nil, fun _ => carries_nil⟩
  | succ levels ih =>
      have deeper : ∀ id ∈ ids, ∀ block, forest.get? id = some block → ∃ blocks,
          forest.Preorder block.children blocks ∧ ∀ frame, Carries isWord (texts blocks)
            (joinShown (Shown.pieces forest setting frame
              (outline forest levels (.siblings 0 block.children)))) := by
        intro id mem block found
        have known := Forest.mem_of_get? found
        refine ih block.children (plain.present block known) ?_
        have below := level_below_eq_nil fits
          (Forest.mem_entries.2 ⟨rfl, mem, present id mem⟩ : (⟨.sibling, id⟩ : Entry) ∈ _)
        rw [meets_found found, Walk.at, walk_of_isProse (plain.prose block known)] at below
        exact below
      obtain ⟨blocks, order, each⟩ := carries_siblings letters plain setting (outline forest levels)
        ids present deeper (outline_siblings_nil levels 0)
      refine ⟨blocks, order, fun frame => ?_⟩
      obtain ⟨parts, same, matched⟩ := each 0 frame
      exact same ▸ carries_joinShown matched

theorem lines_of_carries {words : List (List Char)} {text : List Char}
    (carries : Carries isWord words text) :
    List.Forall₂ (fun word line => word <:+ line) words ((lines
      (if text.isEmpty then "" else String.ofList (text ++ ['\n'])).toList).filter
        (endsIn isWord)) := by
  obtain ⟨parts, sheet, rfl, matched⟩ := carries
  by_cases some : parts = []
  · rw [some] at matched ⊢
    exact matched
  · have filled : (joinLines parts).isEmpty = false := by simpa using sheet.joinLines_ne_nil some
    rw [filled, if_neg Bool.false_ne_true, String.toList_ofList, sheet.lines_joinLines_concat some]
    exact matched

theorem cells_of_isProse {kind : Kind} (prose : isProse isWord kind = true) : kind.cells = [] := by
  cases kind with
  | table => cases prose
  | _ => rfl

/-- In a forest of prose the lines that end in a letter correspond to the blocks with a text, in
pre-order, and each ends with the text of its block. -/
theorem prose_lines (letters : Letters isWord) {forest : Forest} {roots : List BlockId}
    (present : ∀ id ∈ forest.listed roots, forest.contains id = true)
    (once : (forest.listed roots).Nodup)
    (bounded : ChainsWithin forest.childIds 100 roots)
    (prose : ∀ block ∈ forest.blocks, isProse isWord block.kind = true) (setting : Setting) :
    ∃ blocks, forest.Preorder roots blocks ∧
      List.Forall₂ (fun block line => block.kind.ownText <:+ line)
        (blocks.filter (·.kind.body?.isSome))
        ((lines (document forest setting roots).markdown.toList).filter (endsIn isWord)) := by
  have cells : ∀ block ∈ forest.blocks, block.kind.cells.Sublist block.children := fun block mem =>
    cells_of_isProse (prose block mem) ▸ List.nil_sublist _
  have plain : Plain isWord forest := by
    refine ⟨fun block mem child isChild => present child ?_, prose⟩
    exact List.mem_append_right _ (List.mem_flatMap.2 ⟨block, mem, isChild⟩)
  have tree := (Forest.lists_tree once cells).narrow (meets_sublist_lists forest)
  obtain ⟨blocks, order, carries⟩ := carries_outline letters plain setting 100 roots
    (fun id mem => present id (List.mem_append_left _ mem)) (level_meets_eq_nil cells bounded _)
  have written := lines_of_carries (carries .plain)
  rw [texts, List.forall₂_map_left_iff] at written
  refine ⟨blocks, order, ?_⟩
  rw [document, renderRoots_eq_layout, (tracks_planRoots tree).shown]
  exact written

theorem letters_isAlphanum : Letters Char.isAlphanum := by
  intro c letter
  refine ⟨?_, ?_, ?_⟩
  · have range : (48 ≤ c.toNat ∧ c.toNat ≤ 57) ∨ (65 ≤ c.toNat ∧ c.toNat ≤ 90) ∨
        (97 ≤ c.toNat ∧ c.toNat ≤ 122) := by
      delta Char.isAlphanum Char.isAlpha Char.isUpper Char.isLower Char.isDigit at letter
      simp [UInt32.le_iff_toNat_le] at letter
      omega
    simp [isBlank]
    omega
  · rintro rfl
    exact absurd letter (by decide)
  · rintro rfl
    exact absurd letter (by decide)

def notes : Forest := ⟨[
  ⟨"list", .text .bullet (some (.plain "first item")), ["more", "one"]⟩,
  ⟨"more", .text .paragraph (some (.plain "more of it")), []⟩,
  ⟨"one", .text .ordered (some (.plain "1")), []⟩,
  ⟨"box", .bare .quoteContainer, ["line", "deep"]⟩,
  ⟨"line", .text .quote (some (.plain "a line")), []⟩,
  ⟨"deep", .text .quote (some (.plain "below")), ["task"]⟩,
  ⟨"task", .text .todo (some (.plain "to do")), []⟩,
  ⟨"hint", .callout none, ["view"]⟩,
  ⟨"view", .bare .view, ["end"]⟩,
  ⟨"end", .text .paragraph (some (.plain "the end")), []⟩]⟩

theorem prose_lines_notes :
    (∃ blocks, notes.Preorder ["list", "box", "hint"] blocks ∧
      List.Forall₂ (fun block line => block.kind.ownText <:+ line)
        (blocks.filter (·.kind.body?.isSome))
        ((lines (document notes {} ["list", "box", "hint"]).markdown.toList).filter
          (endsIn Char.isAlphanum))) ∧
      ((lines (document notes {} ["list", "box", "hint"]).markdown.toList).filter
        (endsIn Char.isAlphanum)).map String.ofList =
        ["- first item", "  more of it", "  1. 1", "> a line", "> > below", "> > - [ ] to do",
          "> the end"] :=
  ⟨prose_lines letters_isAlphanum (by decide +kernel) (by decide +kernel)
    (level_eq_nil_iff.1 (by decide +kernel)) (by decide +kernel) {}, by decide +kernel⟩

end Blockmark.Render
