import Blockmark.Proofs.Forest.Preorder
import Blockmark.Proofs.Import.Planted
import Blockmark.Proofs.Inline.Text

/-!
# The text of imported documents

Texts reach the blocks in several ways: as the text of a list item or as a paragraph below it, as
lines of a quote of which the empty ones are left out, as code, as HTML. In pre-order of the blocks
they are what they were in the document, nothing is lost, doubled or moved.

Main statement: `document_text`.
-/

namespace Blockmark.Import

open Markdown Inline

/-! ## Documents of prose -/

mutual

/-- A block without tables, images, callouts and the like, of which nothing is nested too deep. -/
def isProse (depth : Nat) : Node → Bool
  | .mk kind children =>
    depth < maxDepth && match kind with
    | .heading _ | .paragraph => Inline.areProse 0 children
    | .list _ _ => areItems (depth + 1) children
    | .blockQuote =>
      (children.head?.bind calloutMarker?).isNone && areQuoted (depth + 1) children
    | .codeBlock _ _ | .htmlBlock _ | .thematicBreak => children.isEmpty
    | _ => false

def areProse (depth : Nat) : List Node → Bool
  | [] => true
  | node :: nodes => isProse depth node && areProse depth nodes

def areItems (depth : Nat) : List Node → Bool
  | [] => true
  | node :: nodes => isItem depth node && areItems depth nodes

def isItem (depth : Nat) : Node → Bool
  | .mk kind children =>
    depth < maxDepth && (itemCheckbox? kind).isSome && areParts (depth + 1) children

/-- A paragraph in front is the text of its item, wherever that is. -/
def areParts (depth : Nat) : List Node → Bool
  | [] => true
  | node :: nodes =>
    (if node.isParagraph then Inline.areProse 0 node.children else isProse depth node) &&
      areProse depth nodes

/-- The lines of a paragraph in a quote are imported wherever the quote is. -/
def areQuoted (depth : Nat) : List Node → Bool
  | [] => true
  | node :: nodes =>
    (if node.isParagraph then Inline.areProse 0 node.children
      else if node.kind = .thematicBreak then node.children.isEmpty
      else isProse depth node) && areQuoted depth nodes

end

def withoutLineEnd (text : List Char) : List Char :=
  if text.getLast? = some '\n' then text.dropLast else text

mutual

def blockProse : Node → List Char
  | .mk kind children =>
    match kind with
    | .heading _ | .paragraph => proseTexts children
    | .codeBlock _ literal => withoutLineEnd literal.toList
    | .htmlBlock literal => Text.trimEnd literal.toList
    | .blockQuote => quotedProse children
    | _ => blocksProse children

def blocksProse : List Node → List Char
  | [] => []
  | node :: nodes => blockProse node ++ blocksProse nodes

/-- The texts in a quote. The breaks of a paragraph only part its lines. -/
def quotedProse : List Node → List Char
  | [] => []
  | node :: nodes =>
    (if node.isParagraph then proseTexts (node.children.filter (!·.isBreak))
      else blockProse node) ++ quotedProse nodes

end

/-! ## The text of drafts -/

mutual

def Draft.text : Draft → List Char
  | .mk _ kind _ children => kind.ownText ++ Draft.textOfAll children

def Draft.textOfAll : List Draft → List Char
  | [] => []
  | draft :: drafts => draft.text ++ Draft.textOfAll drafts

end

theorem textOfAll_append (drafts more : List Draft) :
    Draft.textOfAll (drafts ++ more) = Draft.textOfAll drafts ++ Draft.textOfAll more := by
  induction drafts with
  | nil => rfl
  | cons draft drafts ih => simp [Draft.textOfAll, ih]

theorem textOfAll_leaf (kind : Kind) : Draft.textOfAll [.leaf kind] = kind.ownText := by
  simp [Draft.textOfAll, Draft.leaf, Draft.text]

theorem textOfAll_container (kind : Kind) (children : List Draft) :
    Draft.textOfAll [.container kind children] = kind.ownText ++ Draft.textOfAll children := by
  simp [Draft.textOfAll, Draft.container, Draft.text]

theorem ownText_text (role : TextRole) (body : TextBody) :
    (Kind.text role (some body)).ownText = elementsText body.elements :=
  toList_plainText body

theorem ownText_withCells (ids : List BlockId) (kind : Kind) :
    (withCells ids kind).ownText = kind.ownText := by
  cases kind with
  | table property => cases property <;> rfl
  | _ => rfl

mutual

theorem preorder_of_planted {forest : Forest} (draft : Draft) {id : BlockId}
    (planted : Planted forest draft id) :
    ∃ block below, forest.get? id = some block ∧ forest.Preorder block.children below ∧
      (block :: below).flatMap (·.kind.ownText) = draft.text := by
  obtain ⟨numbering, kind, raw, children⟩ := draft
  obtain ⟨-, ids, found, inner⟩ := planted
  obtain ⟨below, order, text⟩ := preorder_of_plantedAll children inner
  refine ⟨_, below, found, order, ?_⟩
  rw [List.flatMap_cons, text, ownText_withCells, Draft.text]

theorem preorder_of_plantedAll {forest : Forest} (drafts : List Draft) {ids : List BlockId}
    (planted : PlantedAll forest drafts ids) :
    ∃ blocks, forest.Preorder ids blocks ∧
      blocks.flatMap (·.kind.ownText) = Draft.textOfAll drafts := by
  cases drafts with
  | nil =>
      obtain rfl : ids = [] := planted
      exact ⟨[], .nil, rfl⟩
  | cons draft drafts =>
      obtain ⟨id, more, rfl, first, rest⟩ := planted
      obtain ⟨block, below, found, inside, text⟩ := preorder_of_planted draft first
      obtain ⟨blocks, behind, others⟩ := preorder_of_plantedAll drafts rest
      refine ⟨block :: below ++ blocks, .cons found inside behind, ?_⟩
      rw [List.flatMap_append, text, others, Draft.textOfAll]

end

/-! ## Leaves -/

theorem isProse_of_mem {depth : Nat} {nodes : List Node}
    (prose : Inline.areProse depth nodes = true) {node : Node} (mem : node ∈ nodes) :
    Inline.isProse depth node = true := by
  induction nodes with
  | nil => cases mem
  | cons first nodes ih =>
      obtain ⟨here, rest⟩ := Bool.and_eq_true_iff.1 prose
      rcases List.mem_cons.1 mem with rfl | mem
      · exact here
      · exact ih rest mem

theorem textOfAll_importParagraph (options : ConvertOptions) {nodes : List Node}
    (prose : Inline.areProse 0 nodes = true) :
    Draft.textOfAll [importParagraph options nodes] = proseTexts nodes := by
  have plain : importParagraph options nodes =
      textLeaf .paragraph { elements := compose options nodes } := by
    unfold importParagraph
    dsimp only
    split
    · next only alone =>
      have inside : only ∈ nodes := by
        have mem : only ∈ nodes.filter (!isBlankInline ·) := alone ▸ List.mem_singleton.2 rfl
        exact (List.mem_filter.1 mem).1
      have form := isProse_of_mem prose inside
      obtain ⟨kind, children⟩ := only
      split
      · next url same =>
        obtain rfl : kind = .image url := same
        simp [Inline.isProse] at form
      · next literal same =>
        obtain rfl : kind = .math true literal := same
        simp [Inline.isProse] at form
      · rfl
    · rfl
  rw [plain, textLeaf, textOfAll_leaf, ownText_text, text_compose options prose]

theorem elementsText_of_isEmpty {body : TextBody} (empty : body.isEmpty = true) :
    elementsText body.elements = [] := by
  refine List.flatMap_eq_nil_iff.2 fun element mem => ?_
  have each := List.all_eq_true.1 empty element mem
  cases element with
  | run span => simpa [TextElement.plainText] using each
  | _ => cases each

theorem splitLines_prose {nodes : List Node} (prose : Inline.areProse 0 nodes = true) :
    (∀ line ∈ splitLines nodes, Inline.areProse 0 line = true) ∧
      (splitLines nodes).flatMap proseTexts = proseTexts (nodes.filter (!·.isBreak)) := by
  induction nodes with
  | nil => exact ⟨by simp [splitLines, Inline.areProse], rfl⟩
  | cons node nodes ih =>
      obtain ⟨first, rest⟩ := Bool.and_eq_true_iff.1 prose
      obtain ⟨lines, text⟩ := ih rest
      rw [splitLines]
      cases isBreak : node.isBreak with
      | true =>
          rw [if_pos rfl, List.filter_cons_of_neg (by simp [isBreak]), List.flatMap_cons, text]
          exact ⟨List.forall_mem_cons.2 ⟨rfl, lines⟩, rfl⟩
      | false =>
          rw [if_neg Bool.false_ne_true, List.filter_cons_of_pos (by simp [isBreak]), proseTexts,
            ← text]
          cases cut : splitLines nodes with
          | nil => exact ⟨by simp [Inline.areProse, first], by simp [proseTexts]⟩
          | cons line more =>
              rw [cut] at lines
              have joined : Inline.areProse 0 (node :: line) = true :=
                Bool.and_eq_true_iff.2 ⟨first, lines line List.mem_cons_self⟩
              refine ⟨List.forall_mem_cons.2 ⟨joined, fun line mem =>
                lines line (List.mem_cons_of_mem _ mem)⟩, ?_⟩
              rw [List.flatMap_cons, List.flatMap_cons, proseTexts, List.append_assoc]

theorem textOfAll_quoteLeaves (options : ConvertOptions) {nodes : List Node}
    (prose : Inline.areProse 0 nodes = true) :
    Draft.textOfAll (quoteLeaves options nodes) = proseTexts (nodes.filter (!·.isBreak)) := by
  obtain ⟨lines, text⟩ := splitLines_prose prose
  rw [← text, quoteLeaves]
  generalize splitLines nodes = parts at lines
  induction parts with
  | nil => rfl
  | cons line parts ih =>
      have first := text_compose options (lines line List.mem_cons_self)
      have rest := ih fun line mem => lines line (List.mem_cons_of_mem _ mem)
      rw [List.filterMap_cons, List.flatMap_cons, ← rest]
      dsimp only
      split
      · next none =>
        split at none
        · next empty =>
          have blank := elementsText_of_isEmpty empty
          rw [← first, blank, List.nil_append]
        · cases none
      · next draft some =>
        split at some
        · cases some
        · obtain rfl := Option.some.inj some
          rw [Draft.textOfAll, textLeaf, Draft.leaf, Draft.text, ownText_text, first,
            Draft.textOfAll, List.append_nil]

theorem textOfAll_codeDraft (info literal : String) :
    Draft.textOfAll [codeDraft info literal] = withoutLineEnd literal.toList := by
  have text : (codeText literal).toList = withoutLineEnd literal.toList := by
    rw [codeText, withoutLineEnd]
    split
    · exact String.toList_ofList
    · rfl
  rw [codeDraft, textLeaf, textOfAll_leaf, ownText_text, ← text]
  dsimp only
  split
  · next empty => simp [elementsText, String.isEmpty_iff.1 empty]
  · simp [elementsText, TextElement.plainText]

theorem ownText_itemKind (ordered : Bool) (sequence : Option Nat) (checkbox : Option Bool)
    (elements : List TextElement) :
    (itemKind ordered sequence checkbox elements).ownText = elementsText elements := by
  unfold itemKind
  split
  · exact ownText_text _ _
  · split <;> exact ownText_text _ _

/-! ## All nodes -/

theorem areParts_of_areProse {depth : Nat} {nodes : List Node}
    (prose : areProse depth nodes = true) : areParts depth nodes = true := by
  cases nodes with
  | nil => rfl
  | cons node nodes =>
      obtain ⟨first, rest⟩ := Bool.and_eq_true_iff.1 prose
      rw [areParts, rest, Bool.and_true]
      split
      · next isParagraph =>
        obtain ⟨kind, children⟩ := node
        obtain rfl : kind = .paragraph := of_decide_eq_true isParagraph
        exact (Bool.and_eq_true_iff.1 first).2
      · exact first

mutual

theorem text_importBlock (options : ConvertOptions) (depth : Nat) (node : Node)
    (prose : isProse depth node = true) :
    Draft.textOfAll (importBlock options depth node) = blockProse node := by
  obtain ⟨kind, children⟩ := node
  obtain ⟨inside, form⟩ := Bool.and_eq_true_iff.1 prose
  rw [importBlock_of_inside options (by simpa using inside)]
  cases kind with
  | heading level =>
      dsimp only
      rw [textOfAll_leaf]
      exact (toList_plainText _).trans (text_compose options form)
  | paragraph => exact textOfAll_importParagraph options form
  | list ordered start => exact text_importItems options ordered _ (depth + 1) children form
  | blockQuote =>
      obtain ⟨noMarker, quoted⟩ := Bool.and_eq_true_iff.1 form
      dsimp only
      rw [Option.isNone_iff_eq_none.1 noMarker, textOfAll_container]
      exact text_importQuoted options (depth + 1) children quoted
  | codeBlock info literal => exact textOfAll_codeDraft info literal
  | thematicBreak =>
      rw [List.isEmpty_iff.1 form]
      rfl
  | htmlBlock literal =>
      dsimp only
      rw [textLeaf, textOfAll_leaf, ownText_text]
      change _ = Text.trimEnd literal.toList
      simp [elementsText, TextBody.plain, TextElement.plainText]
  | _ => cases form

theorem text_importBlocks (options : ConvertOptions) (depth : Nat) (nodes : List Node)
    (prose : areProse depth nodes = true) :
    Draft.textOfAll (importBlocks options depth nodes) = blocksProse nodes := by
  cases nodes with
  | nil => rfl
  | cons node nodes =>
      obtain ⟨first, rest⟩ := Bool.and_eq_true_iff.1 prose
      rw [importBlocks, textOfAll_append, text_importBlock options depth node first,
        text_importBlocks options depth nodes rest, blocksProse]

theorem text_importItems (options : ConvertOptions) (ordered : Bool) (sequence : Option Nat)
    (depth : Nat) (nodes : List Node) (items : areItems depth nodes = true) :
    Draft.textOfAll (importItems options ordered sequence depth nodes) = blocksProse nodes := by
  cases nodes with
  | nil => rfl
  | cons node nodes =>
      obtain ⟨first, rest⟩ := Bool.and_eq_true_iff.1 items
      rw [importItems, textOfAll_append, text_importItem options ordered sequence depth node first,
        text_importItems options ordered none depth nodes rest, blocksProse]

theorem text_importItem (options : ConvertOptions) (ordered : Bool) (sequence : Option Nat)
    (depth : Nat) (node : Node) (item : isItem depth node = true) :
    Draft.textOfAll (importItem options ordered sequence depth node) = blockProse node := by
  obtain ⟨kind, children⟩ := node
  obtain ⟨head, parts⟩ := Bool.and_eq_true_iff.1 item
  obtain ⟨inside, box⟩ := Bool.and_eq_true_iff.1 head
  have text := text_importItemParts options (depth + 1) children parts
  have below : blockProse (.mk kind children) = blocksProse children := by
    cases kind with
    | item | taskItem => rfl
    | _ => cases box
  obtain ⟨checkbox, same⟩ := Option.isSome_iff_exists.1 box
  rw [importItem, if_neg (by simpa using inside), same, textOfAll_container, ownText_itemKind, text,
    below]

theorem text_importItemParts (options : ConvertOptions) (depth : Nat) (nodes : List Node)
    (parts : areParts depth nodes = true) :
    elementsText (importItemParts options depth nodes).1 ++
      Draft.textOfAll (importItemParts options depth nodes).2 = blocksProse nodes := by
  cases nodes with
  | nil => rfl
  | cons node nodes =>
      obtain ⟨first, rest⟩ := Bool.and_eq_true_iff.1 parts
      have behind := text_importBlocks options depth nodes rest
      rw [importItemParts, blocksProse]
      cases isParagraph : node.isParagraph with
      | true =>
          rw [isParagraph, if_pos rfl] at first
          obtain ⟨kind, children⟩ := node
          obtain rfl : kind = .paragraph := of_decide_eq_true isParagraph
          rw [if_pos rfl, behind, text_compose options first]
          rfl
      | false =>
          rw [isParagraph, if_neg Bool.false_ne_true] at first
          have block := text_importBlock options depth node first
          rw [if_neg Bool.false_ne_true]
          cases drafts : importBlock options depth node with
          | nil =>
              -- What is imported as nothing leaves the place of the item's text to the next node.
              rw [drafts] at block
              dsimp only
              rw [text_importItemParts options depth nodes (areParts_of_areProse rest), ← block]
              rfl
          | cons draft more =>
              rw [drafts] at block
              dsimp only
              rw [textOfAll_append, block, behind]
              rfl

theorem text_importQuoted (options : ConvertOptions) (depth : Nat) (nodes : List Node)
    (quoted : areQuoted depth nodes = true) :
    Draft.textOfAll (importQuoted options depth nodes) = quotedProse nodes := by
  cases nodes with
  | nil => rfl
  | cons node nodes =>
      obtain ⟨first, rest⟩ := Bool.and_eq_true_iff.1 quoted
      rw [importQuoted, textOfAll_append, text_importQuoted options depth nodes rest, quotedProse]
      congr 1
      split
      · next isParagraph =>
        rw [if_pos isParagraph] at first
        exact textOfAll_quoteLeaves options first
      · next other =>
        rw [if_neg other] at first
        split
        · next isBreak =>
          rw [if_pos isBreak] at first
          obtain ⟨kind, children⟩ := node
          obtain rfl : kind = .thematicBreak := isBreak
          obtain rfl : children = [] := List.isEmpty_iff.1 first
          rfl
        · next other =>
          rw [if_neg other] at first
          exact text_importBlock options depth node first

end

/-- In pre-order, the blocks of a document of prose have the texts of the document. -/
theorem document_text (options : ConvertOptions) {nodes : List Node}
    (prose : areProse 0 nodes = true) :
    ∃ blocks, (document options nodes).forest.Preorder (document options nodes).roots blocks ∧
      blocks.flatMap (·.kind.ownText) = blocksProse nodes := by
  obtain ⟨blocks, order, text⟩ :=
    preorder_of_plantedAll (drafts options nodes) (planted_document options nodes)
  exact ⟨blocks, order, text.trans (text_importBlocks options 0 nodes prose)⟩

def excerpt : List Node :=
  [.mk (.heading 2) [.mk (.text "Title ") []],
    .mk (.list true 3) [
      .mk .item [
        .mk .paragraph [.mk (.text "one") [], .mk .softBreak [],
          .mk .strong [.mk (.text "two ") []]],
        .mk (.codeBlock "rust" "fn\n") []],
      .mk (.taskItem (some 'x')) [.mk (.codeBlock "" "x ") [],
        .mk .paragraph [.mk (.text "late ") []]]],
    .mk .blockQuote [
      .mk .paragraph [.mk (.text "a") [], .mk .lineBreak [],
        .mk .emph [.mk (.text "b") [], .mk .softBreak [], .mk (.code "c") []]],
      .mk .thematicBreak [], .mk (.list false 1) [.mk .item []]],
    .mk (.htmlBlock "<hr>\n") [], .mk .thematicBreak []]

theorem document_text_excerpt :
    areProse 0 excerpt = true ∧
      ∃ blocks, (document {} excerpt).forest.Preorder (document {} excerpt).roots blocks ∧
        blocks.flatMap (·.kind.ownText) = "Title one\ntwo fnx late ab\nc<hr>".toList := by
  have prose : areProse 0 excerpt = true := by decide +kernel
  obtain ⟨blocks, order, text⟩ := document_text {} prose
  exact ⟨prose, blocks, order, text.trans (by decide +kernel)⟩

end Blockmark.Import
