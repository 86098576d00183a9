import Blockmark.Proofs.Import.Cut

/-!
# Documents of texts in parts

Two readers that cut the texts of a document in different ways get the same blocks, unless they
make white space show in front of the text of a callout where the other one does not: a cut between
the marker and its text, or in the white space there, can do that.

Main statement: `document_cut_iff`.
-/

namespace Blockmark.Import

open Markdown Inline

variable {options : ConvertOptions} {nodes parts children inner : List Node}

mutual

/-- The white space that is shown in front of the texts of callouts, of each one that is imported
at a depth. -/
def leadIns (depth : Nat) : Node → List (List Char)
  | .mk kind children =>
    if maxDepth ≤ depth then []
    else match kind with
      | .blockQuote =>
        ((children.head?.bind calloutMarker?).map (·.leadIn)).toList ++
          leadInsOfAll (depth + 1) children
      | .list _ _ => leadInsOfItems (depth + 1) children
      | _ => []

def leadInsOfAll (depth : Nat) : List Node → List (List Char)
  | [] => []
  | node :: nodes => leadIns depth node ++ leadInsOfAll depth nodes

def leadInsOfItems (depth : Nat) : List Node → List (List Char)
  | [] => []
  | .mk kind children :: nodes =>
    (if (itemCheckbox? kind).isNone || maxDepth ≤ depth then []
      else leadInsOfAll (depth + 1) children) ++ leadInsOfItems depth nodes

end

theorem leadIns_of_deep {depth : Nat} (deep : maxDepth ≤ depth) (node : Node) :
    leadIns depth node = [] := by
  cases node
  exact if_pos deep

theorem leadIns_of_inside {depth : Nat} (inside : ¬ maxDepth ≤ depth) (kind : NodeKind)
    (children : List Node) :
    leadIns depth (.mk kind children) =
      match kind with
      | .blockQuote =>
        ((children.head?.bind calloutMarker?).map (·.leadIn)).toList ++
          leadInsOfAll (depth + 1) children
      | .list _ _ => leadInsOfItems (depth + 1) children
      | _ => [] :=
  if_neg inside

theorem leadIns_eq_nil {kind : NodeKind} (noQuote : kind ≠ .blockQuote)
    (noList : ∀ ordered start, kind ≠ .list ordered start) (depth : Nat) (children : List Node) :
    leadIns depth (.mk kind children) = [] := by
  by_cases deep : maxDepth ≤ depth
  · exact leadIns_of_deep deep _
  · rw [leadIns_of_inside deep]
    cases kind with
    | blockQuote => exact absurd rfl noQuote
    | list ordered start => exact absurd rfl (noList ordered start)
    | _ => rfl

/-! ## Matching drafts -/

mutual

def Draft.texts : Draft → List (List Char)
  | .mk _ kind _ children => kind.ownText :: Draft.textsOfAll children

def Draft.textsOfAll : List Draft → List (List Char)
  | [] => []
  | draft :: drafts => draft.texts ++ Draft.textsOfAll drafts

end

theorem textsOfAll_append (drafts more : List Draft) :
    Draft.textsOfAll (drafts ++ more) = Draft.textsOfAll drafts ++ Draft.textsOfAll more := by
  induction drafts with
  | nil => rfl
  | cons draft drafts ih => simp [Draft.textsOfAll, ih]

theorem textsOfAll_container (kind : Kind) (children : List Draft) :
    Draft.textsOfAll [.container kind children] = kind.ownText :: Draft.textsOfAll children := by
  simp [Draft.textsOfAll, Draft.container, Draft.texts]

mutual

theorem texts_of_planted {forest : Forest} {id : BlockId} (first second : Draft)
    (planted : Planted forest first id) (other : Planted forest second id) :
    first.texts = second.texts := by
  obtain ⟨_, kind, _, children⟩ := first
  obtain ⟨_, otherKind, _, otherChildren⟩ := second
  obtain ⟨-, ids, found, below⟩ := planted
  obtain ⟨-, otherIds, otherFound, otherBelow⟩ := other
  obtain ⟨-, sameKind, rfl⟩ := Block.mk.inj (Option.some.inj (found.symm.trans otherFound))
  rw [Draft.texts, Draft.texts, textsOfAll_of_planted children otherChildren below otherBelow,
    ← ownText_withCells ids kind, sameKind, ownText_withCells]

theorem textsOfAll_of_planted {forest : Forest} {ids : List BlockId} (first second : List Draft)
    (planted : PlantedAll forest first ids) (other : PlantedAll forest second ids) :
    Draft.textsOfAll first = Draft.textsOfAll second := by
  cases first with
  | nil =>
      obtain rfl : ids = [] := planted
      cases second with
      | nil => rfl
      | cons =>
          obtain ⟨_, _, none, -⟩ := other
          cases none
  | cons draft drafts =>
      obtain ⟨id, more, rfl, top, rest⟩ := planted
      cases second with
      | nil => cases other
      | cons otherDraft otherDrafts =>
          obtain ⟨_, _, same, otherTop, otherRest⟩ := other
          obtain ⟨rfl, rfl⟩ := List.cons.inj same
          rw [Draft.textsOfAll, Draft.textsOfAll, texts_of_planted draft otherDraft top otherTop,
            textsOfAll_of_planted drafts otherDrafts rest otherRest]

end

/-- Drafts that are the same if their lead-ins are, and tell if they are not. -/
structure Matching (leads others : List (List Char)) (drafts more : List Draft) : Prop where
  number : leads.length = others.length
  count : (Draft.textsOfAll drafts).length = (Draft.textsOfAll more).length
  same : leads = others → drafts = more
  told : Draft.textsOfAll drafts = Draft.textsOfAll more → leads = others

namespace Matching

variable {leads others laterLeads laterOthers : List (List Char)}
  {drafts more laterDrafts laterMore : List Draft}

theorem refl (drafts : List Draft) : Matching [] [] drafts drafts :=
  ⟨rfl, rfl, fun _ => rfl, fun _ => rfl⟩

theorem append (first : Matching leads others drafts more)
    (later : Matching laterLeads laterOthers laterDrafts laterMore) :
    Matching (leads ++ laterLeads) (others ++ laterOthers) (drafts ++ laterDrafts)
      (more ++ laterMore) := by
  refine ⟨?_, ?_, fun equal => ?_, fun equal => ?_⟩
  · rw [List.length_append, List.length_append, first.number, later.number]
  · rw [textsOfAll_append, textsOfAll_append, List.length_append, List.length_append, first.count,
      later.count]
  · obtain ⟨here, there⟩ := List.append_inj equal first.number
    rw [first.same here, later.same there]
  · rw [textsOfAll_append, textsOfAll_append] at equal
    obtain ⟨here, there⟩ := List.append_inj equal first.count
    rw [first.told here, later.told there]

theorem container (kind : Kind) (below : Matching leads others drafts more) :
    Matching leads others [.container kind drafts] [.container kind more] := by
  refine ⟨below.number, ?_, fun equal => ?_, fun equal => ?_⟩
  · rw [textsOfAll_container, textsOfAll_container, List.length_cons, List.length_cons,
      below.count]
  · rw [below.same equal]
  · rw [textsOfAll_container, textsOfAll_container] at equal
    exact below.told (List.cons.inj equal).2

theorem eq_nil_iff (matching : Matching leads others drafts more) : drafts = [] ↔ more = [] := by
  have empty (drafts : List Draft) : drafts = [] ↔ (Draft.textsOfAll drafts).length = 0 := by
    cases drafts with
    | nil => exact ⟨fun _ => rfl, fun _ => rfl⟩
    | cons draft drafts =>
        obtain ⟨_, kind, _, children⟩ := draft
        simp [Draft.textsOfAll, Draft.texts]
  rw [empty, empty, matching.count]

end Matching

/-! ## Callouts -/

theorem calloutText_of_filled {marker : Admonition}
    (filled : textSoFar (pushNodes options {} [] (trimNodes marker.behind)) ≠ []) :
    calloutText options marker = [textLeaf .paragraph
      { elements := (leadElements options marker.leadIn (trimNodes marker.behind)).reverse }] := by
  rw [calloutText_eq]
  refine if_neg fun empty => filled ?_
  have nothing : textSoFar (leadElements options marker.leadIn (trimNodes marker.behind)) = [] :=
    elementsText_of_isEmpty empty
  rw [textSoFar_leadElements] at nothing
  exact (List.append_eq_nil_iff.1 nothing).2

theorem matching_calloutText {first second : Admonition} (same : SameMarker first second) :
    Matching [first.leadIn] [second.leadIn] (calloutText options first)
      (calloutText options second) := by
  have shown (lead : List Char) : leadElements options lead (trimNodes first.behind) =
      leadElements options lead (trimNodes second.behind) :=
    walkSiblings_cut (trimNodes_cut same.behind) _ _ _
  have text : pushNodes options {} [] (trimNodes first.behind) =
      pushNodes options {} [] (trimNodes second.behind) :=
    walkSiblings_cut (trimNodes_cut same.behind) _ _ _
  by_cases leads : first.leadIn = second.leadIn
  · have drafts : calloutText options first = calloutText options second := by
      rw [calloutText_eq, calloutText_eq, leads, shown]
    rw [leads, drafts]
    exact ⟨rfl, rfl, fun _ => rfl, fun _ => rfl⟩
  · -- One of them is not empty, so there is a text behind it, which both callouts have.
    have filled : textSoFar (pushNodes options {} [] (trimNodes second.behind)) ≠ [] := by
      by_cases none : second.leadIn = []
      · rw [← text]
        exact textSoFar_of_leadIn (none ▸ leads)
      · exact textSoFar_of_leadIn none
    have firstText := calloutText_of_filled (text ▸ filled)
    have secondText := calloutText_of_filled filled
    have texts (elements : Elements) :
        Draft.textsOfAll [textLeaf .paragraph { elements := elements.reverse }] =
          [textSoFar elements] := by
      simp [Draft.textsOfAll, textLeaf, Draft.leaf, Draft.texts, ownText_text]
    refine ⟨rfl, ?_, fun equal => absurd (List.cons.inj equal).1 leads, fun equal => ?_⟩
    · rw [firstText, secondText, texts, texts]
      rfl
    · rw [firstText, secondText, texts, texts, textSoFar_leadElements, textSoFar_leadElements,
        text] at equal
      exact congrArg (fun lead => [lead]) (List.append_cancel_right (List.cons.inj equal).1)

/-! ## Documents -/

structure ImportedAlike (options : ConvertOptions) (nodes parts : List Node) : Prop where
  blocks (depth : Nat) : Matching (leadInsOfAll depth nodes) (leadInsOfAll depth parts)
    (importBlocks options depth nodes) (importBlocks options depth parts)
  quoted (depth : Nat) : Matching (leadInsOfAll depth nodes) (leadInsOfAll depth parts)
    (importQuoted options depth nodes) (importQuoted options depth parts)
  behind (depth : Nat) : Matching (leadInsOfAll depth nodes) (leadInsOfAll depth parts)
    (importBehind options depth nodes) (importBehind options depth parts)
  behindFirst (depth : Nat) :
    Matching (leadInsOfAll depth nodes.tail) (leadInsOfAll depth parts.tail)
      (importBehindFirst options depth nodes) (importBehindFirst options depth parts)
  items (ordered : Bool) (sequence : Option Nat) (depth : Nat) :
    Matching (leadInsOfItems depth nodes) (leadInsOfItems depth parts)
      (importItems options ordered sequence depth nodes)
      (importItems options ordered sequence depth parts)
  itemText (depth : Nat) :
    (importItemParts options depth nodes).1 = (importItemParts options depth parts).1
  itemBlocks (depth : Nat) : Matching (leadInsOfAll depth nodes) (leadInsOfAll depth parts)
    (importItemParts options depth nodes).2 (importItemParts options depth parts).2

theorem leadInsOfAll_tail {marker : Admonition} (depth : Nat)
    (found : nodes.head?.bind calloutMarker? = some marker) :
    leadInsOfAll depth nodes = leadInsOfAll depth nodes.tail := by
  obtain ⟨node, first, marked⟩ := Option.bind_eq_some_iff.1 found
  obtain ⟨rest, rfl⟩ := List.head?_eq_some_iff.1 first
  obtain ⟨kind, children⟩ := node
  unfold calloutMarker? at marked
  split at marked
  · next paragraph =>
    obtain rfl : kind = .paragraph := of_decide_eq_true paragraph
    rw [leadInsOfAll, leadIns_eq_nil NodeKind.noConfusion (fun _ _ => NodeKind.noConfusion)]
    rfl
  · cases marked

theorem matching_importBlock (kind : NodeKind) (inside : Cut children inner)
    (below : ImportedAlike options children inner) (tidy : allRowsHoldCells children = true)
    (depth : Nat) :
    Matching (leadIns depth (.mk kind children)) (leadIns depth (.mk kind inner))
      (importBlock options depth (.mk kind children))
      (importBlock options depth (.mk kind inner)) := by
  by_cases deep : maxDepth ≤ depth
  · rw [leadIns_of_deep deep, leadIns_of_deep deep, importBlock_of_deep options deep,
      importBlock_of_deep options deep]
    exact .refl []
  · rw [leadIns_of_inside deep, leadIns_of_inside deep, importBlock_of_inside options deep,
      importBlock_of_inside options deep]
    cases kind with
    | heading level =>
        rw [compose_cut inside]
        exact .refl _
    | paragraph =>
        rw [importParagraph_cut inside]
        exact .refl _
    | list ordered start => exact below.items ordered _ (depth + 1)
    | blockQuote =>
        have markers := calloutMarker?_cut inside
        dsimp only
        generalize first : children.head?.bind calloutMarker? = found at markers
        generalize second : inner.head?.bind calloutMarker? = other at markers
        cases markers with
        | none => exact (below.quoted (depth + 1)).container _
        | some same =>
            rw [leadInsOfAll_tail _ first, leadInsOfAll_tail _ second]
            simp only [calloutDraft, same.keyword]
            exact ((matching_calloutText same).append (below.behindFirst (depth + 1))).container _
    | table alignments =>
        dsimp only
        rw [importTable_cut inside tidy]
        exact .refl _
    | _ => exact .refl _

section Text

variable (depth : Nat) (content : String) (children nodes : List Node)

theorem leadInsOfAll_text :
    leadInsOfAll depth (.mk (.text content) children :: nodes) = leadInsOfAll depth nodes := by
  rw [leadInsOfAll, leadIns_eq_nil NodeKind.noConfusion (fun _ _ => NodeKind.noConfusion),
    List.nil_append]

theorem leadInsOfItems_text :
    leadInsOfItems depth (.mk (.text content) children :: nodes) = leadInsOfItems depth nodes :=
  rfl

theorem importBlock_text : importBlock options depth (.mk (.text content) children) = [] := by
  by_cases deep : maxDepth ≤ depth
  · exact importBlock_of_deep options deep _
  · exact importBlock_of_inside options deep _ _

theorem importBlocks_text :
    importBlocks options depth (.mk (.text content) children :: nodes) =
      importBlocks options depth nodes := by
  rw [importBlocks, importBlock_text, List.nil_append]

theorem importQuoted_text :
    importQuoted options depth (.mk (.text content) children :: nodes) =
      importQuoted options depth nodes := by
  rw [importQuoted, importBlock_text]
  rfl

theorem importBehind_text :
    importBehind options depth (.mk (.text content) children :: nodes) =
      importBehind options depth nodes := by
  rw [importBehind, importBlock_text]
  rfl

theorem importItems_text (ordered : Bool) (sequence : Option Nat) :
    importItems options ordered sequence depth (.mk (.text content) children :: nodes) =
      importItems options ordered none depth nodes := by
  have none : importItem options ordered sequence depth (.mk (.text content) children) = [] := by
    rw [importItem]
    exact ite_self []
  rw [importItems, none, List.nil_append]

theorem importItemParts_text :
    importItemParts options depth (.mk (.text content) children :: nodes) =
      importItemParts options depth nodes := by
  rw [importItemParts, importBlock_text]
  rfl

end Text

theorem importedAlike_text (content first second : String)
    (children firstChildren secondChildren : List Node)
    (behind : ImportedAlike options nodes parts) :
    ImportedAlike options (.mk (.text content) children :: nodes)
      (.mk (.text first) firstChildren :: .mk (.text second) secondChildren :: parts) where
  blocks depth := by
    simpa only [leadInsOfAll_text, importBlocks_text] using behind.blocks depth
  quoted depth := by
    simpa only [leadInsOfAll_text, importQuoted_text] using behind.quoted depth
  behind depth := by
    simpa only [leadInsOfAll_text, importBehind_text] using behind.behind depth
  behindFirst depth := by
    simpa only [List.tail_cons, leadInsOfAll_text, importBehindFirst, importBehind_text] using
      behind.behind depth
  items ordered _ depth := by
    simpa only [leadInsOfItems_text, importItems_text] using behind.items ordered none depth
  itemText depth := by
    simpa only [importItemParts_text] using behind.itemText depth
  itemBlocks depth := by
    simpa only [leadInsOfAll_text, importItemParts_text] using behind.itemBlocks depth

theorem matching_importItem (kind : NodeKind) (below : ImportedAlike options children inner)
    (ordered : Bool) (sequence : Option Nat) (depth : Nat) :
    Matching
      (if (itemCheckbox? kind).isNone || maxDepth ≤ depth then []
        else leadInsOfAll (depth + 1) children)
      (if (itemCheckbox? kind).isNone || maxDepth ≤ depth then []
        else leadInsOfAll (depth + 1) inner)
      (importItem options ordered sequence depth (.mk kind children))
      (importItem options ordered sequence depth (.mk kind inner)) := by
  rw [importItem, importItem]
  by_cases deep : maxDepth ≤ depth
  · simp only [deep, decide_true, Bool.or_true, if_true]
    exact .refl []
  · rw [if_neg deep, if_neg deep]
    cases itemCheckbox? kind with
    | none => exact .refl []
    | some checkbox =>
        simp only [deep, decide_false, Option.isNone_some, Bool.or_false, Bool.false_eq_true,
          if_false, below.itemText (depth + 1)]
        exact (below.itemBlocks (depth + 1)).container _

section Node

variable {kind : NodeKind} {depth : Nat}

theorem leadIns_paragraph (paragraph : Node.isParagraph (.mk kind children) = true) :
    leadIns depth (.mk kind children) = [] := by
  obtain rfl : kind = .paragraph := of_decide_eq_true paragraph
  exact leadIns_eq_nil NodeKind.noConfusion (fun _ _ => NodeKind.noConfusion) depth children

theorem matching_behind
    (block : Matching (leadIns depth (.mk kind children)) (leadIns depth (.mk kind inner))
      (importBlock options depth (.mk kind children))
      (importBlock options depth (.mk kind inner))) :
    Matching (leadIns depth (.mk kind children)) (leadIns depth (.mk kind inner))
      (if kind = .thematicBreak then [] else importBlock options depth (.mk kind children))
      (if kind = .thematicBreak then [] else importBlock options depth (.mk kind inner)) := by
  split
  · next isBreak =>
    subst isBreak
    have none := @leadIns_eq_nil .thematicBreak NodeKind.noConfusion
      (fun _ _ => NodeKind.noConfusion) depth
    rw [none, none]
    exact .refl []
  · exact block

theorem matching_quoted (inside : Cut children inner)
    (block : Matching (leadIns depth (.mk kind children)) (leadIns depth (.mk kind inner))
      (importBlock options depth (.mk kind children))
      (importBlock options depth (.mk kind inner))) :
    Matching (leadIns depth (.mk kind children)) (leadIns depth (.mk kind inner))
      (if Node.isParagraph (.mk kind children) then quoteLeaves options children
        else if kind = .thematicBreak then [] else importBlock options depth (.mk kind children))
      (if Node.isParagraph (.mk kind children) then quoteLeaves options inner
        else if kind = .thematicBreak then [] else importBlock options depth (.mk kind inner)) := by
  split
  · next paragraph =>
    have other : Node.isParagraph (.mk kind inner) = true := paragraph
    rw [leadIns_paragraph paragraph, leadIns_paragraph other, quoteLeaves_cut inside]
    exact .refl _
  · exact matching_behind block

theorem importItemParts_of_nil {node : Node} (other : node.isParagraph = false)
    (nothing : importBlock options depth node = []) :
    importItemParts options depth (node :: nodes) = importItemParts options depth nodes := by
  rw [importItemParts, other, nothing]
  rfl

theorem importItemParts_of_ne_nil {node : Node} (other : node.isParagraph = false)
    (something : importBlock options depth node ≠ []) :
    importItemParts options depth (node :: nodes) =
      ([], importBlock options depth node ++ importBlocks options depth nodes) := by
  rw [importItemParts, other, if_neg Bool.false_ne_true]
  split
  · next nothing => exact absurd nothing something
  · rfl

theorem matching_itemParts (inside : Cut children inner)
    (block : Matching (leadIns depth (.mk kind children)) (leadIns depth (.mk kind inner))
      (importBlock options depth (.mk kind children))
      (importBlock options depth (.mk kind inner)))
    (behind : ImportedAlike options nodes parts) :
    (importItemParts options depth (.mk kind children :: nodes)).1 =
        (importItemParts options depth (.mk kind inner :: parts)).1 ∧
      Matching (leadInsOfAll depth (.mk kind children :: nodes))
        (leadInsOfAll depth (.mk kind inner :: parts))
        (importItemParts options depth (.mk kind children :: nodes)).2
        (importItemParts options depth (.mk kind inner :: parts)).2 := by
  have same : Node.isParagraph (.mk kind inner) = Node.isParagraph (.mk kind children) := rfl
  rw [leadInsOfAll, leadInsOfAll]
  cases paragraph : Node.isParagraph (.mk kind children) with
  | true =>
      rw [importItemParts, importItemParts, same, paragraph, if_pos rfl, if_pos rfl,
        leadIns_paragraph paragraph, leadIns_paragraph (same.trans paragraph)]
      exact ⟨compose_cut inside, behind.blocks depth⟩
  | false =>
      by_cases nothing : importBlock options depth (.mk kind children) = []
      · have nothing' := block.eq_nil_iff.1 nothing
        rw [importItemParts_of_nil paragraph nothing,
          importItemParts_of_nil (same.trans paragraph) nothing']
        rw [nothing, nothing'] at block
        exact ⟨behind.itemText depth, block.append (behind.itemBlocks depth)⟩
      · rw [importItemParts_of_ne_nil paragraph nothing,
          importItemParts_of_ne_nil (same.trans paragraph) (mt block.eq_nil_iff.2 nothing)]
        exact ⟨rfl, block.append (behind.blocks depth)⟩

end Node

theorem importedAlike_node (kind : NodeKind) (inside : Cut children inner)
    (below : ImportedAlike options children inner) (tidy : allRowsHoldCells children = true)
    (behind : ImportedAlike options nodes parts) :
    ImportedAlike options (.mk kind children :: nodes) (.mk kind inner :: parts) := by
  have block := matching_importBlock kind inside below tidy
  constructor
  · exact fun depth => (block depth).append (behind.blocks depth)
  · exact fun depth => (matching_quoted inside (block depth)).append (behind.quoted depth)
  · exact fun depth => (matching_behind (block depth)).append (behind.behind depth)
  · exact behind.behind
  · exact fun ordered sequence depth =>
      (matching_importItem kind below ordered sequence depth).append
        (behind.items ordered none depth)
  · exact fun depth => (matching_itemParts inside (block depth) behind).1
  · exact fun depth => (matching_itemParts inside (block depth) behind).2

theorem importedAlike_cut (cut : Cut nodes parts) (tidy : allRowsHoldCells nodes = true) :
    ImportedAlike options nodes parts := by
  induction cut with
  | nil =>
      exact ⟨fun _ => .refl _, fun _ => .refl _, fun _ => .refl _, fun _ => .refl _,
        fun _ _ _ => .refl _, fun _ => rfl, fun _ => .refl _⟩
  | text _ _ ih => exact importedAlike_text _ _ _ _ _ _ (ih (Bool.and_eq_true_iff.1 tidy).2)
  | @node kind children inner nodes parts inside _ ihInside ihBehind =>
      obtain ⟨first, later⟩ := Bool.and_eq_true_iff.1 tidy
      exact importedAlike_node kind inside (ihInside (Bool.and_eq_true_iff.1 first).2)
        (Bool.and_eq_true_iff.1 first).2 (ihBehind later)

/-- Documents with some texts cut in two differ if and only if they show other white space in
front of the text of a callout. -/
theorem document_cut_iff (options : ConvertOptions) (cut : Cut nodes parts)
    (tidy : allRowsHoldCells nodes = true) :
    document options nodes = document options parts ↔
      leadInsOfAll 0 nodes = leadInsOfAll 0 parts := by
  have alike : ImportedAlike options nodes parts := importedAlike_cut cut tidy
  constructor
  · intro same
    apply (alike.blocks 0).told
    have other := planted_document options parts
    rw [← same] at other
    exact textsOfAll_of_planted _ _ (planted_document options nodes) other
  · intro leads
    rw [document, drafts, (alike.blocks 0).same leads, document, drafts]

def remarks : List Node :=
  [.mk .blockQuote [
    .mk .paragraph [.mk (.text "[!NOTE]  one") [], .mk .softBreak [],
      .mk .emph [.mk (.text "two") []]],
    .mk (.list false 1) [.mk .item [
      .mk .blockQuote [.mk .paragraph [.mk (.text "[!TIP] three") [], .mk (.text " four") []]]]]]]

def remarksInParts : List Node :=
  [.mk .blockQuote [
    .mk .paragraph [.mk (.text "[!NO") [], .mk (.text "TE]  one") [], .mk .softBreak [],
      .mk .emph [.mk (.text "t") [], .mk (.text "wo") []]],
    .mk (.list false 1) [.mk .item [
      .mk .blockQuote [.mk .paragraph [.mk (.text "[!TIP] three") [], .mk (.text " ") [],
        .mk (.text "four") []]]]]]]

theorem document_remarks :
    Cut remarks remarksInParts ∧ allRowsHoldCells remarks = true ∧
      document {} remarks = document {} remarksInParts := by
  have cut : Cut remarks remarksInParts := by
    refine .node (.node ?marker (.node (.node (.node (.node ?text .nil) .nil) .nil) .nil)) .nil
    case marker => exact .text (by decide) (.node .nil (.node (.text (by decide) .nil) .nil))
    case text => exact .node .nil (.text (by decide) .nil)
  have tidy : allRowsHoldCells remarks = true := by decide +kernel
  exact ⟨cut, tidy, (document_cut_iff {} cut tidy).2 (by decide +kernel)⟩

/-- Between a marker and its text a cut makes the white space there a part of the text. -/
theorem greeting_parted :
    let whole := [.mk .blockQuote [.mk .paragraph [.mk (.text "[!NOTE] hello") []]]]
    let parted := [.mk .blockQuote [.mk .paragraph
      [.mk (.text "[!NOTE]") [], .mk (.text " hello") []]]]
    Cut whole parted ∧
      (document {} whole).forest.blocks.map (·.kind.ownText) = ["hello".toList, []] ∧
      (document {} parted).forest.blocks.map (·.kind.ownText) = [" hello".toList, []] :=
  ⟨.node (.node (.text (by decide) .nil) .nil) .nil, by decide +kernel, by decide +kernel⟩

end Blockmark.Import
