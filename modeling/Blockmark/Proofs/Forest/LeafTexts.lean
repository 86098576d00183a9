import Blockmark.Proofs.Forest.Preorder
import Blockmark.Proofs.Render.Labels

/-!
# The plain text of a tree

Where the blocks under a cell make a tree, its plain text is made of the texts of the leaves: a
block with children has their texts in place of its own, so that its own text is lost. Nothing is
lost if and only if the blocks with children have no text.

Main statement: `cellText_of_tree`.
-/

namespace Blockmark.Forest

variable {forest : Forest} {ids : List BlockId} {blocks : List Block}

def allTexts (blocks : List Block) : List String :=
  blocks.flatMap ownTexts

def leaves (blocks : List Block) : List Block :=
  blocks.filter (·.children.isEmpty)

/-! ## What is collected under a cell -/

theorem ids_unfold_sublist (order : Preorder forest ids blocks) (levels : Nat) :
    ((unfold forest.lists levels (forest.entries .label ids)).map Entry.id).Sublist
      (blocks.map (·.id)) := by
  induction order generalizing levels with
  | nil => simp [entries]
  | @cons id ids block below rest found _ _ ihInside ihBehind =>
      cases levels with
      | zero => exact List.nil_sublist _
      | succ levels =>
          rw [entries_cons_found found, unfold_cons, lists_label found, List.map_append,
            List.map_cons, List.map_append, List.map_cons, id_of_get? found]
          exact ((ihInside levels).cons_cons id).append (ihBehind (levels + 1))

theorem labels_of_preorder (order : Preorder forest ids blocks) :
    Labels forest ids (allTexts (leaves blocks)) := by
  induction order with
  | nil => exact .nil
  | @cons id ids block below rest found inside _ ihInside ihBehind =>
      cases childless : block.children.isEmpty with
      | true =>
          rw [List.isEmpty_iff.1 childless] at inside
          cases inside
          have texts : allTexts (leaves (block :: [] ++ rest)) =
              ownTexts block ++ allTexts (leaves rest) := by
            simp [allTexts, leaves, childless]
          rw [texts]
          exact .leaf found childless ihBehind
      | false =>
          have texts : allTexts (leaves (block :: below ++ rest)) =
              allTexts (leaves below) ++ allTexts (leaves rest) := by
            simp [allTexts, leaves, childless]
          rw [texts]
          exact .above found childless ihInside ihBehind

theorem level_eq_nil_of_forall {number : Nat} {tops : List Entry}
    (each : ∀ top ∈ tops, level forest.lists number [top] = []) :
    level forest.lists number tops = [] := by
  induction tops with
  | nil => exact level_nil number
  | cons top tops ih =>
      obtain ⟨first, others⟩ := List.forall_mem_cons.1 each
      rw [← List.singleton_append, level_append, first, ih others, List.nil_append]

theorem level_of_within {levels : Nat} {id : BlockId} (within : forest.Within levels id) :
    level forest.lists levels [⟨.label, id⟩] = [] := by
  induction within with
  | @block levels id block found _ ih =>
      rw [level_cons_succ, level_nil, List.append_nil, lists_label found]
      apply level_eq_nil_of_forall
      rintro ⟨spot, child⟩ mem
      obtain ⟨rfl, listed, -⟩ := mem_entries.1 mem
      exact ih child listed

theorem cellText_eq_leaves {id : BlockId} (order : Preorder forest [id] blocks)
    (distinct : (blocks.map (·.id)).Nodup) (low : forest.Within 100 id) :
    forest.cellText id = String.intercalate "\n" (allTexts (leaves blocks)) := by
  obtain ⟨block, found⟩ : ∃ block, forest.get? id = some block := by
    cases order with
    | cons found => exact ⟨_, found⟩
  have single : forest.entries .label [id] = [⟨.label, id⟩] :=
    entries_cons_found found .label []
  have fresh : Fresh forest.lists Entry.id 100 (forest.entries .label [id]) [] :=
    ⟨distinct.sublist (ids_unfold_sublist order 100), fun _ _ => List.not_mem_nil⟩
  have collected := (collected_texts [id] {} fresh).lines
  have read : Labels forest [id] (forest.textsWithin 100 [id]) :=
    labels_textsWithin 100 [id] (single ▸ level_of_within low)
  have same : forest.textsWithin 100 [id] = allTexts (leaves blocks) :=
    read.unique (labels_of_preorder order)
  rw [same, List.append_nil, List.filterMap_cons, found] at collected
  have lines : (forest.collectTexts maxDepth {} block).lines.reverse =
      allTexts (leaves blocks) := by
    rw [← List.reverse_reverse (allTexts (leaves blocks)), ← collected]
    rfl
  rw [cellText, found, Option.map_some, Option.getD_some, blockText, lines]

/-! ## What is lost -/

theorem ne_empty_of_mem_allTexts {text : String} (mem : text ∈ allTexts blocks) : text ≠ "" := by
  obtain ⟨block, -, mem⟩ := List.mem_flatMap.1 mem
  rintro rfl
  simp only [ownTexts] at mem
  split at mem
  · cases mem
  · next filled =>
    rw [← List.mem_singleton.1 mem] at filled
    exact filled rfl

theorem allTexts_leaves_sublist (blocks : List Block) :
    (allTexts (leaves blocks)).Sublist (allTexts blocks) :=
  List.filter_sublist.flatMap ownTexts

theorem allTexts_leaves_eq_iff :
    allTexts (leaves blocks) = allTexts blocks ↔
      ∀ block ∈ blocks, block.children = [] ∨ ownTexts block = [] := by
  induction blocks with
  | nil => simp [allTexts, leaves]
  | cons block blocks ih =>
      rw [List.forall_mem_cons, ← ih]
      cases childless : block.children.isEmpty with
      | true => simp [allTexts, leaves, List.isEmpty_iff.1 childless]
      | false =>
          have inhabited : block.children ≠ [] := by simpa using childless
          have shorter := (allTexts_leaves_sublist blocks).length_le
          have texts : allTexts (leaves (block :: blocks)) = allTexts (leaves blocks) := by
            simp [leaves, childless]
          have split : allTexts (block :: blocks) = ownTexts block ++ allTexts blocks :=
            List.flatMap_cons
          rw [texts, split, or_iff_right inhabited]
          constructor
          · intro same
            have none : ownTexts block = [] := by
              have lengths := congrArg List.length same
              rw [List.length_append] at lengths
              exact List.eq_nil_of_length_eq_zero (by omega)
            exact ⟨none, by rw [same, none, List.nil_append]⟩
          · rintro ⟨none, same⟩
            rw [none, same, List.nil_append]

/-- The length of texts with a line end behind each of them. -/
def written : List String → Nat
  | [] => 0
  | text :: texts => text.length + 1 + written texts

theorem length_joined {texts : List String} (some : texts ≠ []) :
    (String.intercalate "\n" texts).length + 1 = written texts := by
  induction texts with
  | nil => exact absurd rfl some
  | cons text texts ih =>
      cases texts with
      | nil => simp [written]
      | cons next texts =>
          have behind := ih (List.cons_ne_nil _ _)
          rw [String.intercalate_cons_cons, String.length_append, String.length_append]
          simp only [written] at behind ⊢
          have separator : "\n".length = 1 := rfl
          omega

theorem eq_of_written_eq {texts more : List String} (sub : texts.Sublist more) :
    written texts ≤ written more ∧ (written texts = written more → texts = more) := by
  induction sub with
  | slnil => exact ⟨le_rfl, fun _ => rfl⟩
  | cons text _ ih =>
      simp only [written] at ih ⊢
      exact ⟨by omega, fun same => by omega⟩
  | cons_cons text _ ih =>
      simp only [written] at ih ⊢
      exact ⟨by omega, fun same => by rw [ih.2 (by omega)]⟩

theorem eq_of_joined_eq {texts more : List String} (sub : texts.Sublist more)
    (filled : ∀ text ∈ more, text ≠ "")
    (same : String.intercalate "\n" texts = String.intercalate "\n" more) : texts = more := by
  cases more with
  | nil => exact List.sublist_nil.1 sub
  | cons text more =>
      have whole := length_joined (List.cons_ne_nil text more)
      cases texts with
      | nil =>
          -- Nothing at all is shorter than a text that is not empty.
          have long : text.length ≠ 0 := by
            simpa using filled text List.mem_cons_self
          have empty : (String.intercalate "\n" (text :: more)).length = 0 := by
            rw [← same]
            rfl
          simp only [written] at whole
          omega
      | cons first texts =>
          have part := length_joined (List.cons_ne_nil first texts)
          rw [same] at part
          exact (eq_of_written_eq sub).2 (part.symm.trans whole)

/-- The text of a cell is made of the texts of the leaves below it, and these are all texts if no
block with children has a text itself. -/
theorem cellText_of_tree {id : BlockId} (order : Preorder forest [id] blocks)
    (distinct : (blocks.map (·.id)).Nodup) (low : forest.Within 100 id) :
    forest.cellText id = String.intercalate "\n" (allTexts (leaves blocks)) ∧
      (forest.cellText id = String.intercalate "\n" (allTexts blocks) ↔
        ∀ block ∈ blocks, block.children = [] ∨ ownTexts block = []) := by
  have text := cellText_eq_leaves order distinct low
  refine ⟨text, ?_⟩
  rw [text, ← allTexts_leaves_eq_iff]
  constructor
  · exact eq_of_joined_eq (allTexts_leaves_sublist blocks) fun _ => ne_empty_of_mem_allTexts
  · exact congrArg _

def minutes : Forest := ⟨[
  ⟨"cell", .bare .tableCell, ["agenda", "note", "blank"]⟩,
  ⟨"agenda", .text .bullet (some (.plain "agenda")), ["first", "second"]⟩,
  ⟨"first", .text .todo (some ⟨[.mentionUser "u1", .lineBreak, .equation "x"], {}⟩), []⟩,
  ⟨"second", .bare .view, ["formula"]⟩,
  ⟨"formula", .text .equation (some (.plain "y = 2")), []⟩,
  ⟨"note", .text .quote (some (.plain "note")), []⟩,
  ⟨"blank", .text .paragraph none, []⟩]⟩

theorem cellText_minutes :
    Preorder minutes ["cell"] minutes.blocks ∧ (minutes.blocks.map (·.id)).Nodup ∧
      minutes.Within 100 "cell" ∧ minutes.cellText "cell" = "@u1\nx\ny = 2\nnote" ∧
      minutes.cellText "cell" ≠ String.intercalate "\n" (allTexts minutes.blocks) := by
  have leaf : ∀ id ∈ ["first", "formula", "note", "blank"], minutes.Within 97 id := by
    simp only [List.forall_mem_cons]
    refine ⟨.block rfl ?_, .block rfl ?_, .block rfl ?_, .block rfl ?_, by simp⟩ <;> simp
  have order : Preorder minutes ["cell"] minutes.blocks := by
    have formula := @Preorder.cons minutes "formula" [] _ _ _ rfl .nil .nil
    have second := @Preorder.cons minutes "second" [] _ _ _ rfl formula .nil
    have items := @Preorder.cons minutes "first" ["second"] _ _ _ rfl .nil second
    have blank := @Preorder.cons minutes "blank" [] _ _ _ rfl .nil .nil
    have note := @Preorder.cons minutes "note" ["blank"] _ _ _ rfl .nil blank
    have agenda := @Preorder.cons minutes "agenda" ["note", "blank"] _ _ _ rfl items note
    exact @Preorder.cons minutes "cell" [] _ _ _ rfl agenda .nil
  have low : minutes.Within 100 "cell" := by
    have second : minutes.Within 98 "second" := .block rfl (by simpa using leaf "formula")
    have agenda : minutes.Within 99 "agenda" := by
      refine .block rfl ?_
      simpa using ⟨(leaf "first" (by simp)).mono (by decide), second⟩
    refine .block rfl ?_
    simpa using ⟨agenda, (leaf "note" (by simp)).mono (by decide),
      (leaf "blank" (by simp)).mono (by decide)⟩
  have distinct : (minutes.blocks.map (·.id)).Nodup := by decide +kernel
  obtain ⟨text, kept⟩ := cellText_of_tree order distinct low
  refine ⟨order, distinct, low, text.trans (by decide +kernel), ?_⟩
  rw [Ne, kept]
  decide +kernel

theorem cellText_answered :
    let forest : Forest := ⟨[⟨"cell", .text .paragraph (some (.plain "own")), ["below"]⟩,
      ⟨"below", .text .paragraph (some (.plain "below")), []⟩]⟩
    Preorder forest ["cell"] forest.blocks ∧ (forest.blocks.map (·.id)).Nodup ∧
      forest.Within 100 "cell" ∧
      forest.cellText "cell" = "below" ∧
      String.intercalate "\n" (allTexts forest.blocks) = "own\nbelow" := by
  intro forest
  have below := @Preorder.cons forest "below" [] _ _ _ rfl .nil .nil
  refine ⟨@Preorder.cons forest "cell" [] _ _ _ rfl below .nil, by decide +kernel, ?_,
    by decide +kernel, by decide +kernel⟩
  exact .block rfl (by simpa using .block rfl (by simp))

end Blockmark.Forest
