import Blockmark.PlainText
import Blockmark.Proofs.Forest.Entries

/-!
# The texts under images

The text of a block is collected with a set of the blocks that were looked at, and down to the
depth limit. Where the blocks below make a tree of few enough levels, neither makes a difference:
what is collected are the texts that are read without them.

Main statements: `collected_texts`, `labels_textsWithin`, `Labels.unique`.
-/

namespace Blockmark

namespace Forest

def ownTexts (block : Block) : List String :=
  let text := (block.kind.body?.map TextBody.plainText).getD ""
  if text.isEmpty then [] else [text]

def textsWithin (forest : Forest) : Nat → List BlockId → List String
  | 0, _ => []
  | levels + 1, ids => (ids.filterMap forest.get?).flatMap fun block =>
    if block.children.isEmpty then ownTexts block else forest.textsWithin levels block.children

structure Collected (forest : Forest) (levels : Nat) (ids : List BlockId) (before after : Texts) :
    Prop where
  lines : after.lines = (forest.textsWithin levels ids).reverse ++ before.lines
  seen : Adds forest.lists Entry.id levels (forest.entries .label ids) before.seen after.seen

variable {forest : Forest} {levels : Nat}

theorem lists_label {id : BlockId} {block : Block} (found : forest.get? id = some block) :
    forest.lists ⟨.label, id⟩ = forest.entries .label block.children := by
  simp only [lists, found, Option.map_some, Option.getD_some, listedBy]

theorem textsWithin_cons_missing {id : BlockId} (missing : forest.get? id = none)
    (ids : List BlockId) :
    forest.textsWithin (levels + 1) (id :: ids) = forest.textsWithin (levels + 1) ids := by
  simp only [textsWithin, List.filterMap_cons, missing]

theorem textsWithin_cons_found {id : BlockId} {block : Block}
    (found : forest.get? id = some block) (ids : List BlockId) :
    forest.textsWithin (levels + 1) (id :: ids) =
      (if block.children.isEmpty then ownTexts block
        else forest.textsWithin levels block.children) ++ forest.textsWithin (levels + 1) ids := by
  simp only [textsWithin, List.filterMap_cons, found, List.flatMap_cons]

theorem collectTexts_unseen {block : Block} {texts : Texts} (unseen : block.id ∉ texts.seen) :
    forest.collectTexts (levels + 1) texts block =
      if block.children.isEmpty then
        { seen := block.id :: texts.seen, lines := (ownTexts block).reverse ++ texts.lines }
      else (block.children.filterMap forest.get?).foldl (forest.collectTexts levels)
        { texts with seen := block.id :: texts.seen } := by
  rw [collectTexts, if_neg unseen, ownTexts]
  dsimp only
  generalize (block.kind.body?.map TextBody.plainText).getD "" = text
  split
  · cases text.isEmpty <;> rfl
  · rfl

theorem collected_block
    (deeper : ∀ ids texts, Fresh forest.lists Entry.id levels (forest.entries .label ids)
      texts.seen → forest.Collected levels ids texts
        ((ids.filterMap forest.get?).foldl (forest.collectTexts levels) texts))
    {block : Block} (found : forest.get? block.id = some block) {texts : Texts}
    (fresh : Fresh forest.lists Entry.id (levels + 1) [⟨.label, block.id⟩] texts.seen) :
    (forest.collectTexts (levels + 1) texts block).lines =
      (if block.children.isEmpty then ownTexts block
        else forest.textsWithin levels block.children).reverse ++ texts.lines ∧
    Adds forest.lists Entry.id (levels + 1) [⟨.label, block.id⟩] texts.seen
      (forest.collectTexts (levels + 1) texts block).seen := by
  have own : ∀ id ∈ block.id :: texts.seen, id ∈ texts.seen ∨ block.id = id := by
    simp only [List.mem_cons]
    tauto
  rw [collectTexts_unseen fresh.key_notMem]
  split
  · next childless =>
    have same : Adds forest.lists Entry.id levels (forest.lists ⟨.label, block.id⟩)
        (block.id :: texts.seen) (block.id :: texts.seen) := fun id mem => .inl mem
    exact ⟨rfl, same.above own⟩
  · have below := fresh.below
    rw [lists_label found] at below
    obtain ⟨lines, seen⟩ :=
      deeper block.children { texts with seen := block.id :: texts.seen } below
    rw [← lists_label found] at seen
    exact ⟨lines, seen.above own⟩

theorem collected_texts (ids : List BlockId) (texts : Texts)
    (fresh : Fresh forest.lists Entry.id levels (forest.entries .label ids) texts.seen) :
    forest.Collected levels ids texts
      ((ids.filterMap forest.get?).foldl (forest.collectTexts levels) texts) := by
  induction levels generalizing ids texts with
  | zero =>
      -- On no level at all nothing is collected, however many ids there are.
      have same : (ids.filterMap forest.get?).foldl (forest.collectTexts 0) texts = texts := by
        induction ids.filterMap forest.get? with
        | nil => rfl
        | cons block blocks ih => exact ih
      rw [same]
      exact ⟨rfl, fun id mem => .inl mem⟩
  | succ levels deeper =>
      induction ids generalizing texts with
      | nil => exact ⟨rfl, fun id mem => .inl mem⟩
      | cons id ids ih =>
          cases found : forest.get? id with
          | none =>
              have skip := entries_cons_missing found .label ids
              rw [skip] at fresh
              obtain ⟨lines, seen⟩ := ih texts fresh
              rw [List.filterMap_cons, found]
              exact ⟨by rw [lines, textsWithin_cons_missing found], by rwa [skip]⟩
          | some block =>
              obtain rfl := id_of_get? found
              have split := entries_cons_found found .label ids
              rw [split, ← List.singleton_append] at fresh
              obtain ⟨ownLines, ownSeen⟩ := collected_block deeper found fresh.left
              obtain ⟨lines, seen⟩ := ih _ (fresh.right ownSeen)
              rw [List.filterMap_cons, found, List.foldl_cons]
              refine ⟨?_, ?_⟩
              · rw [lines, ownLines, textsWithin_cons_found found, List.reverse_append,
                  List.append_assoc]
              · rw [split]
                exact ownSeen.append seen

/-! ## Texts that are read without guards -/

/-- The texts under some ids. A block with children has their texts in place of its own. -/
inductive Labels (forest : Forest) : List BlockId → List String → Prop
  | nil : Labels forest [] []
  | missing {id : BlockId} {ids : List BlockId} {rest : List String}
      (missing : forest.get? id = none) (behind : Labels forest ids rest) :
      Labels forest (id :: ids) rest
  | leaf {id : BlockId} {ids : List BlockId} {block : Block} {rest : List String}
      (found : forest.get? id = some block) (childless : block.children.isEmpty = true)
      (behind : Labels forest ids rest) : Labels forest (id :: ids) (ownTexts block ++ rest)
  | above {id : BlockId} {ids : List BlockId} {block : Block} {inner rest : List String}
      (found : forest.get? id = some block) (inhabited : block.children.isEmpty = false)
      (inside : Labels forest block.children inner) (behind : Labels forest ids rest) :
      Labels forest (id :: ids) (inner ++ rest)

theorem Labels.unique {ids : List BlockId} {texts others : List String}
    (labels : Labels forest ids texts) (other : Labels forest ids others) : texts = others := by
  induction labels generalizing others with
  | nil =>
      cases other
      rfl
  | missing missing _ ih =>
      cases other with
      | missing _ behind => exact ih behind
      | leaf found | above found => cases missing.symm.trans found
  | leaf found childless _ ih =>
      cases other with
      | missing missing => cases missing.symm.trans found
      | leaf found' _ behind =>
          obtain rfl := Option.some.inj (found.symm.trans found')
          rw [ih behind]
      | above found' inhabited =>
          obtain rfl := Option.some.inj (found.symm.trans found')
          cases childless.symm.trans inhabited
  | above found inhabited _ _ ihInside ihBehind =>
      cases other with
      | missing missing => cases missing.symm.trans found
      | leaf found' childless =>
          obtain rfl := Option.some.inj (found.symm.trans found')
          cases childless.symm.trans inhabited
      | above found' _ inside behind =>
          obtain rfl := Option.some.inj (found.symm.trans found')
          rw [ihInside inside, ihBehind behind]

theorem labels_textsWithin (levels : Nat) (ids : List BlockId)
    (fits : level forest.lists levels (forest.entries .label ids) = []) :
    Labels forest ids (forest.textsWithin levels ids) := by
  induction levels generalizing ids with
  | zero =>
      induction ids with
      | nil => exact .nil
      | cons id ids ih =>
          cases found : forest.get? id with
          | none =>
              rw [entries_cons_missing found] at fits
              exact .missing found (ih fits)
          | some block =>
              rw [entries_cons_found found] at fits
              cases fits
  | succ levels deeper =>
      induction ids with
      | nil => exact .nil
      | cons id ids ih =>
          cases found : forest.get? id with
          | none =>
              rw [entries_cons_missing found] at fits
              rw [textsWithin_cons_missing found]
              exact .missing found (ih fits)
          | some block =>
              rw [entries_cons_found found, level_cons_succ, lists_label found,
                List.append_eq_nil_iff] at fits
              rw [textsWithin_cons_found found]
              split
              · next childless => exact .leaf found childless (ih fits.2)
              · next inhabited =>
                exact .above found (by simpa using inhabited) (deeper _ fits.1) (ih fits.2)

end Forest

end Blockmark
