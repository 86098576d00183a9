import Blockmark.Proofs.Import.Exposed
import Blockmark.Proofs.Import.Planted
import Blockmark.Proofs.Render.Tracking

/-!
# Exporting what was imported

The importer counts the levels of a syntax tree and the exporter those of a forest. Lines of a
quote, the text of a callout and the cells of a table are made without a look at the depth, so that
a forest can have more levels than are shown. The export is cut short then, and only then; else
every block is shown, but for the texts under images.

Main statement: `truncated_document_iff`.
-/

namespace Blockmark.Import

open Markdown Render

/-- The children of a block. What is under an image is no block of its own in the Markdown. -/
def beneath (forest : Forest) (id : BlockId) : List BlockId :=
  ((forest.get? id).map fun block => match block.kind with
    | .image _ => []
    | _ => block.children).getD []

def UnderImage (forest : Forest) (id : BlockId) : Prop :=
  ∃ block ∈ forest.blocks, (∃ image, block.kind = .image image) ∧ id ∈ block.children

variable {forest : Forest}

theorem beneath_image {id : BlockId} {block : Block} (found : forest.get? id = some block)
    {image : Option Image} (kind : block.kind = .image image) : beneath forest id = [] := by
  simp [beneath, found, kind]

theorem beneath_eq {id : BlockId} {block : Block} (found : forest.get? id = some block)
    (other : ∀ image, block.kind ≠ .image image) : beneath forest id = block.children := by
  rw [beneath, found, Option.map_some, Option.getD_some]
  split
  · next image kind => exact absurd kind (other image)
  · rfl

/-! ## All that is exposed is met -/

theorem cells_withCells (ids : List BlockId) (kind : Kind) :
    ((withCells ids kind).cells).Sublist ids := by
  cases kind with
  | table property =>
      cases property with
      | none => exact List.nil_sublist _
      | some property => exact .refl _
  | _ => exact List.nil_sublist _

theorem withCells_of_descent {kind : Kind} (way : descent kind = .children) (ids : List BlockId) :
    withCells ids kind = kind := by
  cases kind with
  | table property =>
      cases property with
      | none => rfl
      | some property => cases way
  | _ => rfl

theorem length_of_planted {drafts : List Draft} {ids : List BlockId}
    (planted : PlantedAll forest drafts ids) : ids.length = drafts.length := by
  induction drafts generalizing ids with
  | nil =>
      obtain rfl : ids = [] := planted
      rfl
  | cons draft drafts ih =>
      obtain ⟨id, more, rfl, -, rest⟩ := planted
      exact congrArg Nat.succ (ih rest)

theorem isEmpty_of_planted {drafts : List Draft} {ids : List BlockId}
    (planted : PlantedAll forest drafts ids) : ∀ id ∈ ids, id.isEmpty = false := by
  intro id mem
  obtain ⟨⟨numbering, kind, raw, children⟩, -, inhabited, -⟩ := mem_ids_of_planted planted mem
  exact inhabited

theorem meets_planted {spot : Spot} {draft : Draft} {id : BlockId} (exposed : Exposed spot draft)
    (planted : Planted forest draft id) :
    ∃ inner children, PlantedAll forest children (beneath forest id) ∧
      (∀ child ∈ children, Exposed inner child) ∧
      meets forest ⟨spot, id⟩ = forest.entries inner (beneath forest id) := by
  cases exposed with
  | @leaf numbering kind raw =>
      obtain ⟨-, ids, found, none⟩ := planted
      obtain rfl : ids = [] := none
      have none : meets forest ⟨.sibling, id⟩ = [] := by
        have sub := (meets_sublist_lists forest ⟨.sibling, id⟩).map Entry.id
        rw [Forest.lists_eq found] at sub
        exact List.map_eq_nil_iff.1 (List.sublist_nil.1
          (sub.trans (Forest.ids_listedBy_sublist forest .sibling (cells_withCells [] kind))))
      have nothing : beneath forest id = [] := by
        simp only [beneath, found, Option.map_some, Option.getD_some]
        split <;> rfl
      exact ⟨.sibling, [], nothing, by simp, by rw [none, nothing]; rfl⟩
  | image =>
      obtain ⟨-, ids, found, -⟩ := planted
      have nothing := beneath_image found rfl
      exact ⟨.sibling, [], nothing, by simp, by rw [nothing, meets_found found]; rfl⟩
  | @container numbering kind raw children way below =>
      obtain ⟨-, ids, found, inner⟩ := planted
      rw [withCells_of_descent way] at found
      have all : beneath forest id = ids := beneath_eq found fun image same => by
        obtain rfl : kind = .image image := same
        cases way
      refine ⟨.sibling, children, all ▸ inner, below, ?_⟩
      simp only [all, meets_found found, Walk.at, Walk.below, way, Walk.entries]
  | @cell numbering raw children inhabited below =>
      obtain ⟨-, ids, found, inner⟩ := planted
      have all : beneath forest id = ids := beneath_eq found (by simp [withCells])
      have some : ids ≠ [] := by
        rintro rfl
        exact inhabited (List.eq_nil_of_length_eq_zero (length_of_planted inner).symm)
      refine ⟨.sibling, children, all ▸ inner, below, ?_⟩
      simp [all, meets_found found, Walk.at, Walk.entries, some]
  | @table numbering property raw cells columns rows below =>
      obtain ⟨-, ids, found, inner⟩ := planted
      have all : beneath forest id = ids := beneath_eq found (by simp [withCells])
      refine ⟨.cell, cells, all ▸ inner, below, ?_⟩
      have shown := TableProperty.rows_eq_cells { property with cells := ids }
        columns (by rwa [length_of_planted inner]) (isEmpty_of_planted inner)
      simp only [all, meets_found found, Walk.at, Walk.below, withCells, descent, Walk.entries,
        shown]

def Stands (forest : Forest) (entry : Entry) : Prop :=
  ∃ draft, Exposed entry.spot draft ∧ Planted forest draft entry.id

theorem stands_of_planted {spot : Spot} {drafts : List Draft} {ids : List BlockId}
    (planted : PlantedAll forest drafts ids) (exposed : ∀ draft ∈ drafts, Exposed spot draft) :
    ∀ entry ∈ forest.entries spot ids, Stands forest entry := by
  intro entry mem
  obtain ⟨same, listed, -⟩ := Forest.mem_entries.1 mem
  obtain ⟨draft, inside, there⟩ := mem_ids_of_planted planted listed
  exact ⟨draft, same ▸ exposed draft inside, there⟩

theorem ids_entries_planted {drafts : List Draft} {ids : List BlockId}
    (planted : PlantedAll forest drafts ids) (spot : Spot) :
    (forest.entries spot ids).map Entry.id = ids := by
  rw [Forest.ids_entries, List.filter_eq_self]
  intro id mem
  obtain ⟨draft, -, there⟩ := mem_ids_of_planted planted mem
  exact there.contains

theorem ids_meets (entry : Entry) (stands : Stands forest entry) :
    (meets forest entry).map Entry.id = beneath forest entry.id := by
  obtain ⟨draft, exposed, planted⟩ := stands
  obtain ⟨inner, children, below, -, same⟩ := meets_planted exposed planted
  rw [same]
  exact ids_entries_planted below inner

theorem stands_meets (entry : Entry) (stands : Stands forest entry) :
    ∀ below ∈ meets forest entry, Stands forest below := by
  obtain ⟨draft, exposed, planted⟩ := stands
  obtain ⟨inner, children, below, inside, same⟩ := meets_planted exposed planted
  rw [same]
  exact stands_of_planted below inside

/-! ## All blocks are exposed -/

def Reached (forest : Forest) (ids : List BlockId) (id : BlockId) : Prop :=
  Reaches (beneath forest) ids id ∨ UnderImage forest id

theorem Reached.mono {ids more : List BlockId} {id : BlockId} (reached : Reached forest ids id)
    (sub : ids ⊆ more) : Reached forest more id :=
  reached.imp_left fun ⟨top, isTop, path⟩ => ⟨top, sub isTop, path⟩

theorem Reached.above {ids : List BlockId} {id top : BlockId} (reached : Reached forest ids id)
    (below : beneath forest top = ids) : Reached forest [top] id :=
  reached.imp_left fun ⟨_, isChild, path⟩ =>
    ⟨top, List.mem_singleton.2 rfl, .head (below ▸ isChild) path⟩

theorem ids_place_leaves (last : Nat) (drafts : List Draft)
    (leaves : ∀ draft ∈ drafts, ∃ kind, draft = .leaf kind) :
    ∀ block ∈ (placeAll last drafts).blocks, block.id ∈ (placeAll last drafts).ids := by
  induction drafts generalizing last with
  | nil => exact fun block mem => absurd mem List.not_mem_nil
  | cons draft drafts ih =>
      obtain ⟨kind, rfl⟩ := leaves draft List.mem_cons_self
      intro block mem
      rcases List.mem_append.1 mem with mem | mem
      · obtain rfl := List.mem_singleton.1 mem
        exact List.mem_cons_self
      · exact List.mem_cons_of_mem _
          (ih _ (fun draft mem => leaves draft (List.mem_cons_of_mem _ mem)) block mem)

mutual

theorem withCells_of_mem_place (last : Nat) (draft : Draft) :
    ∀ block ∈ (place last draft).blocks,
      ∃ kind, block.kind = withCells block.children kind := by
  obtain ⟨numbering, kind, raw, children⟩ := draft
  obtain ⟨between, number, -, blocks⟩ := place_eq last numbering kind raw children
  rw [blocks]
  intro block mem
  rcases List.mem_append.1 mem with mem | mem
  · exact withCells_of_mem_placeAll between children block mem
  · obtain rfl := List.mem_singleton.1 mem
    exact ⟨kind, rfl⟩

theorem withCells_of_mem_placeAll (last : Nat) (drafts : List Draft) :
    ∀ block ∈ (placeAll last drafts).blocks,
      ∃ kind, block.kind = withCells block.children kind := by
  cases drafts with
  | nil => exact fun block mem => absurd mem List.not_mem_nil
  | cons draft drafts =>
      intro block mem
      exact (List.mem_append.1 mem).elim (withCells_of_mem_place last draft block)
        (withCells_of_mem_placeAll _ drafts block)

end

mutual

theorem reached_place (last : Nat) {spot : Spot} (draft : Draft) (exposed : Exposed spot draft)
    (found : (place last draft).FoundIn forest) :
    ∀ block ∈ (place last draft).blocks, Reached forest (place last draft).ids block.id := by
  obtain ⟨numbering, kind, raw, children⟩ := draft
  obtain ⟨between, number, ids, blocks⟩ := place_eq last numbering kind raw children
  unfold Placement.FoundIn at found
  rw [ids, blocks]
  rw [blocks] at found
  have inside : (placeAll between children).FoundIn forest := fun block mem =>
    found block (List.mem_append_left _ mem)
  have top := found _ (List.mem_append_right _ (List.mem_singleton.2 rfl))
  intro block mem
  rcases List.mem_append.1 mem with lower | mem
  · have through (spot : Spot) (below : ∀ child ∈ children, Exposed spot child)
        (other : ∀ image, withCells (placeAll between children).ids kind ≠ .image image) :
        Reached forest [blockId number] block.id :=
      (reached_placeAll between children below inside block lower).above (beneath_eq top other)
    cases exposed with
    | leaf => cases lower
    | image leaves =>
        exact .inr ⟨_, Forest.mem_of_get? top, ⟨_, rfl⟩,
          ids_place_leaves between children leaves block lower⟩
    | container way below =>
        rw [withCells_of_descent way] at through
        exact through .sibling below fun image same => by rw [same] at way; cases way
    | cell _ below => exact through .sibling below (by simp [withCells])
    | table _ _ below => exact through .cell below (by simp [withCells])
  · obtain rfl := List.mem_singleton.1 mem
    exact .inl (reaches_of_mem (List.mem_singleton.2 rfl))

theorem reached_placeAll (last : Nat) {spot : Spot} (drafts : List Draft)
    (exposed : ∀ draft ∈ drafts, Exposed spot draft)
    (found : (placeAll last drafts).FoundIn forest) :
    ∀ block ∈ (placeAll last drafts).blocks,
      Reached forest (placeAll last drafts).ids block.id := by
  cases drafts with
  | nil => exact fun block mem => absurd mem List.not_mem_nil
  | cons draft drafts =>
      have first := reached_place last draft (exposed draft List.mem_cons_self) fun block mem =>
        found block (List.mem_append_left _ mem)
      have rest := reached_placeAll (place last draft).last drafts
        (fun other mem => exposed other (List.mem_cons_of_mem _ mem)) fun block mem =>
          found block (List.mem_append_right _ mem)
      intro block mem
      rcases List.mem_append.1 mem with mem | mem
      · exact (first block mem).mono (List.subset_append_left _ _)
      · exact (rest block mem).mono (List.subset_append_right _ _)

end

/-! ## Imported forests -/

section

variable (options : ConvertOptions) (nodes : List Node)

theorem tree_document :
    Tree (meets (document options nodes).forest) Entry.id
      ((document options nodes).forest.entries .sibling (document options nodes).roots) := by
  refine (Forest.lists_tree (nodup_listed_document options nodes) fun block mem => ?_).narrow
    (meets_sublist_lists _)
  rw [blocks_document] at mem
  obtain ⟨kind, same⟩ := withCells_of_mem_placeAll 0 _ block mem
  exact same ▸ cells_withCells block.children kind

theorem stands_document :
    ∀ entry ∈ (document options nodes).forest.entries .sibling (document options nodes).roots,
      Stands (document options nodes).forest entry :=
  stands_of_planted (planted_document options nodes) (exposed_drafts options nodes)

theorem ids_unfold_document (levels : Nat) :
    (unfold (meets (document options nodes).forest) levels ((document options nodes).forest.entries
      .sibling (document options nodes).roots)).map Entry.id =
    unfold (beneath (document options nodes).forest) levels (document options nodes).roots := by
  rw [map_unfold ids_meets stands_meets levels (stands_document options nodes),
    ids_entries_planted (planted_document options nodes)]

theorem ids_level_document (number : Nat) :
    (level (meets (document options nodes).forest) number ((document options nodes).forest.entries
      .sibling (document options nodes).roots)).map Entry.id =
    level (beneath (document options nodes).forest) number (document options nodes).roots := by
  rw [map_level ids_meets stands_meets number (stands_document options nodes),
    ids_entries_planted (planted_document options nodes)]

theorem reached_document (block : Block) (mem : block ∈ (document options nodes).forest.blocks) :
    Reached (document options nodes).forest (document options nodes).roots block.id := by
  rw [blocks_document] at mem
  exact reached_placeAll 0 _ (exposed_drafts options nodes) (foundIn_document options nodes)
    block mem

theorem shows_document_iff {block : Block}
    (mem : block ∈ (document options nodes).forest.blocks) :
    Shows (document options nodes).forest (document options nodes).roots block ↔
      block.id ∈ unfold (beneath (document options nodes).forest) 100
        (document options nodes).roots := by
  have found := Forest.get?_eq_some (wellFormed_document options nodes).nodup_ids mem
  rw [shows_iff (tree_document options nodes), ← ids_unfold_document, List.mem_map]
  constructor
  · rintro ⟨entry, inside, same⟩
    exact ⟨entry, inside, (Forest.id_of_get? same).symm⟩
  · rintro ⟨entry, inside, same⟩
    exact ⟨entry, inside, same ▸ found⟩

theorem truncated_document (setting : Setting) :
    (renderRoots (document options nodes).forest setting
        (document options nodes).roots).2.truncated =
      !(level (beneath (document options nodes).forest) 100
        (document options nodes).roots).isEmpty := by
  rw [renderRoots_eq_layout, (tracks_planRoots (tree_document options nodes)).effect.truncated,
    ← ids_level_document, List.isEmpty_map]
  exact Bool.false_or _

theorem parent_unique {blocks : List Block} (once : (blocks.flatMap (·.children)).Nodup)
    {parent other : Block} (mem : parent ∈ blocks) (mem' : other ∈ blocks) {id : BlockId}
    (child : id ∈ parent.children) (child' : id ∈ other.children) : parent = other := by
  by_contra apart
  have : Std.Symm (Function.onFun List.Disjoint (Block.children ·)) :=
    ⟨fun _ _ disjoint _ left right => disjoint right left⟩
  exact (List.nodup_flatMap.1 once).2.forall mem mem' apart child child'

theorem not_underImage_of_reaches {id : BlockId}
    (reaches : Reaches (beneath (document options nodes).forest)
      (document options nodes).roots id) :
    ¬ UnderImage (document options nodes).forest id := by
  rintro ⟨image, inForest, ⟨kind, isImage⟩, listed⟩
  have once := nodup_listed_document options nodes
  rw [Forest.listed, List.nodup_append] at once
  obtain ⟨top, isTop, path⟩ := reaches
  -- It is listed under the image, so it is no root, and nothing else lists it.
  cases path with
  | refl => exact once.2.2 _ isTop _ (List.mem_flatMap.2 ⟨image, inForest, listed⟩) rfl
  | @tail above _ _ step =>
      cases found : (document options nodes).forest.get? above with
      | none => simp [beneath, found] at step
      | some block =>
          have below : id ∈ block.children := by
            rw [beneath, found, Option.map_some, Option.getD_some] at step
            split at step
            · cases step
            · exact step
          obtain rfl := parent_unique once.2.1 (Forest.mem_of_get? found) inForest below listed
          rw [beneath_image found isImage] at step
          cases step

/-- The export of an imported forest is cut short exactly if a chain of blocks, none of them under
an image, is longer than a hundred; that is, exactly if there is a block that is neither shown nor
the text under an image. -/
theorem truncated_document_iff (setting : Setting) :
    ((renderRoots (document options nodes).forest setting
        (document options nodes).roots).2.truncated = true ↔
      ¬ ChainsWithin (beneath (document options nodes).forest) 100
        (document options nodes).roots) ∧
    ((renderRoots (document options nodes).forest setting
        (document options nodes).roots).2.truncated = true ↔
      ∃ block ∈ (document options nodes).forest.blocks,
        ¬ Shows (document options nodes).forest (document options nodes).roots block ∧
        ¬ UnderImage (document options nodes).forest block.id) := by
  have cut : (renderRoots (document options nodes).forest setting
      (document options nodes).roots).2.truncated = true ↔
      level (beneath (document options nodes).forest) 100 (document options nodes).roots ≠ [] := by
    rw [truncated_document, Bool.not_eq_true', List.isEmpty_eq_false_iff]
  refine ⟨cut.trans (not_congr level_eq_nil_iff), cut.trans ⟨fun deep => ?_, ?_⟩⟩
  · -- A block on the level below the last one shown is not on any level above, since no id is met
    -- twice, and not under an image, since it can be reached.
    obtain ⟨id, mem⟩ := List.exists_mem_of_ne_nil _ deep
    rw [← ids_level_document] at mem
    obtain ⟨entry, onLevel, rfl⟩ := List.mem_map.1 mem
    have below := (tree_document options nodes).notMem_unfold onLevel
    rw [ids_unfold_document] at below
    have reaches := reaches_of_mem_level (ids_level_document options nodes 100 ▸ mem)
    obtain ⟨draft, -, planted⟩ := (reaches_of_mem_level onLevel).closed
      (stands_document options nodes) stands_meets
    obtain ⟨block, found⟩ := Option.isSome_iff_exists.1 planted.contains
    have inForest := Forest.mem_of_get? found
    rw [← Forest.id_of_get? found] at below reaches
    refine ⟨block, inForest, ?_, not_underImage_of_reaches options nodes reaches⟩
    rwa [shows_document_iff options nodes inForest]
  · rintro ⟨block, mem, hidden, noLabel⟩ empty
    rw [shows_document_iff options nodes mem] at hidden
    rcases reached_document options nodes block mem with reaches | label
    · exact hidden (mem_unfold_of_reaches empty reaches)
    · exact noLabel label

end

def quoted : Nat → Node → Node
  | 0, node => node
  | levels + 1, node => .mk .blockQuote [quoted levels node]

def deepQuote : Imported :=
  document {} [quoted 100 (.mk .paragraph [.mk (.text "deep") []])]

/-- The line in the innermost quote is imported on a level that is not shown any more. -/
theorem deepQuote_cutShort :
    deepQuote.forest.get? "blk101" = some ⟨"blk101", .text .quote (some (.plain "deep")), []⟩ ∧
      (renderRoots deepQuote.forest {} deepQuote.roots).2.truncated = true ∧
      (Render.document deepQuote.forest {} deepQuote.roots).markdown = "" := by
  decide +kernel

end Blockmark.Import
