import Blockmark.Proofs.Render.Unguarded

/-!
# Guards on trees

Where no block is listed twice and no chain of blocks is too long, the memory of the blocks that
were shown and the depth limit make no difference: a document is what is rendered without them.

Main statement: `document_eq_unguarded`.
-/

namespace Blockmark.Render

variable {forest : Forest}

theorem lists_of_image {entry : Entry} {block : Block} {image : Option Image}
    (found : forest.get? entry.id = some block) (kind : block.kind = .image image)
    (itself : Walk.at entry.spot block = .below block) :
    forest.lists entry = forest.entries .label block.children := by
  have beside : forest.listedBeside block = forest.entries .label block.children := by
    rw [Forest.listedBeside, kind]
  have stops : Walk.below block = .siblings 0 [] := by
    rw [Walk.below, kind]
    rfl
  rw [Forest.lists_eq found]
  cases spot : entry.spot with
  | sibling => exact beside
  | cell =>
      rw [spot, Walk.at, stops] at itself
      rw [Forest.listedBy]
      split at itself
      · next childless => rw [if_pos childless, beside]
      · next children =>
          simp only [Walk.siblings.injEq, true_and] at itself
          simp [itself] at children
  | label => rfl

theorem altText_of_fresh {block : Block} {image : Option Image} (kind : block.kind = .image image)
    (fresh : Fresh forest.lists Entry.id 99 (forest.entries .label block.children) [block.id]) :
    altText forest block = Unguarded.joinLabels (forest.textsWithin 99 block.children) := by
  have lines : (forest.collectTexts maxDepth {} block).lines.reverse =
      forest.textsWithin 99 block.children := by
    rw [maxDepth, Forest.collectTexts_unseen List.not_mem_nil]
    split
    · next childless =>
      have none : block.children = [] := List.isEmpty_iff.1 childless
      have own : Forest.ownTexts block = [] := by
        rw [Forest.ownTexts, kind]
        rfl
      rw [none, own]
      rfl
    · have collected := Forest.collected_texts block.children ⟨[block.id], []⟩ fresh
      rw [collected.lines, List.append_nil, List.reverse_reverse]
  rw [altText, Forest.blockText, lines]
  rfl

section

variable {roots : List BlockId}

theorem labelsAgree_of_tree (tree : Tree forest.lists Entry.id (forest.entries .sibling roots))
    (fits : level forest.lists 100 (forest.entries .sibling roots) = []) {entry : Entry}
    (mem : entry ∈ unfold forest.lists 100 (forest.entries .sibling roots)) :
    Unguarded.LabelsAgree forest entry := by
  intro block image found itself kind
  have labels := lists_of_image found kind itself
  have below : level forest.lists 99 (forest.entries .label block.children) = [] :=
    labels ▸ level_of_mem_unfold mem fits
  -- The image itself is noted as looked at before the texts under it are collected.
  have alone : Fresh forest.lists Entry.id 100 [entry] [] :=
    ⟨(tree.nodup_unfold 200).sublist ((unfold_of_mem_unfold mem 100).map _),
      fun _ _ => List.not_mem_nil⟩
  have fresh := alone.below
  rw [labels, ← Forest.id_of_get? found] at fresh
  exact ⟨_, Forest.labels_textsWithin 99 block.children below, (altText_of_fresh kind fresh).symm⟩

/-- Where no existing block is listed twice and no chain of blocks is longer than a hundred,
rendering without guards comes to an end, with the document as its one result, whatever the options
and the known users are. -/
theorem document_eq_unguarded (tree : Tree forest.lists Entry.id (forest.entries .sibling roots))
    (bounded : ChainsWithin forest.lists 100 (forest.entries .sibling roots))
    (setting : Setting) (exported : Exported) :
    Unguarded.Exports forest setting roots exported ↔
      exported = document forest setting roots := by
  have fits : level forest.lists 100 (forest.entries .sibling roots) = [] :=
    level_eq_nil_iff.2 bounded
  have shows : level (meets forest) 100 (forest.entries .sibling roots) = [] :=
    List.sublist_nil.1 (fits ▸ level_sublist (meets_sublist_lists forest) (.refl _) 100)
  have labels : ∀ entry ∈ unfold (meets forest) 100 (forest.entries .sibling roots),
      Unguarded.LabelsAgree forest entry := fun entry mem =>
    labelsAgree_of_tree tree fits
      ((unfold_sublist (meets_sublist_lists forest) (.refl _) 100).subset mem)
  have planned := tracks_planRoots (tree.narrow (meets_sublist_lists forest))
  rw [Unguarded.exports_iff 100 shows labels, document, renderRoots_eq_layout, planned.shown,
    planned.effect.tokens]
  rfl

def gallery : Forest := ⟨[
  ⟨"grid", .grid (some 1), ["column", "stray"]⟩,
  ⟨"column", .gridColumn none, ["image"]⟩,
  ⟨"stray", .text .paragraph (some (.plain "stray")), []⟩,
  ⟨"image", .image (some { token := some "tok" }), ["caption"]⟩,
  ⟨"caption", .bare .view, ["two", "lines"]⟩,
  ⟨"two", .text .paragraph (some (.plain "two")), []⟩,
  ⟨"lines", .text .paragraph (some (.plain "lines")), []⟩,
  ⟨"table", .table (some { cells := ["left", "right"], rowSize := 1, columnSize := 2 }), ["left"]⟩,
  ⟨"left", .bare .tableCell, ["item"]⟩,
  ⟨"item", .text .bullet (some (.plain "item")), []⟩,
  ⟨"right", .table (some { cells := ["item"], rowSize := 1, columnSize := 1 }), ["note"]⟩,
  ⟨"note", .text .quote (some (.plain "note")), []⟩]⟩

theorem document_eq_unguarded_gallery :
    let tops := gallery.entries .sibling ["grid", "missing", "table"]
    Tree gallery.lists Entry.id tops ∧ ChainsWithin gallery.lists 100 tops ∧
      ∀ exported, Unguarded.Exports gallery {} ["grid", "missing", "table"] exported ↔
        exported =
          ⟨"![two lines](tok)\n\n| - item | > note |\n| ------ | ------ |\n", ["tok"]⟩ := by
  intro tops
  have tree : Tree gallery.lists Entry.id tops :=
    tree_of_closed (unfold gallery.lists 5 tops) (by decide +kernel) (by decide +kernel)
      (by decide +kernel)
  have bounded : ChainsWithin gallery.lists 100 tops := level_eq_nil_iff.1 (by decide +kernel)
  have same : document gallery {} ["grid", "missing", "table"] =
      ⟨"![two lines](tok)\n\n| - item | > note |\n| ------ | ------ |\n", ["tok"]⟩ := by
    decide +kernel
  exact ⟨tree, bounded, fun exported => same ▸ document_eq_unguarded tree bounded {} exported⟩

end

/-! ## A table in a cell -/

/-- The existing ids that a block lists, with the cells of a table in place of its children
wherever the table stands. -/
def edges (forest : Forest) (id : BlockId) : List BlockId :=
  ((forest.get? id).map fun block => match block.kind with
    | .table _ => block.kind.cells.filter forest.contains
    | _ => block.children.filter forest.contains).getD []

def doubled : Forest := ⟨[
  ⟨"outer", .table (some { cells := ["inner"], rowSize := 1, columnSize := 1 }), []⟩,
  ⟨"inner", .table (some { rowSize := 0, columnSize := 1 }), ["text", "text"]⟩,
  ⟨"text", .text .paragraph (some (.plain "c")), []⟩]⟩

/-- A table that stands in a cell shows its children, so that a tree of children and cells is not
enough. -/
theorem doubled_shown_once :
    Tree (edges doubled) id ["outer"] ∧ ChainsWithin (edges doubled) 100 ["outer"] ∧
      (∀ exported, Unguarded.Exports doubled {} ["outer"] exported ↔
        exported = ⟨"| c<br>c |\n| ------ |\n", []⟩) ∧
      document doubled {} ["outer"] = ⟨"| c   |\n| --- |\n", []⟩ := by
  refine ⟨?_, level_eq_nil_iff.1 (by decide +kernel), ?_, by decide +kernel⟩
  · exact tree_of_closed ["outer", "inner"] (by decide +kernel) (by decide +kernel)
      (by decide +kernel)
  · have noImage : ∀ entry, Unguarded.LabelsAgree doubled entry := by
      intro entry block image found _ kind
      have mem := Forest.mem_of_get? found
      simp only [doubled, List.mem_cons, List.not_mem_nil, or_false] at mem
      rcases mem with rfl | rfl | rfl <;> cases kind
    have same : Unguarded.assemble
        (Shown.pieces doubled {} .plain (outline doubled 4 (.siblings 0 ["outer"])))
        (Shown.tokensOfAll (outline doubled 4 (.siblings 0 ["outer"]))) =
          ⟨"| c<br>c |\n| ------ |\n", []⟩ := by
      decide +kernel
    intro exported
    rw [Unguarded.exports_iff 4 (by decide +kernel) (fun entry _ => noImage entry), same]

end Blockmark.Render
