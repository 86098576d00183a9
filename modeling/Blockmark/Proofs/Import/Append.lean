import Blockmark.Proofs.Import.Tables
import Blockmark.Proofs.Import.WellFormed
import Blockmark.Proofs.Render.Renaming

/-!
# Importing in parts

A document can be imported in parts. What stands behind a part is imported as on its own, except
that the blocks in front of it have been numbered already; nothing else is carried over from one
top-level node to the next.

Main statement: `document_append`.
-/

namespace Blockmark.Import

open Markdown

def blockNumber (id : BlockId) : Nat :=
  Nat.ofDigitChars 10 (id.toList.drop 3) 0

theorem blockNumber_blockId (number : Nat) : blockNumber (blockId number) = number := by
  simp [blockNumber, blockId]

def laterId (count : Nat) (id : BlockId) : BlockId :=
  blockId (blockNumber id + count)

@[simp] theorem laterId_blockId (count number : Nat) :
    laterId count (blockId number) = blockId (number + count) := by
  rw [laterId, blockNumber_blockId]

/-- A part of a document followed by another part that was imported on its own. -/
def Imported.append (first second : Imported) : Imported :=
  let later := laterId first.forest.size
  { roots := first.roots ++ second.roots.map later
    forest := ⟨first.forest.blocks ++ second.forest.blocks.map (Block.rename later)⟩
    tables := first.tables ++ second.tables }

/-! ## Numbering behind more blocks -/

def Placement.later (count : Nat) (placement : Placement) : Placement where
  ids := placement.ids.map (laterId count)
  blocks := placement.blocks.map (Block.rename (laterId count))
  last := placement.last + count

-- A draft has no ids of its own: a table is given its cells with the ids of its children.
theorem mapCells_withCells (f : BlockId → BlockId) (ids : List BlockId) (kind : Kind) :
    (withCells ids kind).mapCells f = withCells (ids.map f) kind := by
  cases kind with
  | table property => cases property <;> rfl
  | _ => rfl

mutual

theorem place_later (count last : Nat) (draft : Draft) :
    place (last + count) draft = (place last draft).later count := by
  obtain ⟨numbering, kind, raw, children⟩ := draft
  cases numbering with
  | beforeChildren =>
      rw [place, place, Nat.add_right_comm, placeAll_later count (last + 1) children]
      simp [Placement.later, Block.rename, mapCells_withCells]
  | afterChildren =>
      rw [place, place, placeAll_later count last children]
      simp [Placement.later, Block.rename, mapCells_withCells, Nat.add_right_comm]

theorem placeAll_later (count last : Nat) (drafts : List Draft) :
    placeAll (last + count) drafts = (placeAll last drafts).later count := by
  cases drafts with
  | nil => rfl
  | cons draft drafts =>
      rw [placeAll, placeAll, place_later count last draft]
      dsimp only [Placement.later]
      rw [placeAll_later count _ drafts]
      simp [Placement.later]

end

theorem placeAll_append (last : Nat) (drafts more : List Draft) :
    placeAll last (drafts ++ more) =
      let first := placeAll last drafts
      let rest := placeAll first.last more
      ⟨first.ids ++ rest.ids, first.blocks ++ rest.blocks, rest.last⟩ := by
  induction drafts generalizing last with
  | nil => rfl
  | cons draft drafts ih => simp [placeAll, ih]

/-! ## Documents -/

section

variable (options : ConvertOptions)

theorem importBlocks_append (depth : Nat) (first second : List Node) :
    importBlocks options depth (first ++ second) =
      importBlocks options depth first ++ importBlocks options depth second := by
  induction first with
  | nil => rfl
  | cons node first ih => rw [List.cons_append, importBlocks, importBlocks, ih, List.append_assoc]

theorem last_placement (nodes : List Node) :
    (placement options nodes).last = (document options nodes).forest.size := by
  rw [Forest.size, blocks_document, (numbered_placement options nodes).last_eq, Nat.zero_add]

theorem placement_append (first second : List Node) :
    let behind := (placement options second).later (document options first).forest.size
    (placement options (first ++ second)).ids = (placement options first).ids ++ behind.ids ∧
    (placement options (first ++ second)).blocks =
      (placement options first).blocks ++ behind.blocks := by
  intro behind
  have moved : placeAll (placement options first).last (drafts options second) = behind := by
    rw [last_placement, ← Nat.zero_add (document options first).forest.size]
    exact placeAll_later _ 0 (drafts options second)
  have both : placement options (first ++ second) = _ :=
    (congrArg (placeAll 0) (importBlocks_append options 0 first second)).trans
      (placeAll_append 0 _ _)
  rw [both]
  exact ⟨congrArg (_ ++ ·.ids) moved, congrArg (_ ++ ·.blocks) moved⟩

theorem document_append_eq (first second : List Node) :
    document options (first ++ second) =
      (document options first).append (document options second) := by
  obtain ⟨ids, blocks⟩ := placement_append options first second
  have roots : (document options (first ++ second)).roots =
      ((document options first).append (document options second)).roots := ids
  have forest : (document options (first ++ second)).forest.blocks =
      ((document options first).append (document options second)).forest.blocks := by
    dsimp only [Imported.append]
    rw [blocks_document, blocks_document, blocks_document, blocks]
    rfl
  have tables : (document options (first ++ second)).tables =
      ((document options first).append (document options second)).tables := by
    rw [document, drafts, importBlocks_append]
    exact tablesOfAll_append _ _
  calc document options (first ++ second)
      = ⟨(document options (first ++ second)).roots,
          ⟨(document options (first ++ second)).forest.blocks⟩,
          (document options (first ++ second)).tables⟩ := rfl
    _ = (document options first).append (document options second) := by
        rw [roots, forest, tables]

/-- Importing nodes one behind the other is importing them in parts, with the numbers of the second
part moved up by the blocks of the first. So a document is imported node by node, and only the
number of blocks so far is handed on. -/
theorem document_append :
    (∀ first second, document options (first ++ second) =
      (document options first).append (document options second)) ∧
    ∀ nodes, document options nodes =
      nodes.foldl (fun imported node => imported.append (document options [node])) {} := by
  refine ⟨document_append_eq options, fun nodes => ?_⟩
  induction nodes using List.reverseRecOn with
  | nil => rfl
  | append_singleton nodes node ih =>
      rw [document_append_eq, List.foldl_append, ← ih]
      rfl

end

end Blockmark.Import
