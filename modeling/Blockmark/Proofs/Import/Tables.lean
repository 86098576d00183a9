import Mathlib.Data.List.Forall2
import Blockmark.PlainText
import Blockmark.Proofs.Import.Built
import Blockmark.Proofs.Import.Planted
import Blockmark.Proofs.Inline.Plain
import Blockmark.Proofs.Render.Labels
import Blockmark.Proofs.Render.Meeting

/-!
# Imported tables

A table of the syntax tree becomes tables of a few rows each, every one with a grid of plain text
beside it. The blocks of a table hold what its grid holds, cell by cell, and are read as the same
plain text again if the cells are plain.

Main statement: `tables_of_import`.
-/

namespace Blockmark.Import

open Markdown Forest

def rawTable (grid : List (List (List Node))) : RawTable :=
  { rows := grid.map (·.map Inline.plainText) }

/-- A cell with a single text below it, composed of the nodes. -/
def IsCell (options : ConvertOptions) (forest : Forest) (nodes : List Node) (id : BlockId) : Prop :=
  id.isEmpty = false ∧ ∃ text body,
    forest.get? id = some ⟨id, .bare .tableCell, [text]⟩ ∧
    forest.get? text = some ⟨text, .text .paragraph (some body), []⟩ ∧
    body.elements = Inline.compose options nodes

structure IsTable (options : ConvertOptions) (forest : Forest) (grid : List (List (List Node)))
    (property : TableProperty) (id : BlockId) : Prop where
  found : forest.get? id = some ⟨id, .table (some property), property.cells⟩
  rowSize : property.rowSize = grid.length
  full : ∀ row ∈ grid, row.length = property.columnSize
  cells : List.Forall₂ (IsCell options forest) grid.flatten property.cells

section

variable {options : ConvertOptions} {forest : Forest}

/-! ## Blocks of tables -/

theorem forall₂_of_plantedAll {drafts : List Draft} {ids : List BlockId}
    (planted : PlantedAll forest drafts ids) : List.Forall₂ (Planted forest) drafts ids := by
  induction drafts generalizing ids with
  | nil =>
      obtain rfl : ids = [] := planted
      exact .nil
  | cons draft drafts ih =>
      obtain ⟨id, more, rfl, first, rest⟩ := planted
      exact .cons first (ih rest)

theorem forall₂_trans {α β γ : Type} {R : α → β → Prop} {S : β → γ → Prop} {T : α → γ → Prop}
    {as : List α} {bs : List β} {cs : List γ} (first : List.Forall₂ R as bs)
    (second : List.Forall₂ S bs cs) (both : ∀ {a b c}, R a b → S b c → T a c) :
    List.Forall₂ T as cs := by
  induction first generalizing cs with
  | nil =>
      cases second
      exact .nil
  | cons here _ ih =>
      cases second with
      | cons there rest => exact .cons (both here there) (ih rest)

theorem isCell_of_planted {align : Option Align} {nodes : List Node} {id : BlockId}
    (planted : Planted forest (cellDraft align (contentOf options nodes)) id) :
    IsCell options forest nodes id := by
  obtain ⟨named, ids, found, text, more, rfl, inner, rfl⟩ := planted
  obtain ⟨-, ids, foundText, rfl⟩ := inner
  exact ⟨named, text, _, found, foundText, rfl⟩

theorem forall₂_rowDrafts (alignments : List (Option Align)) (row : List (List Node)) :
    List.Forall₂ (fun nodes draft => ∃ align, draft = cellDraft align (contentOf options nodes)) row
      (rowDrafts alignments (row.map (contentOf options))) := by
  induction row generalizing alignments with
  | nil => cases alignments <;> exact .nil
  | cons nodes row ih =>
      cases alignments with
      | nil => exact .cons ⟨_, rfl⟩ (ih [])
      | cons align alignments => exact .cons ⟨_, rfl⟩ (ih alignments)

theorem forall₂_cellDrafts (alignments : List (Option Align)) (grid : List (List (List Node))) :
    List.Forall₂ (fun nodes draft => ∃ align, draft = cellDraft align (contentOf options nodes))
      grid.flatten ((grid.map (·.map (contentOf options))).flatMap (rowDrafts alignments)) := by
  induction grid with
  | nil => exact .nil
  | cons row grid ih => exact List.rel_append (forall₂_rowDrafts alignments row) ih

theorem isTable_of_planted {alignments : List (Option Align)} {columns : Nat}
    {grid : List (List (List Node))} (full : ∀ row ∈ grid, row.length = columns) {id : BlockId}
    (planted : Planted forest
      (tableDraft alignments columns (grid.map (·.map (contentOf options)))) id) :
    ∃ property, IsTable options forest grid property id ∧ property.columnSize = columns := by
  obtain ⟨-, ids, found, inner⟩ := planted
  refine ⟨_, ⟨found, List.length_map _, full, ?_⟩, rfl⟩
  refine forall₂_trans (forall₂_cellDrafts alignments grid) (forall₂_of_plantedAll inner) ?_
  rintro nodes _ id ⟨align, rfl⟩ there
  exact isCell_of_planted there

theorem IsTable.length_cells {grid : List (List (List Node))} {property : TableProperty}
    {id : BlockId} (table : IsTable options forest grid property id) :
    property.cells.length = property.rowSize * property.columnSize := by
  have lengths : grid.map List.length = List.replicate grid.length property.columnSize :=
    List.eq_replicate_iff.2 ⟨List.length_map _, List.forall_mem_map.2 table.full⟩
  rw [← table.cells.length_eq, table.rowSize, List.length_flatten, lengths, List.sum_replicate_nat]

/-! ## The text of tables -/

theorem intercalate_ownTexts (block : Block) : String.intercalate "\n" (ownTexts block) =
    (block.kind.body?.map TextBody.plainText).getD "" := by
  unfold ownTexts
  generalize (block.kind.body?.map TextBody.plainText).getD "" = text
  dsimp only
  split
  · next empty => rw [String.isEmpty_iff.1 empty]; rfl
  · simp

theorem cellText_of_isCell {nodes : List Node} {id : BlockId}
    (cell : IsCell options forest nodes id) :
    (forest.cellText id).toList = Inline.elementsText (Inline.compose options nodes) := by
  obtain ⟨-, text, body, found, foundText, same⟩ := cell
  have apart : text ∉ [id] := by
    rw [List.mem_singleton]
    rintro rfl
    rw [found] at foundText
    cases foundText
  have collected : (forest.collectTexts maxDepth {} ⟨id, .bare .tableCell, [text]⟩).lines =
      (ownTexts ⟨text, .text .paragraph (some body), []⟩).reverse := by
    rw [show maxDepth = 98 + 1 + 1 from rfl, collectTexts_unseen List.not_mem_nil,
      if_neg (by simp), List.filterMap_cons_some foundText, List.filterMap_nil, List.foldl_cons,
      List.foldl_nil, collectTexts_unseen apart]
    simp
  have text : forest.cellText id = body.plainText := by
    rw [cellText, found, Option.map_some, Option.getD_some, blockText, collected,
      List.reverse_reverse, intercalate_ownTexts]
    rfl
  rw [text, Inline.toList_plainText, same]

theorem map_eq_of_forall₂ {α β γ : Type} {R : α → β → Prop} {f : α → γ} {g : β → γ} {as : List α}
    {bs : List β} (related : List.Forall₂ R as bs) (same : ∀ a ∈ as, ∀ b, R a b → g b = f a) :
    bs.map g = as.map f := by
  induction related with
  | nil => rfl
  | cons here _ ih =>
      rw [List.map_cons, List.map_cons, same _ List.mem_cons_self _ here,
        ih fun a mem => same a (List.mem_cons_of_mem _ mem)]

theorem tableText_of_isTable {grid : List (List (List Node))} {property : TableProperty}
    {id : BlockId} (table : IsTable options forest grid property id)
    (some : property.columnSize ≠ 0)
    (plain : ∀ row ∈ grid, ∀ nodes ∈ row, Inline.arePlain options 0 nodes = true) :
    forest.tableText id = (rawTable grid).rows := by
  let text (cell : Option BlockId) : String := (cell.map forest.cellText).getD ""
  have cells : property.cells.map (text ∘ TableProperty.cell?) =
      grid.flatten.map Inline.plainText := by
    refine map_eq_of_forall₂ table.cells fun nodes mem id cell => ?_
    obtain ⟨row, isRow, inside⟩ := List.mem_flatten.1 mem
    have same : forest.cellText id = Inline.plainText nodes := by
      rw [← String.toList_inj, cellText_of_isCell cell,
        Inline.elementsText_compose options (plain row isRow nodes inside)]
    rw [Function.comp_apply, TableProperty.cell?, cell.1]
    exact same
  have dvd : property.columnSize ∣ property.cells.length :=
    ⟨property.rowSize, by rw [table.length_cells, Nat.mul_comm]⟩
  rw [tableText, table.found]
  calc property.rows.map (·.map text)
      = (Table.chunks property.columnSize property.cells).map
          (·.map (text ∘ TableProperty.cell?)) := by
        rw [TableProperty.rows_of_full some dvd, List.map_map]
        simp only [Function.comp_def, List.map_map]
    _ = Table.chunks property.columnSize (grid.map (·.map Inline.plainText)).flatten := by
        rw [← Table.chunks_map, cells, List.map_flatten]
    _ = grid.map (·.map Inline.plainText) :=
        Table.chunks_flatten some (List.forall_mem_map.2 fun row mem => by
          rw [List.length_map, table.full row mem])

end

/-! ## Tables of drafts -/

theorem tablesOfAll_append (drafts more : List Draft) :
    Draft.tablesOfAll (drafts ++ more) = Draft.tablesOfAll drafts ++ Draft.tablesOfAll more := by
  induction drafts with
  | nil => rfl
  | cons draft drafts ih => simp [Draft.tablesOfAll, ih]

theorem tablesOfAll_rowDrafts (alignments : List (Option Align)) (cells : List CellContent) :
    Draft.tablesOfAll (rowDrafts alignments cells) = [] := by
  induction cells generalizing alignments with
  | nil => cases alignments <;> rfl
  | cons cell cells ih => cases alignments <;> exact ih _

theorem tablesOfAll_cellDrafts (alignments : List (Option Align)) (grid : List (List CellContent)) :
    Draft.tablesOfAll (grid.flatMap (rowDrafts alignments)) = [] := by
  induction grid with
  | nil => rfl
  | cons row grid ih => rw [List.flatMap_cons, tablesOfAll_append, tablesOfAll_rowDrafts, ih]; rfl

theorem tables_tableDraft (options : ConvertOptions) (alignments : List (Option Align))
    (columns : Nat) (grid : List (List (List Node))) :
    (tableDraft alignments columns (grid.map (·.map (contentOf options)))).tables =
      [rawTable grid] := by
  rw [tableDraft, Draft.tables, tablesOfAll_cellDrafts, List.append_nil, rawTable]
  simp only [List.map_map, Function.comp_def]
  rfl

theorem tablesOfAll_tableDrafts (options : ConvertOptions) (alignments : List (Option Align))
    (columns : Nat) (grids : List (List (List (List Node)))) :
    Draft.tablesOfAll (grids.map fun grid =>
      tableDraft alignments columns (grid.map (·.map (contentOf options)))) =
      grids.map rawTable := by
  induction grids with
  | nil => rfl
  | cons grid grids ih =>
      rw [List.map_cons, List.map_cons, Draft.tablesOfAll, tables_tableDraft, ih]
      rfl

/-! ## All tables of an import -/

section

variable {options : ConvertOptions} {forest : Forest}

def Tabulated (options : ConvertOptions) (forest : Forest) (raw : RawTable) (block : Block) :
    Prop :=
  ∃ grid property, raw = rawTable grid ∧ IsTable options forest grid property block.id

/-- The grids and the table blocks that a draft leaves, wherever it is placed. -/
def Tabulates (options : ConvertOptions) (forest : Forest) (draft : Draft) : Prop :=
  ∀ last, (place last draft).FoundIn forest →
    List.Forall₂ (Tabulated options forest) draft.tables
      ((place last draft).blocks.filter (isTable ·.kind))

theorem isTable_withCells (ids : List BlockId) (kind : Kind) :
    isTable (withCells ids kind) = isTable kind := by
  cases kind with
  | table property => cases property <;> rfl
  | _ => rfl

theorem isTable_of_descent {kind : Kind} (way : Render.descent kind = .children) :
    isTable kind = false := by
  cases kind with
  | table property => cases property <;> cases way
  | _ => rfl

theorem tabulates_placeAll {drafts : List Draft}
    (each : ∀ draft ∈ drafts, Tabulates options forest draft) (last : Nat)
    (found : (placeAll last drafts).FoundIn forest) :
    List.Forall₂ (Tabulated options forest) (Draft.tablesOfAll drafts)
      ((placeAll last drafts).blocks.filter (isTable ·.kind)) := by
  induction drafts generalizing last with
  | nil => exact .nil
  | cons draft drafts ih =>
      obtain ⟨first, rest⟩ := List.forall_mem_cons.1 each
      rw [placeAll, Draft.tablesOfAll]
      dsimp only
      rw [List.filter_append]
      exact List.rel_append
        (first last fun block mem => found block (List.mem_append_left _ mem))
        (ih rest _ fun block mem => found block (List.mem_append_right _ mem))

theorem tabulates_above {numbering : Numbering} {kind : Kind} {children : List Draft}
    (other : isTable kind = false) (below : ∀ child ∈ children, Tabulates options forest child) :
    Tabulates options forest (.mk numbering kind none children) := by
  intro last found
  obtain ⟨between, number, -, blocks⟩ := place_eq last numbering kind none children
  rw [Placement.FoundIn, blocks] at found
  have inner := tabulates_placeAll below between fun block mem =>
    found block (List.mem_append_left _ mem)
  have noTable : isTable (withCells (placeAll between children).ids kind) = false := by
    rw [isTable_withCells, other]
  rw [blocks, List.filter_append, List.filter_cons_of_neg (by simp [noTable]), List.filter_nil,
    List.append_nil, Draft.tables]
  exact inner

theorem tabulates_cellDraft (align : Option Align) (content : CellContent) :
    Tabulates options forest (cellDraft align content) :=
  tabulates_above rfl fun child mem => by
    obtain rfl := List.mem_singleton.1 mem
    exact tabulates_above rfl (by simp)

theorem mem_rowDrafts {alignments : List (Option Align)} {cells : List CellContent} {draft : Draft}
    (mem : draft ∈ rowDrafts alignments cells) :
    ∃ align content, draft = cellDraft align content := by
  induction cells generalizing alignments with
  | nil => cases alignments <;> cases mem
  | cons cell cells ih =>
      cases alignments <;>
      · rcases List.mem_cons.1 mem with rfl | mem
        · exact ⟨_, cell, rfl⟩
        · exact ih mem

theorem tabulates_tableDraft (alignments : List (Option Align)) {columns : Nat}
    {grid : List (List (List Node))} (full : ∀ row ∈ grid, row.length = columns) :
    Tabulates options forest
      (tableDraft alignments columns (grid.map (·.map (contentOf options)))) := by
  intro last found
  obtain ⟨id, ids, planted⟩ := planted_place last _ found
  obtain rfl : blockId (last + 1) = id := List.singleton_inj.1 ids
  obtain ⟨property, table, -⟩ := isTable_of_planted full planted
  have each : ∀ draft ∈ (grid.map (·.map (contentOf options))).flatMap (rowDrafts alignments),
      Tabulates options forest draft := by
    intro draft mem
    obtain ⟨row, -, mem⟩ := List.mem_flatMap.1 mem
    obtain ⟨align, content, rfl⟩ := mem_rowDrafts mem
    exact tabulates_cellDraft align content
  have inner := tabulates_placeAll each (last + 1) fun block mem =>
    found block (List.mem_append_left _ mem)
  rw [tablesOfAll_cellDrafts] at inner
  have noTables := List.forall₂_nil_left_iff.1 inner
  rw [tables_tableDraft, tableDraft, place]
  dsimp only
  rw [List.filter_append, noTables]
  exact .cons ⟨grid, property, rfl, table⟩ .nil

theorem Built.tabulates {draft : Draft} (built : Built options draft) :
    Tabulates options forest draft := by
  induction built with
  | leaf other => exact tabulates_above other (by simp)
  | image leaves =>
      refine tabulates_above rfl fun text mem => ?_
      obtain ⟨role, body, rfl⟩ := leaves text mem
      exact tabulates_above rfl (by simp)
  | container way _ below => exact tabulates_above (isTable_of_descent way) below
  | table some full => exact tabulates_tableDraft _ full

theorem tabulated_document (options : ConvertOptions) (nodes : List Node) :
    List.Forall₂ (Tabulated options (document options nodes).forest)
      (document options nodes).tables
      ((document options nodes).forest.blocks.filter (isTable ·.kind)) := by
  rw [blocks_document]
  exact tabulates_placeAll (fun draft mem => (built_drafts options nodes draft mem).tabulates) 0
    (foundIn_document options nodes)

theorem importBlock_table (options : ConvertOptions) {depth : Nat} (inside : depth < maxDepth)
    (alignments : List (Option Align)) {rows : List Node} (some : columnCount rows ≠ 0) :
    importBlock options depth (.mk (.table alignments) rows) =
      (tableGrids rows).map fun grid =>
        tableDraft alignments (columnCount rows) (grid.map (·.map (contentOf options))) := by
  rw [importBlock_of_inside options (Nat.not_le.2 inside)]
  dsimp only
  rw [importTable_eq, if_neg some]

theorem arePlain_of_mem_tableGrids {rows : List Node}
    (plain : ∀ row ∈ rows.filter isRow, ∀ nodes ∈ rowCells row,
      Inline.arePlain options 0 nodes = true)
    {grid : List (List (List Node))} (mem : grid ∈ tableGrids rows) :
    ∀ cells ∈ grid, ∀ nodes ∈ cells, Inline.arePlain options 0 nodes = true := by
  intro cells inGrid nodes inside
  rcases mem_of_mem_tableGrids mem inGrid inside with ⟨row, isRow, there⟩ | rfl
  · exact plain row isRow nodes there
  · rfl

/-- A table of any rows with a cell becomes one table for every nine rows below the header, and
one if there are none, each with the header and as wide as the widest row. Every grid of plain
text belongs to a table block, and what is read off the blocks of plain cells is the grid. -/
theorem tables_of_import (options : ConvertOptions) :
    (∀ (depth : Nat) (alignments : List (Option Align)) (rows : List Node), depth < maxDepth →
      (∃ row ∈ rows, isRow row = true ∧ row.children ≠ []) →
      ∃ columns grids, HoldRows rows columns grids ∧
        Draft.tablesOfAll (importBlock options depth (.mk (.table alignments) rows)) =
          grids.map rawTable ∧
        ∀ last forest, (placeAll last
            (importBlock options depth (.mk (.table alignments) rows))).FoundIn forest →
          List.Forall₂ (fun grid id => ∃ property,
              IsTable options forest grid property id ∧ property.columnSize = columns ∧
              property.cells.length = property.rowSize * property.columnSize ∧
              ((∀ row ∈ rows.filter isRow, ∀ nodes ∈ rowCells row,
                  Inline.arePlain options 0 nodes = true) →
                forest.tableText id = (rawTable grid).rows))
            grids (placeAll last (importBlock options depth (.mk (.table alignments) rows))).ids) ∧
    ∀ nodes, List.Forall₂ (Tabulated options (document options nodes).forest)
      (document options nodes).tables
      ((document options nodes).forest.blocks.filter (isTable ·.kind)) := by
  refine ⟨fun depth alignments rows inside cell => ?_, tabulated_document options⟩
  have some := columnCount_ne_zero cell
  obtain ⟨row, mem, isRow, -⟩ := cell
  have inhabited := List.ne_nil_of_mem (List.mem_filter.2 ⟨mem, isRow⟩)
  rw [importBlock_table options inside alignments some]
  refine ⟨columnCount rows, tableGrids rows, holdRows_tableGrids inhabited,
    tablesOfAll_tableDrafts options alignments _ _, fun last forest found => ?_⟩
  have planted := List.forall₂_map_left_iff.1
    (forall₂_of_plantedAll (planted_placeAll last _ found))
  have each := (List.forall₂_and_left _ _).2
    ⟨fun grid (mem : grid ∈ tableGrids rows) => mem, planted⟩
  refine each.imp fun grid id there => ?_
  obtain ⟨property, table, columns⟩ :=
    isTable_of_planted (length_of_mem_tableGrids there.1) there.2
  refine ⟨property, table, columns, table.length_cells, fun plain => ?_⟩
  exact tableText_of_isTable table (columns.trans_ne some)
    (arePlain_of_mem_tableGrids plain there.1)

def ledger : List Node :=
  .mk (.tableRow false) [.mk .tableCell [.mk (.code "a") []], .mk .tableCell [.mk .strong []]] ::
  .mk .paragraph [.mk (.text "no row") []] ::
  .mk (.tableRow true) [.mk .tableCell [.mk (.text "h") [], .mk (.math false "x") []]] ::
  .mk (.tableRow true) [] ::
  List.replicate 8 (.mk (.tableRow false)
    [.mk .tableCell [.mk (.link "mailto:b") [.mk (.text "mail ") [], .mk (.text "b") []]]])

def ledgerTable : Node := .mk (.table [some .right]) ledger

theorem tables_of_ledger :
    0 < maxDepth ∧ (∃ row ∈ ledger, isRow row = true ∧ row.children ≠ []) ∧
    (∀ row ∈ ledger.filter isRow, ∀ nodes ∈ rowCells row, Inline.arePlain {} 0 nodes = true) ∧
    ∃ first second, (document {} [ledgerTable]).roots = [first, second] ∧
      (document {} [ledgerTable]).forest.tableText first =
        ["hx", ""] :: ["a", ""] :: ["", ""] :: List.replicate 7 ["mail b", ""] ∧
      (document {} [ledgerTable]).forest.tableText second = [["hx", ""], ["mail b", ""]] := by
  have inside : 0 < maxDepth := by decide
  have cell : ∃ row ∈ ledger, isRow row = true ∧ row.children ≠ [] :=
    ⟨_, List.mem_cons_self, rfl, List.cons_ne_nil _ _⟩
  have plain : ∀ row ∈ ledger.filter isRow, ∀ nodes ∈ rowCells row,
      Inline.arePlain {} 0 nodes = true := by
    decide +kernel
  refine ⟨inside, cell, plain, ?_⟩
  obtain ⟨columns, grids, -, raw, placed⟩ :=
    (tables_of_import {}).1 0 [some .right] ledger inside cell
  have whole : drafts {} [ledgerTable] = importBlock {} 0 ledgerTable := by
    rw [drafts, importBlocks, importBlocks, List.append_nil]
  have found := foundIn_document {} [ledgerTable]
  rw [placement, whole] at found
  have texts : List.Forall₂
      (fun (raw : RawTable) id => (document {} [ledgerTable]).forest.tableText id = raw.rows)
      (grids.map rawTable) (placeAll 0 (importBlock {} 0 ledgerTable)).ids := by
    refine List.forall₂_map_left_iff.2 ((placed 0 _ found).imp fun grid id held => ?_)
    obtain ⟨property, table, -, -, text⟩ := held
    exact text plain
  have rows : grids.map rawTable =
      [⟨["hx", ""] :: ["a", ""] :: ["", ""] :: List.replicate 7 ["mail b", ""]⟩,
        ⟨[["hx", ""], ["mail b", ""]]⟩] := by
    rw [← raw]
    decide +kernel
  rw [rows] at texts
  obtain ⟨first, more, textOfFirst, behind, ids⟩ := List.forall₂_cons_left_iff.1 texts
  obtain ⟨second, none, textOfSecond, last, rfl⟩ := List.forall₂_cons_left_iff.1 behind
  obtain rfl := List.forall₂_nil_left_iff.1 last
  exact ⟨first, second, (congrArg (fun drafts => (placeAll 0 drafts).ids) whole).trans ids,
    textOfFirst, textOfSecond⟩

end

end Blockmark.Import
