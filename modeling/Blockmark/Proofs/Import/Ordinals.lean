import Blockmark.Proofs.Import.Append
import Blockmark.Proofs.Import.Truncation

/-!
# Numbers of ordered items

A list is no block of its own. Its items stand among the siblings of the list, and the exporter
numbers them as it comes to them; only a list that does not start from one carries its start. So a
list that starts from one counts on behind an ordered item, whichever list that item came from.
Everywhere else the items have the numbers that they had.

Main statements: `StandsAt.located`, by which the parts of a plan stand as the nodes stand that they
come from, and `numbers_of_list`.
-/

namespace Blockmark.Import

open Markdown Render

/-! ## Places in a plan -/

/-- The siblings in a plan that a path leads to, part by part. -/
def partsAt (plan : List Shown) : List Nat → List Shown
  | [] => plan
  | index :: path => partsAt ((plan[index]?.map Shown.parts).getD []) path

theorem partsAt_concat (plan : List Shown) (path : List Nat) (index : Nat) :
    partsAt plan (path ++ [index]) =
      ((partsAt plan path)[index]?.map Shown.parts).getD [] := by
  induction path generalizing plan with
  | nil => rfl
  | cons first path ih => exact ih _

def Draft.kind : Draft → Kind
  | .mk _ kind _ _ => kind

def Draft.children : Draft → List Draft
  | .mk _ _ _ children => children

def lastNumber (before : Nat) (drafts : List Draft) : Nat :=
  drafts.foldl (fun before draft => ordinalBehind before draft.kind) before

theorem ordinalBehind_withCells (before : Nat) (ids : List BlockId) (kind : Kind) :
    ordinalBehind before (withCells ids kind) = ordinalBehind before kind := by
  cases kind with
  | table property => cases property <;> rfl
  | _ => rfl

section

variable {forest : Forest} {roots : List BlockId} {path : List Nat} {front back : List Draft}
  {draft : Draft}

theorem outlineSiblings_planted {ids : List BlockId}
    (planted : PlantedAll forest (front ++ draft :: back) ids) :
    ∃ block, PlantedAll forest draft.children block.children ∧
      block.kind = withCells block.children draft.kind ∧
      ∀ sub before, (outlineSiblings forest sub before ids)[front.length]? =
        some (.own block (ordinalBehind (lastNumber before front) draft.kind)
          (sub (.below block))) := by
  induction front generalizing ids with
  | nil =>
      obtain ⟨id, more, rfl, there, -⟩ := planted
      obtain ⟨numbering, kind, raw, children⟩ := draft
      obtain ⟨-, inner, found, inside⟩ := there
      refine ⟨⟨id, withCells inner kind, inner⟩, inside, rfl, fun sub before => ?_⟩
      simp only [outlineSiblings, found, ordinalBehind_withCells]
      rfl
  | cons first front ih =>
      obtain ⟨id, more, rfl, there, rest⟩ := planted
      obtain ⟨numbering, kind, raw, children⟩ := first
      obtain ⟨-, inner, found, -⟩ := there
      obtain ⟨block, inside, same, parts⟩ := ih rest
      refine ⟨block, inside, same, fun sub before => ?_⟩
      simp only [outlineSiblings, found, ordinalBehind_withCells]
      exact parts sub _

def Located (forest : Forest) (roots : List BlockId) (path : List Nat) (drafts : List Draft) :
    Prop :=
  ∃ ids, PlantedAll forest drafts ids ∧ ∀ levels, path.length ≤ levels →
    partsAt (outline forest levels (.siblings 0 roots)) path =
      outline forest (levels - path.length) (.siblings 0 ids)

theorem Located.part (located : Located forest roots path (front ++ draft :: back)) :
    ∃ block, PlantedAll forest draft.children block.children ∧
      block.kind = withCells block.children draft.kind ∧
      ∀ levels, path.length < levels →
        (partsAt (outline forest levels (.siblings 0 roots)) path)[front.length]? =
          some (.own block (ordinalBehind (lastNumber 0 front) draft.kind)
            (outline forest (levels - (path.length + 1)) (.below block))) := by
  obtain ⟨ids, planted, same⟩ := located
  obtain ⟨block, inside, kind, parts⟩ := outlineSiblings_planted planted
  refine ⟨block, inside, kind, fun levels deeper => ?_⟩
  obtain ⟨more, rfl⟩ := Nat.exists_eq_add_of_lt deeper
  rw [same _ (by omega), show path.length + more + 1 - path.length = more + 1 by omega,
    show path.length + more + 1 - (path.length + 1) = more by omega]
  exact parts (outline forest more) 0

theorem Located.below (located : Located forest roots path (front ++ draft :: back))
    (way : descent draft.kind = .children) :
    Located forest roots (path ++ [front.length]) draft.children := by
  obtain ⟨block, inside, kind, parts⟩ := located.part
  have shown : Walk.below block = .siblings 0 block.children := by
    rw [Walk.below, kind, withCells_of_descent way, way]
  refine ⟨block.children, inside, fun levels deeper => ?_⟩
  rw [List.length_append, List.length_singleton] at deeper ⊢
  rw [partsAt_concat, parts levels deeper, ← shown]
  rfl

end

/-! ## Places in a syntax tree -/

section

variable (options : ConvertOptions)

/-- A node that stands where blocks are imported: the path to the parts that it is shown among, its
depth, and the drafts in front of it. -/
inductive StandsAt (nodes : List Node) : List Nat → Nat → List Draft → Node → Prop
  | top {before after : List Node} {node : Node} (split : nodes = before ++ node :: after) :
      StandsAt nodes [] 0 (importBlocks options 0 before) node
  | quoted {path : List Nat} {depth : Nat} {front : List Draft} {before after : List Node}
      {node : Node}
      (quote : StandsAt nodes path depth front (.mk .blockQuote (before ++ node :: after)))
      (inside : depth < maxDepth)
      (unmarked : (before ++ node :: after).head?.bind calloutMarker? = none)
      (whole : node.isParagraph = false) (kept : node.kind ≠ .thematicBreak) :
      StandsAt nodes (path ++ [front.length]) (depth + 1)
        (importQuoted options (depth + 1) before) node
  | noted {path : List Nat} {depth : Nat} {front : List Draft} {first : Node}
      {before after : List Node} {node : Node} {marker : Admonition}
      (quote : StandsAt nodes path depth front
        (.mk .blockQuote (first :: (before ++ node :: after))))
      (inside : depth < maxDepth) (marked : calloutMarker? first = some marker)
      (kept : node.kind ≠ .thematicBreak) :
      StandsAt nodes (path ++ [front.length]) (depth + 1)
        (calloutText options marker ++ importBehind options (depth + 1) before) node
  | listed {path : List Nat} {depth : Nat} {front : List Draft} {ordered : Bool} {start : Nat}
      {earlier later : List Node} {kind : NodeKind} {before after : List Node} {node : Node}
      (list : StandsAt nodes path depth front (.mk (.list ordered start)
        (earlier ++ .mk kind (before ++ node :: after) :: later)))
      (inside : depth + 1 < maxDepth) (isItem : (itemCheckbox? kind).isSome = true)
      (whole : node.isParagraph = false) :
      StandsAt nodes
        (path ++ [(front ++ importItems options ordered (firstNumber ordered start) (depth + 1)
          earlier).length])
        (depth + 2) (importItemParts options (depth + 2) before).2 node

theorem importQuoted_append (depth : Nat) (before : List Node) {node : Node}
    (whole : node.isParagraph = false) (kept : node.kind ≠ .thematicBreak) (after : List Node) :
    importQuoted options depth (before ++ node :: after) =
      importQuoted options depth before ++
        (importBlock options depth node ++ importQuoted options depth after) := by
  induction before with
  | nil => rw [List.nil_append, importQuoted, importQuoted, whole, if_neg Bool.false_ne_true,
      if_neg kept, List.nil_append]
  | cons first before ih =>
      rw [List.cons_append, importQuoted, importQuoted, ih, List.append_assoc]

theorem importBehind_append (depth : Nat) (before : List Node) {node : Node}
    (kept : node.kind ≠ .thematicBreak) (after : List Node) :
    importBehind options depth (before ++ node :: after) =
      importBehind options depth before ++
        (importBlock options depth node ++ importBehind options depth after) := by
  induction before with
  | nil => rw [List.nil_append, importBehind, importBehind, if_neg kept, List.nil_append]
  | cons first before ih =>
      rw [List.cons_append, importBehind, importBehind, ih, List.append_assoc]

theorem importItems_append (ordered : Bool) (sequence : Option Nat) (depth : Nat)
    (earlier : List Node) (item : Node) (later : List Node) :
    importItems options ordered sequence depth (earlier ++ item :: later) =
      importItems options ordered sequence depth earlier ++
        (importItem options ordered (if earlier.isEmpty then sequence else none) depth item ++
          importItems options ordered none depth later) := by
  induction earlier generalizing sequence with
  | nil => rw [List.nil_append, importItems, importItems]; rfl
  | cons first earlier ih =>
      rw [List.cons_append, importItems, importItems, ih, List.append_assoc]
      simp

-- Whether there is a text in front of it or not, a node that is no paragraph is a child of its item.
theorem importItemParts_append (depth : Nat) (before : List Node) {node : Node}
    (whole : node.isParagraph = false) (after : List Node) :
    ∃ back, (importItemParts options depth (before ++ node :: after)).2 =
      (importItemParts options depth before).2 ++ (importBlock options depth node ++ back) := by
  induction before with
  | nil =>
      rw [List.nil_append, importItemParts, importItemParts, whole, if_neg Bool.false_ne_true]
      cases importBlock options depth node with
      | nil => exact ⟨_, rfl⟩
      | cons draft drafts => exact ⟨_, rfl⟩
  | cons first before ih =>
      have behind : importBlocks options depth (before ++ node :: after) = _ :=
        importBlocks_append options depth before (node :: after)
      rw [List.cons_append, importItemParts, importItemParts, behind, importBlocks]
      split
      · exact ⟨_, rfl⟩
      · cases importBlock options depth first with
        | nil => exact ih
        | cons draft drafts => exact ⟨_, (List.append_assoc ..).symm⟩

variable {options} {nodes : List Node} {path : List Nat} {depth : Nat} {front : List Draft}
  {node : Node}

theorem StandsAt.located (stands : StandsAt options nodes path depth front node) :
    path.length ≤ depth ∧ ∃ back, Located (document options nodes).forest
      (document options nodes).roots path (front ++ (importBlock options depth node ++ back)) := by
  induction stands with
  | @top before after node split =>
      have drafted : drafts options nodes = _ :=
        (congrArg (importBlocks options 0) split).trans
          (importBlocks_append options 0 before (node :: after))
      refine ⟨Nat.le_refl 0, importBlocks options 0 after, _, ?_, fun levels _ => rfl⟩
      exact drafted ▸ planted_document options nodes
  | @quoted path depth front before after node quote inside unmarked whole kept ih =>
      obtain ⟨depths, back, located⟩ := ih
      rw [importBlock_of_inside options (Nat.not_le.2 inside), unmarked] at located
      have below := located.below rfl
      exact ⟨by simpa using depths, _,
        importQuoted_append options (depth + 1) before whole kept after ▸ below⟩
  | @noted path depth front first before after node marker quote inside marked kept ih =>
      obtain ⟨depths, back, located⟩ := ih
      rw [importBlock_of_inside options (Nat.not_le.2 inside)] at located
      dsimp only [List.head?_cons, Option.bind_some] at located
      rw [marked] at located
      have below := located.below rfl
      refine ⟨by simpa using depths, importBehind options (depth + 1) after, ?_⟩
      rw [List.append_assoc, ← importBehind_append options (depth + 1) before kept after]
      exact below
  | @listed path depth front ordered start earlier later kind before after node list inside isItem
      whole ih =>
      obtain ⟨depths, back, located⟩ := ih
      obtain ⟨checkbox, isCheckbox⟩ := Option.isSome_iff_exists.1 isItem
      rw [importBlock_of_inside options (by omega)] at located
      dsimp only at located
      rw [importItems_append, importItem, if_neg (Nat.not_le.2 inside), isCheckbox] at located
      obtain ⟨rest, parts⟩ := importItemParts_append options (depth + 2) before whole after
      -- The item stands behind the drafts in front of its list and those of the items before it.
      have item : ∀ (draft : Draft) (earlier later : List Draft),
          front ++ (earlier ++ ([draft] ++ later) ++ back) =
            front ++ earlier ++ draft :: (later ++ back) := by simp
      rw [item] at located
      have below := located.below (descent_itemKind ..)
      refine ⟨by simpa using Nat.le_succ_of_le depths, rest, ?_⟩
      exact parts ▸ below

end

/-! ## Numbers of lists -/

/-- In the plan that the Markdown of an imported document is laid out from, the item at a place has
this text, and it is written with this number. -/
def WrittenAt (imported : Imported) (path : List Nat) (index : Nat)
    (elements : List TextElement) (number : Nat) : Prop :=
  ∃ block below,
    (partsAt (planRoots imported.forest imported.roots).1 path)[index]? =
      some (.own block number below) ∧
    block.kind.body?.map (·.elements) = some elements ∧
    ∀ setting frame, ((Shown.own block number below).piece imported.forest setting frame).text =
      listItem (numberMarker number) (numberMarker number).length
        (renderBody? setting block.kind.body?)
        (joinShown (Shown.pieces imported.forest setting .plain below))

theorem WrittenAt.unique {imported : Imported} {path : List Nat} {index : Nat}
    {elements others : List TextElement} {number other : Nat}
    (written : WrittenAt imported path index elements number)
    (again : WrittenAt imported path index others other) : number = other := by
  obtain ⟨block, below, found, -⟩ := written
  obtain ⟨block', below', found', -⟩ := again
  rw [found] at found'
  cases found'
  rfl

theorem text_ordered (forest : Forest) (setting : Setting) (frame : Frame) (number : Nat)
    {block : Block} {body : Option TextBody} (kind : block.kind = .text .ordered body)
    (below : List Shown) :
    ((Shown.own block number below).piece forest setting frame).text =
      listItem (numberMarker number) (numberMarker number).length
        (renderBody? setting block.kind.body?)
        (joinShown (Shown.pieces forest setting .plain below)) := by
  obtain ⟨id, _, children⟩ := block
  obtain rfl := kind
  cases frame <;> rfl

theorem importItems_plain (options : ConvertOptions) {depth : Nat} (inside : depth < maxDepth)
    (sequence : Option Nat) {items : List Node} (plain : ∀ item ∈ items, item.kind = .item)
    {index : Nat} {item : Node} (there : items[index]? = some item) (before : Nat) :
    ∃ front draft back, importItems options true sequence depth items = front ++ draft :: back ∧
      front.length = index ∧
      (∃ style, draft.kind = .text .ordered (some
        { elements := (importItemParts options (depth + 1) item.children).1, style })) ∧
      ordinalBehind (lastNumber before front) draft.kind =
        sequence.getD (before + 1) + index := by
  induction items generalizing sequence index before with
  | nil => cases there
  | cons first items ih =>
      obtain ⟨kind, children⟩ := first
      obtain rfl : kind = .item := plain _ List.mem_cons_self
      have own : importItem options true sequence depth (.mk .item children) =
          [.container (itemKind true sequence none
            (importItemParts options (depth + 1) children).1)
            (importItemParts options (depth + 1) children).2] :=
        if_neg (Nat.not_le.2 inside)
      rw [importItems, own]
      cases index with
      | zero =>
          obtain rfl := Option.some.inj there
          exact ⟨[], _, _, rfl, rfl, ⟨_, rfl⟩, rfl⟩
      | succ index =>
          obtain ⟨front, draft, back, split, length, kind, number⟩ :=
            ih none (fun item mem => plain item (List.mem_cons_of_mem _ mem)) there
              (sequence.getD (before + 1))
          refine ⟨_ :: front, draft, back, congrArg (_ :: ·) split, by simp [length], kind, ?_⟩
          exact number.trans (by simp; omega)

theorem getD_firstNumber (start number : Nat) :
    (firstNumber true start).getD number = if start = 1 then number else start := by
  unfold firstNumber
  by_cases one : start = 1 <;> simp [one]

theorem Located.written {imported : Imported} {path : List Nat} {front back : List Draft}
    {draft : Draft}
    (located : Located imported.forest imported.roots path (front ++ draft :: back))
    (tree : Tree (meets imported.forest) Entry.id
      (imported.forest.entries .sibling imported.roots))
    (deeper : path.length < maxDepth) {body : TextBody}
    (kind : draft.kind = .text .ordered (some body)) :
    WrittenAt imported path front.length body.elements
      (ordinalBehind (lastNumber 0 front) draft.kind) := by
  obtain ⟨block, -, same, parts⟩ := located.part
  rw [kind] at same
  have there := parts maxDepth deeper
  rw [← (tracks_planRoots tree).shown] at there
  exact ⟨block, _, there, by rw [same]; rfl, fun setting frame => text_ordered _ _ _ _ same _⟩

/-- A list of plain items is written with its own numbers, except that one which starts from one
counts on behind an ordered item. -/
theorem numbers_of_list (options : ConvertOptions) {nodes : List Node} {path : List Nat}
    {depth : Nat} {front : List Draft} {start : Nat} {items : List Node}
    (stands : StandsAt options nodes path depth front (.mk (.list true start) items))
    (inside : depth + 1 < maxDepth) (plain : ∀ item ∈ items, item.kind = .item) :
    (∀ index item, items[index]? = some item →
      WrittenAt (document options nodes) path (front.length + index)
        (importItemParts options (depth + 2) item.children).1
        ((if start = 1 then lastNumber 0 front + 1 else start) + index)) ∧
    ((∀ index item, items[index]? = some item →
        WrittenAt (document options nodes) path (front.length + index)
          (importItemParts options (depth + 2) item.children).1 (start + index)) ↔
      items = [] ∨ start ≠ 1 ∨ lastNumber 0 front = 0) := by
  have numbered : ∀ index item, items[index]? = some item →
      WrittenAt (document options nodes) path (front.length + index)
        (importItemParts options (depth + 2) item.children).1
        ((if start = 1 then lastNumber 0 front + 1 else start) + index) := by
    intro index item there
    obtain ⟨depths, back, located⟩ := stands.located
    obtain ⟨earlier, draft, later, split, length, ⟨style, kind⟩, number⟩ :=
      importItems_plain options inside (firstNumber true start) plain there (lastNumber 0 front)
    have items : importBlock options depth (.mk (.list true start) items) =
        earlier ++ draft :: later :=
      (importBlock_of_inside options (by omega) _ _).trans split
    rw [items, List.append_assoc, List.cons_append, ← List.append_assoc] at located
    have shown := located.written (tree_document options nodes) (by omega) kind
    rw [lastNumber, List.foldl_append, List.length_append, length] at shown
    rw [← getD_firstNumber, ← number]
    exact shown
  refine ⟨numbered, fun own => ?_, ?_⟩
  · -- The first item has one number only, so its own number is the one it is written with.
    cases items with
    | nil => exact .inl rfl
    | cons first items =>
        have same := (numbered 0 first rfl).unique (own 0 first rfl)
        split at same <;> omega
  · intro fits index item there
    have shown := numbered index item there
    split at shown
    · next one =>
      rcases fits with rfl | other | none
      · cases there
      · exact absurd one other
      · rwa [none, Nat.zero_add, ← one] at shown
    · exact shown

def plainItem (content : String) : Node :=
  .mk .item [.mk .paragraph [.mk (.text content) []]]

def firstList : Node := .mk (.list true 1) [plainItem "a", plainItem "b"]

def secondList : Node := .mk (.list true 1) [plainItem "c"]

def partedLists : Node :=
  .mk .blockQuote ([firstList, .mk .thematicBreak []] ++ secondList :: [])

theorem numbers_of_list_partedLists :
    WrittenAt (document {} [partedLists]) [0] 2 [.run { content := "c" }] 3 ∧
      ¬ WrittenAt (document {} [partedLists]) [0] 2 [.run { content := "c" }] 1 := by
  have quote : StandsAt {} [partedLists] [] 0 (importBlocks {} 0 []) partedLists := .top rfl
  have stands : StandsAt {} [partedLists] [0] 1
      (importQuoted {} 1 [firstList, .mk .thematicBreak []]) secondList :=
    .quoted quote (by decide) rfl rfl (by decide)
  have last : lastNumber 0 (importQuoted {} 1 [firstList, .mk .thematicBreak []]) = 2 := by
    decide +kernel
  have place : (importQuoted {} 1 [firstList, .mk .thematicBreak []]).length = 2 := by
    decide +kernel
  have text : (importItemParts {} (1 + 2) (plainItem "c").children).1 =
      [.run { content := "c" }] := by
    decide +kernel
  have numbers := numbers_of_list {} stands (by decide) (by decide +kernel)
  have written := numbers.1 0 (plainItem "c") rfl
  rw [last, place, text] at written
  exact ⟨written, fun own => absurd (written.unique own) (by decide)⟩

def twoLists : Imported := document {} [firstList, secondList]

/-- The item of the second list is the first of its list, and the third in the Markdown. -/
theorem secondList_counts_on :
    (Render.document twoLists.forest {} twoLists.roots).markdown = "1. a\n2. b\n3. c\n" := by
  decide +kernel

end Blockmark.Import
