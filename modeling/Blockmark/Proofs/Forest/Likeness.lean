import Blockmark.Mention.Collect
import Blockmark.Proofs.Forest.Entries
import Blockmark.Proofs.Render.Labels
import Blockmark.Proofs.Render.Meeting
import Blockmark.Proofs.Table.Segments

/-!
# Forests that are alike

A forest is in the likeness of another one if it holds the same blocks under other names, as far as
they are met: ids are renamed, and lists of children may leave out ids without a block. What is
read off a forest by following children and cells is then the same in both, with the names changed.

Main statements: `collectTexts_likeness`, `tableText_likeness`, `collect_likeness`.
-/

namespace Blockmark

namespace Kind

def mapCells (f : BlockId → BlockId) : Kind → Kind
  | .table (some property) => .table (some { property with cells := property.cells.map f })
  | kind => kind

variable (f : BlockId → BlockId)

@[simp] theorem body?_mapCells (kind : Kind) : (kind.mapCells f).body? = kind.body? := by
  cases kind with
  | table property => cases property <;> rfl
  | _ => rfl

@[simp] theorem cells_mapCells (kind : Kind) : (kind.mapCells f).cells = kind.cells.map f := by
  cases kind with
  | table property => cases property <;> rfl
  | _ => rfl

theorem mapCells_id (kind : Kind) : kind.mapCells id = kind := by
  cases kind with
  | table property =>
      cases property with
      | none => rfl
      | some property => simp [mapCells]
  | _ => rfl

end Kind

namespace Forest

/-- The ids `others` are the ids `ids` renamed, except that some without a block are left out. -/
inductive Renamed (f : BlockId → BlockId) (met : BlockId → Prop) (forest : Forest) :
    List BlockId → List BlockId → Prop
  | nil : Renamed f met forest [] []
  | both {id : BlockId} {ids others : List BlockId} (isMet : met id)
      (rest : Renamed f met forest ids others) : Renamed f met forest (id :: ids) (f id :: others)
  | skip {id : BlockId} {ids others : List BlockId} (missing : forest.get? id = none)
      (rest : Renamed f met forest ids others) : Renamed f met forest (id :: ids) others

structure Alike (f : BlockId → BlockId) (met : BlockId → Prop) (forest : Forest)
    (block other : Block) : Prop where
  id : other.id = f block.id
  kind : other.kind = block.kind.mapCells f
  children : Renamed f met forest block.children other.children
  cells : ∀ id ∈ block.kind.cells, met id

structure Likeness (f : BlockId → BlockId) (met : BlockId → Prop) (forest image : Forest) :
    Prop where
  injective : Function.Injective f
  empty : f "" = ""
  missing : ∀ {id}, met id → forest.get? id = none → image.get? (f id) = none
  found : ∀ {id block}, met id → forest.get? id = some block →
    ∃ other, image.get? (f id) = some other ∧ Alike f met forest block other

def Texts.rename (f : BlockId → BlockId) (texts : Texts) : Texts :=
  { texts with seen := texts.seen.map f }

section

variable {f : BlockId → BlockId} {met : BlockId → Prop} {forest image : Forest}

theorem Renamed.map {ids : List BlockId} (isMet : ∀ id ∈ ids, met id) :
    Renamed f met forest ids (ids.map f) := by
  induction ids with
  | nil => exact .nil
  | cons id ids ih =>
      obtain ⟨first, rest⟩ := List.forall_mem_cons.1 isMet
      exact .both first (ih rest)

theorem Renamed.filter {ids : List BlockId} (isMet : ∀ id ∈ ids, met id) :
    Renamed id met forest ids (ids.filter forest.contains) := by
  induction ids with
  | nil => exact .nil
  | cons first ids ih =>
      obtain ⟨isFirst, rest⟩ := List.forall_mem_cons.1 isMet
      rw [List.filter_cons]
      split
      · exact .both isFirst (ih rest)
      · next absent => exact .skip (by simpa [contains] using absent) (ih rest)

theorem Renamed.of_nil {ids : List BlockId} (renamed : Renamed f met forest ids []) :
    ∀ id ∈ ids, forest.get? id = none := by
  generalize eq : ([] : List BlockId) = others at renamed
  induction renamed with
  | nil => simp
  | both => cases eq
  | skip missing rest ih => exact List.forall_mem_cons.2 ⟨missing, ih eq⟩

theorem Renamed.append {ids others more others' : List BlockId}
    (first : Renamed f met forest ids others) (rest : Renamed f met forest more others') :
    Renamed f met forest (ids ++ more) (others ++ others') := by
  induction first with
  | nil => exact rest
  | both isMet _ ih => exact .both isMet ih
  | skip missing _ ih => exact .skip missing ih

theorem Renamed.nil_left {others : List BlockId} (renamed : Renamed f met forest [] others) :
    others = [] := by
  cases renamed
  rfl

theorem Renamed.foldl {σ τ : Type} {step : σ → BlockId → σ} {other : τ → BlockId → τ} {g : σ → τ}
    {ids others : List BlockId} (renamed : Renamed f met forest ids others)
    (agree : ∀ state, ∀ id ∈ ids, met id → other (g state) (f id) = g (step state id))
    (passes : ∀ state id, forest.get? id = none → step state id = state) (state : σ) :
    others.foldl other (g state) = g (ids.foldl step state) := by
  induction renamed generalizing state with
  | nil => rfl
  | @both id ids others isMet rest ih =>
      rw [List.foldl_cons, List.foldl_cons, agree state id List.mem_cons_self isMet]
      exact ih (fun state id mem => agree state id (List.mem_cons_of_mem _ mem)) _
  | @skip id ids others missing rest ih =>
      rw [List.foldl_cons, passes state id missing]
      exact ih (fun state id mem => agree state id (List.mem_cons_of_mem _ mem)) _

theorem Likeness.contains (like : Likeness f met forest image) {id : BlockId} (isMet : met id) :
    image.contains (f id) = forest.contains id := by
  cases found : forest.get? id with
  | none => simp [Forest.contains, found, like.missing isMet found]
  | some block =>
      obtain ⟨other, found', -⟩ := like.found isMet found
      simp [Forest.contains, found, found']

theorem Likeness.mem_map (like : Likeness f met forest image) {id : BlockId}
    {seen : List BlockId} : f id ∈ seen.map f ↔ id ∈ seen :=
  List.mem_map_of_injective like.injective

theorem Likeness.findSome? (like : Likeness f met forest image) {α : Type} {look : Block → Option α}
    (agree : ∀ {block other}, Alike f met forest block other → look other = look block)
    {ids others : List BlockId} (renamed : Renamed f met forest ids others) :
    (others.filterMap image.get?).findSome? look = (ids.filterMap forest.get?).findSome? look := by
  induction renamed with
  | nil => rfl
  | @both id ids others isMet rest ih =>
      cases found : forest.get? id with
      | none =>
          rw [List.filterMap_cons_none found,
            List.filterMap_cons_none (like.missing isMet found), ih]
      | some block =>
          obtain ⟨other, found', alike⟩ := like.found isMet found
          rw [List.filterMap_cons_some found, List.filterMap_cons_some found',
            List.findSome?_cons, List.findSome?_cons, agree alike, ih]
  | @skip id ids others missing rest ih => rw [List.filterMap_cons_none missing, ih]

/-! ## Texts -/

/-- What holds of the block under an id if it has children here and none in the likeness. -/
def IfBereft (f : BlockId → BlockId) (forest image : Forest) (holds : Block → Prop) (id : BlockId) :
    Prop :=
  ∀ block other, forest.get? id = some block → image.get? (f id) = some other →
    block.children ≠ [] → other.children = [] → holds block

theorem ownTexts_alike {block other : Block} (alike : Alike f met forest block other) :
    ownTexts other = ownTexts block := by
  rw [ownTexts, ownTexts, alike.kind, Kind.body?_mapCells]

def collectUnder (forest : Forest) (levels : Nat) (texts : Texts) (id : BlockId) : Texts :=
  ((forest.get? id).map (forest.collectTexts levels texts)).getD texts

theorem collectUnder_missing {id : BlockId} (missing : forest.get? id = none) (levels : Nat)
    (texts : Texts) : forest.collectUnder levels texts id = texts := by
  simp [collectUnder, missing]

theorem collectUnder_found {id : BlockId} {block : Block} (found : forest.get? id = some block)
    (levels : Nat) (texts : Texts) :
    forest.collectUnder levels texts id = forest.collectTexts levels texts block := by
  simp [collectUnder, found]

theorem foldl_collectTexts (levels : Nat) (ids : List BlockId) (texts : Texts) :
    (ids.filterMap forest.get?).foldl (forest.collectTexts levels) texts =
      ids.foldl (forest.collectUnder levels) texts := by
  rw [List.foldl_filterMap]
  congr 1
  funext texts id
  cases found : forest.get? id with
  | none => exact (collectUnder_missing found levels texts).symm
  | some block => exact (collectUnder_found found levels texts).symm

theorem collectTexts_likeness (like : Likeness f met forest image) (levels : Nat) (texts : Texts)
    {block other : Block} (alike : Alike f met forest block other)
    (silent : block.children ≠ [] → other.children = [] → ownTexts block = [])
    (below : ∀ id, Reaches forest.childIds block.children id →
      IfBereft f forest image (ownTexts · = []) id) :
    image.collectTexts levels (texts.rename f) other =
      (forest.collectTexts levels texts block).rename f := by
  induction levels generalizing texts block other with
  | zero => rfl
  | succ levels ih =>
      by_cases seen : block.id ∈ texts.seen
      · have seen' : other.id ∈ (texts.rename f).seen := alike.id ▸ like.mem_map.2 seen
        rw [collectTexts, collectTexts, if_pos seen, if_pos seen']
      · have seen' : other.id ∉ (texts.rename f).seen := alike.id ▸ mt like.mem_map.1 seen
        have renamed := alike.children
        rw [collectTexts_unseen seen, collectTexts_unseen seen', ownTexts_alike alike, alike.id]
        by_cases childless : block.children = []
        · rw [childless] at renamed
          rw [childless, renamed.nil_left]
          rfl
        · by_cases bereft : other.children = []
          · -- No child exists, so that the run over the children adds nothing.
            rw [bereft] at renamed
            have none : block.children.filterMap forest.get? = [] :=
              List.filterMap_eq_nil_iff.2 renamed.of_nil
            simp only [bereft, childless, silent childless bereft, none, List.isEmpty_iff,
              List.isEmpty_nil, if_true, if_false]
            rfl
          · rw [if_neg (by simpa using bereft), if_neg (by simpa using childless),
              foldl_collectTexts, foldl_collectTexts]
            refine renamed.foldl (g := Texts.rename f) (fun texts id mem isMet => ?_)
              (fun texts id missing => collectUnder_missing missing levels texts)
              { texts with seen := block.id :: texts.seen }
            cases found : forest.get? id with
            | none =>
                rw [collectUnder_missing found, collectUnder_missing (like.missing isMet found)]
            | some child =>
                obtain ⟨child', found', alike'⟩ := like.found isMet found
                rw [collectUnder_found found, collectUnder_found found']
                refine ih texts alike' (below id (reaches_of_mem mem) _ _ found found') ?_
                intro target reaches
                exact below target (.head mem (childIds_eq found ▸ reaches))

theorem blockText_likeness (like : Likeness f met forest image) {block other : Block}
    (alike : Alike f met forest block other)
    (silent : block.children ≠ [] → other.children = [] → ownTexts block = [])
    (below : ∀ id, Reaches forest.childIds block.children id →
      IfBereft f forest image (ownTexts · = []) id) :
    image.blockText other = forest.blockText block := by
  have collected := collectTexts_likeness like maxDepth {} alike silent below
  have lines := congrArg Texts.lines collected
  exact congrArg (fun lines => String.intercalate "\n" lines.reverse) lines

/-! ## Tables -/

theorem cell?_map (like : Likeness f met forest image) (id : BlockId) :
    TableProperty.cell? (f id) = (TableProperty.cell? id).map f := by
  have gap : f id = "" ↔ id = "" := by
    rw [← like.empty, like.injective.eq_iff, like.empty]
  simp only [TableProperty.cell?, String.isEmpty_iff, gap]
  split <;> rfl

theorem rows_map (like : Likeness f met forest image) (property : TableProperty) :
    ({ property with cells := property.cells.map f } : TableProperty).rows =
      property.rows.map (·.map (·.map f)) := by
  have cells : TableProperty.cell? ∘ f = (Option.map f) ∘ TableProperty.cell? :=
    funext (cell?_map like)
  unfold TableProperty.rows
  split
  · rfl
  · simp only [Table.chunks_map, List.filter_map, List.map_map, Function.comp_def, List.length_map]
    simp only [← Function.comp_def, cells]

theorem cellText_likeness (like : Likeness f met forest image)
    {id : BlockId} (isMet : met id) (silent : ∀ target, Reaches forest.childIds [id] target →
      IfBereft f forest image (ownTexts · = []) target) :
    image.cellText (f id) = forest.cellText id := by
  cases found : forest.get? id with
  | none => simp only [cellText, found, like.missing isMet found, Option.map_none]
  | some block =>
      obtain ⟨other, found', alike⟩ := like.found isMet found
      simp only [cellText, found, found', Option.map_some, Option.getD_some]
      refine blockText_likeness like alike ?_ fun target reaches => ?_
      · exact silent id (reaches_of_mem List.mem_cons_self) _ _ found found'
      · exact silent target (.head List.mem_cons_self (childIds_eq found ▸ reaches))

theorem tableText_likeness (like : Likeness f met forest image)
    (silent : ∀ {id target}, met id → Reaches forest.childIds [id] target →
      IfBereft f forest image (ownTexts · = []) target) {id : BlockId} (isMet : met id) :
    image.tableText (f id) = forest.tableText id := by
  cases found : forest.get? id with
  | none => simp only [tableText, found, like.missing isMet found]
  | some block =>
      obtain ⟨other, found', alike⟩ := like.found isMet found
      obtain ⟨name, kind, children⟩ := block
      obtain ⟨name', kind', children'⟩ := other
      obtain rfl : kind' = kind.mapCells f := alike.kind
      rw [tableText, tableText, found, found']
      cases kind with
      | table property =>
          cases property with
          | none => rfl
          | some property =>
              simp only [Kind.mapCells, rows_map like, List.map_map]
              refine List.map_congr_left fun row isRow => ?_
              simp only [Function.comp_apply, List.map_map]
              refine List.map_congr_left fun slot mem => ?_
              cases slot with
              | none => rfl
              | some cell =>
                  have isCell : cell ∈ property.cells :=
                    TableProperty.mem_cells_of_mem_rows (List.mem_flatten.2 ⟨row, isRow, mem⟩)
                  have isMet := alike.cells cell isCell
                  exact cellText_likeness like isMet fun target => silent isMet
      | _ => rfl

end

end Forest

/-! ## Mentions -/

namespace Mention

open Forest

def Found.rename (f : BlockId → BlockId) (found : Found) : Found :=
  { found with seen := found.seen.map f }

section

variable {f : BlockId → BlockId} {met : BlockId → Prop} {forest image : Forest}

theorem mentionedBy_mapCells (kind : Kind) : mentionedBy (kind.mapCells f) = mentionedBy kind := by
  rw [mentionedBy, mentionedBy, Kind.body?_mapCells]

theorem visit_missing {id : BlockId} (missing : forest.get? id = none) (levels : Nat)
    (found : Found) : visit forest levels found id = found := by
  cases levels with
  | zero => rfl
  | succ levels => rw [visit, missing]

theorem visit_likeness (like : Likeness f met forest image) (levels : Nat) (found : Found)
    {id : BlockId} (isMet : met id) :
    visit image levels (found.rename f) (f id) = (visit forest levels found id).rename f := by
  induction levels generalizing found id with
  | zero => rfl
  | succ levels ih =>
      cases there : forest.get? id with
      | none => rw [visit_missing there, visit_missing (like.missing isMet there)]
      | some block =>
          obtain ⟨other, there', alike⟩ := like.found isMet there
          have renamed : Renamed f met forest (below block) (below other) := by
            rw [below, below, alike.kind, Kind.cells_mapCells]
            exact alike.children.append (.map alike.cells)
          have seen : other.id ∈ (found.rename f).seen ↔ block.id ∈ found.seen := by
            rw [alike.id]
            exact like.mem_map
          have start : (⟨other.id :: (found.rename f).seen,
              mentionedBy other.kind ++ (found.rename f).users⟩ : Found) =
              Found.rename f ⟨block.id :: found.seen, mentionedBy block.kind ++ found.users⟩ := by
            rw [alike.id, alike.kind, mentionedBy_mapCells]
            rfl
          rw [visit, visit, there, there']
          simp only [seen, start]
          split
          · rfl
          · exact renamed.foldl (fun found id _ isMet => ih found isMet)
              (fun found id missing => visit_missing missing levels found) _

theorem collect_likeness (like : Likeness f met forest image) {roots others : List BlockId}
    (renamed : Renamed f met forest roots others) :
    collect image others = collect forest roots := by
  have walk := renamed.foldl (g := Found.rename f)
    (fun found id _ isMet => visit_likeness like maxDepth found isMet)
    (fun found id missing => visit_missing missing maxDepth found) {}
  have users := congrArg Found.users walk
  exact congrArg UserSet.ofList users

end

end Mention

end Blockmark
