import Blockmark.Proofs.Render.Likeness

/-!
# Ids without a block

Ids under which nothing stands are passed over, so that lists may do without them. What shows is
whether a list of children is empty: a cell without children shows itself, a quote without children
is a line of its quote container, and a block without children shows its own text under an image.
A list of nothing but missing ids counts as children there.

Main statement: `document_pruned`.
-/

namespace Blockmark

namespace Forest

def mapChildren (change : List BlockId → List BlockId) (forest : Forest) : Forest :=
  ⟨forest.blocks.map fun block => { block with children := change block.children }⟩

def present (forest : Forest) (ids : List BlockId) : List BlockId :=
  ids.filter forest.contains

def presentIfAny (forest : Forest) (ids : List BlockId) : List BlockId :=
  if (forest.present ids).isEmpty then ids else forest.present ids

/-- The forest without the missing ids in its lists of children. -/
def pruned (forest : Forest) : Forest := forest.mapChildren forest.present

/-- The forest without the missing ids beside other ids. -/
def tidied (forest : Forest) : Forest := forest.mapChildren forest.presentIfAny

variable {forest : Forest} {change : List BlockId → List BlockId}

theorem get?_mapChildren (id : BlockId) : (forest.mapChildren change).get? id =
    (forest.get? id).map fun block => { block with children := change block.children } := by
  simp only [get?, mapChildren, List.find?_map]
  rfl

theorem Renamed.present {met : BlockId → Prop} {ids : List BlockId} (isMet : ∀ id ∈ ids, met id) :
    Renamed id met forest ids (forest.present ids) :=
  .filter isMet

theorem Renamed.presentIfAny {met : BlockId → Prop} {ids : List BlockId}
    (isMet : ∀ id ∈ ids, met id) : Renamed id met forest ids (forest.presentIfAny ids) := by
  rw [Forest.presentIfAny]
  split
  · have kept : Renamed id met forest ids (ids.map id) := .map isMet
    rwa [List.map_id] at kept
  · exact .present isMet

theorem presentIfAny_eq_nil {ids : List BlockId} (none : forest.presentIfAny ids = []) :
    ids = [] := by
  rw [presentIfAny] at none
  split at none
  · exact none
  · next some => exact absurd (List.isEmpty_iff.2 none) some

theorem likeness_mapChildren {roots : List BlockId}
    (drops : ∀ ids, (∀ id ∈ ids, Reaches forest.leadsTo roots id) →
      Renamed id (Reaches forest.leadsTo roots) forest ids (change ids)) :
    Likeness id (Reaches forest.leadsTo roots) forest (forest.mapChildren change) where
  injective := Function.injective_id
  empty := rfl
  missing {name} _ missing := by
    rw [get?_mapChildren]
    simp [missing]
  found {name block} reaches found := by
    refine ⟨{ block with children := change block.children }, ?_, rfl, ?_, ?_, ?_⟩
    · rw [get?_mapChildren]
      simp [found]
    · exact (Kind.mapCells_id _).symm
    · exact drops _ fun child mem => reaches_listed found reaches (.inl mem)
    · exact fun cell mem => reaches_listed found reaches (.inr mem)

end Forest

namespace Render

open Forest

/-- No missing id shows beside ids with a block. Nor does any missing id at all if the blocks that
have no children without them show nothing by themselves, where it is asked for children. -/
theorem document_pruned (forest : Forest) (setting : Setting) (roots : List BlockId) :
    document forest.tidied setting (forest.present roots) = document forest setting roots ∧
    ((∀ name block, Reaches forest.leadsTo roots name → forest.get? name = some block →
        Conceals id forest forest.pruned setting block) →
      document forest.pruned setting (forest.present roots) = document forest setting roots) := by
  have inside : Renamed id (Reaches forest.leadsTo roots) forest roots (forest.present roots) :=
    .present fun _ mem => reaches_of_mem mem
  have likeTidied : Likeness id (Reaches forest.leadsTo roots) forest forest.tidied :=
    likeness_mapChildren fun _ isMet => .presentIfAny isMet
  have likePruned : Likeness id (Reaches forest.leadsTo roots) forest forest.pruned :=
    likeness_mapChildren fun _ isMet => .present isMet
  have kept (holds : Block → Prop) (name : BlockId) :
      IfBereft id forest forest.tidied holds name := by
    intro block other found found' some none
    have changed : forest.tidied.get? name =
        (forest.get? name).map fun block =>
          { block with children := forest.presentIfAny block.children } :=
      get?_mapChildren name
    rw [found, Option.map_some] at changed
    obtain rfl := Option.some.inj (found'.symm.trans changed)
    exact absurd (presentIfAny_eq_nil none) some
  refine ⟨?_, fun conceals => ?_⟩
  · refine document_likeness likeTidied (fun reaches found => ⟨?_, ?_, ?_⟩) inside
    · exact fun cell _ => kept _ cell
    · exact fun _ child _ => kept _ child
    · exact fun _ _ target _ => kept _ target
  · exact document_likeness likePruned (fun reaches found => conceals _ _ reaches found) inside

def gone : Forest := ⟨[
  ⟨"container", .bare .quoteContainer, ["gone", "text"]⟩,
  ⟨"text", .text .paragraph (some (.plain "kept")), ["gone"]⟩,
  ⟨"table", .table (some { cells := ["cell"], rowSize := 1, columnSize := 1 }), []⟩,
  ⟨"cell", .bare .tableCell, ["gone", "gone"]⟩]⟩

theorem document_pruned_gone :
    (∀ name block, Reaches gone.leadsTo ["container", "gone", "table"] name →
      gone.get? name = some block → Conceals id gone gone.pruned {} block) ∧
    gone.present ["container", "gone", "table"] = ["container", "table"] ∧
    gone.pruned.childIds "text" = [] ∧
    document gone.pruned {} ["container", "table"] =
      document gone {} ["container", "gone", "table"] ∧
    document gone {} ["container", "gone", "table"] =
      ⟨"> kept\n\n|     |\n| --- |\n", []⟩ := by
  have mute : Mute gone {} ⟨"cell", .bare .tableCell, ["gone", "gone"]⟩ := by
    intro levels state
    cases levels <;> rfl
  have conceals : ∀ name block, Reaches gone.leadsTo ["container", "gone", "table"] name →
      gone.get? name = some block → Conceals id gone gone.pruned {} block := by
    have kinds : ∀ block ∈ gone.blocks, block.kind.cells ⊆ ["cell"] ∧
        (∀ body, block.kind ≠ .text .quote body) ∧ ∀ picture, block.kind ≠ .image picture := by
      simp [gone, Kind.cells]
    have cell : gone.get? "cell" = some ⟨"cell", .bare .tableCell, ["gone", "gone"]⟩ := by
      decide +kernel
    intro name block _ found
    obtain ⟨cells, -, noImage⟩ := kinds block (mem_of_get? found)
    refine ⟨?_, ?_, fun picture isImage => absurd isImage (noImage picture)⟩
    · intro name isCell block other found _ _ _
      obtain rfl := List.mem_singleton.1 (cells isCell)
      obtain rfl := Option.some.inj (cell.symm.trans found)
      exact mute
    · intro _ child _ block other found _ _ _ body isQuote
      exact absurd isQuote ((kinds block (mem_of_get? found)).2.1 body)
  have present : gone.present ["container", "gone", "table"] = ["container", "table"] := by
    decide +kernel
  have same := (document_pruned gone {} ["container", "gone", "table"]).2 conceals
  rw [present] at same
  exact ⟨conceals, present, by decide +kernel, same, by decide +kernel⟩

def framedQuote : Forest := ⟨[
  ⟨"container", .bare .quoteContainer, ["quote"]⟩,
  ⟨"quote", .text .quote (some (.plain "kept")), ["gone"]⟩]⟩

theorem missing_shown :
    framedQuote.present ["container"] = ["container"] ∧
    document framedQuote.pruned {} ["container"] = ⟨"> kept\n", []⟩ ∧
    document framedQuote {} ["container"] = ⟨"> > kept\n", []⟩ := by
  decide +kernel

end Render

end Blockmark
