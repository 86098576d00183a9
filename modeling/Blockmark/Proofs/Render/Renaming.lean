import Mathlib.Logic.Equiv.Basic
import Blockmark.Proofs.Render.Likeness

/-!
# Names of blocks do not show

What is read off a forest depends on the blocks that can be reached, and not on their names, their
order, or on the blocks beside them.

Main statement: `document_renaming`.
-/

namespace Blockmark

def Block.rename (f : BlockId → BlockId) (block : Block) : Block :=
  { id := f block.id, kind := block.kind.mapCells f, children := block.children.map f }

namespace Render

open Forest

section

variable {f : BlockId → BlockId} {forest image : Forest} {roots : List BlockId}

variable (same : ∀ id, Reaches forest.leadsTo roots id →
  image.get? (f id) = (forest.get? id).map (Block.rename f))

include same

theorem likeness_of_renamed (injective : Function.Injective f) (empty : f "" = "") :
    Likeness f (Reaches forest.leadsTo roots) forest image where
  injective := injective
  empty := empty
  missing {id} reaches missing := by rw [same id reaches, missing, Option.map_none]
  found {id block} reaches found := by
    refine ⟨block.rename f, by rw [same id reaches, found, Option.map_some], rfl, rfl, ?_, ?_⟩
    · exact .map fun child mem => reaches_listed found reaches (.inl mem)
    · exact fun cell mem => reaches_listed found reaches (.inr mem)

theorem ifBereft_of_renamed {id : BlockId} (reaches : Reaches forest.leadsTo roots id)
    (holds : Block → Prop) : IfBereft f forest image holds id := by
  intro block other found found' some none
  rw [same id reaches, found, Option.map_some] at found'
  obtain rfl := Option.some.inj found'
  exact absurd (List.map_eq_nil_iff.1 none) some

theorem conceals_of_renamed (setting : Setting) {id : BlockId} {block : Block}
    (reaches : Reaches forest.leadsTo roots id) (found : forest.get? id = some block) :
    Conceals f forest image setting block where
  cells cell mem := ifBereft_of_renamed same (reaches_listed found reaches (.inr mem)) _
  lines _ child mem := ifBereft_of_renamed same (reaches_listed found reaches (.inl mem)) _
  labels _ _ target below := by
    refine ifBereft_of_renamed same (reaches_below_children reaches ?_) _
    exact .head List.mem_cons_self (childIds_eq found ▸ below)

end

/-- If what can be reached is the same up to the names, then so are the document with its image
tokens, the mentions, and the plain text of corresponding blocks. -/
theorem document_renaming {f : BlockId → BlockId} (injective : Function.Injective f)
    (empty : f "" = "") {forest image : Forest} {roots : List BlockId}
    (same : ∀ id, Reaches forest.leadsTo roots id →
      image.get? (f id) = (forest.get? id).map (Block.rename f)) :
    (∀ setting, document image setting (roots.map f) = document forest setting roots) ∧
    Mention.collect image (roots.map f) = Mention.collect forest roots ∧
    ∀ id, Reaches forest.leadsTo roots id →
      image.cellText (f id) = forest.cellText id ∧
        image.tableText (f id) = forest.tableText id := by
  have like := likeness_of_renamed same injective empty
  have inside : Renamed f (Reaches forest.leadsTo roots) forest roots (roots.map f) :=
    .map fun id mem => reaches_of_mem mem
  have silent {id target : BlockId} (reaches : Reaches forest.leadsTo roots id)
      (below : Reaches forest.childIds [id] target) :
      IfBereft f forest image (ownTexts · = []) target :=
    ifBereft_of_renamed same (reaches_below_children reaches below) _
  refine ⟨fun setting => ?_, Mention.collect_likeness like inside, fun id reaches => ⟨?_, ?_⟩⟩
  · exact document_likeness like (conceals_of_renamed same setting) inside
  · exact cellText_likeness like reaches fun target => silent reaches
  · exact tableText_likeness like silent reaches

def ring : Forest := ⟨[
  ⟨"table", .table (some { cells := ["a", "", "b", "gone"], rowSize := 2, columnSize := 2 }),
    ["a", "b"]⟩,
  ⟨"a", .bare .tableCell, ["c"]⟩,
  ⟨"b", .text .paragraph (some ⟨[.mentionUser "u1"], { align := some .right }⟩), []⟩,
  ⟨"c", .text .paragraph (some (.plain "shared")), ["table", "b"]⟩]⟩

def ringExchanged : Forest := ⟨[
  ⟨"stray", .text .paragraph (some (.plain "never shown")), ["b"]⟩,
  ⟨"c", .text .paragraph (some (.plain "shared")), ["table", "a"]⟩,
  ⟨"a", .text .paragraph (some ⟨[.mentionUser "u1"], { align := some .right }⟩), []⟩,
  ⟨"b", .bare .tableCell, ["c"]⟩,
  ⟨"table", .table (some { cells := ["b", "", "a", "gone"], rowSize := 2, columnSize := 2 }),
    ["b", "a"]⟩]⟩

theorem document_ringExchanged :
    let exchange : BlockId → BlockId := Equiv.swap "a" "b"
    Function.Injective exchange ∧ exchange "" = "" ∧
    (∀ id, Reaches ring.leadsTo ["table", "b"] id →
      ringExchanged.get? (exchange id) = (ring.get? id).map (Block.rename exchange)) ∧
    document ringExchanged {} ["table", "a"] = document ring {} ["table", "b"] ∧
    (document ring {} ["table", "b"]).markdown =
      "| shared<br>@[user:u1] |     |\n" ++ "| -------------------- | --- |\n" ++
        "| @[user:u1]           |     |\n" ∧
    Mention.collect ringExchanged ["table", "a"] = ["u1"] ∧
    ringExchanged.tableText "table" = [["@u1", ""], ["@u1", ""]] := by
  intro exchange
  have injective : Function.Injective exchange := (Equiv.swap "a" "b").injective
  have empty : exchange "" = "" := by decide +kernel
  have roots : ["table", "b"].map exchange = ["table", "a"] := by decide +kernel
  have inside : ∀ id, Reaches ring.leadsTo ["table", "b"] id →
      id ∈ ["table", "a", "b", "c", "", "gone"] := fun id reaches =>
    reaches.closed (by decide +kernel) (by decide +kernel)
  have same : ∀ id, Reaches ring.leadsTo ["table", "b"] id →
      ringExchanged.get? (exchange id) = (ring.get? id).map (Block.rename exchange) := by
    have all : ∀ id ∈ ["table", "a", "b", "c", "", "gone"],
        ringExchanged.get? (exchange id) = (ring.get? id).map (Block.rename exchange) := by
      decide +kernel
    exact fun id reaches => all id (inside id reaches)
  obtain ⟨document, mentions, texts⟩ := document_renaming injective empty same
  rw [roots] at document mentions
  have table : exchange "table" = "table" := by decide +kernel
  have text := (texts "table" (reaches_of_mem List.mem_cons_self)).2
  rw [table] at text
  refine ⟨injective, empty, same, document {}, by decide +kernel, ?_, ?_⟩
  · rw [mentions]
    decide +kernel
  · rw [text]
    decide +kernel

end Render

end Blockmark
