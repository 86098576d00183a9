import Blockmark.Block.Decode
import Blockmark.Json.Printer

/-!
# Forests of blocks

The blocks of a document in the order in which they were added, found by their ids. A block added
under an id that is taken replaces the earlier one where it stands.

Main statements: `get?_insert` and `ids_insert` say what an insertion does to the two views of a
forest.
-/

namespace Blockmark

structure Forest where
  blocks : List Block := []
  deriving DecidableEq, Inhabited

namespace Forest

def ids (forest : Forest) : List BlockId :=
  forest.blocks.map (·.id)

def size (forest : Forest) : Nat :=
  forest.blocks.length

def isEmpty (forest : Forest) : Bool :=
  forest.blocks.isEmpty

def position? (forest : Forest) (id : BlockId) : Option Nat :=
  forest.blocks.findIdx? (·.id = id)

def get? (forest : Forest) (id : BlockId) : Option Block :=
  forest.blocks.find? (·.id = id)

def contains (forest : Forest) (id : BlockId) : Bool :=
  (forest.get? id).isSome

/-- Puts a block in the place of the one with its id, or at the end. -/
def put (block : Block) : List Block → List Block
  | [] => [block]
  | other :: blocks =>
    if other.id = block.id then block :: blocks else other :: put block blocks

def insert (forest : Forest) (block : Block) : Forest :=
  ⟨put block forest.blocks⟩

def ofList (blocks : List Block) : Forest :=
  blocks.foldl insert {}

def childrenOf (forest : Forest) (block : Block) : List Block :=
  block.children.filterMap forest.get?

theorem find?_put (block : Block) (blocks : List Block) (id : BlockId) :
    (put block blocks).find? (·.id = id) =
      if block.id = id then some block else blocks.find? (·.id = id) := by
  induction blocks with
  | nil =>
    by_cases h : block.id = id <;> simp [put, h]
  | cons other blocks ih =>
    by_cases ho : other.id = block.id
    · by_cases h : block.id = id
      · simp [put, ho, h]
      · simp [put, ho, h]
    · rw [put, if_neg ho]
      by_cases hid : other.id = id
      · have h : ¬ block.id = id := fun e => ho (hid.trans e.symm)
        rw [List.find?_cons_of_pos (by simpa using hid),
          List.find?_cons_of_pos (by simpa using hid), if_neg h]
      · rw [List.find?_cons_of_neg (by simpa using hid), ih,
          List.find?_cons_of_neg (by simpa using hid)]

theorem get?_insert (forest : Forest) (block : Block) (id : BlockId) :
    (forest.insert block).get? id = if block.id = id then some block else forest.get? id :=
  find?_put block forest.blocks id

theorem map_id_put (block : Block) (blocks : List Block) :
    (put block blocks).map (·.id) =
      if block.id ∈ blocks.map (·.id) then blocks.map (·.id)
      else blocks.map (·.id) ++ [block.id] := by
  induction blocks with
  | nil => simp [put]
  | cons other blocks ih =>
    by_cases ho : other.id = block.id
    · simp [put, ho]
    · simp only [put, ho, if_false, List.map_cons, ih, List.mem_cons, Ne.symm ho, false_or]
      split <;> simp

theorem ids_insert (forest : Forest) (block : Block) :
    (forest.insert block).ids =
      if block.id ∈ forest.ids then forest.ids else forest.ids ++ [block.id] :=
  map_id_put block forest.blocks

def toJson (forest : Forest) : String :=
  (Json.array (forest.blocks.map Block.toJson)).pretty

def ofJson (text : String) : Except Json.Fault Forest :=
  ofList <$> Json.Decoder.run Block.listDecoder text

end Forest

end Blockmark
