import Blockmark.Forest

/-!
# Arenas of blocks

The blocks of a forest in an array, with the position of every id beside them. A block is found
without a search: its position is looked up, and the array is read there. The array and the
positions could disagree, so reading outside of the array is an error with a name.
-/

namespace Blockmark

structure Arena where
  blocks : Array Block := #[]
  /-- The position of every id, in the order in which the ids were added. -/
  positions : List (BlockId × Nat) := []
  deriving DecidableEq, Inhabited

/-- A position that an array of the given size does not have. -/
structure OutOfRange where
  position : Nat
  size : Nat
  deriving DecidableEq, Repr, Inhabited

namespace Arena

def ids (arena : Arena) : List BlockId :=
  arena.blocks.toList.map (·.id)

def size (arena : Arena) : Nat :=
  arena.blocks.size

def isEmpty (arena : Arena) : Bool :=
  arena.blocks.isEmpty

def position? (arena : Arena) (id : BlockId) : Option Nat :=
  (arena.positions.find? (·.1 = id)).map (·.2)

def get? (arena : Arena) (id : BlockId) : Except OutOfRange (Option Block) :=
  match arena.position? id with
  | none => .ok none
  | some position =>
    match arena.blocks[position]? with
    | some block => .ok (some block)
    | none => .error ⟨position, arena.blocks.size⟩

def contains (arena : Arena) (id : BlockId) : Bool :=
  (arena.position? id).isSome

/-- The children of a block, without those that are missing. -/
def childrenOf (arena : Arena) (block : Block) : Except OutOfRange (List Block) :=
  block.children.filterMapM arena.get?

/-- Puts a block in the place of the one with its id, or at the end with a position of its own. -/
def insert (arena : Arena) (block : Block) : Except OutOfRange Arena :=
  match arena.position? block.id with
  | some position =>
    if inside : position < arena.blocks.size then
      .ok { arena with blocks := arena.blocks.set position block inside }
    else .error ⟨position, arena.blocks.size⟩
  | none =>
    .ok { blocks := arena.blocks.push block
          positions := arena.positions ++ [(block.id, arena.blocks.size)] }

def ofList (blocks : List Block) : Except OutOfRange Arena :=
  blocks.foldlM insert {}

def forest (arena : Arena) : Forest :=
  ⟨arena.blocks.toList⟩

end Arena

end Blockmark
