import Blockmark.Forest

/-!
# Blocks in pre-order

The blocks under some ids, every block before its children. There is no such list where blocks are
missing or stand below themselves.

Main statement: `Preorder.unique`.
-/

namespace Blockmark

def Kind.ownText (kind : Kind) : List Char :=
  ((kind.body?.map TextBody.plainText).getD "").toList

namespace Forest

inductive Preorder (forest : Forest) : List BlockId → List Block → Prop
  | nil : Preorder forest [] []
  | cons {id : BlockId} {ids : List BlockId} {block : Block} {below rest : List Block}
      (found : forest.get? id = some block) (inside : Preorder forest block.children below)
      (behind : Preorder forest ids rest) : Preorder forest (id :: ids) (block :: below ++ rest)

theorem Preorder.unique {forest : Forest} {ids : List BlockId} {blocks others : List Block}
    (order : Preorder forest ids blocks) (other : Preorder forest ids others) :
    blocks = others := by
  induction order generalizing others with
  | nil =>
      cases other
      rfl
  | cons found _ _ ihInside ihBehind =>
      cases other with
      | cons found' inside behind =>
          obtain rfl := Option.some.inj (found.symm.trans found')
          rw [ihInside inside, ihBehind behind]

end Forest

end Blockmark
