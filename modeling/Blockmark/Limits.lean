/-!
# Limits

How deep trees are followed.
-/

namespace Blockmark

/-- Every walk over a tree stops at this depth and keeps what it has built. -/
def maxDepth : Nat := 100

end Blockmark
