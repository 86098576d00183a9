import Blockmark.Forest
import Blockmark.Limits
import Blockmark.Mention.UserSet

/-!
# Collecting mentions

The ids of all users that are mentioned under some roots. Every block is looked at once, and the
walk goes through children and table cells down to the depth limit.

Main statement: `mem_mentionedBy`.
-/

namespace Blockmark.Mention

structure Found where
  seen : List BlockId := []
  users : List String := []

def mentionedBy (kind : Kind) : List String :=
  match kind.body? with
  | none => []
  | some body => body.elements.filterMap fun
    | .mentionUser userId => some userId
    | _ => none

theorem mem_mentionedBy {kind : Kind} {userId : String} :
    userId ∈ mentionedBy kind ↔
      ∃ body, kind.body? = some body ∧ TextElement.mentionUser userId ∈ body.elements := by
  unfold mentionedBy
  cases kind.body? with
  | none => simp
  | some body =>
    rw [List.mem_filterMap]
    constructor
    · rintro ⟨element, mem, mentions⟩
      cases element with
      | mentionUser other =>
        cases mentions
        exact ⟨body, rfl, mem⟩
      | _ => cases mentions
    · rintro ⟨_, same, mem⟩
      cases same
      exact ⟨_, mem, rfl⟩

def below (block : Block) : List BlockId :=
  block.children ++ block.kind.cells

def visit (forest : Forest) (levels : Nat) (found : Found) (id : BlockId) : Found :=
  match levels with
  | 0 => found
  | levels + 1 =>
    match forest.get? id with
    | none => found
    | some block =>
      if block.id ∈ found.seen then found
      else
        (below block).foldl (visit forest levels)
          ⟨block.id :: found.seen, mentionedBy block.kind ++ found.users⟩

def collect (forest : Forest) (roots : List BlockId) : UserSet :=
  .ofList (roots.foldl (visit forest maxDepth) {}).users

end Blockmark.Mention
