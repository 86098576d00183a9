/-!
# Sets of user ids

Ids in increasing order, each once.

Main statement: `mem_insert`, by which an insertion adds one id.
-/

namespace Blockmark.Mention

/-- Ids in increasing order of their code points. -/
abbrev UserSet := List String

namespace UserSet

def insert (id : String) : UserSet → UserSet
  | [] => [id]
  | other :: ids =>
    if id = other then other :: ids
    else if id < other then id :: other :: ids
    else other :: insert id ids

def ofList (ids : List String) : UserSet :=
  ids.foldr insert []

theorem mem_insert {id other : String} {ids : UserSet} :
    other ∈ insert id ids ↔ other = id ∨ other ∈ ids := by
  induction ids with
  | nil => simp [insert]
  | cons first ids ih =>
    unfold insert
    split
    · next h => subst h; simp
    · split
      · simp
      · simp only [List.mem_cons, ih]
        constructor <;> rintro (h | h | h) <;> simp_all

theorem mem_ofList {id : String} {ids : List String} : id ∈ ofList ids ↔ id ∈ ids := by
  induction ids with
  | nil => simp [ofList]
  | cons first ids ih => simpa [ofList, mem_insert] using or_congr_right ih

end UserSet

end Blockmark.Mention
