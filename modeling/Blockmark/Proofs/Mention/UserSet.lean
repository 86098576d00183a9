import Mathlib.Data.String.Basic
import Blockmark.Mention.UserSet

/-!
# The order of user sets

Main statement: `pairwise_ofList`, by which the ids of a set increase, so that none comes twice.
-/

namespace Blockmark.Mention.UserSet

theorem pairwise_insert {id : String} {ids : UserSet} (sorted : ids.Pairwise (· < ·)) :
    (insert id ids).Pairwise (· < ·) := by
  induction ids with
  | nil => exact List.pairwise_singleton _ id
  | cons first ids ih =>
      have behind : ∀ last ∈ ids, first < last :=
        fun last mem => List.rel_of_pairwise_cons sorted mem
      unfold insert
      split
      · exact sorted
      · next other =>
          split
          · next before =>
              refine List.pairwise_cons.2 ⟨fun last mem => ?_, sorted⟩
              rcases List.mem_cons.1 mem with rfl | mem
              · exact before
              · exact lt_trans before (behind last mem)
          · next after =>
              refine List.pairwise_cons.2 ⟨fun last mem => ?_, ih sorted.of_cons⟩
              rcases mem_insert.1 mem with rfl | mem
              · exact lt_of_le_of_ne (not_lt.1 after) (Ne.symm other)
              · exact behind last mem

theorem pairwise_ofList (ids : List String) : (ofList ids).Pairwise (· < ·) := by
  induction ids with
  | nil => exact List.Pairwise.nil
  | cons id ids ih => exact pairwise_insert ih

end Blockmark.Mention.UserSet
