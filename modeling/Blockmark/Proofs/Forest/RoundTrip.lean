import Blockmark.Proofs.Block.RoundTrip
import Blockmark.Proofs.Forest.Insertion

/-!
# Forests from their JSON

The text of a forest gives the forest back. Blocks are read in the order of the forest, and every
id stands there once, so adding them again moves no block.

Main statement: `Forest.ofJson_toJson`.
-/

namespace Blockmark

open Json

theorem Block.listDecoder_toJson {blocks : List Block}
    (range : ∀ block ∈ blocks, block.kind.inRange = true) :
    Block.listDecoder {} (reading (.array (blocks.map Block.toJson))) = .ok blocks :=
  Decoder.list_reading fun block mem => Block.decoder_toJson (by decide) (range block mem)

namespace Forest

/-- A forest is what its text says, however the blocks in it came together. -/
theorem ofJson_toJson {blocks : List Block}
    (range : ∀ block ∈ blocks, block.kind.inRange = true) :
    ofJson (ofList blocks).toJson = .ok (ofList blocks) := by
  have kept : ∀ block ∈ (ofList blocks).blocks, block.kind.inRange = true :=
    fun block mem => range block (mem_of_mem_ofList mem)
  have reads := Json.Decoder.run_pretty (Block.listDecoder_toJson kept)
  rw [ofJson, toJson, reads, map_ok, ofList_blocks _ (nodup_ids_ofList blocks)]

theorem ofJson_toJson_repeated_id :
    let blocks : List Block := [
      ⟨"a\"\\\u0001", .text .todo (some ⟨[.run ⟨"\t<é\n", { bold := true }, some ""⟩,
        .mentionDoc "t" (.token "u"), .lineBreak],
        { align := some .right, sequence := some 18446744073709551615 }⟩), ["b", "b"]⟩,
      ⟨"b", .grid none, []⟩,
      ⟨"b", .table (some ⟨["c"], 0, 7, true⟩), []⟩,
      ⟨"", .bare .divider, ["b"]⟩]
    ofJson (ofList blocks).toJson = .ok (ofList blocks) :=
  ofJson_toJson (by decide)

end Forest

end Blockmark
