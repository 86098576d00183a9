import Blockmark.Json.Decode
import Blockmark.Proofs.Json.RoundTrip

/-!
# Decoding printed values

What the decoders of plain values, lists, records and tagged values make of printed values. The
tag of a printed value stands in front of what it carries, so both are read at once.

Main statements: `list_reading`, `Tagged.decoder_reading` and `Tagged.decoder_reading_tag`.
-/

namespace Blockmark.Json

@[simp] theorem ok_bind {ε α β : Type} (a : α) (f : α → Except ε β) :
    ((Except.ok a : Except ε α) >>= f) = f a := rfl

@[simp] theorem map_ok {ε α β : Type} (f : α → β) (a : α) :
    (f <$> (Except.ok a : Except ε α)) = .ok (f a) := rfl

@[simp] theorem pure_eq_ok {ε α : Type} (a : α) : (pure a : Except ε α) = .ok a := rfl

attribute [simp] reading memberReadings

namespace Decoder

@[simp] theorem string_reading (place : Place) (text : String) :
    string place (Reading.string (some text)) = .ok text := rfl

@[simp] theorem bool_reading (place : Place) (value : Bool) :
    Decoder.bool place (Reading.bool value) = .ok value := rfl

@[simp] theorem checkEnding_closed : checkEnding .closed = .ok () := rfl

theorem natBelow_reading {bound n : Nat} (place : Place) (below : n < bound) :
    natBelow bound place (nat n).reading = .ok n := by
  simp [natBelow, nat, reading, Number.natBelow?, below]

theorem nullable_reading {α : Type} {decoder : Decoder α} {place : Place} {value : Json} {a : α}
    (present : value ≠ .null) (reads : decoder place value.reading = .ok a) :
    nullable decoder place value.reading = .ok (some a) := by
  cases value with
  | null => exact absurd rfl present
  | _ =>
      rw [reading] at reads ⊢
      rw [nullable, reads] <;> simp

theorem decodeItems_readings {α : Type} {decoder : Decoder α} {place : Place} {encode : α → Json}
    {items : List α} (reads : ∀ item ∈ items, decoder place (encode item).reading = .ok item) :
    decodeItems decoder place (readings (items.map encode)) = .ok items := by
  induction items with
  | nil => rfl
  | cons item items ih =>
      rw [List.map_cons, readings, decodeItems, reads item List.mem_cons_self, ok_bind,
        ih fun other mem => reads other (List.mem_cons_of_mem _ mem)]
      rfl

theorem list_reading {α : Type} {decoder : Decoder α} {place : Place} {encode : α → Json}
    {items : List α}
    (reads : ∀ item ∈ items, decoder place.inside (encode item).reading = .ok item) :
    list decoder place (reading (.array (items.map encode))) = .ok items := by
  rw [reading, list, decodeItems_readings reads]
  rfl

theorem list_strings (place : Place) (items : List String) :
    list string place (reading (.array (items.map .string))) = .ok items :=
  list_reading fun _ _ => rfl

@[simp] theorem enumeration_reading {α : Type} (values : List α) (name : α → String)
    (place : Place) (text : String) :
    enumeration values name place (Reading.string (some text)) = choose values name text := rfl

/-! ## Records -/

@[simp] theorem keyedRecord_object {α : Type} (start : α) (fields : List (Field α))
    (place : Place) (members : List (Literal × Reading)) :
    keyedRecord start fields place (.object members .closed) = (do
      let (seen, record) ← readMembers fields place.inside [] start members
      checkNeeded fields seen
      return record) := rfl

@[simp] theorem record_object {α : Type} (start : α) (fields : List (Field α))
    (place : Place) (members : List (Literal × Reading)) :
    record start fields place (.object members .closed) =
      keyedRecord start fields place (.object members .closed) := rfl

/-! ## Tagged values -/

theorem Tagged.decoder_reading {τ α : Type} {tagged : Tagged τ α} {place : Place} {tag : τ}
    {name value : Json} {a : α} (apart : tagged.contentKey ≠ tagged.tagKey)
    (readsTag : tagged.tag place.inside name.reading = .ok tag)
    (reads : tagged.content tag place.inside value.reading = .ok a) :
    tagged.decoder place
      (reading (.object [(tagged.tagKey, name), (tagged.contentKey, value)])) = .ok a := by
  simp [Tagged.decoder, Tagged.readMembers, Tagged.step, Tagged.finish, apart, readsTag, reads]

theorem Tagged.decoder_reading_tag {τ α : Type} {tagged : Tagged τ α} {place : Place} {tag : τ}
    {name : Json} (readsTag : tagged.tag place.inside name.reading = .ok tag) :
    tagged.decoder place (reading (.object [(tagged.tagKey, name)])) = tagged.absent tag := by
  simp [Tagged.decoder, Tagged.readMembers, Tagged.step, Tagged.finish, readsTag]

theorem run_pretty {α : Type} {decoder : Decoder α} {value : Json} {a : α}
    (reads : decoder {} value.reading = .ok a) : run decoder value.pretty = .ok a := by
  rw [run, read_pretty]
  simp only [reads, ok_bind]
  rfl

end Decoder

end Blockmark.Json
