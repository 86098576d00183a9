import Blockmark.Json.Lexer

/-!
# Reading values of a wanted shape

A decoder walks through what a text holds in the order of the text and answers with the first
problem it meets, whether of the text or of the shape. Records, lists, enumerations and tagged
values are built from decoders of their parts.

Records take unknown members, but no member twice. The first problem in the order of the text
decides, so a value of the wrong shape hides what goes wrong behind it.
-/

namespace Blockmark.Json

inductive Fault
  | mismatch
  | malformed
  | unfinished
  deriving DecidableEq, Repr

def Fault.ofCause : Cause → Fault
  | .malformed => .malformed
  | .unfinished => .unfinished

structure Place where
  /-- Whether the value was read whole before its shape was known. Then nothing but the shape can
  be wrong any more. -/
  held : Bool := false
  /-- The number of arrays and objects around the value. -/
  depth : Nat := 0

def Place.inside (place : Place) : Place :=
  { place with depth := place.depth + 1 }

abbrev Decoder (α : Type) := Place → Reading → Except Fault α

/-- The fault of a value that has another shape than the wanted one. Arrays and objects are not
looked into, everything else is read first. -/
def unexpected : Reading → Fault
  | .broken .unpairedText _ => .malformed
  | .broken _ cause => .ofCause cause
  | .number value => if value.isFinite then .mismatch else .malformed
  | .string none => .malformed
  | _ => .mismatch

def depthLimit : Nat := 128

def checkLiteral : Literal → Except Fault Unit
  | some _ => .ok ()
  | none => .error .malformed

def checkEnding (ending : Ending) : Except Fault Unit :=
  match faultOfEnding? ending with
  | none => .ok ()
  | some cause => .error (.ofCause cause)

mutual

def hold (depth : Nat) : Reading → Except Fault Unit
  | .array items ending =>
    if depthLimit ≤ depth + 1 then .error .malformed
    else do holdItems (depth + 1) items; checkEnding ending
  | .object members ending =>
    if depthLimit ≤ depth + 1 then .error .malformed
    else do holdMembers (depth + 1) members; checkEnding ending
  | .string text => checkLiteral text
  | .number value => if value.isFinite then .ok () else .error .malformed
  | .broken lead cause => .error (if lead = .unpairedText then .malformed else .ofCause cause)
  | _ => .ok ()

def holdItems (depth : Nat) : List Reading → Except Fault Unit
  | [] => .ok ()
  | item :: items => do hold depth item; holdItems depth items

def holdMembers (depth : Nat) : List (Literal × Reading) → Except Fault Unit
  | [] => .ok ()
  | (key, value) :: members => do checkLiteral key; hold depth value; holdMembers depth members

end

def skip (value : Reading) : Except Fault Unit :=
  match value.fault? with
  | none => .ok ()
  | some cause => .error (.ofCause cause)

namespace Decoder

def null : Decoder Unit := fun _ value =>
  match value with
  | .null => .ok ()
  | value => .error (unexpected value)

def string : Decoder String := fun _ value =>
  match value with
  | .string (some text) => .ok text
  | value => .error (unexpected value)

def bool : Decoder Bool := fun _ value =>
  match value with
  | .bool value => .ok value
  | value => .error (unexpected value)

def natBelow (bound : Nat) : Decoder Nat := fun _ value =>
  match value with
  | .number written =>
    match written.natBelow? bound with
    | some n => .ok n
    | none => .error (unexpected value)
  | value => .error (unexpected value)

def nullable {α : Type} (decoder : Decoder α) : Decoder (Option α) := fun place value =>
  match value with
  | .null => .ok none
  | .broken .null cause => .error (.ofCause cause)
  | value => some <$> decoder place value

def decodeItems {α : Type} (decoder : Decoder α) (place : Place) :
    List Reading → Except Fault (List α)
  | [] => .ok []
  | item :: items => do
    let first ← decoder place item
    let rest ← decodeItems decoder place items
    return first :: rest

def list {α : Type} (decoder : Decoder α) : Decoder (List α) := fun place value =>
  match value with
  | .array items ending => do
    let values ← decodeItems decoder place.inside items
    checkEnding ending
    return values
  | value => .error (unexpected value)

def choose {α : Type} (values : List α) (name : α → String) (text : String) : Except Fault α :=
  match values.find? (name · = text) with
  | some value => .ok value
  | none => .error .mismatch

def checkSingle (members : List (Literal × Reading)) (ending : Ending) : Except Fault Unit :=
  match members, ending with
  | [], .closed => .ok ()
  | [], .broken false cause => .error (.ofCause cause)
  | _, _ => .error .malformed

/-- One of `values`, given by its name, or by its name as the only key of an object whose value is
`null`. -/
def enumeration {α : Type} (values : List α) (name : α → String) : Decoder α :=
  fun place value =>
    match value with
    | .string (some text) => choose values name text
    | .object ((key, value) :: members) ending =>
      if place.held && !members.isEmpty then .error .mismatch
      else match key with
        | none => .error .malformed
        | some key => do
          let chosen ← choose values name key
          null place.inside value
          checkSingle members ending
          return chosen
    | .object [] ending =>
      match ending with
      | .closed => .error (if place.held then .mismatch else .malformed)
      | .broken _ cause => .error (.ofCause cause)
      | .strangeKey none => .error .mismatch
      | .strangeKey (some cause) => .error (.ofCause cause)
    | .broken .nothing cause => .error (.ofCause cause)
    | .broken .text cause => .error (.ofCause cause)
    | .string none => .error .malformed
    | _ => .error (if place.held then .mismatch else .malformed)

structure Field (α : Type) where
  name : String
  needed : Bool
  read : Place → Reading → α → Except Fault α

def Field.needs {α β : Type} (name : String) (decoder : Decoder β) (put : β → α → α) : Field α :=
  ⟨name, true, fun place value record => (put · record) <$> decoder place value⟩

def Field.allows {α β : Type} (name : String) (decoder : Decoder β) (put : β → α → α) : Field α :=
  ⟨name, false, fun place value record => (put · record) <$> decoder place value⟩

def checkNeeded {α : Type} (fields : List (Field α)) (seen : List String) : Except Fault Unit :=
  if fields.all fun field => !field.needed || field.name ∈ seen then .ok ()
  else .error .mismatch

/-- Members of a record, put in one after the other. A field may not come twice; unknown members
are passed over. -/
def readMembers {α : Type} (fields : List (Field α)) (place : Place) (seen : List String)
    (record : α) : List (Literal × Reading) → Except Fault (List String × α)
  | [] => .ok (seen, record)
  | (none, _) :: _ => .error .malformed
  | (some key, value) :: members =>
    match fields.find? (·.name = key) with
    | none => do skip value; readMembers fields place seen record members
    | some field =>
      if key ∈ seen then .error .mismatch
      else do
        let record ← field.read place value record
        readMembers fields place (key :: seen) record members

def readInOrder {α : Type} (place : Place) (ending : Ending) (seen : List String) (record : α) :
    List (Field α) → List Reading → Except Fault (List String × α)
  | field :: fields, item :: items => do
    let record ← field.read place item record
    readInOrder place ending (field.name :: seen) record fields items
  | _ :: _, [] => do checkEnding ending; return (seen, record)
  | [], items =>
    match items, ending with
    | [], .closed => .ok (seen, record)
    | [], .broken false cause => .error (.ofCause cause)
    | _, _ => .error (if place.held then .mismatch else .malformed)

def keyedRecord {α : Type} (start : α) (fields : List (Field α)) : Decoder α :=
  fun place value =>
    match value with
    | .object members ending => do
      let (seen, record) ← readMembers fields place.inside [] start members
      checkEnding ending
      checkNeeded fields seen
      return record
    | value => .error (unexpected value)

/-- A record given as an object, or as an array in the order of the fields. -/
def record {α : Type} (start : α) (fields : List (Field α)) : Decoder α :=
  fun place value =>
    match value with
    | .array items ending => do
      let (seen, record) ← readInOrder place.inside ending [] start fields items
      checkNeeded fields seen
      return record
    | value => keyedRecord start fields place value

/-- A value given by its tag and, under another key, its content. -/
structure Tagged (τ α : Type) where
  tagKey : String
  contentKey : String
  tag : Decoder τ
  content : τ → Decoder α
  absent : τ → Except Fault α

inductive TaggedPart (τ α : Type)
  | nothing
  | tag (tag : τ)
  /-- Content in front of the tag, read whole. -/
  | content (value : Reading)
  | complete (value : α)

def Tagged.step {τ α : Type} (tagged : Tagged τ α) (place : Place) (part : TaggedPart τ α)
    (key : String) (value : Reading) : Except Fault (TaggedPart τ α) :=
  if key = tagged.tagKey then
    match part with
    | .nothing => .tag <$> tagged.tag place value
    | .content content => do
      let tag ← tagged.tag place value
      .complete <$> tagged.content tag { place with held := true } content
    | _ => .error .mismatch
  else if key = tagged.contentKey then
    match part with
    | .nothing => do hold place.depth value; return .content value
    | .tag tag => .complete <$> tagged.content tag place value
    | _ => .error .mismatch
  else do skip value; return part

def Tagged.readMembers {τ α : Type} (tagged : Tagged τ α) (place : Place)
    (part : TaggedPart τ α) : List (Literal × Reading) → Except Fault (TaggedPart τ α)
  | [] => .ok part
  | (none, _) :: _ => .error .malformed
  | (some key, value) :: members => do
    let part ← tagged.step place part key value
    tagged.readMembers place part members

def Tagged.finish {τ α : Type} (tagged : Tagged τ α) : TaggedPart τ α → Except Fault α
  | .complete value => .ok value
  | .tag tag => tagged.absent tag
  | _ => .error .mismatch

def Tagged.decoder {τ α : Type} (tagged : Tagged τ α) : Decoder α := fun place value =>
  match value with
  | .object members ending => do
    let part ← tagged.readMembers place.inside .nothing members
    checkEnding ending
    tagged.finish part
  | .array (tag :: content :: more) ending => do
    let tag ← tagged.tag place.inside tag
    let value ← tagged.content tag place.inside content
    match more, ending with
    | [], .closed => return value
    | [], .broken false cause => .error (.ofCause cause)
    | _, _ => .error (if place.held then .mismatch else .malformed)
  | .array [] ending => do
    checkEnding ending
    .error .mismatch
  | .array [tag] ending => do
    let _ ← tagged.tag place.inside tag
    checkEnding ending
    .error .mismatch
  | value => .error (unexpected value)

def run {α : Type} (decoder : Decoder α) (text : String) : Except Fault α := do
  let document := Document.read text
  let value ← decoder {} document.value
  if document.trailing then .error .malformed else return value

end Decoder

end Blockmark.Json
