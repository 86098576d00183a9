import Blockmark.Json.Value

/-!
# What a JSON text holds

A text is read from left to right up to its first fault. `Reading` keeps everything before the
fault in the shape of a value, so that whoever looks for a certain shape meets the problems of the
text and those of the shape in one order, the order of the text.
-/

namespace Blockmark.Json

inductive Cause
  | malformed
  | unfinished
  deriving DecidableEq, Repr

/-- What a value that goes wrong starts like. -/
inductive Lead
  /-- No character of it was reached. -/
  | nothing
  | text
  /-- A string with a surrogate escape that has no partner in front of the fault. -/
  | unpairedText
  | number
  | null
  | other
  deriving DecidableEq, Repr

inductive Ending
  | closed
  /-- With a fault in place of what has to follow, where `afterComma` says whether a comma was
  read last. -/
  | broken (afterComma : Bool) (cause : Cause)
  /-- Of an object: with a value that is no string in place of the first key. The cause is that of
  the value, if it goes wrong itself. -/
  | strangeKey (cause : Option Cause)
  deriving DecidableEq, Repr

/-- A string as read; `none` when a surrogate escape has no partner, so that it is no text. -/
abbrev Literal := Option String

/-- A value up to the first fault of the text. -/
inductive Reading
  | null
  | bool (value : Bool)
  | number (value : Number)
  | string (text : Literal)
  | array (items : List Reading) (ending : Ending)
  | object (members : List (Literal × Reading)) (ending : Ending)
  | broken (lead : Lead) (cause : Cause)
  deriving Inhabited

structure Document where
  value : Reading
  trailing : Bool

inductive Token
  | openArray
  | closeArray
  | openObject
  | closeObject
  | comma
  | colon
  | null
  | bool (value : Bool)
  | number (value : Number)
  | string (text : Literal)
  | broken (lead : Lead) (cause : Cause)

/-- An array or object that is still open, with what it holds so far, newest first. -/
inductive Frame
  | items (before : List Reading)
  | members (before : List (Literal × Reading))
  /-- An object of which a key is read and its value is not. -/
  | member (before : List (Literal × Reading)) (key : Literal)

/-- What has to come next in the innermost open array or object. -/
inductive Want
  | value
  | firstItem
  | item
  | firstKey
  | key
  | colon
  | more
  deriving DecidableEq

inductive Progress
  /-- Inside a value, with the open arrays and objects around it, innermost first. -/
  | inside (want : Want) (frames : List Frame)
  | finished (value : Reading)
  | trailed (value : Reading)
  | stopped (value : Reading)

/-- The whole value when `inner` is where the text goes wrong. -/
def abandon (cause : Cause) (inner : Reading) : List Frame → Reading
  | [] => inner
  | .items before :: frames =>
    abandon cause (.array (inner :: before).reverse (.broken false cause)) frames
  | .members before :: frames =>
    abandon cause (.object before.reverse (.broken false cause)) frames
  | .member before key :: frames =>
    abandon cause (.object ((key, inner) :: before).reverse (.broken false cause)) frames

/-- The whole value when the innermost array or object is what goes wrong. -/
def breakOff (afterComma : Bool) (cause : Cause) : List Frame → Reading
  | [] => .broken .nothing cause
  | .items before :: frames =>
    abandon cause (.array before.reverse (.broken afterComma cause)) frames
  | .members before :: frames =>
    abandon cause (.object before.reverse (.broken afterComma cause)) frames
  | .member before key :: frames =>
    abandon cause (.object ((key, .broken .nothing cause) :: before).reverse
      (.broken false cause)) frames

/-- The whole value when an object starts with something that is no string. -/
def breakAtStrangeKey (cause : Option Cause) : List Frame → Reading
  | .members before :: frames =>
    abandon .malformed (.object before.reverse (.strangeKey cause)) frames
  | frames => breakOff false .malformed frames

def deliver (value : Reading) : List Frame → Progress
  | [] => .finished value
  | .items before :: frames => .inside .more (.items (value :: before) :: frames)
  | .members before :: frames => .inside .more (.members before :: frames)
  | .member before key :: frames => .inside .more (.members ((key, value) :: before) :: frames)

def startValue (frames : List Frame) : Token → Progress
  | .openArray => .inside .firstItem (.items [] :: frames)
  | .openObject => .inside .firstKey (.members [] :: frames)
  | .null => deliver .null frames
  | .bool value => deliver (.bool value) frames
  | .number value => deliver (.number value) frames
  | .string text => deliver (.string text) frames
  | .broken lead cause => .stopped (abandon cause (.broken lead cause) frames)
  | _ => .stopped (abandon .malformed (.broken .other .malformed) frames)

def startKey (afterComma : Bool) (frames : List Frame) : Token → Progress
  | .string key =>
    match frames with
    | .members before :: outer => .inside .colon (.member before key :: outer)
    | _ => .stopped (breakOff afterComma .malformed frames)
  | .broken .text cause => .stopped (breakOff afterComma cause frames)
  | .broken .unpairedText cause =>
    match frames with
    | .members before :: outer => .stopped (breakOff false cause (.member before none :: outer))
    | _ => .stopped (breakOff afterComma cause frames)
  | _ => .stopped (breakOff afterComma .malformed frames)

def startFirstKey (frames : List Frame) (token : Token) : Progress :=
  match token with
  | .null | .bool _ | .openArray | .openObject => .stopped (breakAtStrangeKey none frames)
  | .number value =>
    .stopped (breakAtStrangeKey (if value.isFinite then none else some .malformed) frames)
  | .broken .number cause | .broken .null cause | .broken .other cause =>
    .stopped (breakAtStrangeKey (some cause) frames)
  | _ => startKey false frames token

def close : List Frame → Progress
  | .items before :: frames => deliver (.array before.reverse .closed) frames
  | .members before :: frames => deliver (.object before.reverse .closed) frames
  | frames => .stopped (breakOff false .malformed frames)

def continueWith (frames : List Frame) (token : Token) : Progress :=
  match frames, token with
  | .items _ :: _, .comma => .inside .item frames
  | .members _ :: _, .comma => .inside .key frames
  | .items _ :: _, .closeArray => close frames
  | .members _ :: _, .closeObject => close frames
  | _, _ => .stopped (breakOff false .malformed frames)

def Progress.step (progress : Progress) (token : Token) : Progress :=
  match progress with
  | .finished value => .trailed value
  | .trailed value => .trailed value
  | .stopped value => .stopped value
  | .inside want frames =>
    match want, token with
    | .value, _ => startValue frames token
    | .firstItem, .closeArray => close frames
    | .firstItem, _ => startValue frames token
    | .item, .closeArray => .stopped (breakOff true .malformed frames)
    | .item, _ => startValue frames token
    | .firstKey, .closeObject => close frames
    | .firstKey, _ => startFirstKey frames token
    | .key, _ => startKey true frames token
    | .colon, .colon => .inside .value frames
    | .colon, _ => .stopped (breakOff false .malformed frames)
    | .more, _ => continueWith frames token

def Progress.finish : Progress → Document
  | .finished value => ⟨value, false⟩
  | .trailed value => ⟨value, true⟩
  | .stopped value => ⟨value, false⟩
  | .inside .value frames => ⟨abandon .unfinished (.broken .nothing .unfinished) frames, false⟩
  | .inside .item frames => ⟨breakOff true .unfinished frames, false⟩
  | .inside .key frames => ⟨breakOff true .unfinished frames, false⟩
  | .inside _ frames => ⟨breakOff false .unfinished frames, false⟩

def Progress.start : Progress :=
  .inside .value []

/-- The problem of a value that nobody looks into. Numbers cut short by the end of the text count
as malformed there, and unpaired surrogates and large numbers as nothing. -/
def skippedCause (lead : Lead) (cause : Cause) : Cause :=
  if lead = .number then .malformed else cause

mutual

/-- The first fault of the text inside a value whose contents do not matter. -/
def Reading.fault? : Reading → Option Cause
  | .array items ending => (faultOfItems? items).or (faultOfEnding? ending)
  | .object members ending => (faultOfMembers? members).or (faultOfEnding? ending)
  | .broken lead cause => some (skippedCause lead cause)
  | _ => none

def faultOfItems? : List Reading → Option Cause
  | [] => none
  | item :: items => item.fault?.or (faultOfItems? items)

def faultOfMembers? : List (Literal × Reading) → Option Cause
  | [] => none
  | (_, value) :: members => value.fault?.or (faultOfMembers? members)

def faultOfEnding? : Ending → Option Cause
  | .closed => none
  | .broken _ cause => some cause
  | .strangeKey _ => some .malformed

end

end Blockmark.Json
