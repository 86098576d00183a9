import Blockmark.Decimal.Double
import Blockmark.Text.Lowercase

/-!
# Settings

Values of settings and how one set of settings is laid over another: tables are merged key by key,
everything else is replaced. Keys are compared in lower case.

Main statement: `lookup_setEntry`.
-/

namespace Blockmark.Settings

/-- Integers are in the range of 64-bit numbers with a sign. -/
def inIntegerRange (n : Int) : Bool :=
  Int64.minValue.toInt ≤ n && n ≤ Int64.maxValue.toInt

inductive Value
  | nil
  | bool (value : Bool)
  | integer (value : Int)
  | float (value : Double)
  | string (value : String)
  | array (items : List Value)
  | table (entries : List (String × Value))
  deriving Inhabited

def lookup {α : Type} (key : String) (entries : List (String × α)) : Option α :=
  (entries.find? (·.1 = key)).map (·.2)

def setEntry {α : Type} (key : String) (value : α) : List (String × α) → List (String × α)
  | [] => [(key, value)]
  | entry :: entries =>
    if entry.1 = key then (key, value) :: entries else entry :: setEntry key value entries

theorem lookup_setEntry {α : Type} (key other : String) (value : α)
    (entries : List (String × α)) :
    lookup other (setEntry key value entries) =
      if key = other then some value else lookup other entries := by
  induction entries with
  | nil => by_cases h : key = other <;> simp [setEntry, lookup, h]
  | cons entry entries ih =>
    unfold lookup at ih ⊢
    by_cases hentry : entry.1 = key
    · by_cases h : key = other
      · simp [setEntry, hentry, h]
      · simp [setEntry, hentry, h]
    · rw [setEntry, if_neg hentry]
      by_cases hother : entry.1 = other
      · have h : ¬ key = other := fun e => hentry (hother.trans e.symm)
        simp [hother, h]
      · rw [List.find?_cons_of_neg (by simpa using hother), ih,
          List.find?_cons_of_neg (by simpa using hother)]

namespace Value

def entries : Value → List (String × Value)
  | .table entries => entries
  | _ => []

def items : Value → List Value
  | .array items => items
  | _ => []

mutual

/-- Lays a value over what a table holds under a key. A target that is no table becomes one. -/
def put (key : String) (target : Value) : Value → Value
  | .table incoming =>
    let key := Text.lowercase key
    let entries := target.entries
    let held := (lookup key entries).getD (.table [])
    .table (setEntry key (putAll held incoming) entries)
  | .nil => .table (setEntry (Text.lowercase key) .nil target.entries)
  | .bool value => .table (setEntry (Text.lowercase key) (.bool value) target.entries)
  | .integer value => .table (setEntry (Text.lowercase key) (.integer value) target.entries)
  | .float value => .table (setEntry (Text.lowercase key) (.float value) target.entries)
  | .string value => .table (setEntry (Text.lowercase key) (.string value) target.entries)
  | .array items => .table (setEntry (Text.lowercase key) (.array items) target.entries)

def putAll (target : Value) : List (String × Value) → Value
  | [] => target
  | (key, value) :: entries => putAll (put key target value) entries

end

/-- Changes what a table holds under a key; there is nil under a new key. A target that is no table
becomes one. -/
def alterKey (key : String) (change : Value → Value) (target : Value) : Value :=
  let key := Text.lowercase key
  .table (setEntry key (change ((lookup key target.entries).getD .nil)) target.entries)

/-- The place of an index in a list of the given length; negative ones count from the end. -/
def place (index : Int) (length : Nat) : Nat :=
  if 0 ≤ index then index.toNat else length - index.natAbs

/-- Changes an item of a list, which is filled up with nil so far. A target that is no list becomes
one. -/
def alterIndex (index : Int) (change : Value → Value) (target : Value) : Value :=
  let items := target.items
  let place := place index items.length
  let filled := items ++ List.replicate (place + 1 - items.length) .nil
  .array (filled.modify place change)

end Value

end Blockmark.Settings
