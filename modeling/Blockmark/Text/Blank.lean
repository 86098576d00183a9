/-!
# White space

The characters with Unicode's `White_Space` property, and cutting them off the ends of a text.

Main statements: `trimStart_append_eq` and `trimEnd_append_eq` say that what is cut off and what
is kept make up the text again.
-/

namespace Blockmark.Text

/-- The 25 characters with the Unicode property `White_Space`. Zero width space and byte order
mark do not have it. -/
def isBlank (c : Char) : Bool :=
  let n := c.toNat
  (0x09 ≤ n && n ≤ 0x0D) || n == 0x20 || n == 0x85 || n == 0xA0 || n == 0x1680 ||
    (0x2000 ≤ n && n ≤ 0x200A) || n == 0x2028 || n == 0x2029 || n == 0x202F || n == 0x205F ||
    n == 0x3000

def trimStart (text : List Char) : List Char :=
  text.dropWhile isBlank

def trimEnd (text : List Char) : List Char :=
  (text.reverse.dropWhile isBlank).reverse

def trim (text : List Char) : List Char :=
  trimEnd (trimStart text)

def leadingBlanks (text : List Char) : List Char :=
  text.takeWhile isBlank

def trailingBlanks (text : List Char) : List Char :=
  (text.reverse.takeWhile isBlank).reverse

theorem trimStart_append_eq (text : List Char) : leadingBlanks text ++ trimStart text = text :=
  List.takeWhile_append_dropWhile

theorem trimEnd_append_eq (text : List Char) : trimEnd text ++ trailingBlanks text = text := by
  unfold trimEnd trailingBlanks
  rw [← List.reverse_append, List.takeWhile_append_dropWhile, List.reverse_reverse]

def isLetter (c : Char) : Bool :=
  ('a' ≤ c && c ≤ 'z') || ('A' ≤ c && c ≤ 'Z')

def isDigit (c : Char) : Bool :=
  '0' ≤ c && c ≤ '9'

def lower (text : List Char) : List Char :=
  text.map Char.toLower

def dropPrefix? (lead text : List Char) : Option (List Char) :=
  match lead, text with
  | [], rest => some rest
  | _ :: _, [] => none
  | c :: lead, d :: rest => if c = d then dropPrefix? lead rest else none

theorem dropPrefix?_eq_some_iff {lead text rest : List Char} :
    dropPrefix? lead text = some rest ↔ text = lead ++ rest := by
  induction lead generalizing text with
  | nil => simp [dropPrefix?, eq_comm]
  | cons c lead ih =>
    cases text with
    | nil => simp [dropPrefix?]
    | cons d text =>
      by_cases h : c = d
      · simp [dropPrefix?, h, ih]
      · simp [dropPrefix?, h, Ne.symm h]

def stripPrefix? (lead text : String) : Option String :=
  (dropPrefix? lead.toList text.toList).map String.ofList

theorem toList_of_stripPrefix? {lead text rest : String}
    (stripped : stripPrefix? lead text = some rest) : text.toList = lead.toList ++ rest.toList := by
  obtain ⟨rest, dropped, rfl⟩ := Option.map_eq_some_iff.1 stripped
  rw [String.toList_ofList]
  exact dropPrefix?_eq_some_iff.1 dropped

end Blockmark.Text
