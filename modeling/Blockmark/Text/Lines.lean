import Blockmark.Text.Blank

/-!
# Lines

A text cut at a separator, its lines, and the forms in which lines are nested: behind a quote
mark, indented, or pulled together into one line.

Main statements: `pieces_ne_nil`, and `intercalate_pieces`, by which joining the pieces at the
separator gives the text back.
-/

namespace Blockmark.Text

def pushPiece (separator c : Char) (cut : List (List Char)) : List (List Char) :=
  if c = separator then [] :: cut
  else match cut with
    | [] => [[c]]
    | piece :: more => (c :: piece) :: more

/-- The pieces between the separators, always at least one. -/
def pieces (separator : Char) (text : List Char) : List (List Char) :=
  text.foldr (pushPiece separator) [[]]

@[simp] theorem pieces_nil (separator : Char) : pieces separator [] = [[]] := rfl

@[simp] theorem pieces_cons (separator c : Char) (text : List Char) :
    pieces separator (c :: text) = pushPiece separator c (pieces separator text) := rfl

theorem pieces_ne_nil (separator : Char) (text : List Char) : pieces separator text ≠ [] := by
  induction text with
  | nil => simp
  | cons c text ih =>
    rw [pieces_cons]
    unfold pushPiece
    split
    · simp
    · split <;> simp

theorem intercalate_pieces (separator : Char) (text : List Char) :
    List.intercalate [separator] (pieces separator text) = text := by
  induction text with
  | nil => simp
  | cons c text ih =>
    rw [pieces_cons]
    unfold pushPiece
    cases h : pieces separator text with
    | nil => exact absurd h (pieces_ne_nil separator text)
    | cons piece more =>
      rw [h] at ih
      split
      · next hc => rw [hc, List.intercalate_cons_cons, ih]; simp
      · cases more with
        | nil => simpa using ih
        | cons next more => rw [List.intercalate_cons_cons] at ih ⊢; simpa using ih

def dropReturn (line : List Char) : List Char :=
  if line.getLast? = some '\r' then line.dropLast else line

/-- The lines among pieces cut at line feeds: each piece that a line feed ended loses one carriage
return, and an empty piece after the last line feed is no line. -/
def linesOfPieces : List (List Char) → List (List Char)
  | [] => []
  | [last] => if last.isEmpty then [] else [last]
  | piece :: next :: more => dropReturn piece :: linesOfPieces (next :: more)

def lines (text : List Char) : List (List Char) :=
  linesOfPieces (pieces '\n' text)

def joinLines (parts : List (List Char)) : List Char :=
  List.intercalate ['\n'] parts

def joinParagraphs (parts : List (List Char)) : List Char :=
  List.intercalate ['\n', '\n'] (parts.filter (!·.isEmpty))

def quoteLine (line : List Char) : List Char :=
  if line.isEmpty then ['>'] else '>' :: ' ' :: line

def quoteLines (text : List Char) : List Char :=
  joinLines ((lines text).map quoteLine)

def indentLine (width : Nat) (line : List Char) : List Char :=
  if line.isEmpty then [] else List.replicate width ' ' ++ line

def indentLines (width : Nat) (text : List Char) : List Char :=
  joinLines ((lines text).map (indentLine width))

/-- Every line but the first moved to the right, as after a list marker. -/
def indentContinuation (width : Nat) (text : List Char) : List Char :=
  match text.span (· != '\n') with
  | (first, '\n' :: rest) => first ++ '\n' :: indentLines width rest
  | _ => text

def singleLine (text : List Char) : List Char :=
  List.intercalate [' '] (((pieces '\n' text).map trim).filter (!·.isEmpty))

end Blockmark.Text
