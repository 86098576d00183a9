import Blockmark.Proofs.Render.Containers
import Blockmark.Proofs.Render.Plan

/-!
# Numbers in a tight list

Ordered items with nothing shown in between stand on neighbouring lines, and so are items of one
list in Markdown. Their numbers are consecutive if nothing at all was rendered in between. But a
block that renders to nothing leaves no gap between them, and yet the items behind it are counted
anew.

Main statements: `numbered_planner` and `numbers_of_neighbours`.
-/

namespace Blockmark.Render

open Text

/-! ## Numbers in a plan -/

/-- Siblings with the numbers that they get behind an item with the number `before`. -/
inductive Numbered : Nat → List Shown → Prop
  | nil {before : Nat} : Numbered before []
  | cons {before ordinal : Nat} {block : Block} {below more : List Shown}
      (number : ordinal = ordinalBehind before block.kind) (later : Numbered ordinal more) :
      Numbered before (.own block ordinal below :: more)

theorem numbered_planSiblings (forest : Forest) (plan : Planner) (before : Nat)
    (ids : List BlockId) (state : State) :
    Numbered before (planSiblings forest plan before ids state).1 := by
  induction ids generalizing before state with
  | nil => exact .nil
  | cons id ids ih =>
      rw [planSiblings]
      cases forest.get? id with
      | none => exact ih before state
      | some block =>
          dsimp only
          split
          · exact ih before state
          · exact .cons rfl (ih _ _)

theorem numbered_planner (forest : Forest) (levels : Nat) (ids : List BlockId) (state : State) :
    Numbered 0 ((planner forest levels).siblings ids state).1 := by
  cases levels with
  | zero => exact .nil
  | succ levels => exact numbered_planSiblings forest (planner forest levels) 0 ids state

section

variable {before : Nat} {front between back more : List Shown} {block : Block} {ordinal : Nat}
  {below : List Shown}

theorem Numbered.behind (numbered : Numbered before (front ++ more)) :
    ∃ last, Numbered last more := by
  induction front generalizing before with
  | nil => exact ⟨before, numbered⟩
  | cons part front ih =>
      cases numbered with
      | cons number later => exact ih later

theorem Numbered.restarted (numbered : Numbered before (between ++ more)) (some : between ≠ [])
    (others : ∀ block ordinal below, .own block ordinal below ∈ between →
      ∀ body, block.kind ≠ .text .ordered body) :
    Numbered 0 more := by
  induction between generalizing before with
  | nil => exact absurd rfl some
  | cons part between ih =>
      cases numbered with
      | @cons _ ordinal block below _ number later =>
          have anew : ordinal = 0 := by
            have other := others block ordinal below List.mem_cons_self
            rw [number]
            unfold ordinalBehind
            split
            · next body same => exact absurd same (other body)
            · rfl
          by_cases last : between = []
          · rw [last, anew] at later
            exact later
          · exact ih later last fun block ordinal below mem =>
              others block ordinal below (List.mem_cons_of_mem _ mem)

theorem Numbered.next {body : Option TextBody} {n : Nat} {later : List Shown} {second : Block}
    (numbered : Numbered before
      (.own block ordinal below :: (between ++ .own second n later :: back)))
    (ordered : second.kind = .text .ordered body)
    (others : ∀ block ordinal below, .own block ordinal below ∈ between →
      ∀ body, block.kind ≠ .text .ordered body) :
    n = (body.bind (·.style.sequence)).getD (if between.isEmpty then ordinal + 1 else 1) := by
  cases numbered with
  | cons _ behind =>
      by_cases none : between = []
      · subst none
        cases behind with
        | cons number _ =>
            rw [number, ordered]
            rfl
      · cases behind.restarted none others with
        | cons number _ =>
            rw [number, ordered, if_neg (mt List.isEmpty_iff.1 none)]
            rfl

end

/-! ## Texts of ordered items -/

theorem trimEnd_prefix_trimEnd_append (text more : List Char) :
    trimEnd text <+: trimEnd (text ++ more) := by
  by_cases blank : trimEnd more = []
  · exact ⟨[], by rw [List.append_nil, trimEnd_append_of_blank blank]⟩
  · rw [trimEnd_append_of_inked blank]
    exact (trimEnd_isPrefix text).trans (List.prefix_append _ _)

theorem trimEnd_prefix_listItem (marker : List Char) (indent : Nat) (text nested : List Char) :
    trimEnd marker <+: listItem marker indent text nested := by
  have head := trimEnd_prefix_trimEnd_append marker (indentContinuation indent text)
  rw [listItem]
  split
  · exact head
  · have whole := trimEnd_prefix_trimEnd_append
      (trimEnd (marker ++ indentContinuation indent text)) (['\n'] ++ indentLines indent nested)
    rw [trimEnd_trimEnd, ← List.append_assoc] at whole
    exact head.trans whole

def numberText (ordinal : Nat) : List Char :=
  Nat.toDigits 10 ordinal ++ ['.']

theorem trimEnd_numberMarker_eq (ordinal : Nat) :
    trimEnd (numberMarker ordinal) = numberText ordinal := by
  rw [numberMarker, trimEnd_append_of_inked (by decide)]
  rfl

section

variable {forest : Forest} {setting : Setting} {frame : Frame} {block : Block} {ordinal : Nat}
  {below : List Shown} {body : Option TextBody}

theorem piece_ordered (ordered : block.kind = .text .ordered body) :
    (Shown.own block ordinal below).piece forest setting frame =
      ⟨some .orderedItem, listItem (numberMarker ordinal) (numberMarker ordinal).length
        (renderBody? setting body) (joinShown (Shown.pieces forest setting .plain below))⟩ := by
  obtain ⟨id, kind, children⟩ := block
  obtain rfl : kind = .text .ordered body := ordered
  cases frame <;> rfl

theorem text_starts (ordered : block.kind = .text .ordered body) :
    numberText ordinal <+: ((Shown.own block ordinal below).piece forest setting frame).text := by
  rw [piece_ordered ordered, ← trimEnd_numberMarker_eq]
  exact trimEnd_prefix_listItem _ _ _ _

theorem text_ordered_ne_nil (ordered : block.kind = .text .ordered body) :
    ((Shown.own block ordinal below).piece forest setting frame).text ≠ [] := by
  intro nothing
  have start := @text_starts forest setting frame block ordinal below body ordered
  rw [nothing, List.prefix_nil] at start
  exact absurd start (List.append_ne_nil_of_right_ne_nil _ (List.cons_ne_nil _ _))

end

/-! ## Neighbours -/

/-- Of two texts that start like this the second one stands on the line behind the first one. -/
def StandTight (first second whole : List Char) : Prop :=
  ∃ before one other after, whole = before ++ one ++ '\n' :: other ++ after ∧
    first <+: one ∧ second <+: other

theorem StandTight.behind {first second whole : List Char} (tight : StandTight first second whole)
    (before : List Char) : StandTight first second (before ++ whole) := by
  obtain ⟨front, one, other, after, rfl, starts⟩ := tight
  exact ⟨before ++ front, one, other, after, by simp, starts⟩

section

variable {first second : Piece} {start next : List Char}

theorem standTight_pair (tight : second.group.isSome ∧ second.group = first.group)
    (starts : start <+: first.text ∧ next <+: second.text) (back : List Piece) :
    StandTight start next (first.text ++ joinBehind first.group (second :: back)) := by
  rw [joinBehind, if_pos tight]
  exact ⟨[], first.text, second.text, joinBehind second.group back, by simp, starts⟩

theorem standTight_joinBehind (tight : second.group.isSome ∧ second.group = first.group)
    (starts : start <+: first.text ∧ next <+: second.text) (group : Option LineGroup)
    (front back : List Piece) :
    StandTight start next (joinBehind group (front ++ first :: second :: back)) := by
  induction front generalizing group with
  | nil =>
      rw [List.nil_append, joinBehind, List.append_assoc]
      exact (standTight_pair tight starts back).behind _
  | cons piece front ih => exact (ih piece.group).behind _

theorem standTight_joinPieces (tight : second.group.isSome ∧ second.group = first.group)
    (starts : start <+: first.text ∧ next <+: second.text) (front back : List Piece) :
    StandTight start next (joinPieces (front ++ first :: second :: back)) := by
  cases front with
  | nil => exact standTight_pair tight starts back
  | cons piece front =>
      exact (standTight_joinBehind tight starts piece.group front back).behind piece.text

theorem filter_hidden {pieces : List Piece} (hidden : ∀ piece ∈ pieces, piece.text = []) :
    pieces.filter (!·.text.isEmpty) = [] :=
  List.filter_eq_nil_iff.2 fun piece mem => by simp [hidden piece mem]

theorem standTight_joinShown (tight : second.group.isSome ∧ second.group = first.group)
    (starts : start <+: first.text ∧ next <+: second.text)
    (filled : first.text ≠ [] ∧ second.text ≠ []) {between : List Piece}
    (hidden : ∀ piece ∈ between, piece.text = []) (front back : List Piece) :
    StandTight start next (joinShown (front ++ first :: (between ++ second :: back))) := by
  have shown {piece : Piece} (some : piece.text ≠ []) : (!piece.text.isEmpty) = true := by
    simpa using some
  rw [joinShown, List.filter_append, List.filter_cons, if_pos (shown filled.1),
    List.filter_append, filter_hidden hidden, List.nil_append, List.filter_cons,
    if_pos (shown filled.2)]
  exact standTight_joinPieces tight starts _ _

end

theorem pieces_eq_map (forest : Forest) (setting : Setting) (frame : Frame)
    (shown : List Shown) :
    Shown.pieces forest setting frame shown = shown.map (·.piece forest setting frame) := by
  induction shown with
  | nil => rfl
  | cons part shown ih => rw [Shown.pieces, ih, List.map_cons]

/-- Of two ordered items with nothing shown in between, the second one has its own number or goes
on counting; but it starts from one if a block in between was rendered to nothing. -/
theorem numbers_of_neighbours (forest : Forest) (setting : Setting) (levels : Nat) (frame : Frame)
    (ids : List BlockId) (state : State) {front between back firstBelow secondBelow : List Shown}
    {first second : Block} {m n : Nat} {firstBody body : Option TextBody}
    (planned : ((planner forest levels).siblings ids state).1 =
      front ++ .own first m firstBelow :: (between ++ .own second n secondBelow :: back))
    (firstOrdered : first.kind = .text .ordered firstBody)
    (ordered : second.kind = .text .ordered body)
    (hidden : ∀ part ∈ between, (part.piece forest setting frame).text = []) :
    let own := body.bind (·.style.sequence)
    StandTight (numberText m) (numberText n)
        ((renderer forest setting levels).siblings frame ids state).1 ∧
      n = own.getD (if between.isEmpty then m + 1 else 1) ∧
      (n = own.getD (m + 1) ↔ own.isSome ∨ between = [] ∨ m = 0) := by
  have number : n = (body.bind (·.style.sequence)).getD
      (if between.isEmpty then m + 1 else 1) := by
    obtain ⟨last, numbered⟩ := (planned ▸ numbered_planner forest levels ids state).behind
    exact numbered.next ordered fun block ordinal below mem body same =>
      text_ordered_ne_nil same (hidden _ mem)
  refine ⟨?tight, number, ?consecutive⟩
  case tight =>
    rw [(renderer_follows forest setting levels).siblings, planned, pieces_eq_map,
      List.map_append, List.map_cons, List.map_append, List.map_cons]
    refine standTight_joinShown ?_ ⟨text_starts firstOrdered, text_starts ordered⟩
      ⟨text_ordered_ne_nil firstOrdered, text_ordered_ne_nil ordered⟩
      (List.forall_mem_map.2 hidden) _ _
    rw [piece_ordered firstOrdered, piece_ordered ordered]
    exact ⟨rfl, rfl⟩
  case consecutive =>
    rw [number]
    cases body.bind (·.style.sequence) with
    | some own => simp
    | none =>
        cases between with
        | nil => simp
        | cons part between => simp

def emptyBetween : Forest := ⟨[
  ⟨"first", .text .ordered (some (.plain "a")), []⟩,
  ⟨"empty", .text .paragraph none, []⟩,
  ⟨"second", .text .ordered (some (.plain "b")), []⟩]⟩

theorem numbers_of_neighbours_repeated :
    StandTight "1.".toList "2.".toList
        ((renderer emptyBetween {} 100).siblings .plain ["first", "gone", "first", "second"] {}).1 ∧
      ((renderer emptyBetween {} 100).siblings .plain ["first", "gone", "first", "second"] {}).1 =
        "1. a\n2. b".toList := by
  have planned : ((planner emptyBetween 100).siblings ["first", "gone", "first", "second"] {}).1 =
      [] ++ .own ⟨"first", .text .ordered (some (.plain "a")), []⟩ 1 [] ::
        ([] ++ .own ⟨"second", .text .ordered (some (.plain "b")), []⟩ 2 [] :: []) := by
    rfl
  exact ⟨(numbers_of_neighbours emptyBetween {} 100 .plain _ {} planned rfl rfl (by simp)).1,
    by decide +kernel⟩

/-- A text without content in between is not shown, and yet counting starts anew behind it. -/
theorem emptyBetween_restarts :
    document emptyBetween {} ["first", "empty", "second"] = ⟨"1. a\n1. b\n", []⟩ := by
  decide +kernel

end Blockmark.Render
