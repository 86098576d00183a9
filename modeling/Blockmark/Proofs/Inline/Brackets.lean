import Blockmark.Proofs.Inline.Depth

/-!
# Tags as brackets

Underline tags pair up among siblings as brackets do: a closing tag belongs to the nearest opening
tag before it that has no closing tag yet. The walk keeps no list of open tags. It looks ahead for
the closing tag of each opening tag that it comes to, and goes on with the nodes in between as a
list of their own; yet it finds the same pairs. Tags without a partner make no difference.

Main statements: `pairsAround_pairsFrom`, `walkSiblings_eq_walkBehind` and
`walkSiblings_bracketed`.
-/

namespace Blockmark.Inline

open Markdown

/-! ## Pairs -/

inductive Bracket
  | opening
  | closing
  deriving DecidableEq, Repr, Inhabited

def bracket? (node : Node) : Option Bracket :=
  if opensUnderline node then some .opening
  else if closesUnderline node then some .closing
  else none

/-- The pairs of tags by their positions, behind opening tags that have no closing tag yet, the
nearest one first. -/
def pairsFrom (position : Nat) (opened : List Nat) : List Node → List (Nat × Nat)
  | [] => []
  | node :: nodes =>
    match bracket? node, opened with
    | some .opening, _ => pairsFrom (position + 1) (position :: opened) nodes
    | some .closing, nearest :: farther =>
      (nearest, position) :: pairsFrom (position + 1) farther nodes
    | some .closing, [] => pairsFrom (position + 1) [] nodes
    | none, _ => pairsFrom (position + 1) opened nodes

def tagPairs (nodes : List Node) : List (Nat × Nat) :=
  pairsFrom 0 [] nodes

def pairsAround (pairs : List (Nat × Nat)) (position : Nat) : Nat :=
  pairs.countP fun pair => pair.1 < position ∧ position < pair.2

def IsUnpaired (nodes : List Node) (position : Nat) : Prop :=
  (nodes[position]?.bind bracket?).isSome ∧
    ∀ pair ∈ tagPairs nodes, pair.1 ≠ position ∧ pair.2 ≠ position

instance (nodes : List Node) (position : Nat) : Decidable (IsUnpaired nodes position) :=
  inferInstanceAs (Decidable (_ ∧ _))

def StyleContext.within (pairs : Nat) (context : StyleContext) : StyleContext :=
  if pairs = 0 then context else context.underline

def walkPlaced (options : ConvertOptions) (context : StyleContext) (depth : Nat)
    (pairs : List (Nat × Nat)) (elements : Elements) (placed : Node × Nat) : Elements :=
  let around := pairsAround pairs placed.2
  walkNode options (context.within around) (depth + around) elements placed.1

def walkBracketed (options : ConvertOptions) (context : StyleContext) (depth : Nat)
    (elements : Elements) (nodes : List Node) : Elements :=
  (nodes.zipIdx.filter fun placed => (bracket? placed.1).isNone).foldl
    (walkPlaced options context depth (tagPairs nodes)) elements

def without (dropped : Nat → Bool) (nodes : List Node) : List Node :=
  (nodes.zipIdx.filter fun placed => !dropped placed.2).map Prod.fst

/-! ## Tags left over -/

/-- The closing tags that belong to opening tags before these nodes, or to none. -/
def closings : List Node → Nat
  | [] => 0
  | node :: nodes =>
    match bracket? node with
    | some .opening => closings nodes - 1
    | some .closing => closings nodes + 1
    | none => closings nodes

/-- The walk behind a number of opening tags. As many of them have a closing tag further on as
there are closing tags left for them. -/
def walkBehind (options : ConvertOptions) (context : StyleContext) (depth : Nat) (opened : Nat)
    (elements : Elements) : List Node → Elements
  | [] => elements
  | node :: nodes =>
    match bracket? node with
    | some .opening => walkBehind options context depth (opened + 1) elements nodes
    | some .closing => walkBehind options context depth (opened - 1) elements nodes
    | none =>
      let pairs := min opened (closings nodes)
      walkBehind options context depth opened
        (walkNode options (context.within pairs) (depth + pairs) elements node) nodes

section

variable {node : Node}

theorem opensUnderline_of_opening (tag : bracket? node = some .opening) :
    opensUnderline node = true := by
  cases opens : opensUnderline node with
  | true => rfl
  | false => cases closes : closesUnderline node <;> simp [bracket?, opens, closes] at tag

theorem opensUnderline_of_closing (tag : bracket? node = some .closing) :
    opensUnderline node = false ∧ closesUnderline node = true := by
  cases opens : opensUnderline node with
  | true => simp [bracket?, opens] at tag
  | false => cases closes : closesUnderline node <;> simp [bracket?, opens, closes] at tag ⊢

theorem opensUnderline_of_none (plain : bracket? node = none) :
    opensUnderline node = false ∧ closesUnderline node = false := by
  cases opens : opensUnderline node with
  | true => simp [bracket?, opens] at plain
  | false => cases closes : closesUnderline node <;> simp [bracket?, opens, closes] at plain ⊢

theorem bracket?_of_opens (opens : opensUnderline node = true) :
    bracket? node = some .opening :=
  if_pos opens

end

theorem pairsAround_pairsFrom {place position : Nat} (nodes : List Node) (newer older : List Nat)
    (behind : ∀ tag ∈ newer, place ≤ tag) (before : ∀ tag ∈ older, tag < place)
    (passed : place < position) :
    pairsAround (pairsFrom position (newer ++ older) nodes) place =
      min older.length (closings nodes - newer.length) := by
  induction nodes generalizing position newer older with
  | nil => simp [pairsFrom, pairsAround, closings]
  | cons node nodes ih =>
      cases tag : bracket? node with
      | none =>
          simp only [pairsFrom, closings, tag]
          exact ih newer older behind before (by omega)
      | some bracket =>
          cases bracket with
          | opening =>
              simp only [pairsFrom, closings, tag]
              rw [← List.cons_append,
                ih (position :: newer) older
                  (List.forall_mem_cons.2 ⟨Nat.le_of_lt passed, behind⟩) before (by omega),
                List.length_cons]
              omega
          | closing =>
              simp only [closings, tag]
              cases newer with
              | cons nearest newer =>
                  obtain ⟨near, behind⟩ := List.forall_mem_cons.1 behind
                  simp only [List.cons_append, pairsFrom, tag, pairsAround, List.countP_cons]
                  rw [← pairsAround, ih newer older behind before (by omega), List.length_cons]
                  simp
                  omega
              | nil =>
                  cases older with
                  | nil =>
                      simp only [List.append_nil, pairsFrom, tag]
                      exact (ih [] [] behind before (by omega)).trans (by simp)
                  | cons nearest older =>
                      obtain ⟨near, before⟩ := List.forall_mem_cons.1 before
                      simp only [List.nil_append, pairsFrom, tag, pairsAround, List.countP_cons]
                      rw [← pairsAround, ← List.nil_append older,
                        ih [] older behind before (by omega)]
                      simp [near, passed]

section

variable {options : ConvertOptions} {context : StyleContext} {depth opened position : Nat}
  {elements : Elements} {nodes kept : List Node}

theorem foldl_walkPlaced {pairs : List (Nat × Nat)} (openTags : List Nat)
    (before : ∀ tag ∈ openTags, tag < position)
    (same : ∀ place, position ≤ place →
      pairsAround pairs place = pairsAround (pairsFrom position openTags nodes) place) :
    ((nodes.zipIdx position).filter fun placed => (bracket? placed.1).isNone).foldl
        (walkPlaced options context depth pairs) elements =
      walkBehind options context depth openTags.length elements nodes := by
  induction nodes generalizing position openTags elements with
  | nil => rfl
  | cons node nodes ih =>
      have earlier : ∀ tag ∈ openTags, tag < position + 1 :=
        fun tag mem => Nat.lt_succ_of_lt (before tag mem)
      rw [List.zipIdx_cons, List.filter_cons, walkBehind]
      cases tag : bracket? node with
      | none =>
          simp only [pairsFrom, tag] at same
          have around : pairsAround pairs position = min openTags.length (closings nodes) := by
            rw [same position (Nat.le_refl _), ← List.nil_append openTags,
              pairsAround_pairsFrom nodes [] openTags (by simp) before (Nat.lt_succ_self _)]
            rfl
          rw [Option.isNone_none, if_pos rfl, List.foldl_cons,
            ih openTags earlier fun place le => same place (by omega), walkPlaced, around]
      | some bracket =>
          rw [Option.isNone_some, if_neg Bool.false_ne_true]
          cases bracket with
          | opening =>
              simp only [pairsFrom, tag] at same
              exact ih (position :: openTags)
                (List.forall_mem_cons.2 ⟨Nat.lt_succ_self _, earlier⟩)
                fun place le => same place (by omega)
          | closing =>
              cases openTags with
              | nil =>
                  simp only [pairsFrom, tag] at same
                  exact ih [] earlier fun place le => same place (by omega)
              | cons nearest farther =>
                  simp only [pairsFrom, tag] at same
                  refine ih farther (List.forall_mem_cons.1 earlier).2 fun place le => ?_
                  rw [same place (by omega), pairsAround, List.countP_cons_of_neg (by simp; omega),
                    pairsAround]

/-! ## Looking ahead -/

/-- What stands in front of the closing tag that is looked for, and behind it, where so many spans
have been opened in between. -/
inductive ClosesAt : Nat → List Node → List Node → List Node → Prop
  | found {tag : Node} {nodes : List Node} (closes : bracket? tag = some .closing) :
      ClosesAt 0 (tag :: nodes) [] nodes
  | opening {opened : Nat} {tag : Node} {nodes inside behind : List Node}
      (opens : bracket? tag = some .opening) (later : ClosesAt (opened + 1) nodes inside behind) :
      ClosesAt opened (tag :: nodes) (tag :: inside) behind
  | closing {opened : Nat} {tag : Node} {nodes inside behind : List Node}
      (closes : bracket? tag = some .closing) (later : ClosesAt opened nodes inside behind) :
      ClosesAt (opened + 1) (tag :: nodes) (tag :: inside) behind
  | other {opened : Nat} {node : Node} {nodes inside behind : List Node}
      (plain : bracket? node = none) (later : ClosesAt opened nodes inside behind) :
      ClosesAt opened (node :: nodes) (node :: inside) behind

theorem splitAtClose_cases (opened : Nat) (nodes : List Node) :
    (∃ inside behind, splitAtClose opened nodes = some (inside, behind) ∧
      ClosesAt opened nodes inside behind) ∨
    (splitAtClose opened nodes = none ∧ closings nodes ≤ opened) := by
  induction nodes generalizing opened with
  | nil => exact .inr ⟨rfl, Nat.zero_le _⟩
  | cons node nodes ih =>
      rw [splitAtClose.eq_def, closings]
      dsimp only
      cases tag : bracket? node with
      | none =>
          obtain ⟨opens, closes⟩ := opensUnderline_of_none tag
          rw [opens, closes, if_neg Bool.false_ne_true, if_neg Bool.false_ne_true]
          rcases ih opened with ⟨inside, behind, found, later⟩ | ⟨unmatched, few⟩
          · exact .inl ⟨node :: inside, behind, by rw [found]; rfl, .other tag later⟩
          · exact .inr ⟨by rw [unmatched]; rfl, few⟩
      | some bracket =>
          cases bracket with
          | opening =>
              rw [if_pos (opensUnderline_of_opening tag)]
              rcases ih (opened + 1) with ⟨inside, behind, found, later⟩ | ⟨unmatched, few⟩
              · exact .inl ⟨node :: inside, behind, by rw [found]; rfl, .opening tag later⟩
              · exact .inr ⟨by rw [unmatched]; rfl, Nat.sub_le_iff_le_add.2 few⟩
          | closing =>
              obtain ⟨opens, closes⟩ := opensUnderline_of_closing tag
              rw [opens, closes, if_neg Bool.false_ne_true, if_pos rfl]
              cases opened with
              | zero => exact .inl ⟨[], nodes, rfl, .found tag⟩
              | succ opened =>
                  rcases ih opened with ⟨inside, behind, found, later⟩ | ⟨unmatched, few⟩
                  · exact .inl ⟨node :: inside, behind, by simp only [found]; rfl,
                      .closing tag later⟩
                  · exact .inr ⟨by simp only [unmatched]; rfl, Nat.succ_le_succ few⟩

theorem ClosesAt.closings {inside behind : List Node}
    (closes : ClosesAt opened nodes inside behind) :
    closings inside = opened ∧ opened < Inline.closings nodes := by
  induction closes with
  | found tag => simp [Inline.closings, tag]
  | opening tag _ ih | closing tag _ ih | other tag _ ih =>
      simp only [Inline.closings, tag]
      omega

theorem within_underline (pairs : Nat) (context : StyleContext) :
    context.underline.within pairs = context.underline := by
  unfold StyleContext.within
  split <;> rfl

theorem ClosesAt.walkBehind {inside behind : List Node}
    (closes : ClosesAt opened nodes inside behind) (elements : Elements) :
    walkBehind options context depth (opened + 1) elements nodes =
      Inline.walkBehind options context depth 0
        (Inline.walkBehind options context.underline (depth + 1) opened elements inside)
        behind := by
  induction closes generalizing elements with
  | found tag => simp only [Inline.walkBehind, tag]
  | opening tag _ ih =>
      simp only [Inline.walkBehind, tag]
      exact ih elements
  | closing tag _ ih =>
      simp only [Inline.walkBehind, tag]
      exact ih elements
  | @other opened node nodes inside behind tag later ih =>
      obtain ⟨among, more⟩ := later.closings
      have outer : min (opened + 1) (Inline.closings nodes) = opened + 1 := by omega
      have inner : min opened (Inline.closings inside) = opened := by omega
      have style : context.within (opened + 1) = context.underline := rfl
      simp only [Inline.walkBehind, tag]
      rw [ih, outer, inner, style, within_underline, Nat.add_assoc, Nat.add_comm 1 opened]

/-! ## Tags left out -/

def openBehind (opened : Nat) (node : Node) : Nat :=
  match bracket? node with
  | some .opening => opened + 1
  | some .closing => opened - 1
  | none => opened

/-- Behind so many open tags some tags are left out that belong to no other tag. -/
inductive Thinned : Nat → List Node → List Node → Prop
  | nil {opened : Nat} : Thinned opened [] []
  | keep {opened : Nat} {node : Node} {nodes kept : List Node}
      (later : Thinned (openBehind opened node) nodes kept) :
      Thinned opened (node :: nodes) (node :: kept)
  | opening {opened : Nat} {tag : Node} {nodes kept : List Node}
      (opens : bracket? tag = some .opening) (none : closings nodes = 0)
      (later : Thinned (opened + 1) nodes kept) : Thinned opened (tag :: nodes) kept
  | closing {tag : Node} {nodes kept : List Node} (closes : bracket? tag = some .closing)
      (later : Thinned 0 nodes kept) : Thinned 0 (tag :: nodes) kept

theorem Thinned.refl (opened : Nat) (nodes : List Node) : Thinned opened nodes nodes := by
  induction nodes generalizing opened with
  | nil => exact .nil
  | cons node nodes ih => exact .keep (ih _)

-- Of the open tags, `fewer` may be left, but at least those that get a closing tag. So the number
-- of pairs around each node stays the same.
theorem Thinned.walkBehind (thinned : Thinned opened nodes kept) (fewer : Nat)
    (le : fewer ≤ opened) (enough : min opened (Inline.closings nodes) ≤ fewer)
    (elements : Elements) :
    Inline.walkBehind options context depth opened elements nodes =
        Inline.walkBehind options context depth fewer elements kept ∧
      min fewer (Inline.closings kept) = min opened (Inline.closings nodes) := by
  induction thinned generalizing fewer elements with
  | nil => exact ⟨rfl, by simp [Inline.closings]⟩
  | @keep opened node nodes kept later ih =>
      simp only [Inline.walkBehind, Inline.closings, openBehind] at enough ih ⊢
      cases tag : bracket? node with
      | none =>
          simp only [tag] at enough ih ⊢
          obtain ⟨-, pairs⟩ := ih fewer le enough elements
          rw [pairs]
          exact ⟨(ih fewer le enough _).1, rfl⟩
      | some bracket =>
          cases bracket with
          | opening =>
              simp only [tag] at enough ih ⊢
              obtain ⟨same, pairs⟩ := ih (fewer + 1) (by omega) (by omega) elements
              exact ⟨same, by omega⟩
          | closing =>
              simp only [tag] at enough ih ⊢
              obtain ⟨same, pairs⟩ := ih (fewer - 1) (by omega) (by omega) elements
              exact ⟨same, by omega⟩
  | opening tag none later ih =>
      simp only [Inline.walkBehind, Inline.closings, tag]
      obtain ⟨same, pairs⟩ := ih fewer (by omega) (by omega) elements
      exact ⟨same, by omega⟩
  | closing tag later ih =>
      simp only [Inline.walkBehind, Inline.closings, tag]
      obtain ⟨same, pairs⟩ := ih fewer le (by omega) elements
      exact ⟨same, by omega⟩

theorem walkNode_closing {node : Node} (closes : bracket? node = some .closing) :
    walkNode options context depth elements node = elements := by
  by_cases beyond : maxDepth ≤ depth
  · exact walkNode_beyond beyond node
  · obtain ⟨kind, children⟩ := node
    obtain ⟨-, closes⟩ := opensUnderline_of_closing closes
    cases kind with
    | htmlInline html =>
        have name : tagName html = "</u>" := of_decide_eq_true closes
        have noBreak : isBreakTag html = false := by
          rw [isBreakTag, name]
          decide
        rw [walkNode_leaf (Nat.not_le.1 beyond) rfl, leaf, noBreak, closes, Bool.or_true]
        rfl
    | _ => cases closes

theorem walkSiblings_eq_walkBehind (options : ConvertOptions) (context : StyleContext)
    (depth : Nat) (elements : Elements) (nodes : List Node) :
    walkSiblings options context depth elements nodes =
      walkBehind options context depth 0 elements nodes := by
  induction nodes using siblings_induction generalizing context depth elements with
  | nil => rw [walkSiblings, walkBehind]
  | @span tag rest parts opens matched between behind =>
      rw [walkSiblings_span opens matched, walkBehind, bracket?_of_opens opens]
      rcases splitAtClose_cases 0 rest with ⟨inside, after, found, closes⟩ | ⟨unmatched, -⟩
      · cases matched.symm.trans found
        rw [between, behind]
        exact (closes.walkBehind elements).symm
      · cases matched.symm.trans unmatched
  | @lone tag rest opens unmatched ih =>
      rw [walkSiblings_lone opens unmatched, ih, walkBehind, bracket?_of_opens opens]
      rcases splitAtClose_cases 0 rest with ⟨inside, after, found, -⟩ | ⟨-, few⟩
      · cases unmatched.symm.trans found
      · exact ((Thinned.refl 1 rest).walkBehind 0 (Nat.zero_le 1) (by omega) elements).1.symm
  | @other node rest other _ ih =>
      rw [walkSiblings_other other, ih, walkBehind]
      cases tag : bracket? node with
      | none =>
          rw [Nat.zero_min]
          rfl
      | some bracket =>
          cases bracket with
          | opening => cases other.symm.trans (opensUnderline_of_opening tag)
          | closing => rw [walkNode_closing tag]

/-! ## Unpaired tags -/

theorem exists_pair_of_lt_closings (position tag : Nat) (newer older : List Nat)
    (enough : newer.length < closings nodes) :
    ∃ pair ∈ pairsFrom position (newer ++ tag :: older) nodes, pair.1 = tag := by
  induction nodes generalizing position newer with
  | nil => simp [closings] at enough
  | cons node nodes ih =>
      simp only [closings] at enough
      cases kind : bracket? node with
      | none =>
          simp only [kind] at enough
          simp only [pairsFrom, kind]
          exact ih _ newer enough
      | some bracket =>
          cases bracket with
          | opening =>
              simp only [kind] at enough
              simp only [pairsFrom, kind]
              rw [← List.cons_append]
              exact ih _ (position :: newer) (by rw [List.length_cons]; omega)
          | closing =>
              simp only [kind] at enough
              cases newer with
              | nil =>
                  simp only [List.nil_append, pairsFrom, kind]
                  exact ⟨_, List.mem_cons_self, rfl⟩
              | cons nearest newer =>
                  simp only [List.cons_append, pairsFrom, kind]
                  obtain ⟨pair, mem, first⟩ :=
                    ih (position + 1) newer (by rw [List.length_cons] at enough; omega)
                  exact ⟨pair, List.mem_cons_of_mem _ mem, first⟩

theorem pairsFrom_behind (position : Nat) (openTags : List Nat) (node : Node)
    (nodes : List Node) :
    ∃ behind : List Nat, behind.length = openBehind openTags.length node ∧
      pairsFrom (position + 1) behind nodes ⊆ pairsFrom position openTags (node :: nodes) := by
  unfold openBehind
  cases kind : bracket? node with
  | none =>
      refine ⟨openTags, rfl, ?_⟩
      simp only [pairsFrom, kind]
      exact List.Subset.refl _
  | some bracket =>
      cases bracket with
      | opening =>
          refine ⟨position :: openTags, rfl, ?_⟩
          simp only [pairsFrom, kind]
          exact List.Subset.refl _
      | closing =>
          cases openTags with
          | nil =>
              refine ⟨[], rfl, ?_⟩
              simp only [pairsFrom, kind]
              exact List.Subset.refl _
          | cons nearest farther =>
              refine ⟨farther, rfl, ?_⟩
              simp only [pairsFrom, kind]
              exact List.subset_cons_self _ _

theorem thinned_of_unpaired {dropped : Nat → Bool} (openTags : List Nat)
    (tags : ∀ placed ∈ nodes.zipIdx position, dropped placed.2 = true →
      (bracket? placed.1).isSome = true)
    (unpaired : ∀ pair ∈ pairsFrom position openTags nodes,
      dropped pair.1 = false ∧ dropped pair.2 = false) :
    Thinned openTags.length nodes
      (((nodes.zipIdx position).filter fun placed => !dropped placed.2).map Prod.fst) := by
  induction nodes generalizing position openTags with
  | nil => exact .nil
  | cons node nodes ih =>
      rw [List.zipIdx_cons] at tags ⊢
      obtain ⟨here, tags⟩ := List.forall_mem_cons.1 tags
      rw [List.filter_cons]
      cases drop : dropped position with
      | false =>
          obtain ⟨behind, size, among⟩ := pairsFrom_behind position openTags node nodes
          have later := ih behind tags fun pair mem => unpaired pair (among mem)
          exact .keep (size ▸ later)
      | true =>
          obtain ⟨bracket, kind⟩ := Option.isSome_iff_exists.1 (here drop)
          cases bracket with
          | opening =>
              simp only [pairsFrom, kind] at unpaired
              have none : closings nodes = 0 := by
                refine Nat.eq_zero_of_not_pos fun some => ?_
                obtain ⟨pair, mem, first⟩ :=
                  exists_pair_of_lt_closings (position + 1) position [] openTags some
                cases drop.symm.trans (first ▸ (unpaired pair mem).1)
              exact .opening kind none (ih (position :: openTags) tags unpaired)
          | closing =>
              cases openTags with
              | nil =>
                  simp only [pairsFrom, kind] at unpaired
                  exact .closing kind (ih [] tags unpaired)
              | cons nearest farther =>
                  simp only [pairsFrom, kind] at unpaired
                  cases drop.symm.trans (unpaired _ List.mem_cons_self).2

theorem thinned_without {dropped : Nat → Bool}
    (lone : ∀ position, dropped position = true → IsUnpaired nodes position) :
    Thinned 0 nodes (without dropped nodes) := by
  refine thinned_of_unpaired [] (fun placed mem drop => ?_) fun pair mem => ?_
  · have there := (lone placed.2 drop).1
    rwa [List.mk_mem_zipIdx_iff_getElem?.1 mem] at there
  · constructor
    · exact Bool.eq_false_iff.2 fun drop => ((lone pair.1 drop).2 pair mem).1 rfl
    · exact Bool.eq_false_iff.2 fun drop => ((lone pair.2 drop).2 pair mem).2 rfl

end

/-- The walk finds the pairs that brackets make, and tags that belong to no other tag make no
difference to it. -/
theorem walkSiblings_bracketed (options : ConvertOptions) (context : StyleContext) (depth : Nat)
    (elements : Elements) (nodes : List Node) :
    walkSiblings options context depth elements nodes =
        walkBracketed options context depth elements nodes ∧
      ∀ dropped : Nat → Bool,
        (∀ position, dropped position = true → IsUnpaired nodes position) →
        walkSiblings options context depth elements (without dropped nodes) =
          walkSiblings options context depth elements nodes := by
  constructor
  · rw [walkSiblings_eq_walkBehind]
    exact (foldl_walkPlaced [] (by simp) fun place _ => rfl).symm
  · intro dropped lone
    rw [walkSiblings_eq_walkBehind, walkSiblings_eq_walkBehind]
    exact ((thinned_without lone).walkBehind 0 (Nat.le_refl 0) (by omega) elements).1.symm

def strayTags : List Node :=
  [closeTag, .mk (.text "a") [], openTag, .mk (.text "b") [], .mk (.htmlInline " <U> ") [],
    .mk (.text "c") [], closeTag]

theorem walkSiblings_bracketed_strayTags :
    (∀ position, decide (position = 0 ∨ position = 2) = true → IsUnpaired strayTags position) ∧
      walkSiblings {} {} 0 [] (without (fun position => position = 0 ∨ position = 2) strayTags) =
        [.run { content := "c", style := { underline := true } }, .run { content := "ab" }] := by
  have lone : ∀ position, decide (position = 0 ∨ position = 2) = true →
      IsUnpaired strayTags position := by
    intro position among
    rcases of_decide_eq_true among with rfl | rfl <;> decide +kernel
  exact ⟨lone, ((walkSiblings_bracketed {} {} 0 [] strayTags).2 _ lone).trans (by decide +kernel)⟩

end Blockmark.Inline
