import Blockmark.Inline.Compose

/-!
# How deep the walk nests

Inside a node the walk goes on one level deeper, but not from the depth limit on. Between two tags
that pair up it goes on one level deeper as well, and there nothing asks for the limit. Tags pair
up among siblings, so a flat list of tags makes the walk nest as deep as the list is long, although
nothing is added from the limit on.

Main statements: `walkSiblings_beyond`, `mem_calls_spans` and `calls_le_maxDepth_iff`.
-/

namespace Blockmark.Inline

open Markdown

/-! ## One node -/

def inner? (options : ConvertOptions) : Node → Option (StyleContext → StyleContext)
  | .mk kind children =>
    match kind with
    | .text _ | .code _ | .image _ | .math _ _ | .softBreak | .lineBreak | .htmlInline _ => none
    | .emph => some (·.italic)
    | .strong => some (·.bold)
    | .strikethrough => some (·.strikethrough)
    | .link url =>
      if (Link.parseInternalUri url options.uriScheme "doc").isSome then none
      else if isAutolink url (plainText children) then none
      else some (·.linked url)
    | _ => some id

def leaf (options : ConvertOptions) (context : StyleContext) (elements : Elements) :
    Node → Elements
  | .mk kind children =>
    match kind with
    | .text content => pushText context content elements
    | .code literal => pushText context.inlineCode literal elements
    | .link url =>
      match Link.parseInternalUri url options.uriScheme "doc" with
      | some token => .mentionDoc (plainText children) (.token token) :: elements
      | none => .autoLink url context.flags :: elements
    | .image url => pushImage options context (plainText children) url elements
    | .math _ literal => .equation literal :: elements
    | .softBreak => pushText context "\n" elements
    | .lineBreak => .lineBreak :: elements
    | .htmlInline html =>
      if isBreakTag html then .lineBreak :: elements
      else if opensUnderline (.mk kind children) || closesUnderline (.mk kind children) then
        elements
      else pushText context html elements
    | _ => elements

section

variable {options : ConvertOptions} {context : StyleContext} {depth : Nat} {elements : Elements}

theorem walkNode_beyond (beyond : maxDepth ≤ depth) (node : Node) :
    walkNode options context depth elements node = elements := by
  obtain ⟨kind, children⟩ := node
  rw [walkNode.eq_def]
  exact if_pos beyond

theorem walkNode_inner (inside : depth < maxDepth) {node : Node}
    {change : StyleContext → StyleContext} (goesOn : inner? options node = some change) :
    walkNode options context depth elements node =
      walkSiblings options (change context) (depth + 1) elements node.children := by
  obtain ⟨kind, children⟩ := node
  rw [walkNode.eq_def]
  dsimp only
  rw [if_neg (Nat.not_le.2 inside)]
  cases kind with
  | link url =>
      simp only [inner?] at goesOn ⊢
      split at goesOn
      · cases goesOn
      · next noToken =>
        rw [Option.not_isSome_iff_eq_none.1 noToken]
        split at goesOn
        · cases goesOn
        · next noAutolink =>
          cases goesOn
          exact if_neg noAutolink
  | _ => cases goesOn <;> rfl

theorem walkNode_leaf (inside : depth < maxDepth) {node : Node}
    (stays : inner? options node = none) :
    walkNode options context depth elements node = leaf options context elements node := by
  obtain ⟨kind, children⟩ := node
  rw [walkNode.eq_def]
  dsimp only
  rw [if_neg (Nat.not_le.2 inside)]
  cases kind with
  | link url =>
      simp only [inner?, leaf] at stays ⊢
      split at stays
      · next token =>
        obtain ⟨token, isToken⟩ := Option.isSome_iff_exists.1 token
        rw [isToken]
      · next noToken =>
        rw [Option.not_isSome_iff_eq_none.1 noToken]
        split at stays
        · next autolink => exact if_pos autolink
        · cases stays
  | text | code | image | math | softBreak | lineBreak | htmlInline => rfl
  | _ => cases stays

end

/-! ## Siblings -/

/-- Siblings by what the walk does with the first of them: it goes on between two tags and behind
them, leaves a lone tag out, or goes on in a node and behind it. -/
theorem siblings_induction {motive : List Node → Prop} (nil : motive [])
    (span : ∀ {tag : Node} {rest : List Node} {parts : List Node × List Node},
      opensUnderline tag = true → splitAtClose 0 rest = some parts →
      motive parts.1 → motive parts.2 → motive (tag :: rest))
    (lone : ∀ {tag : Node} {rest : List Node}, opensUnderline tag = true →
      splitAtClose 0 rest = none → motive rest → motive (tag :: rest))
    (other : ∀ {node : Node} {rest : List Node}, opensUnderline node = false →
      motive node.children → motive rest → motive (node :: rest)) :
    ∀ nodes : List Node, motive nodes
  | [] => nil
  | .mk kind children :: rest => by
      have inside := siblings_induction nil span lone other children
      have behind := siblings_induction nil span lone other rest
      cases opens : opensUnderline (.mk kind children) with
      | false => exact other opens inside behind
      | true =>
          cases matched : splitAtClose 0 rest with
          | none => exact lone opens matched behind
          | some parts =>
              have smaller := splitAtClose_size matched
              exact span opens matched (siblings_induction nil span lone other parts.1)
                (siblings_induction nil span lone other parts.2)
termination_by nodes => sizeOf nodes

section

variable {options : ConvertOptions} {context : StyleContext} {depth : Nat} {elements : Elements}
  {node tag : Node} {rest : List Node} {parts : List Node × List Node}

theorem walkSiblings_span (opens : opensUnderline tag = true)
    (matched : splitAtClose 0 rest = some parts) :
    walkSiblings options context depth elements (tag :: rest) =
      walkSiblings options context depth
        (walkSiblings options context.underline (depth + 1) elements parts.1) parts.2 := by
  rw [walkSiblings, if_pos opens]
  split
  · next same =>
    cases matched.symm.trans same
    rfl
  · next unmatched => cases matched.symm.trans unmatched

theorem walkSiblings_lone (opens : opensUnderline tag = true)
    (unmatched : splitAtClose 0 rest = none) :
    walkSiblings options context depth elements (tag :: rest) =
      walkSiblings options context depth elements rest := by
  rw [walkSiblings, if_pos opens]
  split
  · next matched => cases unmatched.symm.trans matched
  · rfl

theorem walkSiblings_other (other : opensUnderline node = false) :
    walkSiblings options context depth elements (node :: rest) =
      walkSiblings options context depth (walkNode options context depth elements node) rest := by
  rw [walkSiblings, other, if_neg Bool.false_ne_true]

theorem walkSiblings_beyond (beyond : maxDepth ≤ depth) (nodes : List Node) :
    walkSiblings options context depth elements nodes = elements := by
  induction nodes using siblings_induction generalizing context depth elements with
  | nil => rw [walkSiblings]
  | span opens matched between behind =>
      rw [walkSiblings_span opens matched, between (by omega), behind beyond]
  | lone opens unmatched ih => rw [walkSiblings_lone opens unmatched, ih beyond]
  | other other _ ih => rw [walkSiblings_other other, walkNode_beyond beyond, ih beyond]

end

/-! ## Calls -/

mutual

/-- The walk of siblings, along with the depths of the calls that it makes. -/
def loggedSiblings (options : ConvertOptions) (context : StyleContext) (depth : Nat)
    (elements : Elements) (nodes : List Node) : Elements × List Nat :=
  match nodes with
  | [] => (elements, [])
  | node :: rest =>
    if opensUnderline node then
      match _h : splitAtClose 0 rest with
      | some parts =>
        let between := loggedSiblings options context.underline (depth + 1) elements parts.1
        let behind := loggedSiblings options context depth between.1 parts.2
        (behind.1, (depth + 1) :: between.2 ++ behind.2)
      | none => loggedSiblings options context depth elements rest
    else
      let first := loggedNode options context depth elements node
      let behind := loggedSiblings options context depth first.1 rest
      (behind.1, depth :: first.2 ++ behind.2)
termination_by sizeOf nodes
decreasing_by
  all_goals
    try have := splitAtClose_size _h
    simp only [List.cons.sizeOf_spec]
    omega

def loggedNode (options : ConvertOptions) (context : StyleContext) (depth : Nat)
    (elements : Elements) (node : Node) : Elements × List Nat :=
  match node with
  | .mk kind children =>
    if maxDepth ≤ depth then (elements, [])
    else match inner? options (.mk kind children) with
      | some change =>
        let inside := loggedSiblings options (change context) (depth + 1) elements children
        (inside.1, (depth + 1) :: inside.2)
      | none => (leaf options context elements (.mk kind children), [])
termination_by sizeOf node

end

def calls (options : ConvertOptions) (context : StyleContext) (elements : Elements)
    (nodes : List Node) : List Nat :=
  0 :: (loggedSiblings options context 0 elements nodes).2

section

variable {options : ConvertOptions} {context : StyleContext} {depth : Nat} {elements : Elements}
  {node tag : Node} {rest : List Node} {parts : List Node × List Node}

theorem loggedSiblings_span (opens : opensUnderline tag = true)
    (matched : splitAtClose 0 rest = some parts) :
    loggedSiblings options context depth elements (tag :: rest) =
      let between := loggedSiblings options context.underline (depth + 1) elements parts.1
      let behind := loggedSiblings options context depth between.1 parts.2
      (behind.1, (depth + 1) :: between.2 ++ behind.2) := by
  rw [loggedSiblings, if_pos opens]
  split
  · next same =>
    cases matched.symm.trans same
    rfl
  · next unmatched => cases matched.symm.trans unmatched

theorem loggedSiblings_lone (opens : opensUnderline tag = true)
    (unmatched : splitAtClose 0 rest = none) :
    loggedSiblings options context depth elements (tag :: rest) =
      loggedSiblings options context depth elements rest := by
  rw [loggedSiblings, if_pos opens]
  split
  · next matched => cases unmatched.symm.trans matched
  · rfl

theorem loggedSiblings_other (other : opensUnderline node = false) :
    loggedSiblings options context depth elements (node :: rest) =
      let first := loggedNode options context depth elements node
      let behind := loggedSiblings options context depth first.1 rest
      (behind.1, depth :: first.2 ++ behind.2) := by
  rw [loggedSiblings, other, if_neg Bool.false_ne_true]

theorem loggedNode_beyond (beyond : maxDepth ≤ depth) :
    loggedNode options context depth elements node = (elements, []) := by
  obtain ⟨kind, children⟩ := node
  rw [loggedNode]
  exact if_pos beyond

theorem loggedNode_inner (inside : depth < maxDepth) {change : StyleContext → StyleContext}
    (goesOn : inner? options node = some change) :
    loggedNode options context depth elements node =
      let inside := loggedSiblings options (change context) (depth + 1) elements node.children
      (inside.1, (depth + 1) :: inside.2) := by
  obtain ⟨kind, children⟩ := node
  rw [loggedNode, if_neg (Nat.not_le.2 inside), goesOn]
  rfl

theorem loggedNode_leaf (inside : depth < maxDepth) (stays : inner? options node = none) :
    loggedNode options context depth elements node = (leaf options context elements node, []) := by
  obtain ⟨kind, children⟩ := node
  rw [loggedNode, if_neg (Nat.not_le.2 inside), stays]

theorem loggedSiblings_fst (options : ConvertOptions) (context : StyleContext) (depth : Nat)
    (elements : Elements) (nodes : List Node) :
    (loggedSiblings options context depth elements nodes).1 =
      walkSiblings options context depth elements nodes := by
  induction nodes using siblings_induction generalizing context depth elements with
  | nil => rw [loggedSiblings, walkSiblings]
  | span opens matched between behind =>
      rw [loggedSiblings_span opens matched, walkSiblings_span opens matched, behind, between]
  | lone opens unmatched ih =>
      rw [loggedSiblings_lone opens unmatched, walkSiblings_lone opens unmatched, ih]
  | @other node rest other children ih =>
      have first : (loggedNode options context depth elements node).1 =
          walkNode options context depth elements node := by
        by_cases beyond : maxDepth ≤ depth
        · rw [loggedNode_beyond beyond, walkNode_beyond beyond]
        · have inside := Nat.not_le.1 beyond
          cases form : inner? options node with
          | some change =>
              rw [loggedNode_inner inside form, walkNode_inner inside form, children]
          | none => rw [loggedNode_leaf inside form, walkNode_leaf inside form]
      rw [loggedSiblings_other other, walkSiblings_other other, ih, first]

end

/-! ## Where the walk gets to -/

/-- The walk of some nodes gets to these siblings at this depth. -/
inductive Reaches (options : ConvertOptions) (nodes : List Node) : Nat → List Node → Prop
  | start : Reaches options nodes 0 nodes
  | between {depth : Nat} {tag : Node} {rest : List Node} {parts : List Node × List Node}
      (reached : Reaches options nodes depth (tag :: rest)) (opens : opensUnderline tag = true)
      (matched : splitAtClose 0 rest = some parts) : Reaches options nodes (depth + 1) parts.1
  | behind {depth : Nat} {tag : Node} {rest : List Node} {parts : List Node × List Node}
      (reached : Reaches options nodes depth (tag :: rest)) (opens : opensUnderline tag = true)
      (matched : splitAtClose 0 rest = some parts) : Reaches options nodes depth parts.2
  | lone {depth : Nat} {tag : Node} {rest : List Node}
      (reached : Reaches options nodes depth (tag :: rest)) (opens : opensUnderline tag = true)
      (unmatched : splitAtClose 0 rest = none) : Reaches options nodes depth rest
  | inside {depth : Nat} {node : Node} {rest : List Node} {change : StyleContext → StyleContext}
      (reached : Reaches options nodes depth (node :: rest)) (other : opensUnderline node = false)
      (inside : depth < maxDepth) (goesOn : inner? options node = some change) :
      Reaches options nodes (depth + 1) node.children
  | past {depth : Nat} {node : Node} {rest : List Node}
      (reached : Reaches options nodes depth (node :: rest)) (other : opensUnderline node = false) :
      Reaches options nodes depth rest

section

variable {options : ConvertOptions} {nodes siblings : List Node} {depth : Nat}

theorem Reaches.logged (reached : Reaches options nodes depth siblings) (context : StyleContext)
    (elements : Elements) :
    ∃ inner before, (loggedSiblings options inner depth before siblings).2 ⊆
      (loggedSiblings options context 0 elements nodes).2 := by
  induction reached with
  | start => exact ⟨context, elements, List.Subset.refl _⟩
  | between _ opens matched ih =>
      obtain ⟨inner, before, sub⟩ := ih
      rw [loggedSiblings_span opens matched] at sub
      exact ⟨_, before, fun call mem =>
        sub (List.mem_append_left _ (List.mem_cons_of_mem _ mem))⟩
  | behind _ opens matched ih =>
      obtain ⟨inner, before, sub⟩ := ih
      rw [loggedSiblings_span opens matched] at sub
      exact ⟨inner, _, fun call mem => sub (List.mem_append_right _ mem)⟩
  | lone _ opens unmatched ih =>
      obtain ⟨inner, before, sub⟩ := ih
      rw [loggedSiblings_lone opens unmatched] at sub
      exact ⟨inner, before, sub⟩
  | inside _ other inside goesOn ih =>
      obtain ⟨inner, before, sub⟩ := ih
      rw [loggedSiblings_other other, loggedNode_inner inside goesOn] at sub
      exact ⟨_, before, fun call mem =>
        sub (List.mem_append_left _ (List.mem_cons_of_mem _ (List.mem_cons_of_mem _ mem)))⟩
  | past _ other ih =>
      obtain ⟨inner, before, sub⟩ := ih
      rw [loggedSiblings_other other] at sub
      exact ⟨inner, _, fun call mem => sub (List.mem_append_right _ mem)⟩

theorem Reaches.mem_calls (reached : Reaches options nodes depth siblings)
    (context : StyleContext) (elements : Elements) :
    depth ∈ calls options context elements nodes := by
  induction reached with
  | start => exact List.mem_cons_self
  | between reached opens matched _ =>
      obtain ⟨inner, before, sub⟩ := reached.logged context elements
      rw [loggedSiblings_span opens matched] at sub
      exact List.mem_cons_of_mem _ (sub (by simp))
  | inside reached other inside goesOn _ =>
      obtain ⟨inner, before, sub⟩ := reached.logged context elements
      rw [loggedSiblings_other other, loggedNode_inner inside goesOn] at sub
      exact List.mem_cons_of_mem _ (sub (by simp))
  | behind | lone | past => assumption

theorem logged_le_maxDepth
    (unpaired : ∀ tag rest, Reaches options nodes maxDepth (tag :: rest) →
      opensUnderline tag = true → splitAtClose 0 rest = none)
    (reached : Reaches options nodes depth siblings) (within : depth ≤ maxDepth)
    (context : StyleContext) (elements : Elements) :
    ∀ call ∈ (loggedSiblings options context depth elements siblings).2, call ≤ maxDepth := by
  induction siblings using siblings_induction generalizing context depth elements with
  | nil => simp [loggedSiblings]
  | span opens matched between behind =>
      have inside : depth < maxDepth := by
        refine Nat.lt_of_le_of_ne within ?_
        rintro rfl
        cases matched.symm.trans (unpaired _ _ reached opens)
      have first := between (reached.between opens matched) inside context.underline elements
      have second := behind (reached.behind opens matched) within context
      rw [loggedSiblings_span opens matched]
      simp only [List.cons_append, List.mem_cons, List.mem_append]
      rintro call (rfl | mem | mem)
      · exact inside
      · exact first call mem
      · exact second _ call mem
  | lone opens unmatched ih =>
      rw [loggedSiblings_lone opens unmatched]
      exact ih (reached.lone opens unmatched) within context elements
  | @other node rest other children ih =>
      have first : ∀ call ∈ (loggedNode options context depth elements node).2,
          call ≤ maxDepth := by
        by_cases beyond : maxDepth ≤ depth
        · simp [loggedNode_beyond beyond]
        · have inside := Nat.not_le.1 beyond
          cases form : inner? options node with
          | none => simp [loggedNode_leaf inside form]
          | some change =>
              rw [loggedNode_inner inside form]
              exact List.forall_mem_cons.2 ⟨inside,
                children (reached.inside other inside form) inside (change context) elements⟩
      have second := ih (reached.past other) within context
      rw [loggedSiblings_other other]
      simp only [List.cons_append, List.mem_cons, List.mem_append]
      rintro call (rfl | mem | mem)
      · exact within
      · exact first call mem
      · exact second _ call mem

end

/-! ## Nested spans -/

def openTag : Node := .mk (.htmlInline "<u>") []

def closeTag : Node := .mk (.htmlInline "</u>") []

theorem opensUnderline_openTag : opensUnderline openTag = true := by decide

theorem opensUnderline_closeTag : opensUnderline closeTag = false := by decide

theorem closesUnderline_closeTag : closesUnderline closeTag = true := by decide

def spans (content : String) : Nat → List Node
  | 0 => [.mk (.text content) []]
  | pairs + 1 => openTag :: (spans content pairs ++ [closeTag])

theorem splitAtClose_openTag (opened : Nat) (rest : List Node) :
    splitAtClose opened (openTag :: rest) =
      (splitAtClose (opened + 1) rest).map fun parts => (openTag :: parts.1, parts.2) := by
  rw [splitAtClose.eq_def]
  exact if_pos opensUnderline_openTag

theorem splitAtClose_closeTag (opened : Nat) (rest : List Node) :
    splitAtClose (opened + 1) (closeTag :: rest) =
      (splitAtClose opened rest).map fun parts => (closeTag :: parts.1, parts.2) := by
  rw [splitAtClose.eq_def]
  dsimp only
  rw [opensUnderline_closeTag, if_neg Bool.false_ne_true, if_pos closesUnderline_closeTag]

theorem splitAtClose_spans (content : String) (pairs opened : Nat) (rest : List Node) :
    splitAtClose opened (spans content pairs ++ rest) =
      (splitAtClose opened rest).map fun parts => (spans content pairs ++ parts.1, parts.2) := by
  induction pairs generalizing opened rest with
  | zero => rfl
  | succ pairs ih =>
      rw [spans, List.cons_append, List.append_assoc, List.singleton_append,
        splitAtClose_openTag, ih, splitAtClose_closeTag]
      simp [Function.comp_def]

theorem splitAtClose_closed (content : String) (pairs : Nat) :
    splitAtClose 0 (spans content pairs ++ [closeTag]) = some (spans content pairs, []) := by
  have found : splitAtClose 0 [closeTag] = some ([], []) := by
    rw [splitAtClose, opensUnderline_closeTag, if_neg Bool.false_ne_true,
      if_pos closesUnderline_closeTag]
  rw [splitAtClose_spans, found, Option.map_some, List.append_nil]

section

variable {options : ConvertOptions} {context : StyleContext} {depth pairs : Nat}
  {elements : Elements} {content : String}

theorem reaches_spans {nodes : List Node}
    (reached : Reaches options nodes depth (spans content pairs)) :
    Reaches options nodes (depth + pairs) (spans content 0) := by
  induction pairs generalizing depth with
  | zero => exact reached
  | succ pairs ih =>
      have deeper :=
        ih (reached.between opensUnderline_openTag (splitAtClose_closed content pairs))
      rwa [Nat.add_assoc, Nat.add_comm 1] at deeper

theorem mem_calls_spans (options : ConvertOptions) (context : StyleContext) (elements : Elements)
    (content : String) (pairs : Nat) :
    pairs ∈ calls options context elements (spans content pairs) := by
  have reached : Reaches options (spans content pairs) (0 + pairs) (spans content 0) :=
    reaches_spans .start
  rw [Nat.zero_add] at reached
  exact reached.mem_calls context elements

theorem walkSiblings_spans (beyond : maxDepth ≤ depth + pairs) :
    walkSiblings options context depth elements (spans content pairs) = elements := by
  induction pairs generalizing context depth with
  | zero => exact walkSiblings_beyond beyond _
  | succ pairs ih =>
      rw [spans, walkSiblings_span opensUnderline_openTag (splitAtClose_closed content pairs),
        ih (by omega), walkSiblings]

/-- The depth limit bounds the walk unless two tags pair up right at the limit; from there on it
nests as deep as there are tags. -/
theorem calls_le_maxDepth_iff (options : ConvertOptions) (context : StyleContext)
    (elements : Elements) :
    (∀ nodes, (loggedSiblings options context 0 elements nodes).1 =
      pushNodes options context elements nodes) ∧
    (∀ nodes, (∀ call ∈ calls options context elements nodes, call ≤ maxDepth) ↔
      ∀ tag rest, Reaches options nodes maxDepth (tag :: rest) → opensUnderline tag = true →
        splitAtClose 0 rest = none) ∧
    ∀ depth, ∃ nodes, depth ∈ calls options context elements nodes := by
  refine ⟨fun nodes => loggedSiblings_fst options context 0 elements nodes, fun nodes => ?_,
    fun depth => ⟨spans "x" depth, mem_calls_spans options context elements "x" depth⟩⟩
  constructor
  · intro bounded tag rest reached opens
    cases matched : splitAtClose 0 rest with
    | none => rfl
    | some parts =>
        have deeper := (reached.between opens matched).mem_calls context elements
        exact absurd (bounded _ deeper) (Nat.not_succ_le_self maxDepth)
  · intro unpaired call mem
    rcases List.mem_cons.1 mem with rfl | mem
    · exact Nat.zero_le _
    · exact logged_le_maxDepth unpaired .start (Nat.zero_le _) context elements call mem

/-- One pair of tags more than there are levels, and the walk calls itself below the limit, where
the text is lost. -/
theorem spans_exceed :
    ¬ (∀ call ∈ calls {} {} [] (spans "x" 101), call ≤ maxDepth) ∧
      compose {} (spans "x" 101) = [] := by
  constructor
  · intro bounded
    exact absurd (bounded 101 (mem_calls_spans {} {} [] "x" 101)) (by decide)
  · rw [compose, pushNodes, walkSiblings_spans (by decide), List.reverse_nil]

end

end Blockmark.Inline
