import Blockmark.Proofs.Render.Tracking

/-!
# What the settings leave alone

Options and known users are looked at only when the text is laid out. Which blocks are met, and in
which order the tokens of images are found among them, is settled before that by the forest and the
roots alone.

Main statements: `collecting_planner` and `document_settings`.
-/

namespace Blockmark.Render

/-! ## Tokens in the order in which they are found -/

theorem addTokens_eq (known tokens : List String) :
    addTokens known tokens = known ++ (tokens.filter (· ∉ known)).eraseDups := by
  induction tokens generalizing known with
  | nil => simp [addTokens]
  | cons token tokens ih =>
      rw [addTokens, List.foldl_cons, List.filter_cons]
      by_cases isKnown : token ∈ known
      · simp only [isKnown, if_true, not_true_eq_false, decide_false, Bool.false_eq_true, if_false]
        exact ih known
      · -- A token that is found for the first time stands in front of all others behind it.
        have others : (tokens.filter (· ∉ known)).filter (fun other => !other == token) =
            tokens.filter (· ∉ known ++ [token]) := by
          rw [List.filter_filter]
          refine List.filter_congr fun other _ => ?_
          rw [Bool.eq_iff_iff]
          simp [and_comm]
        simp only [isKnown, if_false, not_false_eq_true, decide_true, if_true]
        rw [List.eraseDups_cons, others]
        exact (ih _).trans (List.append_assoc ..)

theorem nodup_addTokens {known : List String} (tokens : List String) (distinct : known.Nodup) :
    (addTokens known tokens).Nodup := by
  induction tokens generalizing known with
  | nil => exact distinct
  | cons token tokens ih =>
      rw [addTokens, List.foldl_cons]
      refine ih ?_
      split
      · exact distinct
      · next isNew => simpa using distinct.concat isNew

theorem empty_notMem_ownToken? (kind : Kind) : "" ∉ (ownToken? kind).toList := by
  cases kind with
  | image image => simp [ownToken?, imageToken?]
  | _ => exact List.not_mem_nil

mutual

theorem empty_notMem_tokens : ∀ shown : Shown, "" ∉ shown.tokens
  | .own block _ below => by
      rw [Shown.tokens, List.mem_append]
      exact not_or.2 ⟨empty_notMem_ownToken? block.kind, empty_notMem_tokensOfAll below⟩
  | .passage _ below => by
      rw [Shown.tokens]
      exact empty_notMem_tokensOfAll below
  | .gap => List.not_mem_nil

theorem empty_notMem_tokensOfAll : ∀ shown : List Shown, "" ∉ Shown.tokensOfAll shown
  | [] => List.not_mem_nil
  | shown :: more => by
      rw [Shown.tokensOfAll, List.mem_append]
      exact not_or.2 ⟨empty_notMem_tokens shown, empty_notMem_tokensOfAll more⟩

end

/-! ## Tokens of a plan -/

def Collects (before : State) (planned : List Shown × State) : Prop :=
  planned.2.imageTokens = addTokens before.imageTokens (Shown.tokensOfAll planned.1)

structure Collecting (plan : Planner) : Prop where
  siblings : ∀ ids state, Collects state (plan.siblings ids state)
  columns : ∀ ids state, Collects state (plan.columns ids state)
  cell : ∀ id state, Collects state ([(plan.cell id state).1], (plan.cell id state).2)

section

variable {forest : Forest} {plan : Planner} {before between after : State}
  {shown rest : List Shown}

theorem Collects.nothing (same : after.imageTokens = before.imageTokens) :
    Collects before ([], after) :=
  same

theorem Collects.append (first : Collects before (shown, between))
    (second : Collects between (rest, after)) : Collects before (shown ++ rest, after) := by
  unfold Collects at *
  rw [second, first, Shown.tokensOfAll_append, addTokens_append]

theorem Collects.above (below : Collects before (shown, after)) (part : Shown)
    (tokens : part.tokens = Shown.tokensOfAll shown) : Collects before ([part], after) := by
  unfold Collects at *
  rw [below, Shown.tokensOfAll, Shown.tokensOfAll, List.append_nil, tokens]

theorem collects_planCells (collecting : Collecting plan) (cells : List (Option BlockId))
    (state : State) : Collects state (planCells plan cells state) := by
  induction cells generalizing state with
  | nil => exact .nothing rfl
  | cons cell cells ih =>
      cases cell with
      | none => exact ih state
      | some id => exact (collecting.cell id state).append (ih _)

theorem collects_planBlock (collecting : Collecting plan) (ordinal : Nat) (block : Block)
    (state : State) :
    Collects state ([(planBlock plan ordinal block state).1],
      (planBlock plan ordinal block state).2) := by
  -- Only an image has a token, and nothing is shown below it.
  have passes (goesOn : descent block.kind ≠ .stop) {below : List Shown} :
      (Shown.own block ordinal below).tokens = Shown.tokensOfAll below := by
    rw [Shown.tokens, ownToken?_of_descent goesOn]
    rfl
  unfold planBlock planBelow
  cases way : descent block.kind with
  | stop =>
      refine (imageTokens_noteToken block.kind state).trans ?_
      simp [Shown.tokensOfAll, Shown.tokens]
  | children => exact (collecting.siblings block.children state).above _ (passes (by simp [way]))
  | columns => exact (collecting.columns block.children state).above _ (passes (by simp [way]))
  | cells ids => exact (collects_planCells collecting ids state).above _ (passes (by simp [way]))

theorem collects_planSiblings (collecting : Collecting plan) (number : Nat) (ids : List BlockId)
    (state : State) : Collects state (planSiblings forest plan number ids state) := by
  induction ids generalizing number state with
  | nil => exact .nothing rfl
  | cons id ids ih =>
      rw [planSiblings]
      cases forest.get? id with
      | none => exact ih number state
      | some block =>
          simp only
          split
          · exact ih number state
          · exact (collects_planBlock collecting _ block
              { state with visited := block.id :: state.visited }).append (ih _ _)

theorem collects_planColumns (collecting : Collecting plan) (ids : List BlockId) (state : State) :
    Collects state (planColumns forest plan ids state) := by
  induction ids generalizing state with
  | nil => exact .nothing rfl
  | cons id ids ih =>
      rw [planColumns]
      cases forest.get? id with
      | none => exact ih state
      | some block =>
          simp only
          split
          · exact ih state
          · have column := collecting.siblings block.children
              { state with visited := block.id :: state.visited }
            exact (column.above (.passage block _) rfl).append (ih _)

theorem collects_planCell (collecting : Collecting plan) (id : BlockId) (state : State) :
    Collects state ([(planCell forest plan id state).1], (planCell forest plan id state).2) := by
  unfold planCell
  cases forest.get? id with
  | none => exact .nothing rfl
  | some cell =>
      simp only
      split
      · exact collects_planBlock collecting 0 cell state
      · exact (collecting.siblings cell.children state).above _ rfl

theorem imageTokens_cutOff (any : Bool) (state : State) :
    (cutOff any state).imageTokens = state.imageTokens := by
  cases any <;> rfl

theorem collecting_planner (forest : Forest) (levels : Nat) :
    Collecting (planner forest levels) := by
  induction levels with
  | zero =>
      exact ⟨fun _ state => .nothing (imageTokens_cutOff _ state),
        fun _ state => .nothing (imageTokens_cutOff _ state),
        fun _ state => imageTokens_cutOff _ state⟩
  | succ levels ih =>
      exact ⟨collects_planSiblings ih 0, collects_planColumns ih, collects_planCell ih⟩

end

/-! ## Whole documents -/

section

variable (forest : Forest) (roots : List BlockId)

theorem imageTokens_planRoots :
    (planRoots forest roots).2.imageTokens =
      addTokens [] (Shown.tokensOfAll (planRoots forest roots).1) :=
  (collecting_planner forest maxDepth).siblings roots {}

theorem imageTokens_document (setting : Setting) :
    (document forest setting roots).imageTokens = (planRoots forest roots).2.imageTokens := by
  rw [document, renderRoots_eq_layout]

theorem alike_of_unexpanded (options : ConvertOptions) (cache other : Mention.Cache)
    (userId : String) : Alike (options.withExpandMentions false) cache other userId :=
  rfl

/-- Options and known users choose how the plan is laid out, and nothing else: the blocks that are
met and the tokens that are found are those of the plan. Unless mentions are expanded, the known
users do not show in the text either. -/
theorem document_settings :
    (∀ setting, renderRoots forest setting roots =
      (joinShown (Shown.pieces forest setting .plain (planRoots forest roots).1),
        (planRoots forest roots).2)) ∧
    (∀ setting other : Setting,
      (renderRoots forest setting roots).2 = (renderRoots forest other roots).2 ∧
      (document forest setting roots).imageTokens = (document forest other roots).imageTokens) ∧
    (∀ setting, (document forest setting roots).imageTokens =
        (Shown.tokensOfAll (planRoots forest roots).1).eraseDups ∧
      "" ∉ (document forest setting roots).imageTokens ∧
      (document forest setting roots).imageTokens.Nodup) ∧
    ∀ (options : ConvertOptions) (cache other : Mention.Cache),
      document forest ⟨options.withExpandMentions false, cache⟩ roots =
        document forest ⟨options.withExpandMentions false, other⟩ roots := by
  have layout (setting : Setting) := renderRoots_eq_layout forest setting roots
  have found (setting : Setting) := imageTokens_document forest roots setting
  refine ⟨layout, fun setting other => ?_, fun setting => ?_, fun options cache other => ?_⟩
  · exact ⟨by rw [layout setting, layout other], by rw [found setting, found other]⟩
  · have inOrder : addTokens [] (Shown.tokensOfAll (planRoots forest roots).1) =
        (Shown.tokensOfAll (planRoots forest roots).1).eraseDups := by
      simp [addTokens_eq]
    rw [found, imageTokens_planRoots]
    refine ⟨inOrder, ?_, nodup_addTokens _ List.nodup_nil⟩
    rw [inOrder, List.mem_eraseDups]
    exact empty_notMem_tokensOfAll _
  · exact document_eq_of_alike fun userId _ => alike_of_unexpanded options cache other userId

end

end Blockmark.Render
