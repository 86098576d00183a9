import Blockmark.Proofs.Forest.Entries
import Blockmark.Proofs.Mention.Walk

/-!
# Mentions within reach

Everything that is looked at for mentions is reached from the roots through children and cells. The
other way round, the depth limit stops the walk on a path of blocks of which none comes twice, since
it looks at no block again. So it reaches everything if there is no such path beyond the limit,
whatever cycles there are and however often a block is listed.

Main statement: `mem_collect_iff_mentions`.
-/

namespace Blockmark

universe u

structure SimplePath {α : Type u} (next : α → List α) (tops path : List α) : Prop where
  chain : path.IsChain fun above below => below ∈ next above
  start : ∀ top ∈ path.head?, top ∈ tops
  distinct : path.Nodup

namespace SimplePath

variable {α : Type u} {next : α → List α} {tops path : List α} {node : α}

theorem nil : SimplePath next tops [] :=
  ⟨.nil, by simp, List.nodup_nil⟩

theorem concat (simple : SimplePath next tops path) (first : path = [] → node ∈ tops)
    (leads : ∀ last ∈ path.getLast?, node ∈ next last) (fresh : node ∉ path) :
    SimplePath next tops (path ++ [node]) where
  chain := List.isChain_append.2 ⟨simple.chain, .singleton node, by simpa using leads⟩
  start := by
    cases path with
    | nil => simpa using first rfl
    | cons top path => exact simple.start
  distinct := List.nodup_append.2 ⟨simple.distinct, List.nodup_singleton node, by
    rintro other mem _ last rfl
    exact fresh (List.mem_singleton.1 last ▸ mem)⟩

theorem reaches (simple : SimplePath next tops path) (mem : node ∈ path) :
    Reaches next tops node := by
  obtain ⟨chain, start, -⟩ := simple
  induction path generalizing tops with
  | nil => cases mem
  | cons top path ih =>
      have isTop := start top rfl
      rcases List.mem_cons.1 mem with rfl | mem
      · exact reaches_of_mem isTop
      · rw [List.isChain_cons] at chain
        exact (ih mem chain.2 chain.1).head isTop

end SimplePath

namespace Mention

/-- No path of distinct blocks from the roots down is longer than `length`. -/
def PathsWithin (forest : Forest) (length : Nat) (roots : List BlockId) : Prop :=
  ∀ path, SimplePath forest.leadsTo roots path → (∀ id ∈ path, forest.contains id = true) →
    path.length ≤ length

def Mentions (forest : Forest) (roots : List BlockId) (userId : String) : Prop :=
  ∃ id block body, Reaches forest.leadsTo roots id ∧ forest.get? id = some block ∧
    block.kind.body? = some body ∧ TextElement.mentionUser userId ∈ body.elements

variable {forest : Forest} {roots : List BlockId}

theorem leadsTo_eq {id : BlockId} {block : Block} (found : forest.get? id = some block) :
    forest.leadsTo id = below block := by
  rw [Forest.leadsTo, found]
  rfl

/-! ## The path to a block that is looked at -/

/-- A path down which the walk went; it has looked at every block on it. -/
structure Route (forest : Forest) (roots : List BlockId) (looks : Looks) (path : List BlockId) :
    Prop where
  simple : SimplePath forest.leadsTo roots path
  known : ∀ id ∈ path, forest.contains id = true
  met : path ⊆ looks.ids

/-- The block was met at the end of a route, with as many levels left as the route is short of the
limit. -/
def Charted (forest : Forest) (roots : List BlockId) (looks : Looks) (entry : Block × Nat) : Prop :=
  ∃ path, Route forest roots looks (path ++ [entry.1.id]) ∧ path.length + 1 + entry.2 = maxDepth

theorem Route.mono {looks more : Looks} {path : List BlockId} (suffix : looks <:+ more)
    (route : Route forest roots looks path) : Route forest roots more path :=
  ⟨route.simple, route.known, fun _ mem => ids_mono suffix (route.met mem)⟩

theorem Charted.mono {looks more : Looks} {entry : Block × Nat} (suffix : looks <:+ more)
    (charted : Charted forest roots looks entry) : Charted forest roots more entry := by
  obtain ⟨path, route, length⟩ := charted
  exact ⟨path, route.mono suffix, length⟩

theorem Route.concat {looks : Looks} {path : List BlockId} {block : Block} {levels : Nat}
    (route : Route forest roots looks path) (found : forest.get? block.id = some block)
    (first : path = [] → block.id ∈ roots)
    (leads : ∀ last ∈ path.getLast?, block.id ∈ forest.leadsTo last)
    (fresh : block.id ∉ looks.ids) :
    Route forest roots ((block, levels) :: looks) (path ++ [block.id]) where
  simple := route.simple.concat first leads fun mem => fresh (route.met mem)
  known := by
    simp only [List.mem_append, List.mem_singleton]
    rintro id (mem | rfl)
    · exact route.known id mem
    · exact Option.isSome_iff_exists.2 ⟨block, found⟩
  met := by
    intro id mem
    rcases List.mem_append.1 mem with mem | mem
    · exact List.mem_cons_of_mem _ (route.met mem)
    · rw [List.mem_singleton.1 mem]
      exact List.mem_cons_self

theorem charted_look (levels : Nat) {looks : Looks} {path : List BlockId} {id : BlockId}
    (route : Route forest roots looks path) (length : path.length + levels = maxDepth)
    (first : path = [] → id ∈ roots) (leads : ∀ last ∈ path.getLast?, id ∈ forest.leadsTo last) :
    ∀ entry ∈ look forest levels looks id,
      entry ∈ looks ∨ Charted forest roots (look forest levels looks id) entry := by
  induction levels generalizing looks path id with
  | zero => exact fun entry mem => Or.inl mem
  | succ levels ih =>
      cases found : forest.get? id with
      | none =>
          rw [look_missing found]
          exact fun entry mem => Or.inl mem
      | some block =>
          by_cases seen : block.id ∈ looks.ids
          · rw [look_seen found seen]
            exact fun entry mem => Or.inl mem
          · obtain rfl := Forest.id_of_get? found
            rw [look_fresh found seen]
            have longer : Route forest roots ((block, levels) :: looks) (path ++ [block.id]) :=
              route.concat found first leads seen
            have step : ∀ child ∈ below block, ∀ later, (block, levels) :: looks <:+ later →
                ∀ entry ∈ look forest levels later child,
                  entry ∈ later ∨ Charted forest roots (look forest levels later child) entry := by
              intro child mem later suffix
              apply ih (longer.mono suffix)
              · simp only [List.length_append, List.length_singleton]
                omega
              · simp
              · simpa [leadsTo_eq found] using mem
            intro entry mem
            rcases entry_foldl_look (Charted forest roots) Charted.mono _ _ step entry mem with
              start | charted
            · rcases List.mem_cons.1 start with rfl | before
              · have rest : (block, levels) :: looks <:+
                    (below block).foldl (look forest levels) ((block, levels) :: looks) :=
                  suffix_foldl_look (suffix_look levels) _ _
                refine Or.inr ⟨path, longer.mono rest, ?_⟩
                dsimp only
                omega
              · exact Or.inl before
            · exact Or.inr charted

theorem charted_looks : ∀ entry ∈ looks forest roots,
    Charted forest roots (looks forest roots) entry := by
  have start (later : Looks) : Route forest roots later [] :=
    ⟨.nil, by simp, List.nil_subset _⟩
  have walk := entry_foldl_look (Charted forest roots) Charted.mono roots [] fun id mem later _ =>
    charted_look maxDepth (start later) (Nat.zero_add _) (fun _ => mem) (by simp)
  exact fun entry mem => (walk entry mem).resolve_left List.not_mem_nil

/-! ## What is looked at -/

theorem reaches_of_lookedAt {block : Block} (looked : LookedAt forest roots block) :
    Reaches forest.leadsTo roots block.id ∧ forest.get? block.id = some block := by
  obtain ⟨levels, entered⟩ := looked
  obtain ⟨path, route, -⟩ := charted_looks _ entered
  exact ⟨route.simple.reaches (by simp), genuine_looks _ entered⟩

theorem lookedAt_below_of_within (within : PathsWithin forest maxDepth roots) {above other : Block}
    (looked : LookedAt forest roots above) {id : BlockId} (leads : id ∈ below above)
    (found : forest.get? id = some other) : LookedAt forest roots other := by
  obtain ⟨levels, entered⟩ := looked
  by_cases last : levels = 0
  · -- On the last level the path to the block is as long as a path can be.
    obtain ⟨path, route, length⟩ := charted_looks _ entered
    have stored := genuine_looks _ entered
    by_cases met : id ∈ path ++ [above.id]
    · exact lookedAt_of_mem found (Forest.id_of_get? found ▸ route.met met)
    · have simple : SimplePath forest.leadsTo roots (path ++ [above.id] ++ [id]) :=
        route.simple.concat (by simp) (by simpa [leadsTo_eq stored] using leads) met
      have known : ∀ other ∈ path ++ [above.id] ++ [id], forest.contains other = true := by
        intro name mem
        rcases List.mem_append.1 mem with mem | mem
        · exact route.known name mem
        · rw [List.mem_singleton.1 mem]
          exact Option.isSome_iff_exists.2 ⟨other, found⟩
      have longer := within _ simple known
      simp only [List.length_append, List.length_singleton] at longer
      dsimp only at length
      omega
  · exact lookedAt_below entered last leads found

theorem lookedAt_of_reaches (within : PathsWithin forest maxDepth roots) {id : BlockId}
    (reaches : Reaches forest.leadsTo roots id) {block : Block}
    (found : forest.get? id = some block) : LookedAt forest roots block := by
  have top : ∀ top ∈ roots, ∀ block, forest.get? top = some block → LookedAt forest roots block :=
    fun top isTop block found => lookedAt_of_root isTop found
  have step : ∀ id, (∀ block, forest.get? id = some block → LookedAt forest roots block) →
      ∀ child ∈ forest.leadsTo id, ∀ block, forest.get? child = some block →
        LookedAt forest roots block := by
    intro id looked child leads block found
    cases stored : forest.get? id with
    | none => simp [Forest.leadsTo, stored] at leads
    | some above =>
        rw [leadsTo_eq stored] at leads
        exact lookedAt_below_of_within within (looked above stored) leads found
  exact reaches.closed top step block found

/-- Only users who are mentioned within reach are collected, and all of them if no path of distinct
blocks is longer than the depth limit. -/
theorem mem_collect_iff_mentions (forest : Forest) (roots : List BlockId) :
    (∀ userId ∈ collect forest roots, Mentions forest roots userId) ∧
      (PathsWithin forest 100 roots →
        ∀ userId, userId ∈ collect forest roots ↔ Mentions forest roots userId) := by
  have sound : ∀ userId ∈ collect forest roots, Mentions forest roots userId := by
    intro userId mem
    obtain ⟨block, looked, mentioned⟩ := mem_collect.1 mem
    obtain ⟨body, carried, mem⟩ := mem_mentionedBy.1 mentioned
    obtain ⟨reaches, found⟩ := reaches_of_lookedAt looked
    exact ⟨block.id, block, body, reaches, found, carried, mem⟩
  refine ⟨sound, fun within userId => ⟨sound userId, ?_⟩⟩
  rintro ⟨id, block, body, reaches, found, carried, mem⟩
  have looked := lookedAt_of_reaches within reaches found
  exact mem_collect.2 ⟨block, looked, mem_mentionedBy.2 ⟨body, carried, mem⟩⟩

/-! ## Small forests -/

theorem PathsWithin.mono {length more : Nat} (within : PathsWithin forest length roots)
    (le : length ≤ more) : PathsWithin forest more roots :=
  fun path simple known => (within path simple known).trans le

theorem pathsWithin_size (forest : Forest) (roots : List BlockId) :
    PathsWithin forest forest.size roots := by
  intro path simple known
  have inside : path ⊆ forest.ids := fun id mem => Forest.contains_iff.1 (known id mem)
  have bound := (simple.distinct.subperm inside).length_le
  rwa [Forest.ids, List.length_map] at bound

def tangle : Forest := ⟨[
  ⟨"table", .table (some { cells := ["table", "note", "", "gone"], rowSize := 2, columnSize := 2 }),
    ["gone"]⟩,
  ⟨"note", .text .bullet (some ⟨[.mentionUser "u2", .mentionUser "u1"], {}⟩), ["reply", "table"]⟩,
  ⟨"reply", .text .quote (some ⟨[.mentionUser "u1"], {}⟩), ["note", "reply"]⟩,
  ⟨"aside", .text .paragraph (some ⟨[.mentionUser "u3"], {}⟩), ["note"]⟩]⟩

theorem mem_collect_tangle :
    PathsWithin tangle 100 ["table", "note"] ∧
      (∀ userId, userId ∈ collect tangle ["table", "note"] ↔
        Mentions tangle ["table", "note"] userId) ∧
      collect tangle ["table", "note"] = ["u1", "u2"] := by
  have within : PathsWithin tangle 100 ["table", "note"] :=
    (pathsWithin_size tangle _).mono (by decide)
  refine ⟨within, (mem_collect_iff_mentions tangle ["table", "note"]).2 within, ?_⟩
  decide +kernel

end Mention

end Blockmark
