import Blockmark.Proofs.Text.Rows
import Blockmark.Render.Block

/-!
# Fences around code

Code stands between two fences of backticks that are longer than every run of backticks in it. In
a line of text a space keeps backticks at the ends of the code apart from the fences; in a block
the fences have lines of their own. So nothing in the code ends it.

Main statements: `ticks_infix_iff`, by which the longest run is counted, and `fences_enclose`.
-/

namespace Blockmark.Render

open Text

def ticks (count : Nat) : List Char :=
  List.replicate count '\x60'

/-! ## The longest run -/

def countTick (state : Nat × Nat) (c : Char) : Nat × Nat :=
  if c = '\x60' then (state.1 + 1, max state.2 (state.1 + 1)) else (0, state.2)

/-- What has been counted of a text: the run at its end, and the longest run in it. -/
structure Counted (text : List Char) (state : Nat × Nat) : Prop where
  suffix_iff : ∀ count, ticks count <:+ text ↔ count ≤ state.1
  infix_iff : ∀ count, ticks count <:+: text ↔ count ≤ state.2

variable {text : List Char} {count : Nat} {c : Char}

theorem ticks_succ_suffix_concat :
    ticks (count + 1) <:+ text ++ [c] ↔ c = '\x60' ∧ ticks count <:+ text := by
  have grown : ticks (count + 1) = ticks count ++ ['\x60'] := List.replicate_succ'
  rw [List.suffix_concat_iff, grown]
  constructor
  · rintro (none | ⟨front, split, suffix⟩)
    · simp at none
    · obtain ⟨rfl, last⟩ := List.append_inj' split rfl
      exact ⟨(List.singleton_inj.1 last).symm, suffix⟩
  · rintro ⟨rfl, suffix⟩
    exact .inr ⟨ticks count, rfl, suffix⟩

theorem counted_nil : Counted [] (0, 0) := by
  constructor <;> intro count <;> simp [ticks]

theorem Counted.step {state : Nat × Nat} (counted : Counted text state) (c : Char) :
    Counted (text ++ [c]) (countTick state c) := by
  have suffix_iff (count : Nat) : ticks count <:+ text ++ [c] ↔ count ≤ (countTick state c).1 := by
    cases count with
    | zero => simp [ticks]
    | succ count =>
        rw [ticks_succ_suffix_concat, counted.suffix_iff, countTick]
        split <;> simp_all
  refine ⟨suffix_iff, fun count => ?_⟩
  rw [List.infix_concat_iff, suffix_iff, counted.infix_iff, countTick]
  split <;> simp only <;> omega

theorem counted (text : List Char) : Counted text (text.foldl countTick (0, 0)) := by
  induction text using List.reverseRecOn with
  | nil => exact counted_nil
  | append_singleton text c ih =>
      rw [List.foldl_append]
      exact ih.step c

theorem ticks_infix_iff : ticks count <:+: text ↔ count ≤ longestBacktickRun text :=
  (counted text).infix_iff count

theorem ticks_infix_cons (other : c ≠ '\x60') :
    ticks count <:+: c :: text ↔ ticks count <:+: text := by
  cases count with
  | zero => simp [ticks]
  | succ count =>
      rw [List.infix_cons_iff, or_iff_right]
      intro starts
      rw [ticks, List.replicate_succ, List.cons_prefix_cons] at starts
      exact other starts.1.symm

theorem ticks_infix_concat (other : c ≠ '\x60') :
    ticks count <:+: text ++ [c] ↔ ticks count <:+: text := by
  cases count with
  | zero => simp [ticks]
  | succ count =>
      rw [List.infix_concat_iff, ticks_succ_suffix_concat, or_iff_right]
      exact fun ends => other ends.1

/-! ## Code in a line of text -/

/-- A text between two fences. The fences are whole runs of backticks, and every run between them
is shorter. -/
structure Fenced (fence : Nat) (inner text : List Char) : Prop where
  text_eq : text = ticks fence ++ inner ++ ticks fence
  pos : 0 < fence
  inner_ne_nil : inner ≠ []
  opened : inner.head? ≠ some '\x60'
  closed : inner.getLast? ≠ some '\x60'
  shorter : ∀ count, ticks count <:+: inner → count < fence

def setApart (code : List Char) : List Char :=
  if code.head? = some '\x60' ∨ code.getLast? = some '\x60' then [' '] ++ code ++ [' '] else code

theorem fenced_codeSpan {code : List Char} (filled : code ≠ []) :
    Fenced (longestBacktickRun code + 1) (setApart code) (codeSpan code) := by
  have shorter (count : Nat) (run : ticks count <:+: code) : count < longestBacktickRun code + 1 :=
    Nat.lt_succ_of_le (ticks_infix_iff.1 run)
  unfold setApart codeSpan
  split
  · refine ⟨by simp [ticks], Nat.succ_pos _, by simp, by simp,
      by rw [List.getLast?_concat]; decide, fun count run => ?_⟩
    rw [ticks_infix_concat (by decide), List.singleton_append, ticks_infix_cons (by decide)] at run
    exact shorter count run
  · next apart =>
      rw [not_or] at apart
      exact ⟨rfl, Nat.succ_pos _, filled, apart.1, apart.2, shorter⟩

/-! ## Code in a block -/

/-- A line that ends a block of code: as many backticks as began it, or more, with nothing but
white space around them. -/
def closesFence (fence : Nat) (line : List Char) : Bool :=
  (trim line).all (· = '\x60') && fence ≤ (trim line).length

theorem trim_isInfix (line : List Char) : trim line <:+: line :=
  (trimEnd_isPrefix _).isInfix.trans (List.dropWhile_suffix _).isInfix

theorem ticks_infix_of_closesFence {fence : Nat} {line : List Char}
    (closes : closesFence fence line = true) : ticks fence <:+: line := by
  rw [closesFence, Bool.and_eq_true, List.all_eq_true, decide_eq_true_eq] at closes
  obtain ⟨only, long⟩ := closes
  have trimmed : trim line = ticks (trim line).length :=
    List.eq_replicate_of_mem fun c mem => of_decide_eq_true (only c mem)
  have split : ticks (trim line).length = ticks fence ++ ticks ((trim line).length - fence) := by
    rw [ticks, ticks, ticks, List.replicate_append_replicate, Nat.add_sub_cancel' long]
  rw [split] at trimmed
  exact List.IsInfix.trans ⟨[], _, trimmed.symm⟩ (trim_isInfix line)

theorem closesFence_ticks (fence : Nat) : closesFence fence (ticks fence) = true := by
  have only (c : Char) (mem : c ∈ ticks fence) : isBlank c = false := by
    rw [List.eq_of_mem_replicate mem]
    decide
  have inked : Inked (ticks fence) :=
    ⟨fun c isFirst => only c (List.mem_of_head? isFirst),
      fun c isLast => only c (List.mem_of_getLast? isLast)⟩
  rw [closesFence, trim, inked.trimStart_eq, inked.trimEnd_eq]
  simp [ticks]

/-- A block of code: a line with the fence and the language, the lines of the code, and a line with
the fence. The fence is longer than every run of backticks in the code, and while it ends the
block, no part of the code is a line that does. -/
structure FencedBlock (fence : Nat) (language code text : List Char) : Prop where
  three_le : 3 ≤ fence
  shorter : ∀ count, ticks count <:+: code → count < fence
  unclosed : ∀ line, line <:+: code → closesFence fence line = false
  closes : closesFence fence (ticks fence) = true
  lines_eq : pieces '\n' text = (ticks fence ++ language) :: (pieces '\n' code ++ [ticks fence])

def codeText (body : Option TextBody) : List Char :=
  ((body.map TextBody.plainText).getD "").toList

def codeLanguage (body : Option TextBody) : List Char :=
  ((body.bind (·.style.language)).getD "").toList

theorem pieces_renderCode {body : Option TextBody} (oneLine : '\n' ∉ codeLanguage body) :
    let fence := max (longestBacktickRun (codeText body) + 1) 3
    pieces '\n' (renderCode body) =
      (ticks fence ++ codeLanguage body) :: (pieces '\n' (codeText body) ++ [ticks fence]) := by
  intro fence
  have whole : '\n' ∉ ticks fence := fun mem => absurd (List.eq_of_mem_replicate mem) (by decide)
  have split : renderCode body =
      (ticks fence ++ codeLanguage body) ++ '\n' :: (codeText body ++ '\n' :: ticks fence) := by
    simp [renderCode, ticks, codeText, codeLanguage, fence]
  rw [split, pieces_append (by simp [whole, oneLine]), pieces_append_feed, pieces_of_notMem whole]

theorem fencedBlock_renderCode {body : Option TextBody} (oneLine : '\n' ∉ codeLanguage body) :
    FencedBlock (max (longestBacktickRun (codeText body) + 1) 3) (codeLanguage body)
      (codeText body) (renderCode body) := by
  have shorter (count : Nat) (run : ticks count <:+: codeText body) :
      count < max (longestBacktickRun (codeText body) + 1) 3 :=
    (Nat.lt_succ_of_le (ticks_infix_iff.1 run)).trans_le (le_max_left _ _)
  refine ⟨le_max_right _ _, shorter, fun line part => ?_, closesFence_ticks _,
    pieces_renderCode oneLine⟩
  rw [← Bool.not_eq_true]
  intro closes
  exact lt_irrefl _ (shorter _ ((ticks_infix_of_closesFence closes).trans part))

/-- Code of at least one character stands between whole runs of backticks of one length, longer
than every run between them; it is all that stands there, but for the spaces that set its own
backticks apart. A block of code whose language has no line end has its lines between two fences,
and nothing in them ends the block. -/
theorem fences_enclose :
    (∀ code : List Char, code ≠ [] → ∃ fence, Fenced fence (setApart code) (codeSpan code)) ∧
    ∀ body : Option TextBody, '\n' ∉ codeLanguage body →
      ∃ fence, FencedBlock fence (codeLanguage body) (codeText body) (renderCode body) := by
  constructor
  · intro code filled
    exact ⟨_, fenced_codeSpan filled⟩
  · intro body oneLine
    exact ⟨_, fencedBlock_renderCode oneLine⟩

theorem fences_enclose_fencesInside :
    let code := "``a`".toList
    let body : Option TextBody :=
      some ⟨[.run ⟨"````\nnested", {}, none⟩, .lineBreak, .run ⟨"```", {}, none⟩],
        { language := some "md" }⟩
    (code ≠ [] ∧ ∃ fence, Fenced fence (setApart code) (codeSpan code)) ∧
      '\n' ∉ codeLanguage body ∧
      ∃ fence, FencedBlock fence (codeLanguage body) (codeText body) (renderCode body) :=
  ⟨⟨by decide, fences_enclose.1 _ (by decide)⟩, by decide, fences_enclose.2 _ (by decide)⟩

end Blockmark.Render
