import Mathlib.Data.List.Basic
import Mathlib.Data.List.DropRight
import Mathlib.Data.List.TakeWhile
import Blockmark.Text.Blank

/-!
# Texts without white space at their ends

Trimming leaves a text that begins and ends with other characters, and such a text is found again
among the white space around it.

Main statements: `inked_trim`, `Inked.trim_between`.
-/

namespace Blockmark.Text

structure Inked (text : List Char) : Prop where
  first : ∀ c ∈ text.head?, isBlank c = false
  last : ∀ c ∈ text.getLast?, isBlank c = false

theorem isBlank_head?_trimStart (text : List Char) :
    ∀ c ∈ (trimStart text).head?, isBlank c = false := by
  intro c isFirst
  have kept := List.head?_dropWhile_not isBlank text
  rw [trimStart] at isFirst
  rw [Option.mem_def.1 isFirst] at kept
  exact kept

theorem trimEnd_isPrefix (text : List Char) : trimEnd text <+: text :=
  ⟨trailingBlanks text, trimEnd_append_eq text⟩

theorem inked_trim (text : List Char) : Inked (trim text) := by
  constructor
  · intro c isFirst
    apply isBlank_head?_trimStart text
    obtain ⟨behind, split⟩ := trimEnd_isPrefix (trimStart text)
    rw [← split]
    exact List.mem_head?_append_of_mem_head? isFirst
  · intro c isLast
    rw [trim, trimEnd, List.getLast?_reverse] at isLast
    exact isBlank_head?_trimStart (trimStart text).reverse c isLast

theorem trimStart_append_of_inked {text : List Char} (inked : trimStart text ≠ [])
    (more : List Char) : trimStart (text ++ more) = trimStart text ++ more := by
  unfold trimStart at *
  rw [List.dropWhile_append, if_neg (mt List.isEmpty_iff.1 inked)]

theorem trimStart_append_of_blank {text : List Char} (blank : trimStart text = [])
    (more : List Char) : trimStart (text ++ more) = trimStart more := by
  unfold trimStart at *
  rw [List.dropWhile_append, if_pos (List.isEmpty_iff.2 blank)]

theorem trimEnd_eq_reverse (text : List Char) : trimEnd text = (trimStart text.reverse).reverse :=
  rfl

theorem trimEnd_append_of_inked {more : List Char} (inked : trimEnd more ≠ [])
    (text : List Char) : trimEnd (text ++ more) = text ++ trimEnd more := by
  rw [trimEnd_eq_reverse, ne_eq, List.reverse_eq_nil_iff] at inked
  rw [trimEnd_eq_reverse, List.reverse_append, trimStart_append_of_inked inked]
  simp [trimEnd_eq_reverse]

theorem trimEnd_append_of_blank {more : List Char} (blank : trimEnd more = [])
    (text : List Char) : trimEnd (text ++ more) = trimEnd text := by
  rw [trimEnd_eq_reverse, List.reverse_eq_nil_iff] at blank
  rw [trimEnd_eq_reverse, List.reverse_append, trimStart_append_of_blank blank, trimEnd_eq_reverse]

theorem trimEnd_trimEnd (text : List Char) : trimEnd (trimEnd text) = trimEnd text := by
  rw [trimEnd_eq_reverse, trimEnd_eq_reverse, List.reverse_reverse, trimStart, trimStart,
    List.dropWhile_idempotent]

theorem trim_eq_nil_iff {text : List Char} : trim text = [] ↔ trimStart text = [] := by
  constructor
  · intro nothing
    cases start : trimStart text with
    | nil => rfl
    | cons c more =>
        have first := isBlank_head?_trimStart text c (by rw [start]; rfl)
        -- Cutting off the end as well has left nothing of it.
        have blank : ∀ d ∈ trimStart text, isBlank d = true := by
          have whole := trimEnd_append_eq (trimStart text)
          rw [← trim, nothing, List.nil_append] at whole
          intro d mem
          rw [← whole] at mem
          exact List.mem_takeWhile_imp (List.mem_reverse.1 mem)
        rw [blank c (by rw [start]; exact List.mem_cons_self)] at first
        cases first
  · intro nothing
    rw [trim, nothing]
    rfl

theorem trim_subset (text : List Char) : trim text ⊆ text :=
  fun _ mem => (List.dropWhile_suffix isBlank).subset ((trimEnd_isPrefix _).subset mem)

namespace Inked

variable {text : List Char}

theorem nil : Inked [] :=
  ⟨by simp, by simp⟩

theorem trimStart_eq (inked : Inked text) : trimStart text = text := by
  cases text with
  | nil => rfl
  | cons c text => exact List.dropWhile_cons_of_neg (by simp [inked.first c rfl])

theorem reverse (inked : Inked text) : Inked text.reverse := by
  constructor
  · simpa using inked.last
  · simpa using inked.first

theorem trimEnd_eq (inked : Inked text) : trimEnd text = text := by
  have back := inked.reverse.trimStart_eq
  rw [trimStart] at back
  rw [trimEnd, back, List.reverse_reverse]

theorem trim_between (inked : Inked text) {before behind : List Char}
    (blank : ∀ c ∈ before ++ behind, isBlank c = true) :
    trim (before ++ text ++ behind) = text := by
  have start : ∀ c ∈ before, isBlank c = true := fun c mem => blank c (List.mem_append_left _ mem)
  have finish : ∀ c ∈ behind.reverse, isBlank c = true := by
    intro c mem
    exact blank c (List.mem_append_right _ (List.mem_reverse.1 mem))
  rw [trim, trimStart, List.append_assoc, List.dropWhile_append_of_pos start]
  cases text with
  | nil =>
      have all : behind.dropWhile isBlank = [] := by
        apply List.dropWhile_eq_nil_iff.2
        exact fun c mem => blank c (List.mem_append_right _ mem)
      rw [List.nil_append, all]
      rfl
  | cons c text =>
      have front : ((c :: text) ++ behind).dropWhile isBlank = (c :: text) ++ behind :=
        List.dropWhile_cons_of_neg (by simp [inked.first c rfl])
      rw [front, trimEnd, List.reverse_append, List.dropWhile_append_of_pos finish]
      exact inked.trimEnd_eq

theorem append {more : List Char} (start : Inked text) (rest : Inked more) :
    Inked (text ++ more) := by
  constructor
  · intro c isFirst
    rw [List.head?_append] at isFirst
    cases isEmpty : text.head? with
    | none => exact rest.first c (by simpa [isEmpty] using isFirst)
    | some first => exact start.first c (by simpa [isEmpty] using isFirst)
  · intro c isLast
    rw [List.getLast?_append] at isLast
    cases isEmpty : more.getLast? with
    | none => exact start.last c (by simpa [isEmpty] using isLast)
    | some last => exact rest.last c (by simpa [isEmpty] using isLast)

theorem intercalate {separator : List Char} (between : Inked separator)
    {parts : List (List Char)} (all : ∀ part ∈ parts, Inked part) :
    Inked (List.intercalate separator parts) := by
  induction parts with
  | nil => exact nil
  | cons part parts ih =>
      obtain ⟨first, others⟩ := List.forall_mem_cons.1 all
      cases parts with
      | nil => simpa using first
      | cons next parts =>
          rw [List.intercalate_cons_cons]
          exact (first.append between).append (ih others)

theorem flatMap {write : Char → List Char} (inked : Inked text)
    (each : ∀ c, write c ≠ []) (kept : ∀ c, isBlank c = false → Inked (write c)) :
    Inked (text.flatMap write) := by
  constructor
  · intro c isFirst
    cases text with
    | nil => cases isFirst
    | cons first text =>
        rw [List.flatMap_cons, List.head?_append_of_ne_nil _ (each first)] at isFirst
        exact (kept first (inked.first first rfl)).first c isFirst
  · intro c isLast
    obtain rfl | ⟨text, last, rfl⟩ := List.eq_nil_or_concat' text
    · cases isLast
    · rw [List.flatMap_append, List.flatMap_singleton,
        List.getLast?_append_of_ne_nil _ (each last)] at isLast
      exact (kept last (inked.last last (by simp))).last c isLast

end Inked

end Blockmark.Text
