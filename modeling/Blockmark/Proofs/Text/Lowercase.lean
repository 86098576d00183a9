import Blockmark.Text.Lowercase

/-!
# Letters that lower-casing leaves

No capital of the Latin alphabet is left in a lower-case text. The letters of that alphabet come
from that alphabet, apart from `i` and `k`, which are the lower-case forms of two other signs.

Main statements: `isUpper_lowercase` and `eq_of_lowercase_eq`.
-/

namespace Blockmark.Text

/-- Only the Kelvin sign has a lower-case form among the first 128 characters. -/
theorem lowercaseRanges_far : ∀ range ∈ lowercaseRanges,
    range.2.1 < 0x80 ∨ range = (0x212A, 0x212A, 1, -8383) ∨
      0x80 ≤ (range.1 : Int) + range.2.2.2 := by
  decide +kernel

theorem lowercaseCode_far {code : Nat} (far : 0x80 ≤ code) :
    lowercaseCode code = 'k'.toNat ∨ 0x80 ≤ lowercaseCode code := by
  unfold lowercaseCode
  split
  · next first last step distance found =>
    have inside := List.find?_some found
    have bounds : first ≤ code ∧ code ≤ last := by
      simp only [Bool.and_eq_true, decide_eq_true_eq] at inside
      exact inside.1
    rcases lowercaseRanges_far _ (List.mem_of_find?_eq_some found) with near | kelvin | above
    · exact absurd (Nat.lt_of_le_of_lt bounds.2 near) (Nat.not_lt.2 far)
    · cases kelvin
      obtain rfl : code = 0x212A := Nat.le_antisymm bounds.2 bounds.1
      exact .inl rfl
    · dsimp only at above
      omega
  · exact .inr far

theorem ofNat_far {code : Nat} (far : 0x80 ≤ code) :
    (Char.ofNat code).toNat = 0 ∨ 0x80 ≤ (Char.ofNat code).toNat := by
  by_cases valid : code.isValidChar
  · right
    rw [Char.ofNat, dif_pos valid]
    exact far
  · left
    rw [Char.ofNat, dif_neg valid]
    rfl

theorem isUpper_far {c : Char} (far : c.toNat = 0 ∨ 0x80 ≤ c.toNat) : c.isUpper = false := by
  refine decide_eq_false fun upper => ?_
  have first : 65 ≤ c.toNat := UInt32.le_iff_toNat_le.1 upper.1
  have last : c.toNat ≤ 90 := UInt32.le_iff_toNat_le.1 upper.2
  omega

theorem isUpper_toLower {c : Char} (near : c.toNat < 0x80) : c.toLower.isUpper = false := by
  have all : ∀ code < 0x80, (Char.ofNat code).toLower.isUpper = false := by decide
  rw [← Char.ofNat_toNat c]
  exact all _ near

theorem toLower_small {c : Char} (small : c.isUpper = false) : c.toLower = c :=
  dif_neg (of_decide_eq_false small)

theorem mem_lowercaseChar {before behind : List Char} {c lower : Char}
    (mem : lower ∈ lowercaseChar before c behind) :
    c.toNat < 0x80 ∧ lower = c.toLower ∨ lower = 'i' ∨ lower = 'k' ∨
      lower.toNat = 0 ∨ 0x80 ≤ lower.toNat := by
  unfold lowercaseChar at mem
  split at mem
  · rw [List.mem_cons, List.mem_singleton] at mem
    rcases mem with rfl | rfl
    · exact .inr (.inl rfl)
    · exact .inr (.inr (.inr (ofNat_far (by decide))))
  split at mem
  · rw [List.mem_singleton] at mem
    subst mem
    refine .inr (.inr (.inr (ofNat_far ?_)))
    split <;> decide
  split at mem
  · next near => exact .inl ⟨near, List.mem_singleton.1 mem⟩
  · next far =>
    rw [List.mem_singleton] at mem
    subst mem
    rcases lowercaseCode_far (Nat.not_lt.1 far) with kelvin | above
    · rw [kelvin]
      exact .inr (.inr (.inl rfl))
    · exact .inr (.inr (.inr (ofNat_far above)))

theorem lowercaseChar_near (before behind : List Char) {c : Char} (near : c.toNat < 0x80) :
    lowercaseChar before c behind = [c.toLower] := by
  rw [lowercaseChar, if_neg (by omega), if_neg (by omega), if_pos near]

theorem lowercaseChar_ne_nil (before behind : List Char) (c : Char) :
    lowercaseChar before c behind ≠ [] := by
  unfold lowercaseChar
  split
  · exact List.cons_ne_nil _ _
  split
  · exact List.cons_ne_nil _ _
  split <;> exact List.cons_ne_nil _ _

theorem mem_lowercaseBehind {before text : List Char} {lower : Char}
    (mem : lower ∈ lowercaseBehind before text) :
    ∃ before, ∃ c ∈ text, ∃ behind, lower ∈ lowercaseChar before c behind := by
  induction text generalizing before with
  | nil => exact absurd mem List.not_mem_nil
  | cons c text ih =>
      rw [lowercaseBehind, List.mem_append] at mem
      rcases mem with first | more
      · exact ⟨before, c, List.mem_cons_self, text, first⟩
      · obtain ⟨before, c, mem, found⟩ := ih more
        exact ⟨before, c, List.mem_cons_of_mem _ mem, found⟩

theorem exists_mem_lowercaseBehind {before text : List Char} {c : Char} (mem : c ∈ text) :
    ∃ before' behind, ∀ lower ∈ lowercaseChar before' c behind,
      lower ∈ lowercaseBehind before text := by
  induction text generalizing before with
  | nil => exact absurd mem List.not_mem_nil
  | cons first text ih =>
      rw [lowercaseBehind]
      rcases List.mem_cons.1 mem with rfl | mem
      · exact ⟨before, text, fun lower => List.mem_append_left _⟩
      · obtain ⟨before', behind, into⟩ := ih mem
        exact ⟨before', behind, fun lower mem => List.mem_append_right _ (into lower mem)⟩

theorem isUpper_lowercase {text : String} {c : Char} (mem : c ∈ (lowercase text).toList) :
    c.isUpper = false := by
  rw [lowercase, String.toList_ofList] at mem
  obtain ⟨before, c, -, behind, mem⟩ := mem_lowercaseBehind mem
  rcases mem_lowercaseChar mem with ⟨near, rfl⟩ | rfl | rfl | far
  · exact isUpper_toLower near
  · decide
  · decide
  · exact isUpper_far far

theorem lowercaseBehind_self {before text : List Char}
    (plain : ∀ c ∈ text, c.toNat < 0x80 ∧ c.isUpper = false) :
    lowercaseBehind before text = text := by
  induction text generalizing before with
  | nil => rfl
  | cons c text ih =>
      obtain ⟨⟨near, small⟩, plain⟩ := List.forall_mem_cons.1 plain
      rw [lowercaseBehind, lowercaseChar_near _ _ near, ih plain, toLower_small small]
      rfl

theorem lowercase_self {text : String}
    (plain : ∀ c ∈ text.toList, c.toNat < 0x80 ∧ c.isUpper = false) :
    lowercase text = text := by
  rw [lowercase, lowercaseBehind_self plain, String.ofList_toList]

theorem eq_of_lowercase_eq {text lower : String} (eq : lowercase text = lower)
    (latin : ∀ c ∈ lower.toList, 0 < c.toNat ∧ c.toNat < 0x80 ∧ c ≠ 'i' ∧ c ≠ 'k')
    (small : ∀ c ∈ text.toList, c.isUpper = false) : text = lower := by
  rw [← eq]
  refine (lowercase_self fun c mem => ⟨?_, small c mem⟩).symm
  obtain ⟨before, behind, into⟩ := exists_mem_lowercaseBehind mem
  obtain ⟨first, found⟩ := List.exists_mem_of_ne_nil _ (lowercaseChar_ne_nil before behind c)
  have held : first ∈ lower.toList := by
    rw [← eq, lowercase, String.toList_ofList]
    exact into first found
  obtain ⟨positive, near, notI, notK⟩ := latin first held
  rcases mem_lowercaseChar found with ⟨near, -⟩ | isI | isK | far
  · exact near
  · exact absurd isI notI
  · exact absurd isK notK
  · omega

end Blockmark.Text
