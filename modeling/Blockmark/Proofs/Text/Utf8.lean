import Mathlib.Tactic.IntervalCases
import Mathlib.Tactic.SplitIfs
import Blockmark.Text.Utf8

/-!
# Reading what is written in UTF-8

The octets of a character are read as that character, whatever stands before and behind them, and
no other octets are read as text.

Main statements: `decodeUtf8_encodeUtf8` and `decodeUtf8_eq_ok_iff`.
-/

namespace Blockmark.Text

section

variable {start n : Nat} {before : List Char} {rest : List UInt8} {sequence : OpenSequence}

theorem readUtf8_single (small : n < 0x80) :
    readUtf8 start none before (UInt8.ofNat n :: rest) =
      readUtf8 (start + 1) none (Char.ofNat n :: before) rest := by
  have octet : (UInt8.ofNat n).toNat = n := by
    rw [UInt8.toNat_ofNat']
    exact Nat.mod_eq_of_lt (by omega)
  have isSmall : UInt8.ofNat n < 0x80 := by
    rw [UInt8.lt_iff_toNat_lt, octet]
    exact small
  rw [readUtf8]
  simp only [if_pos isSmall, octet]

theorem readUtf8_lead (large : 0x80 ≤ n ∧ n < 0x100)
    (opens : OpenSequence.ofLead? (UInt8.ofNat n) = some sequence) :
    readUtf8 start none before (UInt8.ofNat n :: rest) =
      readUtf8 start (some sequence) before rest := by
  have isLarge : ¬ UInt8.ofNat n < 0x80 := by
    rw [UInt8.lt_iff_toNat_lt, UInt8.toNat_ofNat', Nat.mod_eq_of_lt (by omega)]
    exact Nat.not_lt.2 large.1
  rw [readUtf8]
  simp only [if_neg isLarge, opens]

theorem readUtf8_inside (small : n < 0x100)
    (allowed : sequence.low.toNat ≤ n ∧ n ≤ sequence.high.toNat) :
    readUtf8 start (some sequence) before (UInt8.ofNat n :: rest) =
      if sequence.missing ≤ 1 then
        readUtf8 (start + sequence.seen + 1) none
          (Char.ofNat (sequence.value * 64 + (n - 0x80)) :: before) rest
      else readUtf8 start (some ⟨sequence.value * 64 + (n - 0x80), sequence.seen + 1,
        sequence.missing - 1, 0x80, 0xBF⟩) before rest := by
  have octet : (UInt8.ofNat n).toNat = n := by
    rw [UInt8.toNat_ofNat']
    exact Nat.mod_eq_of_lt small
  have isAllowed : (decide (UInt8.ofNat n < sequence.low) ||
      decide (sequence.high < UInt8.ofNat n)) = false := by
    simp only [UInt8.lt_iff_toNat_lt, octet, Bool.or_eq_false_iff, decide_eq_false_iff_not]
    omega
  rw [readUtf8]
  simp only [isAllowed, octet, Bool.false_eq_true, if_false]

end

theorem ofLead?_two {k : Nat} (low : 2 ≤ k) (high : k < 32) :
    OpenSequence.ofLead? (UInt8.ofNat (k + 192)) = some ⟨k, 1, 1, 0x80, 0xBF⟩ := by
  interval_cases k <;> rfl

theorem ofLead?_three {k : Nat} (high : k < 16) :
    OpenSequence.ofLead? (UInt8.ofNat (k + 224)) =
      some ⟨k, 1, 2, if k = 0 then 0xA0 else 0x80, if k = 13 then 0x9F else 0xBF⟩ := by
  interval_cases k <;> rfl

theorem ofLead?_four {k : Nat} (high : k < 5) :
    OpenSequence.ofLead? (UInt8.ofNat (k + 240)) =
      some ⟨k, 1, 3, if k = 0 then 0x90 else 0x80, if k = 4 then 0x8F else 0xBF⟩ := by
  interval_cases k <;> rfl

theorem readUtf8_tail {start value seen missing n : Nat} {before : List Char}
    {rest : List UInt8} (bits : n < 64) :
    readUtf8 start (some ⟨value, seen, missing, 0x80, 0xBF⟩) before
        (UInt8.ofNat (n + 128) :: rest) =
      if missing ≤ 1 then
        readUtf8 (start + seen + 1) none (Char.ofNat (value * 64 + n) :: before) rest
      else readUtf8 start (some ⟨value * 64 + n, seen + 1, missing - 1, 0x80, 0xBF⟩)
        before rest := by
  have allowed : (0x80 : UInt8).toNat ≤ n + 128 ∧ n + 128 ≤ (0xBF : UInt8).toNat := by
    refine ⟨?_, ?_⟩
    · show 128 ≤ n + 128
      omega
    · show n + 128 ≤ 191
      omega
  rw [readUtf8_inside (by omega) allowed]
  rw [show n + 128 - 0x80 = n by omega]

theorem readUtf8_utf8EncodeChar (c : Char) (start : Nat) (before : List Char)
    (rest : List UInt8) :
    readUtf8 start none before (String.utf8EncodeChar c ++ rest) =
      readUtf8 (start + (String.utf8EncodeChar c).length) none (c :: before) rest := by
  have valid : c.toNat < 0xD800 ∨ 0xDFFF < c.toNat ∧ c.toNat < 0x110000 := c.valid
  have isCode : Char.ofNat c.toNat = c := Char.ofNat_toNat c
  have code : c.val.toNat = c.toNat := rfl
  rw [String.utf8EncodeChar]
  simp only [code]
  generalize c.toNat = n at valid isCode
  split_ifs with one two three
  · exact isCode ▸ readUtf8_single (by omega)
  · have value : n / 64 % 32 * 64 + n % 64 = n := by omega
    simp only [List.cons_append, List.nil_append]
    rw [readUtf8_lead (by omega) (ofLead?_two (by omega) (by omega)),
      readUtf8_tail (by omega), if_pos (by decide), value, isCode]
    rfl
  · have value : (n / 4096 % 16 * 64 + n / 64 % 64) * 64 + n % 64 = n := by omega
    -- The range of the second octet is narrower behind two of the first octets.
    have allowed : (if n / 4096 % 16 = 0 then (0xA0 : UInt8) else 0x80).toNat ≤
          n / 64 % 64 + 128 ∧
        n / 64 % 64 + 128 ≤ (if n / 4096 % 16 = 13 then (0x9F : UInt8) else 0xBF).toNat := by
      split_ifs <;> simp only [UInt8.reduceToNat] <;> omega
    simp only [List.cons_append, List.nil_append]
    rw [readUtf8_lead (by omega) (ofLead?_three (by omega)),
      readUtf8_inside (by omega) allowed, if_neg (by simp)]
    simp only [Nat.add_sub_cancel]
    rw [readUtf8_tail (by omega), if_pos (by decide), value, isCode]
    rfl
  · have value : ((n / 262144 % 8 * 64 + n / 4096 % 64) * 64 + n / 64 % 64) * 64 + n % 64 = n := by
      omega
    have allowed : (if n / 262144 % 8 = 0 then (0x90 : UInt8) else 0x80).toNat ≤
          n / 4096 % 64 + 128 ∧
        n / 4096 % 64 + 128 ≤ (if n / 262144 % 8 = 4 then (0x8F : UInt8) else 0xBF).toNat := by
      split_ifs <;> simp only [UInt8.reduceToNat] <;> omega
    simp only [List.cons_append, List.nil_append]
    rw [readUtf8_lead (by omega) (ofLead?_four (by omega)),
      readUtf8_inside (by omega) allowed, if_neg (by simp)]
    simp only [Nat.add_sub_cancel]
    rw [readUtf8_tail (by omega), if_neg (by decide), readUtf8_tail (by omega),
      if_pos (by decide), value, isCode]
    rfl

theorem encodeUtf8_cons (c : Char) (text : List Char) :
    encodeUtf8 (c :: text) = String.utf8EncodeChar c ++ encodeUtf8 text := rfl

theorem encodeUtf8_append (first second : List Char) :
    encodeUtf8 (first ++ second) = encodeUtf8 first ++ encodeUtf8 second := List.flatMap_append

theorem decodeUtf8_encodeUtf8 (text : List Char) : decodeUtf8 (encodeUtf8 text) = .ok text := by
  have read (start : Nat) (before : List Char) :
      readUtf8 start none before (encodeUtf8 text) = .ok (before.reverse ++ text) := by
    induction text generalizing start before with
    | nil => simp [encodeUtf8, readUtf8]
    | cons c text ih =>
        rw [encodeUtf8, List.flatMap_cons, readUtf8_utf8EncodeChar]
        refine (ih _ _).trans ?_
        simp
  exact read 0 []

theorem toNat_of_mem_utf8EncodeChar {c : Char} {octet : UInt8}
    (mem : octet ∈ String.utf8EncodeChar c) (small : octet.toNat < 0x80) :
    octet.toNat = c.toNat := by
  have code : c.val.toNat = c.toNat := rfl
  rw [String.utf8EncodeChar] at mem
  simp only [code] at mem
  split_ifs at mem with one
  · obtain rfl := List.mem_singleton.1 mem
    rw [UInt8.toNat_ofNat', Nat.mod_eq_of_lt (by omega)]
  all_goals
    simp only [List.mem_cons, List.not_mem_nil, or_false] at mem
    rcases mem with rfl | rfl | rfl | rfl <;> rw [UInt8.toNat_ofNat'] at small <;> omega

/-! ## Reading back -/

theorem val_ofNat {n : Nat} (valid : n < 0xD800 ∨ 0xDFFF < n ∧ n < 0x110000) :
    (Char.ofNat n).val.toNat = n := by
  rw [Char.ofNat, dif_pos (show n.isValidChar from valid)]
  rfl

theorem utf8EncodeChar_one {n : Nat} (small : n < 0x80) :
    String.utf8EncodeChar (Char.ofNat n) = [UInt8.ofNat n] := by
  rw [String.utf8EncodeChar]
  simp only [val_ofNat (.inl (Nat.lt_trans small (by decide)))]
  rw [if_pos (Nat.le_of_lt_succ small)]

theorem utf8EncodeChar_two {k a : Nat} (lead : 2 ≤ k ∧ k < 32) (tail : a < 64) :
    String.utf8EncodeChar (Char.ofNat (k * 64 + a)) =
      [UInt8.ofNat (k + 192), UInt8.ofNat (a + 128)] := by
  have code : (Char.ofNat (k * 64 + a)).val.toNat = k * 64 + a := val_ofNat (.inl (by omega))
  rw [String.utf8EncodeChar]
  simp only [code]
  rw [if_neg (by omega), if_pos (by omega), show (k * 64 + a) / 64 % 32 = k by omega,
    show (k * 64 + a) % 64 = a by omega]

theorem utf8EncodeChar_three {k a b : Nat} (lead : k < 16) (first : a < 64) (second : b < 64)
    (long : k = 0 → 32 ≤ a) (noSurrogate : k = 13 → a < 32) :
    String.utf8EncodeChar (Char.ofNat ((k * 64 + a) * 64 + b)) =
      [UInt8.ofNat (k + 224), UInt8.ofNat (a + 128), UInt8.ofNat (b + 128)] := by
  have code : (Char.ofNat ((k * 64 + a) * 64 + b)).val.toNat = (k * 64 + a) * 64 + b :=
    val_ofNat (by omega)
  rw [String.utf8EncodeChar]
  simp only [code]
  rw [if_neg (by omega), if_neg (by omega), if_pos (by omega),
    show ((k * 64 + a) * 64 + b) / 4096 % 16 = k by omega,
    show ((k * 64 + a) * 64 + b) / 64 % 64 = a by omega,
    show ((k * 64 + a) * 64 + b) % 64 = b by omega]

theorem utf8EncodeChar_four {k a b c : Nat} (lead : k < 5) (first : a < 64) (second : b < 64)
    (third : c < 64) (long : k = 0 → 16 ≤ a) (short : k = 4 → a < 16) :
    String.utf8EncodeChar (Char.ofNat (((k * 64 + a) * 64 + b) * 64 + c)) =
      [UInt8.ofNat (k + 240), UInt8.ofNat (a + 128), UInt8.ofNat (b + 128),
        UInt8.ofNat (c + 128)] := by
  have code : (Char.ofNat (((k * 64 + a) * 64 + b) * 64 + c)).val.toNat =
      ((k * 64 + a) * 64 + b) * 64 + c := val_ofNat (by omega)
  rw [String.utf8EncodeChar]
  simp only [code]
  rw [if_neg (by omega), if_neg (by omega), if_neg (by omega),
    show (((k * 64 + a) * 64 + b) * 64 + c) / 262144 % 8 = k by omega,
    show (((k * 64 + a) * 64 + b) * 64 + c) / 4096 % 64 = a by omega,
    show (((k * 64 + a) * 64 + b) * 64 + c) / 64 % 64 = b by omega,
    show (((k * 64 + a) * 64 + b) * 64 + c) % 64 = c by omega]

section

variable {start : Nat} {before text : List Char} {octet : UInt8} {octets rest : List UInt8}
  {sequence : OpenSequence}

theorem ofLead?_eq_some (opens : OpenSequence.ofLead? octet = some sequence) :
    (∃ k, 2 ≤ k ∧ k < 32 ∧ octet = UInt8.ofNat (k + 192) ∧
        sequence = ⟨k, 1, 1, 0x80, 0xBF⟩) ∨
      (∃ k, k < 16 ∧ octet = UInt8.ofNat (k + 224) ∧ sequence =
        ⟨k, 1, 2, if k = 0 then 0xA0 else 0x80, if k = 13 then 0x9F else 0xBF⟩) ∨
      ∃ k, k < 5 ∧ octet = UInt8.ofNat (k + 240) ∧ sequence =
        ⟨k, 1, 3, if k = 0 then 0x90 else 0x80, if k = 4 then 0x8F else 0xBF⟩ := by
  have isOctet : octet = UInt8.ofNat octet.toNat := UInt8.ofNat_toNat.symm
  rw [OpenSequence.ofLead?] at opens
  generalize octet.toNat = n at opens isOctet
  by_cases two : n < 224
  · refine .inl ⟨n - 192, ?_⟩
    grind
  · by_cases three : n < 240
    · refine .inr (.inl ⟨n - 224, ?_⟩)
      grind
    · refine .inr (.inr ⟨n - 240, ?_⟩)
      grind


theorem readUtf8_some_ok (read : readUtf8 start (some sequence) before octets = .ok text)
    (low : 128 ≤ sequence.low.toNat) :
    ∃ a rest, octets = UInt8.ofNat (a + 128) :: rest ∧ sequence.low.toNat ≤ a + 128 ∧
      a + 128 ≤ sequence.high.toNat ∧
      (if sequence.missing ≤ 1 then
        readUtf8 (start + sequence.seen + 1) none
          (Char.ofNat (sequence.value * 64 + a) :: before) rest
      else readUtf8 start (some ⟨sequence.value * 64 + a, sequence.seen + 1,
        sequence.missing - 1, 0x80, 0xBF⟩) before rest) = .ok text := by
  cases octets with
  | nil => cases read
  | cons octet rest =>
      by_cases allowed : sequence.low.toNat ≤ octet.toNat ∧ octet.toNat ≤ sequence.high.toNat
      · obtain ⟨a, isOctet⟩ : ∃ a, octet.toNat = a + 128 :=
          ⟨octet.toNat - 128, by omega⟩
        have same : octet = UInt8.ofNat (a + 128) := by rw [← isOctet, UInt8.ofNat_toNat]
        rw [isOctet] at allowed
        rw [same, readUtf8_inside (isOctet ▸ octet.toNat_lt) allowed, Nat.add_sub_cancel] at read
        exact ⟨a, rest, by rw [same], allowed.1, allowed.2, read⟩
      · have refused :
            (decide (octet < sequence.low) || decide (sequence.high < octet)) = true := by
          simp only [UInt8.lt_iff_toNat_lt, Bool.or_eq_true, decide_eq_true_eq]
          omega
        rw [readUtf8] at read
        simp only [refused, if_true] at read
        cases read

theorem readUtf8_tail_ok {value seen missing : Nat}
    (read : readUtf8 start (some ⟨value, seen, missing, 0x80, 0xBF⟩) before octets = .ok text) :
    ∃ a rest, a < 64 ∧ octets = UInt8.ofNat (a + 128) :: rest ∧
      (if missing ≤ 1 then
        readUtf8 (start + seen + 1) none (Char.ofNat (value * 64 + a) :: before) rest
      else readUtf8 start (some ⟨value * 64 + a, seen + 1, missing - 1, 0x80, 0xBF⟩)
        before rest) = .ok text := by
  obtain ⟨a, rest, same, -, high, read⟩ := readUtf8_some_ok read (Nat.le_refl 128)
  exact ⟨a, rest, Nat.lt_of_add_lt_add_right (Nat.lt_succ_of_le high), same, read⟩

theorem readUtf8_none_ok (read : readUtf8 start none before (octet :: octets) = .ok text) :
    ∃ c later rest, octet :: octets = String.utf8EncodeChar c ++ rest ∧
      readUtf8 later none (c :: before) rest = .ok text := by
  by_cases small : octet < 0x80
  · have one : octet.toNat < 0x80 := UInt8.lt_iff_toNat_lt.1 small
    rw [readUtf8] at read
    simp only [small, if_true] at read
    refine ⟨_, _, octets, ?_, read⟩
    rw [utf8EncodeChar_one one, UInt8.ofNat_toNat, List.singleton_append]
  · rw [readUtf8] at read
    simp only [small, if_false] at read
    split at read
    · cases read
    · next sequence opens =>
      obtain ⟨k, low, high, rfl, rfl⟩ | ⟨k, high, rfl, rfl⟩ | ⟨k, high, rfl, rfl⟩ :=
        ofLead?_eq_some opens
      · obtain ⟨a, rest, bits, rfl, behind⟩ := readUtf8_tail_ok read
        refine ⟨_, _, rest, ?_, behind⟩
        rw [utf8EncodeChar_two ⟨low, high⟩ bits]
        rfl
      · have least : 128 ≤ (if k = 0 then (0xA0 : UInt8) else 0x80).toNat := by
          split <;> decide
        obtain ⟨a, rest, rfl, lowA, highA, second⟩ := readUtf8_some_ok read least
        obtain ⟨b, rest, bits, rfl, behind⟩ := readUtf8_tail_ok second
        refine ⟨_, _, rest, ?_, behind⟩
        have rangeA : a < 64 ∧ (k = 0 → 32 ≤ a) ∧ (k = 13 → a < 32) := by
          dsimp only at lowA highA
          split_ifs at lowA highA <;> simp only [UInt8.reduceToNat] at lowA highA <;> omega
        rw [utf8EncodeChar_three high rangeA.1 bits rangeA.2.1 rangeA.2.2]
        rfl
      · have least : 128 ≤ (if k = 0 then (0x90 : UInt8) else 0x80).toNat := by
          split <;> decide
        obtain ⟨a, rest, rfl, lowA, highA, second⟩ := readUtf8_some_ok read least
        obtain ⟨b, rest, bitsB, rfl, third⟩ := readUtf8_tail_ok second
        obtain ⟨c, rest, bitsC, rfl, behind⟩ := readUtf8_tail_ok third
        refine ⟨_, _, rest, ?_, behind⟩
        have rangeA : a < 64 ∧ (k = 0 → 16 ≤ a) ∧ (k = 4 → a < 16) := by
          dsimp only at lowA highA
          split_ifs at lowA highA <;> simp only [UInt8.reduceToNat] at lowA highA <;> omega
        rw [utf8EncodeChar_four high rangeA.1 bitsB bitsC rangeA.2.1 rangeA.2.2]
        rfl

theorem encodeUtf8_of_readUtf8 (octets : List UInt8) (start : Nat) (before : List Char)
    (read : readUtf8 start none before octets = .ok text) :
    ∃ characters, text = before.reverse ++ characters ∧ octets = encodeUtf8 characters := by
  cases octets with
  | nil =>
      cases read
      exact ⟨[], (List.append_nil _).symm, rfl⟩
  | cons octet octets =>
      obtain ⟨c, later, rest, split, read⟩ := readUtf8_none_ok read
      have shorter : rest.length < (octet :: octets).length := by
        rw [split, List.length_append]
        exact Nat.lt_add_of_pos_left (List.length_pos_iff.2 String.utf8EncodeChar_ne_nil)
      obtain ⟨characters, rfl, rfl⟩ := encodeUtf8_of_readUtf8 rest later (c :: before) read
      exact ⟨c :: characters, by simp, split⟩
termination_by octets.length

end

theorem decodeUtf8_eq_ok_iff {octets : List UInt8} {text : List Char} :
    decodeUtf8 octets = .ok text ↔ octets = encodeUtf8 text := by
  constructor
  · intro read
    obtain ⟨characters, rfl, same⟩ := encodeUtf8_of_readUtf8 octets 0 [] read
    exact same
  · rintro rfl
    exact decodeUtf8_encodeUtf8 text

end Blockmark.Text
