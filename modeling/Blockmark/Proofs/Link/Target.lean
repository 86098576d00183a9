import Blockmark.Link.Target
import Blockmark.Proofs.Text.Utf8

/-!
# Link targets written twice

A link target is decoded and its parentheses are escaped, each time it is written. Parentheses are
gone after the first time. What else has been decoded may hold percent sequences of its own, and
those are decoded the next time: a target stays as it is exactly if it has none but those of
parentheses, or cannot be decoded.

Main statements: `percentOctets_escaped`, `length_escaped` and `encodeTarget_stable_iff`.
-/

namespace Blockmark.Link

open Json (hexValue?)
open Text

def octetOf? (a b : Char) : Option UInt8 := do
  let high ← hexValue? a
  let low ← hexValue? b
  return UInt8.ofNat (high * 16 + low)

def leadingOctet? : List Char → Option UInt8
  | '%' :: a :: b :: _ => octetOf? a b
  | _ => none

def escapedOctets : List Char → List UInt8
  | '%' :: a :: b :: rest =>
    match octetOf? a b with
    | some octet => octet :: escapedOctets rest
    | none => escapedOctets (a :: b :: rest)
  | _ :: rest => escapedOctets rest
  | [] => []

def isParenthesis (octet : UInt8) : Bool :=
  octet == 0x28 || octet == 0x29

abbrev escaped (text : List Char) : List Char :=
  text.flatMap escapeParenthesis

/-! ## Percent sequences -/

section

variable {a b c : Char} {text : List Char} {octet : UInt8} {value : Nat}

theorem hexValue?_eq_some (digit : hexValue? c = some value) :
    (c.toNat = value + 0x30 ∧ value < 10) ∨ (c.toNat = value + 0x57 ∧ 10 ≤ value ∧ value < 16) ∨
      c.toNat = value + 0x37 ∧ 10 ≤ value ∧ value < 16 := by
  have le (a b : Char) : a ≤ b ↔ a.toNat ≤ b.toNat := Iff.rfl
  simp only [hexValue?, Bool.and_eq_true, decide_eq_true_eq, le] at digit
  simp only [Char.reduceToNat] at digit
  split_ifs at digit <;> cases digit <;> omega

theorem length_of_digit (digit : hexValue? c = some value) :
    (String.utf8EncodeChar c).length = 1 := by
  have ascii : c.toNat ≤ 127 := by
    have := hexValue?_eq_some digit
    omega
  rw [String.utf8EncodeChar]
  exact congrArg List.length (if_pos ascii)

theorem octetOf?_eq_some (isOctet : octetOf? a b = some octet) :
    ∃ high low, hexValue? a = some high ∧ hexValue? b = some low ∧
      octet = UInt8.ofNat (high * 16 + low) := by
  obtain ⟨high, isHigh, low, isLow, same⟩ :
      ∃ high, hexValue? a = some high ∧ ∃ low, hexValue? b = some low ∧
        UInt8.ofNat (high * 16 + low) = octet := by
    simpa [octetOf?, Option.bind_eq_some_iff] using isOctet
  exact ⟨high, low, isHigh, isLow, same.symm⟩

theorem percentOctets_sequence (isOctet : octetOf? a b = some octet) :
    percentOctets ('%' :: a :: b :: text) = octet :: percentOctets text := by
  obtain ⟨high, low, isHigh, isLow, same⟩ := octetOf?_eq_some isOctet
  rw [percentOctets]
  simp only [isHigh, isLow, same]

theorem percentOctets_other (other : leadingOctet? (c :: text) = none) :
    percentOctets (c :: text) = String.utf8EncodeChar c ++ percentOctets text := by
  by_cases more : c = '%' ∧ ∃ a b rest, text = a :: b :: rest
  · obtain ⟨rfl, a, b, rest, rfl⟩ := more
    rw [percentOctets]
    split
    · next high low isHigh isLow => simp [leadingOctet?, octetOf?, isHigh, isLow] at other
    · rfl
  · exact percentOctets.eq_2 c text fun a b rest isPercent same =>
      more ⟨isPercent, a, b, rest, same⟩

theorem escapedOctets_sequence (isOctet : octetOf? a b = some octet) :
    escapedOctets ('%' :: a :: b :: text) = octet :: escapedOctets text := by
  rw [escapedOctets, isOctet]

theorem escapedOctets_other (other : leadingOctet? (c :: text) = none) :
    escapedOctets (c :: text) = escapedOctets text := by
  by_cases more : c = '%' ∧ ∃ a b rest, text = a :: b :: rest
  · obtain ⟨rfl, a, b, rest, rfl⟩ := more
    rw [escapedOctets, show octetOf? a b = none from other]
  · exact escapedOctets.eq_2 c text fun a b rest isPercent same =>
      more ⟨isPercent, a, b, rest, same⟩

end

theorem percent_induction {motive : List Char → Prop} (nil : motive [])
    (sequence : ∀ {a b : Char} {octet : UInt8} {text : List Char}, octetOf? a b = some octet →
      motive text → motive ('%' :: a :: b :: text))
    (other : ∀ {c : Char} {text : List Char}, leadingOctet? (c :: text) = none →
      motive text → motive (c :: text)) : ∀ text : List Char, motive text
  | [] => nil
  | c :: text => by
      cases leading : leadingOctet? (c :: text) with
      | none => exact other leading (percent_induction nil sequence other text)
      | some octet =>
          unfold leadingOctet? at leading
          split at leading
          · next a b rest same =>
            cases same
            exact sequence leading (percent_induction nil sequence other rest)
          · cases leading

/-! ## Escaped parentheses -/

variable {a b c : Char} {text : List Char} {octet : UInt8}

theorem escapeParenthesis_cases (c : Char) :
    (escapeParenthesis c = [c] ∧ c ≠ '(' ∧ c ≠ ')') ∨
      hexValue? c = none ∧ ∃ more, escapeParenthesis c = '%' :: more := by
  by_cases opening : c = '('
  · exact .inr (opening ▸ ⟨by decide, _, rfl⟩)
  · by_cases closing : c = ')'
    · exact .inr (closing ▸ ⟨by decide, _, rfl⟩)
    · exact .inl ⟨by rw [escapeParenthesis, if_neg opening, if_neg closing], opening, closing⟩

theorem leadingOctet?_of_first (noDigit : hexValue? a = none) (text : List Char) :
    leadingOctet? (c :: a :: text) = none := by
  unfold leadingOctet?
  split
  · next same =>
    cases same
    simp [octetOf?, noDigit]
  · rfl

theorem leadingOctet?_of_second (noDigit : hexValue? b = none) (text : List Char) :
    leadingOctet? (c :: a :: b :: text) = none := by
  unfold leadingOctet?
  split
  · next same =>
    cases same
    simp [octetOf?, noDigit]
  · rfl

theorem leadingOctet?_congr (text more : List Char) :
    leadingOctet? (c :: a :: b :: text) = leadingOctet? (c :: a :: b :: more) := by
  by_cases isPercent : c = '%'
  · rw [isPercent]
    rfl
  · simp [leadingOctet?, isPercent]

theorem leadingOctet?_escaped (c : Char) (text : List Char) :
    leadingOctet? (c :: escaped text) = leadingOctet? (c :: text) := by
  have percent : hexValue? '%' = none := by decide
  match text with
  | [] => rfl
  | a :: text =>
      rw [escaped, List.flatMap_cons]
      obtain ⟨kept, -⟩ | ⟨noDigit, more, gone⟩ := escapeParenthesis_cases a
      · rw [kept, List.singleton_append]
        match text with
        | [] => rfl
        | b :: text =>
            rw [List.flatMap_cons]
            obtain ⟨kept, -⟩ | ⟨noDigit, more, gone⟩ := escapeParenthesis_cases b
            · rw [kept]
              exact leadingOctet?_congr _ _
            · rw [gone, leadingOctet?_of_second noDigit]
              exact leadingOctet?_of_second percent _
      · rw [gone, leadingOctet?_of_first noDigit]
        exact leadingOctet?_of_first percent _

theorem escaped_sequence (isOctet : octetOf? a b = some octet) :
    escaped ('%' :: a :: b :: text) = '%' :: a :: b :: escaped text := by
  have kept {c : Char} (digit : hexValue? c ≠ none) : escapeParenthesis c = [c] := by
    obtain ⟨kept, -⟩ | ⟨noDigit, -⟩ := escapeParenthesis_cases c
    · exact kept
    · exact absurd noDigit digit
  have digitA : hexValue? a ≠ none := fun noDigit => by simp [octetOf?, noDigit] at isOctet
  have digitB : hexValue? b ≠ none := fun noDigit => by simp [octetOf?, noDigit] at isOctet
  simp only [escaped, List.flatMap_cons, kept digitA, kept digitB, List.singleton_append]
  rfl

theorem percentOctets_escaped (text : List Char) :
    percentOctets (escaped text) = percentOctets text := by
  induction text using percent_induction with
  | nil => rfl
  | sequence isOctet ih =>
      rw [escaped_sequence isOctet, percentOctets_sequence isOctet, ih,
        percentOctets_sequence isOctet]
  | @other c text other ih =>
      rw [percentOctets_other other, ← ih, escaped, List.flatMap_cons, ← escaped]
      by_cases opening : c = '('
      · rw [opening]
        exact percentOctets_sequence (a := '2') (b := '8') rfl
      · by_cases closing : c = ')'
        · rw [closing]
          exact percentOctets_sequence (a := '2') (b := '9') rfl
        · rw [escapeParenthesis, if_neg opening, if_neg closing, List.singleton_append,
            percentOctets_other ((leadingOctet?_escaped c text).trans other)]

/-! ## Lengths -/

theorem length_escapeParenthesis (c : Char) :
    (encodeUtf8 (escapeParenthesis c)).length = (String.utf8EncodeChar c).length +
      2 * (String.utf8EncodeChar c).countP isParenthesis := by
  by_cases opening : c = '('
  · rw [opening]
    rfl
  · by_cases closing : c = ')'
    · rw [closing]
      rfl
    · have none : (String.utf8EncodeChar c).countP isParenthesis = 0 := by
        rw [List.countP_eq_zero]
        intro octet mem parenthesis
        have code : octet.toNat = 0x28 ∨ octet.toNat = 0x29 := by
          simpa [isParenthesis, ← UInt8.toNat_inj] using parenthesis
        have same : octet.toNat = c.toNat := toNat_of_mem_utf8EncodeChar mem (by omega)
        rw [same] at code
        exact code.elim (fun code => opening (Char.toNat_inj.1 code))
          fun code => closing (Char.toNat_inj.1 code)
      rw [escapeParenthesis, if_neg opening, if_neg closing, none]
      simp [encodeUtf8]

theorem encodeUtf8_escaped_cons (c : Char) (text : List Char) :
    encodeUtf8 (escaped (c :: text)) =
      encodeUtf8 (escapeParenthesis c) ++ encodeUtf8 (escaped text) := by
  rw [escaped, List.flatMap_cons, encodeUtf8_append]

theorem length_escaped (text : List Char) :
    (encodeUtf8 (escaped text)).length =
      (encodeUtf8 text).length + 2 * (encodeUtf8 text).countP isParenthesis := by
  induction text with
  | nil => rfl
  | cons c text ih =>
      rw [encodeUtf8_escaped_cons, List.length_append, length_escapeParenthesis, ih,
        encodeUtf8_cons, List.length_append, List.countP_append]
      omega

theorem length_escaped_percentOctets (text : List Char) :
    (encodeUtf8 (escaped text)).length + 2 * (escapedOctets text).countP isParenthesis =
      (percentOctets text).length + 2 * (percentOctets text).countP isParenthesis +
        2 * (escapedOctets text).length := by
  induction text using percent_induction with
  | nil => rfl
  | @sequence a b octet text isOctet ih =>
      obtain ⟨high, low, isHigh, isLow, -⟩ := octetOf?_eq_some isOctet
      have percent : (String.utf8EncodeChar '%').length = 1 := rfl
      rw [percentOctets_sequence isOctet, escapedOctets_sequence isOctet, escaped_sequence isOctet]
      simp only [encodeUtf8_cons, List.length_append, List.length_cons, List.countP_cons, percent,
        length_of_digit isHigh, length_of_digit isLow]
      omega
  | @other c text other ih =>
      rw [percentOctets_other other, escapedOctets_other other, encodeUtf8_escaped_cons,
        List.length_append, length_escapeParenthesis, List.length_append, List.countP_append]
      omega

/-! ## Decoding what has been escaped -/

theorem octetOf?_parenthesis (isOctet : octetOf? a b = some octet)
    (parenthesis : isParenthesis octet = true) :
    ∃ c, escapeParenthesis c = ['%', a, b] ∧ String.utf8EncodeChar c = [octet] := by
  obtain ⟨high, low, isHigh, isLow, rfl⟩ := octetOf?_eq_some isOctet
  have codeA := hexValue?_eq_some isHigh
  have codeB := hexValue?_eq_some isLow
  have value : high * 16 + low = 0x28 ∨ high * 16 + low = 0x29 := by
    have octet : (UInt8.ofNat (high * 16 + low)).toNat = high * 16 + low := by
      rw [UInt8.toNat_ofNat', Nat.mod_eq_of_lt (by omega)]
    rw [← octet]
    simpa [isParenthesis, ← UInt8.toNat_inj] using parenthesis
  have two : a = '2' := Char.toNat_inj.1 (show a.toNat = 0x32 by omega)
  rcases value with value | value
  · have eight : b = '8' := Char.toNat_inj.1 (show b.toNat = 0x38 by omega)
    exact ⟨'(', by rw [two, eight]; rfl, by rw [value]; rfl⟩
  · have nine : b = '9' := Char.toNat_inj.1 (show b.toNat = 0x39 by omega)
    exact ⟨')', by rw [two, nine]; rfl, by rw [value]; rfl⟩

theorem exists_of_parentheses (text : List Char)
    (parentheses : ∀ octet ∈ escapedOctets text, isParenthesis octet = true) :
    ∃ decoded, percentOctets text = encodeUtf8 decoded ∧ escaped decoded = escaped text := by
  induction text using percent_induction with
  | nil => exact ⟨[], rfl, rfl⟩
  | @sequence a b octet text isOctet ih =>
      rw [escapedOctets_sequence isOctet] at parentheses
      obtain ⟨parenthesis, parentheses⟩ := List.forall_mem_cons.1 parentheses
      obtain ⟨decoded, octets, same⟩ := ih parentheses
      obtain ⟨c, escape, encode⟩ := octetOf?_parenthesis isOctet parenthesis
      refine ⟨c :: decoded, ?_, ?_⟩
      · rw [percentOctets_sequence isOctet, octets, encodeUtf8_cons, encode, List.singleton_append]
      · rw [escaped_sequence isOctet, escaped, List.flatMap_cons, escape, ← escaped, same]
        rfl
  | @other c text other ih =>
      rw [escapedOctets_other other] at parentheses
      obtain ⟨decoded, octets, same⟩ := ih parentheses
      refine ⟨c :: decoded, ?_, ?_⟩
      · rw [percentOctets_other other, octets, encodeUtf8_cons]
      · rw [escaped, escaped, List.flatMap_cons, List.flatMap_cons, ← escaped, ← escaped, same]

theorem percentDecode?_eq_some_iff {decoded : List Char} :
    percentDecode? text = some decoded ↔ percentOctets text = encodeUtf8 decoded := by
  rw [← decodeUtf8_eq_ok_iff, percentDecode?]
  cases decodeUtf8 (percentOctets text) <;> simp [Except.toOption]

theorem escaped_eq_iff {decoded : List Char} (read : percentDecode? text = some decoded) :
    escaped decoded = escaped text ↔
      ∀ octet ∈ escapedOctets text, isParenthesis octet = true := by
  have octets := percentDecode?_eq_some_iff.1 read
  constructor
  · intro same
    have before := length_escaped_percentOctets text
    have behind := length_escaped decoded
    rw [← octets, same] at behind
    exact List.countP_eq_length.1 (by omega)
  · intro parentheses
    obtain ⟨other, isOther, same⟩ := exists_of_parentheses text parentheses
    have read' := percentDecode?_eq_some_iff.2 isOther
    rw [read] at read'
    cases read'
    exact same

/-! ## Stable targets -/

theorem not_mem_escaped (text : List Char) : '(' ∉ escaped text ∧ ')' ∉ escaped text := by
  have none (c : Char) : '(' ∉ escapeParenthesis c ∧ ')' ∉ escapeParenthesis c := by
    unfold escapeParenthesis
    split
    · decide
    · split
      · decide
      · next opening closing => simp [eq_comm, opening, closing]
  simp only [escaped, List.mem_flatMap, not_exists, not_and]
  exact ⟨fun c _ => (none c).1, fun c _ => (none c).2⟩

theorem escaped_eq_self (opening : '(' ∉ text) (closing : ')' ∉ text) : escaped text = text := by
  have kept : ∀ c ∈ text, escapeParenthesis c = [c] := by
    intro c mem
    have notOpening : c ≠ '(' := fun same => opening (same ▸ mem)
    have notClosing : c ≠ ')' := fun same => closing (same ▸ mem)
    rw [escapeParenthesis, if_neg notOpening, if_neg notClosing]
  rw [escaped, List.flatMap_def, List.map_congr_left kept, ← List.flatMap_def]
  exact List.flatMap_singleton' text

theorem encodeTargetChars_escaped_iff (text : List Char) :
    encodeTargetChars (escaped text) = escaped text ↔
      percentDecode? text = none ∨ ∀ octet ∈ escapedOctets text, isParenthesis octet = true := by
  have same : percentDecode? (escaped text) = percentDecode? text := by
    rw [percentDecode?, percentOctets_escaped, percentDecode?]
  rw [encodeTargetChars, same]
  cases read : percentDecode? text with
  | none =>
      obtain ⟨opening, closing⟩ := not_mem_escaped text
      exact iff_of_true (escaped_eq_self opening closing) (.inl rfl)
  | some decoded =>
      rw [Option.getD_some, escaped_eq_iff read]
      simp

/-- A target never has parentheses in it. Written again it stays the same exactly if what was
decoded cannot be decoded once more, or has no percent sequences but those of parentheses. -/
theorem encodeTarget_stable_iff (url : String) :
    ('(' ∉ (encodeTarget url).toList ∧ ')' ∉ (encodeTarget url).toList) ∧
      let decoded := (percentDecode? url.toList).getD url.toList
      (encodeTarget (encodeTarget url) = encodeTarget url ↔
        percentDecode? decoded = none ∨
          ∀ octet ∈ escapedOctets decoded, isParenthesis octet = true) := by
  have chars : (encodeTarget url).toList =
      escaped ((percentDecode? url.toList).getD url.toList) := String.toList_ofList
  constructor
  · rw [chars]
    exact not_mem_escaped _
  · intro decoded
    rw [← String.toList_inj, encodeTarget, String.toList_ofList, chars]
    exact encodeTargetChars_escaped_iff decoded

/-- A percent sign that was escaped itself, in front of two digits. -/
theorem percentSign_decodedAgain :
    encodeTarget "%2541" = "%41" ∧ encodeTarget (encodeTarget "%2541") = "A" ∧
      encodeTarget (encodeTarget "%2541") ≠ encodeTarget "%2541" := by
  decide +kernel

end Blockmark.Link
