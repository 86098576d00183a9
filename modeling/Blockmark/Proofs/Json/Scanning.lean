import Blockmark.Json.Lexer
import Blockmark.Json.Printer

/-!
# Scanning printed tokens

The tokens that are found in printed strings, numbers and words. What follows a number has to end
it; everything else ends by itself.

Main statements: `nextToken?_stringText`, `nextToken?_numberText` and `run_of_next`.
-/

namespace Blockmark.Json

/-! ## Strings -/

theorem hexValue?_hexDigit : ∀ n, n < 16 → hexValue? (hexDigit n) = some n := by
  decide

theorem hexValue4?_control {n : Nat} (control : n < 0x20) :
    hexValue4? '0' '0' (hexDigit (n / 16)) (hexDigit (n % 16)) = some n := by
  have zero : hexValue? '0' = some 0 := by decide
  simp only [hexValue4?, zero, hexValue?_hexDigit (n / 16) (by omega),
    hexValue?_hexDigit (n % 16) (by omega)]
  exact congrArg some (by omega)

theorem readString_plain {before : List Char} {unpaired : Bool} {c : Char} {rest : List Char}
    (quote : c ≠ '"') (backslash : c ≠ '\\') (plain : ¬ c.toNat < 0x20) :
    readString before unpaired (c :: rest) = readString (c :: before) unpaired rest := by
  rw [readString.eq_def]
  split <;> next same =>
    cases same <;> first
      | exact absurd rfl quote
      | exact absurd rfl backslash
      | exact if_neg plain

theorem readString_escapeChar (before : List Char) (unpaired : Bool) (c : Char)
    (rest : List Char) :
    readString before unpaired (escapeChar c ++ rest) = readString (c :: before) unpaired rest := by
  unfold escapeChar
  split
  · next eq => subst eq; rfl
  split
  · next eq => subst eq; rfl
  split
  · next eq => subst eq; rfl
  split
  · next eq => subst eq; rfl
  split
  · next eq => subst eq; rfl
  split
  · next eq => subst eq; rfl
  split
  · next eq => subst eq; rfl
  split
  · next control =>
    -- A control character is far below the surrogates.
    have low : ¬ 0xD800 ≤ c.toNat := by omega
    have high : ¬ 0xDC00 ≤ c.toNat := by omega
    rw [List.cons_append, List.cons_append, List.cons_append, List.cons_append, List.cons_append,
      List.cons_append, List.nil_append, readString, hexValue4?_control control]
    simp only [low, high, decide_false, Bool.false_and, Bool.false_eq_true, ↓reduceIte,
      Char.ofNat_toNat]
  · next quote backslash _ _ _ _ _ plain => exact readString_plain quote backslash plain

theorem readString_escaped (before text rest : List Char) :
    readString before false (text.flatMap escapeChar ++ '"' :: rest) =
      .closed (some (String.ofList (before.reverse ++ text))) rest := by
  induction text generalizing before with
  | nil => simp [readString]
  | cons c text ih =>
      rw [List.flatMap_cons, List.append_assoc, readString_escapeChar, ih]
      simp

theorem nextToken?_stringText (s : String) (rest : List Char) :
    nextToken? (stringText s ++ rest) = some (.string (some s), rest) := by
  have read := readString_escaped [] s.toList rest
  simp only [List.reverse_nil, List.nil_append, String.ofList_toList] at read
  have blank : isJsonBlank '"' = false := by decide
  simp only [stringText, List.cons_append, List.append_assoc, List.nil_append, nextToken?,
    List.dropWhile_cons, blank, Bool.false_eq_true, ↓reduceIte, readToken, read]

/-! ## Numbers -/

/-- What may follow a number: nothing that a number could go on with. -/
def EndsNumber (rest : List Char) : Prop :=
  ∀ c ∈ rest.head?, Text.isDigit c = false ∧ c ≠ '.' ∧ c ≠ 'e' ∧ c ≠ 'E'

theorem endsNumber_nil : EndsNumber [] := by
  simp [EndsNumber]

theorem isDigit_of_mem_natText {n : Nat} {c : Char} (mem : c ∈ natText n) :
    Text.isDigit c = true := by
  have digit := Nat.isDigit_of_mem_toDigits (by decide) (by decide) mem
  simpa [Text.isDigit, Char.isDigit, Char.le_def] using digit

theorem spanDigits_natText {n : Nat} {rest : List Char}
    (ends : ∀ c ∈ rest.head?, Text.isDigit c = false) :
    spanDigits (natText n ++ rest) = (natText n, rest) := by
  have digits : ∀ c ∈ natText n, Text.isDigit c = true := fun c => isDigit_of_mem_natText
  rw [spanDigits, List.takeWhile_append_of_pos digits, List.dropWhile_append_of_pos digits]
  cases rest with
  | nil => simp
  | cons c rest =>
      have stop : ¬ Text.isDigit c = true := by simpa using ends c rfl
      rw [List.takeWhile_cons_of_neg stop, List.dropWhile_cons_of_neg stop, List.append_nil]

theorem natOfDigits_natText (n : Nat) : natOfDigits (natText n) = n := by
  have eq : natOfDigits (natText n) = Nat.ofDigitChars 10 (natText n) 0 := by
    rw [natOfDigits, Nat.ofDigitChars_eq_foldl]
    congr 1
    funext value c
    rw [Nat.mul_comm]
    rfl
  rw [eq, natText, Nat.ofDigitChars_ten_toDigits]

theorem head?_natText_ne {n : Nat} (positive : 0 < n) : (natText n).head? ≠ some '0' := by
  induction n using Nat.strongRecOn with
  | ind n ih =>
      by_cases small : n < 10
      · rw [natText, Nat.toDigits_of_lt_base small]
        simpa using Nat.ne_of_gt positive
      · have first := ih (n / 10) (by omega) (by omega)
        rw [natText] at first ⊢
        rw [Nat.toDigits_of_base_le (by decide) (by omega), List.head?_append]
        cases lead : (Nat.toDigits 10 (n / 10)).head? with
        | none => exact absurd (List.head?_eq_none_iff.1 lead) Nat.toDigits_ne_nil
        | some c => simpa [lead] using first

theorem digitChar_of_isDigit {c : Char} (digit : Text.isDigit c = true) :
    Nat.digitChar (c.toNat - 0x30) = c ∧ c.toNat - 0x30 < 10 := by
  have range : 0x30 ≤ c.toNat ∧ c.toNat ≤ 0x39 := by
    simpa [Text.isDigit, Char.le_def, UInt32.le_iff_toNat_le] using digit
  refine ⟨Char.toNat_inj.1 ?_, by omega⟩
  rw [Nat.toNat_digitChar_of_lt_ten (by omega)]
  omega

theorem natText_append_digits {n : Nat} (positive : 0 < n) {digits : List Char}
    (each : ∀ c ∈ digits, Text.isDigit c = true) :
    natText n ++ digits =
      natText (digits.foldl (fun n c => n * 10 + (c.toNat - 0x30)) n) := by
  induction digits generalizing n with
  | nil => exact List.append_nil _
  | cons c digits ih =>
      obtain ⟨isChar, small⟩ := digitChar_of_isDigit (each c List.mem_cons_self)
      have longer : natText n ++ [c] = natText (n * 10 + (c.toNat - 0x30)) := by
        have shape := Nat.toDigits_append_toDigits (b := 10) (by decide) positive small
        rw [Nat.toDigits_of_lt_base small, isChar, Nat.mul_comm] at shape
        exact shape
      rw [List.foldl_cons, ← ih (by omega) fun c mem => each c (List.mem_cons_of_mem _ mem),
        ← longer, List.append_assoc]
      rfl

theorem natText_natOfDigits {digits : List Char} (some : digits ≠ [])
    (each : ∀ c ∈ digits, Text.isDigit c = true)
    (lead : digits.head? = .some '0' → digits = ['0']) :
    natText (natOfDigits digits) = digits := by
  cases digits with
  | nil => exact absurd rfl some
  | cons c digits =>
      obtain ⟨isChar, small⟩ := digitChar_of_isDigit (each c List.mem_cons_self)
      by_cases zero : c = '0'
      · rw [lead (by rw [zero]; rfl)]
        rfl
      · have positive : 0 < c.toNat - 0x30 := by
          refine Nat.pos_of_ne_zero fun none => ?_
          rw [none] at isChar
          exact zero isChar.symm
        have first : natText (c.toNat - 0x30) = [c] := by
          rw [natText, Nat.toDigits_of_lt_base small, isChar]
        rw [natOfDigits, List.foldl_cons, Nat.zero_mul, Nat.zero_add,
          ← natText_append_digits positive fun c mem => each c (List.mem_cons_of_mem _ mem), first]
        rfl

theorem not_leading_zero (n : Nat) :
    ¬ (1 < (natText n).length ∧ (natText n).head? = some '0') := by
  rintro ⟨long, zero⟩
  rcases Nat.eq_zero_or_pos n with rfl | positive
  · simp [natText] at long
  · exact head?_natText_ne positive zero

theorem isEmpty_natText (n : Nat) : (natText n).isEmpty = false := by
  simp [natText]

theorem readUnsigned_whole (negative : Bool) (n : Nat) {rest : List Char}
    (ends : EndsNumber rest) :
    readUnsigned negative (natText n ++ rest) = (.number (.whole negative n), rest) := by
  have fraction : readFraction rest = .ok (none, rest) := by
    unfold readFraction
    split
    · next tail => exact absurd rfl (ends '.' rfl).2.1
    · rfl
  have exponent : readExponent rest = .ok (none, rest) := by
    unfold readExponent
    split
    · next mark tail =>
      have := ends mark rfl
      simp [this.2.2.1, this.2.2.2]
    · rfl
  simp [readUnsigned, spanDigits_natText fun c mem => (ends c mem).1, isEmpty_natText,
    not_leading_zero, fraction, exponent, natOfDigits_natText]

theorem readUnsigned_decimal (negative : Bool) (significand : Nat) (exponent : Int)
    {rest : List Char} (ends : EndsNumber rest) :
    readUnsigned negative (natText significand ++ ('e' :: ((if exponent < 0 then ['-'] else []) ++
        natText exponent.natAbs ++ rest))) =
      (.number (.decimal negative significand exponent), rest) := by
  have sign : readSign ((if exponent < 0 then ['-'] else []) ++ natText exponent.natAbs ++ rest) =
      (decide (exponent < 0), natText exponent.natAbs ++ rest) := by
    split
    · next below => simp [readSign, below]
    · next above =>
      obtain ⟨c, digits, eq⟩ := List.exists_cons_of_ne_nil
        (Nat.toDigits_ne_nil (n := exponent.natAbs) (b := 10))
      have digit : Text.isDigit c = true := isDigit_of_mem_natText (n := exponent.natAbs)
        (by rw [natText, eq]; exact List.mem_cons_self)
      rw [natText, eq]
      unfold readSign
      split <;> simp_all [Text.isDigit]
  have mark : readFraction ('e' :: ((if exponent < 0 then ['-'] else []) ++
      natText exponent.natAbs ++ rest)) = .ok (none, _) := rfl
  have value : (if exponent < 0 then -(exponent.natAbs : Int) else exponent.natAbs) = exponent := by
    split <;> omega
  have lead : ∀ c ∈ ('e' :: ((if exponent < 0 then ['-'] else []) ++
      natText exponent.natAbs ++ rest)).head?, Text.isDigit c = false := by
    simp only [List.head?_cons, Option.mem_some_iff, forall_eq']
    decide
  simp only [readUnsigned, spanDigits_natText lead, isEmpty_natText, not_leading_zero, mark,
    readExponent, sign, spanDigits_natText fun c mem => (ends c mem).1, natOfDigits_natText,
    true_or, Bool.false_eq_true, ↓reduceIte, Option.getD_none, List.append_nil, Option.getD_some,
    decide_eq_true_eq, value, List.length_nil]
  simp

theorem readToken_digit {c : Char} {rest : List Char} (digit : Text.isDigit c = true) :
    readToken c rest = readUnsigned false (c :: rest) := by
  unfold readToken
  split <;> first
    | rw [if_pos digit]
    | exact absurd digit (by decide)

theorem not_isJsonBlank_of_isDigit {c : Char} (digit : Text.isDigit c = true) :
    isJsonBlank c = false := by
  rw [← Bool.not_eq_true]
  intro blank
  simp only [isJsonBlank, Bool.or_eq_true, beq_iff_eq] at blank
  rcases blank with ((rfl | rfl) | rfl) | rfl <;> exact absurd digit (by decide)

theorem nextToken?_digits {n : Nat} {rest : List Char} :
    nextToken? (natText n ++ rest) = some (readUnsigned false (natText n ++ rest)) := by
  obtain ⟨c, digits, eq⟩ := List.exists_cons_of_ne_nil (Nat.toDigits_ne_nil (n := n) (b := 10))
  have digit : Text.isDigit c = true := isDigit_of_mem_natText (n := n)
    (by rw [natText, eq]; exact List.mem_cons_self)
  rw [natText, eq, List.cons_append, nextToken?,
    List.dropWhile_cons_of_neg (by simp [not_isJsonBlank_of_isDigit digit])]
  exact congrArg some (readToken_digit digit)

theorem nextToken?_minus (rest : List Char) :
    nextToken? ('-' :: rest) = some (readUnsigned true rest) := rfl

theorem nextToken?_numberText (number : Number) {rest : List Char} (ends : EndsNumber rest) :
    nextToken? (number.text ++ rest) = some (.number number, rest) := by
  cases number with
  | whole negative n =>
      cases negative with
      | true => exact congrArg some (readUnsigned_whole true n ends)
      | false => exact nextToken?_digits.trans (congrArg some (readUnsigned_whole false n ends))
  | decimal negative significand exponent =>
      have read := fun negative => readUnsigned_decimal negative significand exponent ends
      cases negative with
      | true =>
          rw [Number.text]
          simpa [nextToken?_minus] using read true
      | false =>
          rw [Number.text]
          simpa [nextToken?_digits] using read false

/-! ## Going through a text -/

theorem run_of_next (token : Token) {progress : Progress} {text rest : List Char}
    (next : nextToken? text = some (token, rest)) :
    progress.run text = (progress.step token).run rest := by
  rw [Progress.run]
  split
  · next none =>
    rw [next] at none
    cases none
  · next found =>
    rw [next] at found
    cases found
    rfl

theorem run_of_none {progress : Progress} {text : List Char} (next : nextToken? text = none) :
    progress.run text = progress := by
  rw [Progress.run]
  split
  · rfl
  · next found =>
    rw [next] at found
    cases found

theorem run_nil (progress : Progress) : progress.run [] = progress :=
  run_of_none rfl

theorem nextToken?_blank {c : Char} (blank : isJsonBlank c = true) (text : List Char) :
    nextToken? (c :: text) = nextToken? text := by
  rw [nextToken?, nextToken?, List.dropWhile_cons_of_pos blank]

theorem run_blanks {blanks : List Char} (all : ∀ c ∈ blanks, isJsonBlank c = true)
    (progress : Progress) (text : List Char) :
    progress.run (blanks ++ text) = progress.run text := by
  induction blanks with
  | nil => rfl
  | cons c blanks ih =>
      have inner := ih fun other mem => all other (List.mem_cons_of_mem _ mem)
      have first := nextToken?_blank (all c List.mem_cons_self) (blanks ++ text)
      rw [← inner, List.cons_append]
      cases next : nextToken? (blanks ++ text) with
      | some found =>
          rw [run_of_next _ (first.trans next), run_of_next _ next]
      | none => rw [run_of_none (first.trans next), run_of_none next]

theorem run_space (progress : Progress) (text : List Char) :
    progress.run (' ' :: text) = progress.run text := by
  have blank : ∀ c ∈ [' '], isJsonBlank c = true := by
    intro c mem
    rw [List.mem_singleton.1 mem]
    rfl
  exact run_blanks blank progress text

theorem run_newline (depth : Nat) (progress : Progress) (text : List Char) :
    progress.run (newline depth ++ text) = progress.run text := by
  refine run_blanks (fun c mem => ?_) progress text
  rcases List.mem_cons.1 mem with rfl | mem
  · rfl
  · rw [List.eq_of_mem_replicate mem]
    rfl

end Blockmark.Json
