import Blockmark.Proofs.Json.Scanning

/-!
# Reading printed values

Every JSON value is read back from its indented text: the reading of the text holds the value and
nothing goes wrong. The induction is on the value; it is stated for the reader in the middle of a
text, with the arrays and objects that are open around the value.

Main statement: `read_pretty`.
-/

namespace Blockmark.Json

mutual

def reading : Json → Reading
  | .null => .null
  | .bool value => .bool value
  | .number value => .number value
  | .string value => .string (some value)
  | .array items => .array (readings items) .closed
  | .object members => .object (memberReadings members) .closed

def readings : List Json → List Reading
  | [] => []
  | item :: items => reading item :: readings items

def memberReadings : List (String × Json) → List (Literal × Reading)
  | [] => []
  | (key, value) :: members => (some key, reading value) :: memberReadings members

end

def Want.TakesValue (want : Want) : Prop :=
  want = .value ∨ want = .firstItem ∨ want = .item

theorem step_takesValue {want : Want} (takes : want.TakesValue) {token : Token}
    (opens : token ≠ .closeArray) (frames : List Frame) :
    (Progress.inside want frames).step token = startValue frames token := by
  rcases takes with rfl | rfl | rfl
  · rfl
  · cases token <;> first | rfl | exact absurd rfl opens
  · cases token <;> first | rfl | exact absurd rfl opens

theorem endsNumber_prettyItems (depth : Nat) (items : List Json) {rest : List Char}
    (ends : EndsNumber rest) : EndsNumber (prettyItems depth items ++ rest) := by
  cases items with
  | nil => exact ends
  | cons item items => simp [EndsNumber, prettyItems, Text.isDigit]

theorem endsNumber_prettyMembers (depth : Nat) (members : List (String × Json))
    {rest : List Char} (ends : EndsNumber rest) :
    EndsNumber (prettyMembers depth members ++ rest) := by
  cases members with
  | nil => exact ends
  | cons member members => simp [EndsNumber, prettyMembers, Text.isDigit]

theorem endsNumber_newline (depth : Nat) (rest : List Char) :
    EndsNumber (newline depth ++ rest) := by
  simp [EndsNumber, newline, Text.isDigit]

mutual

theorem run_prettyText (value : Json) (depth : Nat) {want : Want} (takes : want.TakesValue)
    (frames : List Frame) {rest : List Char} (ends : EndsNumber rest) :
    (Progress.inside want frames).run (prettyText depth value ++ rest) =
      (deliver value.reading frames).run rest := by
  cases value with
  | null =>
      rw [run_of_next .null rfl, step_takesValue takes (by simp)]
      rfl
  | bool value =>
      cases value with
      | true =>
          rw [run_of_next (.bool true) rfl, step_takesValue takes (by simp)]
          rfl
      | false =>
          rw [run_of_next (.bool false) rfl,
            step_takesValue takes (by simp)]
          rfl
  | number value =>
      rw [prettyText, run_of_next _ (nextToken?_numberText value ends),
        step_takesValue takes (by simp)]
      rfl
  | string value =>
      rw [prettyText, run_of_next _ (nextToken?_stringText value rest),
        step_takesValue takes (by simp)]
      rfl
  | array items =>
      cases items with
      | nil =>
          rw [run_of_next .openArray rfl,
            step_takesValue takes (by simp), startValue,
            run_of_next .closeArray rfl]
          rfl
      | cons item items =>
          have inner := endsNumber_newline depth (']' :: rest)
          rw [prettyText]
          simp only [List.cons_append, List.append_assoc, List.nil_append]
          rw [run_of_next .openArray rfl, step_takesValue takes (by simp), startValue,
            run_newline, run_prettyText item (depth + 1) (Or.inr (Or.inl rfl)) _
              (endsNumber_prettyItems _ _ inner),
            deliver, run_prettyItems items (depth + 1) _ _ inner, run_newline,
            run_of_next .closeArray rfl]
          simp [Progress.step, continueWith, close, reading, readings]
  | object members =>
      cases members with
      | nil =>
          rw [run_of_next .openObject rfl,
            step_takesValue takes (by simp), startValue,
            run_of_next .closeObject rfl]
          rfl
      | cons member members =>
          obtain ⟨key, value⟩ := member
          have inner := endsNumber_newline depth ('\x7d' :: rest)
          rw [prettyText]
          simp only [List.cons_append, List.append_assoc, List.nil_append]
          rw [run_of_next .openObject rfl, step_takesValue takes (by simp), startValue,
            run_newline, run_of_next _ (nextToken?_stringText key _)]
          simp only [Progress.step, startFirstKey, startKey]
          rw [run_of_next .colon rfl]
          simp only [Progress.step]
          rw [run_space, run_prettyText value (depth + 1) (Or.inl rfl) _
              (endsNumber_prettyMembers _ _ inner),
            deliver, run_prettyMembers members (depth + 1) _ _ inner, run_newline,
            run_of_next .closeObject rfl]
          simp [Progress.step, continueWith, close, reading, memberReadings]

theorem run_prettyItems (items : List Json) (depth : Nat) (before : List Reading)
    (frames : List Frame) {rest : List Char} (ends : EndsNumber rest) :
    (Progress.inside .more (.items before :: frames)).run (prettyItems depth items ++ rest) =
      (Progress.inside .more (.items ((readings items).reverse ++ before) :: frames)).run rest := by
  cases items with
  | nil => rfl
  | cons item items =>
      rw [prettyItems]
      simp only [List.cons_append, List.append_assoc]
      rw [run_of_next .comma rfl]
      simp only [Progress.step, continueWith]
      rw [run_newline, run_prettyText item depth (Or.inr (Or.inr rfl)) _
          (endsNumber_prettyItems _ _ ends), deliver, run_prettyItems items depth _ _ ends]
      simp [readings]

theorem run_prettyMembers (members : List (String × Json)) (depth : Nat)
    (before : List (Literal × Reading)) (frames : List Frame) {rest : List Char}
    (ends : EndsNumber rest) :
    (Progress.inside .more (.members before :: frames)).run
        (prettyMembers depth members ++ rest) =
      (Progress.inside .more
        (.members ((memberReadings members).reverse ++ before) :: frames)).run rest := by
  cases members with
  | nil => rfl
  | cons member members =>
      obtain ⟨key, value⟩ := member
      rw [prettyMembers]
      simp only [List.cons_append, List.append_assoc, List.nil_append]
      rw [run_of_next .comma rfl]
      simp only [Progress.step, continueWith]
      rw [run_newline, run_of_next _ (nextToken?_stringText key _)]
      simp only [Progress.step, startKey]
      rw [run_of_next .colon rfl]
      simp only [Progress.step]
      rw [run_space, run_prettyText value depth (Or.inl rfl) _ (endsNumber_prettyMembers _ _ ends),
        deliver, run_prettyMembers members depth _ _ ends]
      simp [memberReadings]

end

theorem read_pretty (value : Json) : Document.read value.pretty = ⟨value.reading, false⟩ := by
  have run := run_prettyText value 0 (Or.inl rfl) [] endsNumber_nil
  rw [List.append_nil, run_nil] at run
  rw [Document.read, pretty, String.toList_ofList, Progress.start, run]
  rfl

end Blockmark.Json
