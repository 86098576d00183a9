import Blockmark.Link.Scheme
import Blockmark.Proofs.Inline.Depth
import Blockmark.Proofs.Link.Target
import Blockmark.Render.Inline

/-!
# References to documents

The address of a document is its scheme, its kind and its token, and they can be read back from
it. Decoding and escaping change no character of such an address, so that a mention that is printed
as a link and composed again is the mention that it was.

Main statements: `parseInternalUri_eq_some_iff` and `references_survive`.
-/

namespace Blockmark.Link

open Inline Markdown

theorem parseInternalUri_eq_some_iff {url scheme kind token : String} :
    parseInternalUri url scheme kind = some token ↔
      token ≠ "" ∧ url = internalUri scheme kind token := by
  unfold parseInternalUri internalUri
  simp only [Option.bind_eq_bind, Option.bind_eq_some_iff, Text.dropPrefix?_eq_some_iff]
  constructor
  · rintro ⟨rest, behindScheme, _, rfl, _, rfl, inside, rfl, isToken⟩
    split at isToken
    · cases isToken
    · next some =>
      cases isToken
      refine ⟨fun none => some ?_, String.toList_inj.1 ?_⟩
      · rw [String.ofList_eq_empty_iff.1 none]
        rfl
      · simp [behindScheme]
  · rintro ⟨some, rfl⟩
    refine ⟨_, ?_, _, rfl, _, rfl, token.toList, rfl, ?_⟩
    · simp
    · rw [if_neg (by simpa using some), String.ofList_toList]

/-! ## Decoding and escaping -/

section

variable {text : List Char}

theorem percentOctets_eq (plain : '%' ∉ text) : percentOctets text = Text.encodeUtf8 text := by
  induction text with
  | nil => rfl
  | cons c text ih =>
      obtain ⟨other, plain⟩ := not_or.1 (List.mem_cons.not.1 plain)
      rw [Text.encodeUtf8, List.flatMap_cons, ← Text.encodeUtf8, ← ih plain]
      exact percentOctets.eq_2 c text fun _ _ _ percent _ => other percent.symm

theorem percentDecode?_eq (plain : '%' ∉ text) : percentDecode? text = some text := by
  rw [percentDecode?, percentOctets_eq plain, Text.decodeUtf8_encodeUtf8]
  rfl

theorem encodeTargetChars_eq (plain : '%' ∉ text) (opening : '(' ∉ text) (closing : ')' ∉ text) :
    encodeTargetChars text = text := by
  rw [encodeTargetChars, percentDecode?_eq plain, Option.getD_some]
  exact escaped_eq_self opening closing

end

theorem isSchemeChar_of_mem {scheme : List Char} (valid : isScheme scheme = true) {c : Char}
    (mem : c ∈ scheme) : isSchemeChar c = true := by
  cases scheme with
  | nil => cases mem
  | cons first more =>
      obtain ⟨letter, others⟩ := Bool.and_eq_true_iff.1 valid
      rcases List.mem_cons.1 mem with rfl | mem
      · simp [isSchemeChar, letter]
      · exact List.all_eq_true.1 others c mem

theorem mem_documentUri {scheme token : String} {c : Char} :
    c ∈ (documentUri scheme token).toList ↔
      c ∈ scheme.toList ∨ c ∈ [':', '/', '/', 'd', 'o', 'c', '/'] ∨ c ∈ token.toList := by
  have shape : (documentUri scheme token).toList =
      scheme.toList ++ ([':', '/', '/', 'd', 'o', 'c', '/'] ++ token.toList) := by
    simp [documentUri, internalUri]
  rw [shape, List.mem_append, List.mem_append]

theorem encodeTarget_documentUri {scheme token : String} (valid : isScheme scheme.toList = true)
    (plain : ∀ c ∈ ['%', '(', ')'], c ∉ token.toList) :
    encodeTarget (documentUri scheme token) = documentUri scheme token := by
  have absent : ∀ c ∈ ['%', '(', ')'], c ∉ (documentUri scheme token).toList := by
    intro c mark mem
    rcases mem_documentUri.1 mem with inScheme | inMiddle | inToken
    · have notOne : ∀ c ∈ ['%', '(', ')'], isSchemeChar c = false := by
        simp [isSchemeChar, Text.isLetter, Text.isDigit]
      exact Bool.false_ne_true ((notOne c mark).symm.trans (isSchemeChar_of_mem valid inScheme))
    · have notOne : ∀ c ∈ ['%', '(', ')'], c ∉ [':', '/', '/', 'd', 'o', 'c', '/'] := by simp
      exact notOne c mark inMiddle
    · exact plain c mark inToken
  rw [encodeTarget, encodeTargetChars_eq (absent '%' (by decide)) (absent '(' (by decide))
    (absent ')' (by decide)), String.ofList_toList]

/-! ## Mentions and links -/

theorem renderElement_mentionDoc (setting : Render.Setting) {title token : String}
    (titled : title ≠ "") (some : token ≠ "") :
    Render.renderElement setting (.mentionDoc title (.token token)) =
      Render.linkText title.toList
        (encodeTarget (documentUri setting.options.uriScheme token)).toList := by
  have hasTitle : title.isEmpty = false := by simpa using titled
  have hasToken : token.isEmpty = false := by simpa using some
  simp only [Render.renderElement, Render.documentAddress, hasTitle, hasToken, encodeTarget,
    String.toList_ofList, Bool.false_eq_true, if_false]

theorem walkNode_documentUri {options : ConvertOptions} {depth : Nat} (inside : depth < maxDepth)
    {token : String} (some : token ≠ "") (context : StyleContext) (elements : Elements)
    (children : List Node) :
    walkNode options context depth elements
        (.mk (.link (documentUri options.uriScheme token)) children) =
      .mentionDoc (plainText children) (.token token) :: elements := by
  have read : parseInternalUri (documentUri options.uriScheme token) options.uriScheme "doc" =
      .some token := parseInternalUri_eq_some_iff.2 ⟨some, rfl⟩
  rw [walkNode_leaf inside]
  · simp only [leaf, read]
  · simp only [inner?, read, Option.isSome_some, if_true]

theorem references_survive :
    (∀ url scheme kind token : String, parseInternalUri url scheme kind = some token ↔
      token ≠ "" ∧ url = internalUri scheme kind token) ∧
    ∀ (setting : Render.Setting) (options : ConvertOptions) (title token : String)
      (context : StyleContext) (depth : Nat) (elements : Elements) (children : List Node),
      isScheme setting.options.uriScheme.toList = true →
      options.uriScheme = setting.options.uriScheme →
      title ≠ "" → token ≠ "" → (∀ c ∈ ['%', '(', ')'], c ∉ token.toList) →
      depth < maxDepth → plainText children = title →
      let target := encodeTarget (Render.documentAddress setting.options (.token token))
      Render.renderElement setting (.mentionDoc title (.token token)) =
          Render.linkText title.toList target.toList ∧
        walkNode options context depth elements (.mk (.link target) children) =
          .mentionDoc title (.token token) :: elements := by
  refine ⟨fun url scheme kind token => parseInternalUri_eq_some_iff, ?_⟩
  intro setting options title token context depth elements children valid same titled some plain
    inside text target
  have address : Render.documentAddress setting.options (.token token) =
      documentUri setting.options.uriScheme token := by
    simp [Render.documentAddress, some]
  have isTarget : target = documentUri options.uriScheme token := by
    rw [same, ← encodeTarget_documentUri valid plain, ← address]
  constructor
  · rw [renderElement_mentionDoc setting titled some, ← address]
  · rw [isTarget, walkNode_documentUri inside some, text]

theorem references_survive_designNotes :
    let setting : Render.Setting := { options := { uriScheme := "wiki" } }
    let children : List Node := [.mk (.text "Design ") [], .mk .strong [.mk (.text "notes") []]]
    Render.renderElement setting (.mentionDoc "Design notes" (.token "aB-7_é")) =
        "[Design notes](wiki://doc/aB-7_é)".toList ∧
      walkNode setting.options {} 0 [] (.mk (.link "wiki://doc/aB-7_é") children) =
        [.mentionDoc "Design notes" (.token "aB-7_é")] := by
  intro setting children
  have survives := references_survive.2 setting setting.options "Design notes" "aB-7_é" {} 0 []
    children (by decide) rfl (by decide) (by decide) (by simp) (by decide) (by decide +kernel)
  have target : encodeTarget (Render.documentAddress setting.options (.token "aB-7_é")) =
      "wiki://doc/aB-7_é" := by decide +kernel
  simp only [target] at survives
  exact survives

end Blockmark.Link
