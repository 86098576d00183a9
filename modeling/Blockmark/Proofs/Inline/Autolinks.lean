import Blockmark.Proofs.Inline.Depth
import Blockmark.Render.Inline

/-!
# Links that show their address

A link whose text is the address that it leads to becomes an element of its own, and it is written
as that address between angle brackets. A reader takes such a form for a link only if it holds a
full address with a scheme, or a mail address. The composer compares the text with the address and
does not ask what kind of address it is, so that a relative link can become an element that is not
read as a link again.

Main statements: `Reaches.hasAutolink`, `shows_walkSiblings` and `autolinks_writable_iff`.
-/

namespace Blockmark.Inline

open Markdown Text

/-! ## Addresses -/

/-- A scheme, a colon and more, with no white space and no angle brackets. -/
def IsAbsoluteUri (text : List Char) : Prop :=
  (∃ scheme rest, text = scheme ++ ':' :: rest ∧ Link.isScheme scheme = true) ∧
    ∀ c ∈ text, isBlank c = false ∧ c ≠ '<' ∧ c ≠ '>'

def isMailChar (c : Char) : Bool :=
  isLetter c || isDigit c || ".!#$%&\x27*+/=?^_\x60\x7b|\x7d~-".toList.contains c

def isHostLabel (label : List Char) : Bool :=
  !label.isEmpty && label.length ≤ 63 && label.all (fun c => isLetter c || isDigit c || c == '-') &&
    label.head? != some '-' && label.getLast? != some '-'

def IsMailAddress (text : List Char) : Prop :=
  ∃ user host, text = user ++ '@' :: host ∧ user ≠ [] ∧ user.all isMailChar = true ∧
    (pieces '.' host).all isHostLabel = true

/-- What can stand between angle brackets for a link; no bound is set here on its scheme. -/
def IsAddress (text : List Char) : Prop :=
  IsAbsoluteUri text ∨ IsMailAddress text

def bareAddress (url : String) : List Char :=
  ((stripPrefix? "mailto:" url).getD url).toList

def IsAutolinkForm (form : List Char) : Prop :=
  ∃ address, form = '<' :: (address ++ ['>']) ∧ IsAddress address

/-- A link to no document of the system, with the address that it leads to as its text. -/
def ShowsAddress (options : ConvertOptions) (url : String) (node : Node) : Prop :=
  ∃ children, node = .mk (.link url) children ∧
    Link.parseInternalUri url options.uriScheme "doc" = none ∧
      isAutolink url (plainText children) = true

def Meets (options : ConvertOptions) (nodes : List Node) (url : String) : Prop :=
  ∃ depth node rest, Reaches options nodes depth (node :: rest) ∧ depth < maxDepth ∧
    ShowsAddress options url node

def HasAutolink (url : String) (elements : Elements) : Prop :=
  ∃ style, .autoLink url style ∈ elements

/-! ## Elements -/

section

variable {options : ConvertOptions} {context : StyleContext} {depth : Nat} {elements : Elements}
  {nodes siblings : List Node} {url : String}

theorem hasAutolink_cons {element : TextElement} (other : ∀ style, element ≠ .autoLink url style) :
    HasAutolink url (element :: elements) ↔ HasAutolink url elements := by
  refine exists_congr fun style => ?_
  rw [List.mem_cons, or_iff_right (other style).symm]

theorem hasAutolink_autoLink {address : String} {style : StyleFlags} :
    HasAutolink url (.autoLink address style :: elements) ↔
      HasAutolink url elements ∨ address = url := by
  constructor
  · rintro ⟨flags, mem⟩
    obtain same | mem := List.mem_cons.1 mem
    · exact .inr (TextElement.autoLink.inj same).1.symm
    · exact .inl ⟨flags, mem⟩
  · rintro (⟨flags, mem⟩ | rfl)
    · exact ⟨flags, List.mem_cons_of_mem _ mem⟩
    · exact ⟨style, List.mem_cons_self⟩

theorem hasAutolink_pushText (context : StyleContext) (text : String) :
    HasAutolink url (pushText context text elements) ↔ HasAutolink url elements := by
  unfold pushText
  split
  · rfl
  · split
    · split
      · rw [hasAutolink_cons (by simp), hasAutolink_cons (by simp)]
      · exact hasAutolink_cons (by simp)
    · exact hasAutolink_cons (by simp)

theorem hasAutolink_pushImage (context : StyleContext) (alt address : String) :
    HasAutolink url (pushImage options context alt address elements) ↔
      HasAutolink url elements := by
  unfold pushImage
  split
  · exact hasAutolink_cons (by simp)
  · exact hasAutolink_cons (by simp)
  · split
    · exact hasAutolink_cons (by simp)
    · exact hasAutolink_pushText context _

theorem showsAddress_link_iff {address : String} {children : List Node} :
    ShowsAddress options url (.mk (.link address) children) ↔
      address = url ∧ Link.parseInternalUri address options.uriScheme "doc" = none ∧
        isAutolink address (plainText children) = true := by
  constructor
  · rintro ⟨_, same, shows⟩
    cases same
    exact ⟨rfl, shows⟩
  · rintro ⟨rfl, shows⟩
    exact ⟨children, rfl, shows⟩

theorem hasAutolink_or_iff {kind : NodeKind} {children : List Node} {elements' : Elements}
    (noLink : ∀ address, kind ≠ .link address)
    (same : HasAutolink url elements' ↔ HasAutolink url elements) :
    HasAutolink url elements' ↔
      HasAutolink url elements ∨ ShowsAddress options url (.mk kind children) := by
  rw [or_iff_left, same]
  rintro ⟨_, isLink, -⟩
  exact noLink url (Node.mk.inj isLink).1

theorem hasAutolink_leaf {node : Node} (stays : inner? options node = none) :
    HasAutolink url (leaf options context elements node) ↔
      HasAutolink url elements ∨ ShowsAddress options url node := by
  obtain ⟨kind, children⟩ := node
  cases kind with
  | link address =>
      simp only [inner?, leaf] at stays ⊢
      rw [showsAddress_link_iff]
      cases token : Link.parseInternalUri address options.uriScheme "doc" with
      | some token => rw [hasAutolink_cons (by simp), or_iff_left (by simp)]
      | none =>
          rw [token, Option.isSome_none, if_neg Bool.false_ne_true] at stays
          split at stays
          · next shown =>
            rw [hasAutolink_autoLink]
            simp [shown]
          · cases stays
  | text | code | softBreak =>
      exact hasAutolink_or_iff (by simp) (hasAutolink_pushText _ _)
  | image address => exact hasAutolink_or_iff (by simp) (hasAutolink_pushImage _ _ _)
  | math | lineBreak => exact hasAutolink_or_iff (by simp) (hasAutolink_cons (by simp))
  | htmlInline html =>
      refine hasAutolink_or_iff (by simp) ?_
      dsimp only [leaf]
      split
      · exact hasAutolink_cons (by simp)
      · split
        · rfl
        · exact hasAutolink_pushText _ _
  | _ => exact hasAutolink_or_iff (by simp) Iff.rfl

theorem HasAutolink.walkSiblings (has : HasAutolink url elements) (context : StyleContext)
    (depth : Nat) (nodes : List Node) :
    HasAutolink url (walkSiblings options context depth elements nodes) := by
  induction nodes using siblings_induction generalizing context depth elements with
  | nil => rwa [Inline.walkSiblings]
  | span opens matched between behind =>
      rw [walkSiblings_span opens matched]
      exact behind (between has context.underline (depth + 1)) context depth
  | lone opens unmatched ih =>
      rw [walkSiblings_lone opens unmatched]
      exact ih has context depth
  | @other node rest other inside ih =>
      have first : HasAutolink url (walkNode options context depth elements node) := by
        by_cases beyond : maxDepth ≤ depth
        · rwa [walkNode_beyond beyond]
        · have above := Nat.not_le.1 beyond
          cases form : inner? options node with
          | some change =>
              rw [walkNode_inner above form]
              exact inside has (change context) (depth + 1)
          | none =>
              rw [walkNode_leaf above form]
              exact (hasAutolink_leaf form).2 (.inl has)
      rw [walkSiblings_other other]
      exact ih first context depth

theorem meets_of_walkSiblings (reached : Reaches options nodes depth siblings)
    (has : HasAutolink url (walkSiblings options context depth elements siblings)) :
    HasAutolink url elements ∨ Meets options nodes url := by
  induction siblings using siblings_induction generalizing context depth elements with
  | nil =>
      rw [walkSiblings] at has
      exact .inl has
  | span opens matched between behind =>
      rw [walkSiblings_span opens matched] at has
      obtain has | meets := behind (reached.behind opens matched) has
      · exact between (reached.between opens matched) has
      · exact .inr meets
  | lone opens unmatched ih =>
      rw [walkSiblings_lone opens unmatched] at has
      exact ih (reached.lone opens unmatched) has
  | @other node rest other inside ih =>
      rw [walkSiblings_other other] at has
      obtain has | meets := ih (reached.past other) has
      · by_cases beyond : maxDepth ≤ depth
        · rw [walkNode_beyond beyond] at has
          exact .inl has
        · have above := Nat.not_le.1 beyond
          cases form : inner? options node with
          | some change =>
              rw [walkNode_inner above form] at has
              exact inside (reached.inside other above form) has
          | none =>
              rw [walkNode_leaf above form, hasAutolink_leaf form] at has
              exact has.imp_right fun shows => ⟨depth, node, rest, reached, above, shows⟩
      · exact .inr meets

theorem Reaches.hasAutolink (reached : Reaches options nodes depth siblings) (url : String)
    (context : StyleContext) (elements : Elements) :
    ∃ inner before, HasAutolink url (Inline.walkSiblings options inner depth before siblings) →
      HasAutolink url (Inline.walkSiblings options context 0 elements nodes) := by
  induction reached with
  | start => exact ⟨context, elements, id⟩
  | between _ opens matched ih =>
      obtain ⟨inner, before, kept⟩ := ih
      rw [walkSiblings_span opens matched] at kept
      exact ⟨inner.underline, before, fun has => kept (has.walkSiblings inner _ _)⟩
  | behind _ opens matched ih =>
      obtain ⟨inner, before, kept⟩ := ih
      rw [walkSiblings_span opens matched] at kept
      exact ⟨inner, _, kept⟩
  | lone _ opens unmatched ih =>
      obtain ⟨inner, before, kept⟩ := ih
      rw [walkSiblings_lone opens unmatched] at kept
      exact ⟨inner, before, kept⟩
  | inside _ other inside goesOn ih =>
      obtain ⟨inner, before, kept⟩ := ih
      rw [walkSiblings_other other, walkNode_inner inside goesOn] at kept
      exact ⟨_, before, fun has => kept (has.walkSiblings inner _ _)⟩
  | past _ other ih =>
      obtain ⟨inner, before, kept⟩ := ih
      rw [walkSiblings_other other] at kept
      exact ⟨inner, _, kept⟩

theorem Meets.walkSiblings (meets : Meets options nodes url) (context : StyleContext)
    (elements : Elements) :
    HasAutolink url (Inline.walkSiblings options context 0 elements nodes) := by
  obtain ⟨depth, node, rest, reached, inside, shows⟩ := meets
  obtain ⟨inner, before, kept⟩ := reached.hasAutolink url context elements
  obtain ⟨other, stays⟩ : opensUnderline node = false ∧ inner? options node = none := by
    obtain ⟨children, rfl, noToken, shown⟩ := shows
    refine ⟨rfl, ?_⟩
    simp only [inner?]
    rw [noToken, Option.isSome_none, if_neg Bool.false_ne_true, if_pos shown]
  refine kept ?_
  rw [walkSiblings_other other, walkNode_leaf inside stays]
  exact ((hasAutolink_leaf stays).2 (.inr shows)).walkSiblings inner depth rest

theorem hasAutolink_compose_iff :
    HasAutolink url (compose options nodes) ↔ Meets options nodes url := by
  simp only [HasAutolink, compose, pushNodes, List.mem_reverse]
  constructor
  · intro has
    obtain ⟨_, before⟩ | meets := meets_of_walkSiblings .start has
    · cases before
    · exact meets
  · intro meets
    exact meets.walkSiblings {} []

end

/-! ## Written forms -/

theorem IsAbsoluteUri.mail {address : List Char} (uri : IsAbsoluteUri address) :
    IsAbsoluteUri ("mailto:".toList ++ address) := by
  refine ⟨⟨"mailto".toList, address, rfl, by decide⟩, fun c mem => ?_⟩
  obtain mem | mem := List.mem_append.1 mem
  · have lead : "mailto:".toList.all (fun c => !isBlank c && c != '<' && c != '>') = true := by
      decide
    simpa [and_assoc] using List.all_eq_true.1 lead c mem
  · exact uri.2 c mem

theorem absolute_or_mail_of_bareAddress {url : String} (address : IsAddress (bareAddress url)) :
    IsAbsoluteUri url.toList ∨ IsMailAddress (bareAddress url) := by
  obtain uri | mail := address
  · refine .inl ?_
    unfold bareAddress at uri
    cases stripped : stripPrefix? "mailto:" url with
    | none => rwa [stripped] at uri
    | some rest =>
        rw [stripped] at uri
        rw [toList_of_stripPrefix? stripped]
        exact uri.mail
  · exact .inr mail

theorem IsAddress.marked {address : List Char} (isAddress : IsAddress address) :
    ':' ∈ address ∨ '@' ∈ address := by
  obtain ⟨⟨scheme, rest, rfl, -⟩, -⟩ | ⟨user, host, rfl, -⟩ := isAddress <;> simp

theorem isAutolinkForm_iff {address : List Char} :
    IsAutolinkForm ('<' :: (address ++ ['>'])) ↔ IsAddress address := by
  simp [IsAutolinkForm]

theorem applyStyle_inj {style : StyleFlags} {first second : List Char} :
    Render.applyStyle style first = Render.applyStyle style second ↔ first = second := by
  unfold Render.applyStyle
  simp only [Render.wrap]
  split <;> split <;> split <;> split <;> simp

def WrittenAsAutolink (setting : Render.Setting) (url : String) (style : StyleFlags) : Prop :=
  ∃ form, Render.renderElement setting (.autoLink url style) = Render.applyStyle style form ∧
    IsAutolinkForm form

theorem writtenAsAutolink_iff {setting : Render.Setting} {url : String} {style : StyleFlags} :
    WrittenAsAutolink setting url style ↔ IsAddress (bareAddress url) := by
  rw [← isAutolinkForm_iff]
  constructor
  · rintro ⟨form, written, isForm⟩
    rwa [← applyStyle_inj.1 written] at isForm
  · exact fun isForm => ⟨_, rfl, isForm⟩

/-- The autolinks are exactly the links that show their address, and all of them are read as
links again if and only if every such link leads to a full address or a mail address. -/
theorem autolinks_writable_iff (options : ConvertOptions) (setting : Render.Setting)
    (nodes : List Node) :
    (∀ url, (∃ style, .autoLink url style ∈ compose options nodes) ↔ Meets options nodes url) ∧
    ((∀ url style, .autoLink url style ∈ compose options nodes →
        (IsAbsoluteUri url.toList ∨ IsMailAddress (bareAddress url)) ∧
          WrittenAsAutolink setting url style) ↔
      ∀ url, Meets options nodes url → IsAddress (bareAddress url)) := by
  refine ⟨fun url => hasAutolink_compose_iff, ?_⟩
  constructor
  · intro writable url meets
    obtain ⟨style, mem⟩ := hasAutolink_compose_iff.2 meets
    exact writtenAsAutolink_iff.1 (writable url style mem).2
  · intro addresses url style mem
    have address := addresses url (hasAutolink_compose_iff.1 ⟨style, mem⟩)
    exact ⟨absolute_or_mail_of_bareAddress address, writtenAsAutolink_iff.2 address⟩

theorem autolinks_writable_mail :
    let nodes : List Node :=
      [.mk .strong [.mk (.link "mailto:a@x.com") [.mk (.text "a@x.com") []]]]
    compose {} nodes = [.autoLink "mailto:a@x.com" { bold := true }] ∧
      WrittenAsAutolink {} "mailto:a@x.com" { bold := true } := by
  intro nodes
  have composed : compose {} nodes = [.autoLink "mailto:a@x.com" { bold := true }] := by
    decide +kernel
  obtain ⟨shown, writable⟩ := autolinks_writable_iff {} {} nodes
  have addresses : ∀ url, Meets {} nodes url → IsAddress (bareAddress url) := by
    intro url meets
    obtain ⟨style, mem⟩ := (shown url).2 meets
    rw [composed, List.mem_singleton] at mem
    cases mem
    exact .inr ⟨['a'], "x.com".toList, by decide, by simp, by decide, by decide⟩
  refine ⟨composed, (writable.2 addresses _ _ ?_).2⟩
  rw [composed]
  exact List.mem_singleton_self _

/-- A relative link that shows its address is written as a tag. -/
theorem relative_asTag :
    compose {} [.mk (.link "LICENSE") [.mk (.text "LICENSE") []]] = [.autoLink "LICENSE" {}] ∧
    ¬ (IsAbsoluteUri "LICENSE".toList ∨ IsMailAddress (bareAddress "LICENSE")) ∧
    ∀ setting, Render.renderElement setting (.autoLink "LICENSE" {}) = "<LICENSE>".toList ∧
      ¬ IsAutolinkForm "<LICENSE>".toList := by
  have noAddress : ¬ IsAddress "LICENSE".toList := fun isAddress =>
    absurd isAddress.marked (by decide)
  exact ⟨by decide +kernel, noAddress, fun _ => ⟨rfl, fun isForm =>
    noAddress (isAutolinkForm_iff.1 isForm)⟩⟩

end Blockmark.Inline
