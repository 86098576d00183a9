import Blockmark.Inline.PlainText
import Blockmark.Inline.Style
import Blockmark.Link.Image
import Blockmark.Options

/-!
# Composing styled text

Inline nodes become elements of styled text. A run has the styles of everything around it, and
neighbouring runs of one style and link are one run. Underlining has no markup of its own: the
tags `<u>` and `</u>` pair up like brackets among siblings, and what stands between them is
underlined.

Main statements: `splitAtClose_size` and the measure below it make the walk end; `pushText_empty`
and `pushText_run` say how text joins the elements before it.
-/

namespace Blockmark.Inline

open Markdown

/-- The elements composed so far, newest first. -/
abbrev Elements := List TextElement

/-- Adds text: to the newest run if it has the same style and link, else as a run of its own. -/
def pushText (context : StyleContext) (text : String) (elements : Elements) : Elements :=
  if text.isEmpty then elements
  else match elements with
    | .run last :: before =>
      if last.style = context.flags ∧ last.link = context.link then
        .run { last with content := last.content ++ text } :: before
      else
        .run { content := text, style := context.flags, link := context.link } :: elements
    | _ => .run { content := text, style := context.flags, link := context.link } :: elements

def tagName (html : String) : String :=
  String.ofList (Text.lower (Text.trim html.toList))

def opensUnderline (node : Node) : Bool :=
  match node.kind with
  | .htmlInline html => tagName html = "<u>"
  | _ => false

def closesUnderline (node : Node) : Bool :=
  match node.kind with
  | .htmlInline html => tagName html = "</u>"
  | _ => false

def isBreakTag (html : String) : Bool :=
  ["<br>", "<br/>", "<br />"].contains (tagName html)

/-- The nodes in front of the closing tag that matches an opening tag before them, and the nodes
behind it, where `opened` spans have been opened in between. -/
def splitAtClose (opened : Nat) : List Node → Option (List Node × List Node)
  | [] => none
  | node :: nodes =>
    if opensUnderline node then
      (splitAtClose (opened + 1) nodes).map fun parts => (node :: parts.1, parts.2)
    else if closesUnderline node then
      match opened with
      | 0 => some ([], nodes)
      | opened + 1 => (splitAtClose opened nodes).map fun parts => (node :: parts.1, parts.2)
    else
      (splitAtClose opened nodes).map fun parts => (node :: parts.1, parts.2)

theorem splitAtClose_size {opened : Nat} {nodes : List Node} {parts : List Node × List Node}
    (h : splitAtClose opened nodes = some parts) :
    sizeOf parts.1 + sizeOf parts.2 ≤ sizeOf nodes := by
  induction nodes generalizing opened parts with
  | nil => simp [splitAtClose] at h
  | cons node nodes ih =>
    have step {opened : Nat} (h : (splitAtClose opened nodes).map
        (fun parts => (node :: parts.1, parts.2)) = some parts) :
        sizeOf parts.1 + sizeOf parts.2 ≤ sizeOf (node :: nodes) := by
      obtain ⟨inner, hinner, rfl⟩ := Option.map_eq_some_iff.1 h
      have := ih hinner
      simp only [List.cons.sizeOf_spec] at *
      omega
    unfold splitAtClose at h
    split at h
    · exact step h
    · split at h
      · split at h
        · cases h
          simp only [List.cons.sizeOf_spec, List.nil.sizeOf_spec]
          have : 0 < sizeOf node := by cases node; simp only [Node.mk.sizeOf_spec]; omega
          omega
        · exact step h
      · exact step h

def isAutolink (url text : String) : Bool :=
  url = text || Text.stripPrefix? "mailto:" url = some text

/-- An image among inline nodes. Images of the file system are kept as pending uploads if uploads
are wanted, and as their Markdown text otherwise. -/
def pushImage (options : ConvertOptions) (context : StyleContext) (alt url : String)
    (elements : Elements) : Elements :=
  match Link.classifyImage url options.uriScheme with
  | .remote _ | .media _ => .imageRef alt url context.flags :: elements
  | .disk path =>
    if options.uploadImages then .pendingImage alt path :: elements
    else pushText context ("![" ++ alt ++ "](" ++ url ++ ")") elements

mutual

/-- Adds siblings at a depth. An opening tag without its closing tag is left out. -/
def walkSiblings (options : ConvertOptions) (context : StyleContext) (depth : Nat)
    (elements : Elements) (nodes : List Node) : Elements :=
  match nodes with
  | [] => elements
  | node :: rest =>
    if opensUnderline node then
      match _h : splitAtClose 0 rest with
      | some parts =>
        walkSiblings options context depth
          (walkSiblings options context.underline (depth + 1) elements parts.1) parts.2
      | none => walkSiblings options context depth elements rest
    else
      walkSiblings options context depth (walkNode options context depth elements node) rest
termination_by sizeOf nodes
decreasing_by
  all_goals
    try have := splitAtClose_size _h
    simp only [List.cons.sizeOf_spec]
    omega

/-- Adds one node at a depth; nothing is added from the depth limit on. -/
def walkNode (options : ConvertOptions) (context : StyleContext) (depth : Nat)
    (elements : Elements) (node : Node) : Elements :=
  match node with
  | .mk kind children =>
    if maxDepth ≤ depth then elements
    else match kind with
      | .text content => pushText context content elements
      | .code literal => pushText context.inlineCode literal elements
      | .emph => walkSiblings options context.italic (depth + 1) elements children
      | .strong => walkSiblings options context.bold (depth + 1) elements children
      | .strikethrough => walkSiblings options context.strikethrough (depth + 1) elements children
      | .link url =>
        let text := plainText children
        match Link.parseInternalUri url options.uriScheme "doc" with
        | some token => .mentionDoc text (.token token) :: elements
        | none =>
          if isAutolink url text then .autoLink url context.flags :: elements
          else walkSiblings options (context.linked url) (depth + 1) elements children
      | .image url => pushImage options context (plainText children) url elements
      | .math _ literal => .equation literal :: elements
      | .softBreak => pushText context "\n" elements
      | .lineBreak => .lineBreak :: elements
      | .htmlInline html =>
        if isBreakTag html then .lineBreak :: elements
        else if opensUnderline node || closesUnderline node then elements
        else pushText context html elements
      | _ => walkSiblings options context (depth + 1) elements children
termination_by sizeOf node

end

def pushNodes (options : ConvertOptions) (context : StyleContext) (elements : Elements)
    (nodes : List Node) : Elements :=
  walkSiblings options context 0 elements nodes

def compose (options : ConvertOptions) (nodes : List Node) : List TextElement :=
  (pushNodes options {} [] nodes).reverse

theorem pushText_empty (context : StyleContext) (elements : Elements) :
    pushText context "" elements = elements := rfl

theorem pushText_run {text : String} (h : text.isEmpty = false) (content : String)
    (context : StyleContext) (elements : Elements) :
    pushText context text (.run ⟨content, context.flags, context.link⟩ :: elements) =
      .run ⟨content ++ text, context.flags, context.link⟩ :: elements := by
  simp [pushText, h]

end Blockmark.Inline
