import Blockmark.Block.Decode
import Blockmark.Proofs.Json.Shapes

/-!
# Blocks from their JSON

Every block is read back from its JSON form when the counts in it are in the range of 64 bits. The
parts are taken from the inside out: styles and elements, text bodies, what the kinds carry, kinds
and blocks. Elements are read whole before their type is looked at, so they need some room below
the limit on nesting.

Main statement: `Block.decoder_toJson`.
-/

namespace Blockmark

open Json Json.Decoder

theorem Json.nullable_orNull {α : Type} {decoder : Decoder α} {place : Place} {encode : α → Json}
    {value : Option α} (present : ∀ a, encode a ≠ .null)
    (reads : ∀ a ∈ value, decoder place (encode a).reading = .ok a) :
    nullable decoder place (orNull (value.map encode)).reading = .ok value := by
  cases value with
  | none => rfl
  | some a => exact nullable_reading (present a) (reads a rfl)

@[simp] theorem Json.nullable_string (place : Place) (text : String) :
    nullable Decoder.string place (Reading.string (some text)) = .ok (some text) := rfl

@[simp] theorem Json.optional_none (key : String) : Json.optional key none = [] := rfl

@[simp] theorem Json.optional_some (key : String) (value : Json) :
    Json.optional key (some value) = [(key, value)] := rfl

/-! ## Numbers -/

theorem uint8Decoder_nat (place : Place) (n : UInt8) :
    uint8Decoder place (nat n.toNat).reading = .ok n := by
  rw [uint8Decoder, natBelow_reading place n.toNat_lt, map_ok, UInt8.ofNat_toNat]

theorem uint16Decoder_nat (place : Place) (n : UInt16) :
    uint16Decoder place (nat n.toNat).reading = .ok n := by
  rw [uint16Decoder, natBelow_reading place n.toNat_lt, map_ok, UInt16.ofNat_toNat]

theorem uint32Decoder_nat (place : Place) (n : UInt32) :
    uint32Decoder place (nat n.toNat).reading = .ok n := by
  rw [uint32Decoder, natBelow_reading place n.toNat_lt, map_ok, UInt32.ofNat_toNat]

theorem nullable_uint32 (place : Place) (n : UInt32) :
    nullable uint32Decoder place (nat n.toNat).reading = .ok (some n) :=
  nullable_reading (by simp [nat]) (uint32Decoder_nat place n)

/-! ## Elements -/

@[simp] theorem StyleFlags.decoder_toJson (place : Place) (flags : StyleFlags) :
    StyleFlags.decoder place flags.toJson.reading = .ok flags := by
  simp [StyleFlags.decoder, StyleFlags.toJson, Decoder.readMembers, Field.allows, checkNeeded]

@[simp] theorem DocTarget.decoder_toJson (place : Place) (target : DocTarget) :
    DocTarget.decoder place target.toJson.reading = .ok target := by
  cases target <;> rfl

def TextElement.type : TextElement → ElementType
  | .run _ => .run
  | .mentionUser _ => .mentionUser
  | .mentionDoc _ _ => .mentionDoc
  | .equation _ => .equation
  | .lineBreak => .lineBreak
  | .autoLink _ _ => .autoLink
  | .imageRef _ _ _ => .imageRef
  | .pendingImage _ _ => .pendingImage

theorem ElementType.decoder_typeName (place : Place) (element : TextElement) :
    ElementType.decoder place (Reading.string (some element.typeName)) = .ok element.type := by
  cases element <;> rfl

theorem TextElement.hold_members {depth : Nat} (room : depth + 1 < depthLimit)
    (element : TextElement) :
    ∀ member ∈ element.members, member.1 ≠ "type" ∧ hold depth member.2.reading = .ok () := by
  have style (flags : StyleFlags) : hold depth flags.toJson.reading = .ok () := by
    simp [StyleFlags.toJson, hold, holdMembers, checkLiteral, Nat.not_le.2 room]
  have text (s : String) : hold depth (Json.string s).reading = .ok () := rfl
  have target (target : DocTarget) : hold depth target.toJson.reading = .ok () := by
    cases target <;> simp [DocTarget.toJson, hold, holdMembers, checkLiteral, Nat.not_le.2 room]
  cases element with
  | run span =>
      obtain ⟨content, flags, link⟩ := span
      cases link <;> simp [TextElement.members, style, hold, checkLiteral]
  | _ => simp [TextElement.members, style, target, hold, checkLiteral]

theorem TextElement.readMembers_members {place : Place} (type : ElementType)
    {members : List (String × Json)}
    (held : ∀ member ∈ members, member.1 ≠ "type" ∧ hold place.depth member.2.reading = .ok ()) :
    TextElement.readMembers place (some type) (memberReadings members) = .ok (some type) := by
  induction members with
  | nil => rfl
  | cons member members ih =>
      obtain ⟨key, value⟩ := member
      obtain ⟨other, holds⟩ := held (key, value) List.mem_cons_self
      have rest := ih fun member mem => held member (List.mem_cons_of_mem _ mem)
      simp [TextElement.readMembers, other, holds, checkLiteral, rest]

theorem TextElement.filter_members {members : List (String × Json)}
    (other : ∀ member ∈ members, member.1 ≠ "type") :
    (memberReadings members).filter (·.1 ≠ some "type") = memberReadings members := by
  induction members with
  | nil => rfl
  | cons member members ih =>
      obtain ⟨key, value⟩ := member
      have rest := ih fun member mem => other member (List.mem_cons_of_mem _ mem)
      have first := other (key, value) List.mem_cons_self
      simpa [memberReadings, first] using rest

theorem TextElement.decoder_eq {place : Place} (room : place.depth + 2 < depthLimit)
    (element : TextElement) :
    TextElement.decoder place element.toJson.reading =
      element.type.elementDecoder { place with held := true }
        (.object (memberReadings element.members) .closed) := by
  have inside : place.inside.depth + 1 < depthLimit := room
  have held := TextElement.hold_members inside element
  have rest := TextElement.readMembers_members element.type held
  have others := TextElement.filter_members fun member mem => (held member mem).1
  simp only [TextElement.decoder, TextElement.toJson, reading, memberReadings,
    TextElement.readMembers, ↓reduceIte, Option.isSome_none, Bool.false_eq_true,
    ElementType.decoder_typeName, ok_bind, rest, checkEnding_closed]
  rw [List.filter_cons_of_neg (by simp), others]

theorem TextElement.decoder_toJson {place : Place} (room : place.depth + 2 < depthLimit)
    (element : TextElement) :
    TextElement.decoder place element.toJson.reading = .ok element := by
  rw [TextElement.decoder_eq room]
  cases element with
  | run span =>
      obtain ⟨content, flags, link⟩ := span
      cases link <;>
        simp [TextElement.type, ElementType.elementDecoder, TextElement.members,
          Decoder.readMembers, Field.allows, Field.needs, checkNeeded]
  | _ =>
      simp [TextElement.type, ElementType.elementDecoder, TextElement.members,
        Decoder.readMembers, Field.allows, Field.needs, checkNeeded]

/-! ## Text bodies -/

def TextBody.inRange (body : TextBody) : Bool :=
  body.style.sequence.all (· < countBound)

theorem BlockStyle.decoder_toJson (place : Place) (style : BlockStyle)
    (bound : ∀ n ∈ style.sequence, n < countBound) :
    BlockStyle.decoder place style.toJson.reading = .ok style := by
  obtain ⟨language, done, align, sequence⟩ := style
  have aligned (place : Place) (a : Align) :
      nullable (enumeration Align.all Align.name) place (Reading.string (some a.name)) =
        .ok (some a) := by
    cases a <;> rfl
  have counted (place : Place) (n : Nat) (mem : n ∈ sequence) :
      nullable (natBelow countBound) place (nat n).reading = .ok (some n) :=
    nullable_reading (by simp [nat]) (natBelow_reading place (bound n mem))
  cases language <;> cases align <;> cases sequence <;>
    simp [BlockStyle.decoder, BlockStyle.toJson, Decoder.readMembers, Field.allows, checkNeeded,
      aligned, counted]

theorem TextBody.decoder_toJson {place : Place} (room : place.depth + 4 < depthLimit)
    {body : TextBody} (range : body.inRange = true) :
    TextBody.decoder place body.toJson.reading = .ok body := by
  obtain ⟨elements, style⟩ := body
  have bound : ∀ n ∈ style.sequence, n < countBound := by
    simpa [TextBody.inRange, Option.all_eq_true] using range
  have items : list TextElement.decoder place.inside
      (reading (.array (elements.map TextElement.toJson))) = .ok elements :=
    list_reading fun element _ => TextElement.decoder_toJson room element
  rw [reading] at items
  simp [TextBody.decoder, TextBody.toJson, Decoder.readMembers, Field.allows, checkNeeded, items,
    BlockStyle.decoder_toJson _ style bound]

/-! ## What kinds carry -/

theorem Callout.decoder_toJson (place : Place) (callout : Callout) :
    Callout.decoder place callout.toJson.reading = .ok callout := by
  obtain ⟨background, emoji⟩ := callout
  have color : choose CalloutColor.all CalloutColor.name background.name = .ok background := by
    cases background <;> rfl
  cases emoji <;>
    simp [Callout.decoder, Callout.toJson, CalloutColor.decoder, Decoder.readMembers,
      Field.allows, Field.needs, checkNeeded, color]

theorem DiagramType.decoder_name (place : Place) (diagram : DiagramType) :
    DiagramType.decoder place (Json.string diagram.name).reading = .ok diagram := by
  cases diagram <;> rfl

theorem File.decoder_toJson (place : Place) (file : File) :
    File.decoder place file.toJson.reading = .ok file := by
  simp [File.decoder, File.toJson, Decoder.readMembers, Field.allows, Field.needs, checkNeeded]

theorem ImageSource.decoder_toJson (place : Place) (source : ImageSource) :
    ImageSource.decoder place source.toJson.reading = .ok source := by
  cases source <;> rfl

theorem Image.decoder_toJson (place : Place) (image : Image) :
    Image.decoder place image.toJson.reading = .ok image := by
  obtain ⟨token, source, width, height⟩ := image
  have sourced (place : Place) (source : ImageSource) :
      nullable ImageSource.decoder place source.toJson.reading = .ok (some source) :=
    nullable_reading (by simp [ImageSource.toJson]) (ImageSource.decoder_toJson place source)
  cases token <;> cases source <;> cases width <;> cases height <;>
    simp [Image.decoder, Image.toJson, Decoder.readMembers, Field.allows, checkNeeded, sourced,
      nullable_uint32]

theorem IsvComponent.decoder_toJson (place : Place) (component : IsvComponent) :
    IsvComponent.decoder place component.toJson.reading = .ok component := by
  simp [IsvComponent.decoder, IsvComponent.toJson, Decoder.readMembers, Field.needs, checkNeeded]

def TableProperty.inRange (property : TableProperty) : Bool :=
  property.rowSize < countBound && property.columnSize < countBound

theorem TableProperty.decoder_toJson (place : Place) {property : TableProperty}
    (range : property.inRange = true) :
    TableProperty.decoder place property.toJson.reading = .ok property := by
  obtain ⟨cells, rowSize, columnSize, headerRow⟩ := property
  simp only [TableProperty.inRange, Bool.and_eq_true, decide_eq_true_eq] at range
  have items (place : Place) := list_strings place cells
  simp only [reading] at items
  simp [TableProperty.decoder, TableProperty.toJson, Decoder.readMembers, Field.allows,
    Field.needs, checkNeeded, items, natBelow_reading _ range.1, natBelow_reading _ range.2]

theorem SyncTarget.decoder_toJson (place : Place) (target : SyncTarget) :
    SyncTarget.decoder place target.toJson.reading = .ok target := by
  simp [SyncTarget.decoder, SyncTarget.toJson, Decoder.readMembers, Field.needs, checkNeeded]

/-! ## Kinds -/

namespace Kind

/-- Whether the counts in what a kind carries are in the range of 64 bits. -/
def inRange : Kind → Bool
  | .text _ body | .heading _ body => body.all TextBody.inRange
  | .table property => property.all TableProperty.inRange
  | _ => true

def blank : Kind → Kind
  | .text role _ => .text role none
  | .heading _ _ => .heading 0 none
  | .embed role _ => .embed role none
  | .bare role => .bare role
  | .callout _ => .callout none
  | .diagram _ => .diagram none
  | .file _ => .file none
  | .grid _ => .grid none
  | .gridColumn _ => .gridColumn none
  | .image _ => .image none
  | .isv _ => .isv none
  | .table _ => .table none
  | .syncReference _ => .syncReference none
  | .unknown _ => .unknown 0

theorem choose_name (kind : Kind) : choose named name kind.name = .ok kind.blank := by
  cases kind with
  | text role _ => cases role <;> rfl
  | embed role _ => cases role <;> rfl
  | bare role => cases role <;> rfl
  | _ => rfl

theorem nullable_body {place : Place} (room : place.depth + 4 < depthLimit)
    {body : Option TextBody} (range : body.all TextBody.inRange = true) :
    nullable TextBody.decoder place (orNull (body.map TextBody.toJson)).reading = .ok body :=
  nullable_orNull (by simp [TextBody.toJson])
    fun body mem => TextBody.decoder_toJson room ((Option.all_eq_true _ _).1 range body mem)

theorem nullable_count (place : Place) (count : Option UInt32) :
    nullable uint32Decoder place (orNull (count.map fun n => nat n.toNat)).reading = .ok count :=
  nullable_orNull (by simp [nat]) fun n _ => uint32Decoder_nat place n

theorem payloadDecoder_reading {place : Place} (room : place.depth + 5 < depthLimit) {kind : Kind}
    (range : kind.inRange = true) {payload : Json} (carried : kind.payload? = some payload) :
    kind.blank.payloadDecoder place payload.reading = .ok kind := by
  cases kind <;> cases carried <;> simp only [blank, payloadDecoder]
  case text role body =>
    rw [nullable_body (Nat.lt_of_succ_lt room) range, map_ok]
  case heading level body =>
    have text : nullable TextBody.decoder place.inside _ = .ok body := nullable_body room range
    simp [Decoder.readMembers, Field.allows, Field.needs, checkNeeded, text, uint8Decoder_nat]
  case embed role token =>
    cases token <;> rfl
  case callout callout =>
    rw [nullable_orNull (by simp [Callout.toJson])
      fun callout _ => Callout.decoder_toJson place callout, map_ok]
  case diagram diagram =>
    rw [nullable_orNull (by simp) fun type _ => DiagramType.decoder_name place type, map_ok]
  case file file =>
    rw [nullable_orNull (by simp [File.toJson])
      fun file _ => File.decoder_toJson place file, map_ok]
  case grid columnSize =>
    simp [Decoder.readMembers, Field.allows, checkNeeded, nullable_count]
  case gridColumn widthRatio =>
    simp [Decoder.readMembers, Field.allows, checkNeeded, nullable_count]
  case image image =>
    rw [nullable_orNull (by simp [Image.toJson])
      fun image _ => Image.decoder_toJson place image, map_ok]
  case isv component =>
    rw [nullable_orNull (by simp [IsvComponent.toJson])
      fun component _ => IsvComponent.decoder_toJson place component, map_ok]
  case table property =>
    have counts := (Option.all_eq_true _ _).1 range
    rw [nullable_orNull (by simp [TableProperty.toJson])
      fun property mem => property.decoder_toJson place (counts property mem), map_ok]
  case syncReference target =>
    rw [nullable_orNull (by simp [SyncTarget.toJson])
      fun target _ => SyncTarget.decoder_toJson place target, map_ok]
  case unknown code =>
    rw [uint16Decoder_nat, map_ok]

theorem decoder_toJson {place : Place} (room : place.depth + 6 < depthLimit) {kind : Kind}
    (range : kind.inRange = true) : Kind.decoder place kind.toJson.reading = .ok kind := by
  have named : enumeration Kind.named Kind.name place.inside (Json.string kind.name).reading =
      .ok kind.blank := choose_name kind
  rw [toJson]
  cases carried : kind.payload? with
  | none =>
      obtain ⟨role, rfl⟩ : ∃ role, kind = .bare role := by
        cases kind <;> first | exact ⟨_, rfl⟩ | cases carried
      exact (Tagged.decoder_reading_tag named).trans rfl
  | some payload =>
      have inside : place.inside.depth + 5 < depthLimit := room
      exact Tagged.decoder_reading (by simp) named
        (payloadDecoder_reading inside range carried)

end Kind

/-! ## Blocks -/

theorem Block.decoder_toJson {place : Place} (room : place.depth + 7 < depthLimit) {block : Block}
    (range : block.kind.inRange = true) :
    Block.decoder place block.toJson.reading = .ok block := by
  obtain ⟨id, kind, children⟩ := block
  have kindRead : Kind.decoder place.inside kind.toJson.reading = .ok kind :=
    Kind.decoder_toJson room range
  cases children with
  | nil =>
      simp [Block.decoder, Block.toJson, Decoder.readMembers, Field.allows, Field.needs,
        checkNeeded, kindRead]
  | cons child children =>
      have childrenRead (place : Place) := list_strings place (child :: children)
      simp only [reading, List.map_cons] at childrenRead
      simp [Block.decoder, Block.toJson, Decoder.readMembers, Field.allows, Field.needs,
        checkNeeded, kindRead, childrenRead]

end Blockmark
