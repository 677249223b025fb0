/-
  The iterative JSON text writer of `record-contract/json-text.ts`, and the
  canonical style of it.
-/
import RefundStudy.Record.SameValue

set_option autoImplicit false

namespace RefundStudy.Record

open Foundation Store

variable {value : JsonDocument}

/-! ## The writer -/

structure JsonTextStyle where
  sortKeys : Bool
  leafText : JsonDocument → Option (List Char)
  keyText : JsString → List Char

inductive MemberPlace where
  | index (number : Nat)
  | key (name : JsString)

/-- `members` are those the iterator has not given yet. -/
structure ContainerFrame where
  close : Char
  members : List (MemberPlace × JsonDocument)
  position : Option MemberPlace

structure JsonTextGap where
  path : JsString
  value : JsonDocument

def placeText : Option MemberPlace → JsString
  | some (.index number) => jsString ("[" ++ toString number ++ "]")
  | some (.key name) => jsString "." ++ name
  | none => jsString ".undefined"

/-- Of a stack with the innermost container first. -/
def pathOf (stack : List ContainerFrame) : JsString :=
  jsString "$" ++ (stack.reverse.map fun frame => placeText frame.position).flatten

variable (style : JsonTextStyle)

def objectMembers (members : List (JsString × JsonDocument)) : List (MemberPlace × JsonDocument) :=
  (if style.sortKeys then sortMembers members else members).map fun member =>
    (.key member.1, member.2)

/-- `items.entries()`. -/
def arrayEntries (items : List JsonDocument) : List (MemberPlace × JsonDocument) :=
  items.mapIdx fun index item => (.index index, item)

def openValue : JsonDocument → Option (List Char × Option ContainerFrame)
  | .array items => some (['['], some ⟨']', arrayEntries items, none⟩)
  | .object members => some (['\x7b'], some ⟨'\x7d', objectMembers style members, none⟩)
  | leaf => (style.leafText leaf).map fun text => (text, none)

/-- The piece it yields and the stack it leaves, or the gap. -/
def writeValue (value : JsonDocument) (stack : List ContainerFrame) :
    Except JsonTextGap (List Char × List ContainerFrame) :=
  match openValue style value with
  | none => .error ⟨pathOf stack, value⟩
  | some (text, none) => .ok (text, stack)
  | some (text, some frame) => .ok (text, frame :: stack)

/-- The separator `advance` yields before a member. -/
def separator (position : Option MemberPlace) (place : MemberPlace) : List Char :=
  (if position.isNone then [] else [',']) ++
    match place with
    | .index _ => []
    | .key name => style.keyText name ++ [':']

/-- One round of the loop at the innermost container: the pieces it yields, and the stack it leaves
or the gap it stops at. -/
def writeRound (frame : ContainerFrame) (below : List ContainerFrame) :
    List (List Char) × Except JsonTextGap (List ContainerFrame) :=
  match frame.members with
  | [] => ([[frame.close]], .ok below)
  | (place, child) :: rest =>
    let advanced := { frame with members := rest, position := some place } :: below
    match writeValue style child advanced with
    | .error gap => ([separator style frame.position place], .error gap)
    | .ok (text, stack) => ([separator style frame.position place, text], .ok stack)

/-- The loop of `jsonTextPieces`: all pieces, and the gap if there is one; `none` where `bound`
rounds do not end it. -/
def writeLoop (style : JsonTextStyle) :
    Nat → List ContainerFrame → Option (List (List Char) × Option JsonTextGap)
  | _, [] => some ([], none)
  | 0, _ :: _ => none
  | bound + 1, frame :: below =>
    match writeRound style frame below with
    | (pieces, .error gap) => some (pieces, some gap)
    | (pieces, .ok stack) =>
      (writeLoop style bound stack).map fun written => (pieces ++ written.1, written.2)

/-- A value inside takes a round to open and one to close. -/
def jsonTextPieces (value : JsonDocument) : Option (List (List Char) × Option JsonTextGap) :=
  match writeValue style value [] with
  | .error gap => some ([], some gap)
  | .ok (text, stack) =>
    (writeLoop style (2 * documentSize value) stack).map fun written =>
      (text :: written.1, written.2)

/-! ## The canonical style -/

def canonicalLeafText (text : NumberText) : JsonDocument → Option (List Char)
  | .null => some (jsonText text .null)
  | .bool value => some (jsonText text (.bool value))
  | .string value => some (stringify value)
  | .number value => if value.isFinite then some (text.print value).toList else none
  | _ => none

def canonicalStyle (text : NumberText) : JsonTextStyle where
  sortKeys := true
  leafText := canonicalLeafText text
  keyText := stringify

/-- The whole text, or the first value JSON cannot represent. -/
def canonicalPieces (text : NumberText) (value : JsonDocument) :
    Option (Except JsonTextGap (List Char)) :=
  (jsonTextPieces (canonicalStyle text) value).map fun written =>
    match written.2 with
    | some gap => .error gap
    | none => .ok written.1.flatten

/-! ## What a stack has left to write -/

abbrev JsonTextStyle.ordered (members : List (JsString × JsonDocument)) :
    List (JsString × JsonDocument) :=
  if style.sortKeys then sortMembers members else members

def IsLeaf : JsonDocument → Prop
  | .array _ | .object _ => False
  | _ => True

/-- The style writes the plain JSON text of a form of the value: `form` of a container is made of
the forms of its members under their labels, in the order of the style. -/
structure Spells (style : JsonTextStyle) (text : NumberText) (form : JsonDocument → JsonDocument)
    (label : JsString → JsString) : Prop where
  leaf : ∀ value, Representable value → IsLeaf value →
    style.leafText value = some (jsonText text (form value))
  array : ∀ items, form (.array items) = .array (items.map form)
  object : ∀ members, form (.object members) =
    .object ((style.ordered members).map fun member => (label member.1, form member.2))
  key : ∀ name, style.keyText name = stringify (label name)

section Left

variable (style : JsonTextStyle) (text : NumberText) (form : JsonDocument → JsonDocument)

/-- The rest of a container behind the members it has written. -/
def frameText (close : Char) : Option MemberPlace → List (MemberPlace × JsonDocument) → List Char
  | _, [] => [close]
  | position, (place, child) :: rest =>
    separator style position place ++ jsonText text (form child) ++ frameText close (some place) rest

/-- The rest of all open containers, the innermost first. -/
def stackText (stack : List ContainerFrame) : List Char :=
  stack.flatMap fun frame => frameText style text form frame.close frame.position frame.members

def stackRounds (stack : List ContainerFrame) : Nat :=
  (stack.map fun frame =>
    1 + (frame.members.map fun member => 2 * documentSize member.2).sum).sum

/-- Every value that is left meets the condition. -/
def StackAll (holds : JsonDocument → Prop) (stack : List ContainerFrame) : Prop :=
  ∀ frame ∈ stack, ∀ member ∈ frame.members, holds member.2

variable {style text form} {label : JsString → JsString}

theorem frameText_items (entries : List (MemberPlace × JsonDocument))
    (hentries : ∀ entry ∈ entries, ∃ number, entry.1 = .index number) :
    frameText style text form ']' none entries =
        itemsText text (entries.map fun entry => form entry.2) ∧
      ∀ place, frameText style text form ']' (some place) entries =
        moreItemsText text (entries.map fun entry => form entry.2) := by
  induction entries with
  | nil => exact ⟨rfl, fun _ => rfl⟩
  | cons entry rest ih =>
    obtain ⟨place, child⟩ := entry
    obtain ⟨number, hplace⟩ := hentries _ List.mem_cons_self
    dsimp only at hplace
    subst hplace
    have hrest := (ih fun entry hmem => hentries entry (List.mem_cons_of_mem _ hmem)).2
    constructor
    · rw [frameText, hrest, List.map_cons, itemsText]
      rfl
    · intro place
      rw [frameText, hrest, List.map_cons, moreItemsText]
      rfl

theorem Spells.frameText_members (h : Spells style text form label)
    (members : List (JsString × JsonDocument)) :
    frameText style text form '\x7d' none (members.map fun member => (.key member.1, member.2)) =
        membersText text (members.map fun member => (label member.1, form member.2)) ∧
      ∀ place, frameText style text form '\x7d' (some place)
          (members.map fun member => (.key member.1, member.2)) =
        moreMembersText text (members.map fun member => (label member.1, form member.2)) := by
  induction members with
  | nil => exact ⟨rfl, fun _ => rfl⟩
  | cons member rest ih =>
    constructor
    · rw [List.map_cons, frameText, ih.2, List.map_cons, membersText]
      simp [separator, h.key]
    · intro place
      rw [List.map_cons, frameText, ih.2, List.map_cons, moreMembersText]
      simp [separator, h.key]

theorem arrayEntries_snd (items : List JsonDocument) :
    (arrayEntries items).map Prod.snd = items := by
  apply List.ext_getElem?
  intro index
  simp [arrayEntries, Option.map_map, Function.comp_def]

theorem arrayEntries_index (items : List JsonDocument) :
    ∀ entry ∈ arrayEntries items, ∃ number, entry.1 = .index number := by
  intro entry hmem
  obtain ⟨index, hindex, rfl⟩ := List.mem_mapIdx.mp hmem
  exact ⟨index, rfl⟩

theorem ordered_perm (style : JsonTextStyle) (members : List (JsString × JsonDocument)) :
    (style.ordered members).Perm members := by
  unfold JsonTextStyle.ordered
  split_ifs
  · exact sortMembers_perm members
  · exact .refl _

structure Opened (style : JsonTextStyle) (text : NumberText) (form : JsonDocument → JsonDocument)
    (value : JsonDocument) (stack : List ContainerFrame) (piece : List Char)
    (left : List ContainerFrame) : Prop where
  texts : piece ++ stackText style text form left =
    jsonText text (form value) ++ stackText style text form stack
  rounds : stackRounds left + 1 ≤ stackRounds stack + 2 * documentSize value
  representable : StackAll Representable left

theorem StackAll.push {holds : JsonDocument → Prop} {stack : List ContainerFrame}
    (h : StackAll holds stack) {frame : ContainerFrame}
    (hframe : ∀ member ∈ frame.members, holds member.2) : StackAll holds (frame :: stack) := by
  intro other hmem
  rcases List.mem_cons.mp hmem with rfl | hmem
  · exact hframe
  · exact h other hmem

theorem sum_two_mul {α : Type} (items : List α) (size : α → Nat) :
    (items.map fun item => 2 * size item).sum = 2 * (items.map size).sum := by
  induction items with
  | nil => rfl
  | cons item rest ih =>
    rw [List.map_cons, List.sum_cons, ih, List.map_cons, List.sum_cons, Nat.mul_add]

theorem Spells.writeLeaf (h : Spells style text form label)
    (hvalue : Representable value) (hleaf : IsLeaf value) {stack : List ContainerFrame}
    (hstack : StackAll Representable stack) :
    ∃ piece left, writeValue style value stack = .ok (piece, left) ∧
      Opened style text form value stack piece left := by
  have hopen : openValue style value = some (jsonText text (form value), none) := by
    have htext := h.leaf value hvalue hleaf
    cases value with
    | array items => exact absurd hleaf id
    | object members => exact absurd hleaf id
    | _ => simp only [openValue, htext, Option.map_some]
  have hsize := documentSize_pos value
  exact ⟨_, stack, by rw [writeValue, hopen], rfl, by omega, hstack⟩

/-- Opening a value yields its text up to its first member and leaves the rest on the stack. -/
theorem Spells.writeValue_opened (h : Spells style text form label)
    (hvalue : Representable value) {stack : List ContainerFrame}
    (hstack : StackAll Representable stack) :
    ∃ piece left, writeValue style value stack = .ok (piece, left) ∧
      Opened style text form value stack piece left := by
  cases hvalue with
  | null => exact h.writeLeaf .null trivial hstack
  | bool flag => exact h.writeLeaf (.bool flag) trivial hstack
  | string chars => exact h.writeLeaf (.string chars) trivial hstack
  | number hfinite => exact h.writeLeaf (.number hfinite) trivial hstack
  | @array items hitems =>
    refine ⟨['['], ⟨']', arrayEntries items, none⟩ :: stack, rfl, ?_, ?_, ?_⟩
    · have hframe := (@frameText_items style text form (arrayEntries items)
        (arrayEntries_index items)).1
      have hforms := congrArg (List.map form) (arrayEntries_snd items)
      rw [List.map_map] at hforms
      rw [stackText, List.flatMap_cons]
      dsimp only
      rw [hframe, h.array, jsonText, stackText, ← hforms]
      rfl
    · have hsizes := congrArg (List.map documentSize) (arrayEntries_snd items)
      rw [List.map_map] at hsizes
      rw [stackRounds, List.map_cons, List.sum_cons, documentSize, itemsSize_eq_sum, ← hsizes]
      dsimp only
      rw [sum_two_mul, stackRounds]
      have hsame : (arrayEntries items).map (documentSize ∘ Prod.snd) =
          (arrayEntries items).map fun member => documentSize member.2 := rfl
      rw [hsame]
      omega
    · refine hstack.push fun member hmem => ?_
      have hitem : member.2 ∈ (arrayEntries items).map Prod.snd := List.mem_map_of_mem hmem
      rw [arrayEntries_snd] at hitem
      exact hitems _ hitem
  | @object members hdistinct hmembers =>
    refine ⟨['\x7b'], ⟨'\x7d', objectMembers style members, none⟩ :: stack, rfl, ?_, ?_, ?_⟩
    · rw [stackText, List.flatMap_cons]
      dsimp only
      rw [objectMembers, (h.frameText_members (style.ordered members)).1, h.object, jsonText,
        stackText]
      rfl
    · have hsizes : ((style.ordered members).map fun member => documentSize member.2).sum =
          membersSize members := by
        rw [membersSize_eq_sum]
        exact ((ordered_perm style members).map _).sum_nat
      rw [stackRounds, List.map_cons, List.sum_cons, documentSize, ← hsizes]
      dsimp only
      rw [objectMembers, List.map_map]
      have hsame : (style.ordered members).map ((fun member : MemberPlace × JsonDocument =>
          2 * documentSize member.2) ∘ fun member => (.key member.1, member.2)) =
          (style.ordered members).map fun member => 2 * documentSize member.2 := rfl
      rw [hsame, sum_two_mul, stackRounds]
      omega
    · refine hstack.push fun member hmem => ?_
      obtain ⟨original, horiginal, rfl⟩ := List.mem_map.mp hmem
      exact hmembers original ((ordered_perm style members).mem_iff.mp horiginal)

theorem Spells.writeRound_writes (hspells : Spells style text form label) {frame : ContainerFrame}
    {below : List ContainerFrame} (h : StackAll Representable (frame :: below)) :
    ∃ pieces left, writeRound style frame below = (pieces, .ok left) ∧
      pieces.flatten ++ stackText style text form left = stackText style text form (frame :: below) ∧
      stackRounds left + 1 ≤ stackRounds (frame :: below) ∧ StackAll Representable left := by
  have hbelow : StackAll Representable below := fun other hmem => h other (List.mem_cons_of_mem _ hmem)
  obtain ⟨close, members, position⟩ := frame
  cases members with
  | nil =>
    refine ⟨[[close]], below, rfl, ?_, ?_, hbelow⟩
    · rw [stackText, stackText, List.flatMap_cons]
      rfl
    · rw [stackRounds, stackRounds, List.map_cons, List.sum_cons]
      dsimp only
      rw [List.map_nil, List.sum_nil]
      omega
  | cons member rest =>
    obtain ⟨place, child⟩ := member
    have hmembers := h _ List.mem_cons_self
    have hadvanced : StackAll Representable (⟨close, rest, some place⟩ :: below) :=
      hbelow.push fun member hmem => hmembers member (List.mem_cons_of_mem _ hmem)
    obtain ⟨piece, left, hwrite, hopened⟩ :=
      hspells.writeValue_opened (hmembers _ List.mem_cons_self) hadvanced
    refine ⟨[separator style position place, piece], left, ?_, ?_, ?_, hopened.representable⟩
    · simp only [writeRound, hwrite]
    · have htexts := hopened.texts
      rw [List.flatten_cons, List.flatten_cons, List.flatten_nil, List.append_nil,
        List.append_assoc, htexts, stackText, stackText, List.flatMap_cons, List.flatMap_cons]
      dsimp only
      rw [frameText]
      simp only [List.append_assoc]
    · have hrounds := hopened.rounds
      rw [stackRounds, stackRounds, List.map_cons, List.sum_cons] at hrounds
      rw [stackRounds, stackRounds, List.map_cons, List.sum_cons, List.map_cons, List.sum_cons]
      dsimp only at hrounds ⊢
      omega

theorem Spells.writeLoop_writes (h : Spells style text form label) (bound : Nat) :
    ∀ stack : List ContainerFrame, StackAll Representable stack → stackRounds stack ≤ bound →
    ∃ pieces, writeLoop style bound stack = some (pieces, none) ∧
      pieces.flatten = stackText style text form stack := by
  induction bound with
  | zero =>
    intro stack hstack hbound
    cases stack with
    | nil => exact ⟨[], rfl, rfl⟩
    | cons frame below =>
      rw [stackRounds, List.map_cons, List.sum_cons] at hbound
      omega
  | succ bound ih =>
    intro stack hstack hbound
    cases stack with
    | nil => exact ⟨[], rfl, rfl⟩
    | cons frame below =>
      obtain ⟨pieces, left, hround, htexts, hrounds, hleft⟩ := h.writeRound_writes hstack
      obtain ⟨more, hmore, hrest⟩ := ih left hleft (by omega)
      refine ⟨pieces ++ more, ?_, ?_⟩
      · simp only [writeLoop, hround, hmore, Option.map_some]
      · rw [List.flatten_append, hrest, htexts]

theorem Spells.jsonTextPieces_eq (h : Spells style text form label)
    (hvalue : Representable value) :
    ∃ pieces, jsonTextPieces style value = some (pieces, none) ∧
      pieces.flatten = jsonText text (form value) := by
  have hempty : StackAll Representable [] := fun frame hmem => absurd hmem List.not_mem_nil
  obtain ⟨piece, left, hwrite, hopened⟩ := h.writeValue_opened hvalue hempty
  have hrounds : stackRounds left ≤ 2 * documentSize value := by
    have hopen := hopened.rounds
    have hnone : stackRounds [] = 0 := rfl
    omega
  obtain ⟨pieces, hpieces, hrest⟩ := h.writeLoop_writes _ left hopened.representable hrounds
  refine ⟨piece :: pieces, ?_, ?_⟩
  · simp only [jsonTextPieces, hwrite, hpieces, Option.map_some]
  · rw [List.flatten_cons, hrest]
    exact hopened.texts.trans (List.append_nil _)

end Left

theorem canonicalMembers_sortMembers (members : List (JsString × JsonDocument)) :
    canonicalMembers (sortMembers members) = sortMembers (canonicalMembers members) := by
  rw [canonicalMembers_eq_map, canonicalMembers_eq_map]
  unfold sortMembers
  exact List.map_insertionSort MemberLe MemberLe
    (fun member : JsString × JsonDocument => (member.1, canonicalDocument member.2)) members
    fun _ _ _ _ => Iff.rfl

theorem canonicalStyle_spells (text : NumberText) :
    Spells (canonicalStyle text) text canonicalDocument id where
  leaf value hvalue hleaf := by
    cases hvalue with
    | @number number hfinite =>
      simp [canonicalStyle, canonicalLeafText, canonicalDocument, jsonText, hfinite]
    | array _ => exact absurd hleaf id
    | object _ _ => exact absurd hleaf id
    | _ => rfl
  array items := by rw [canonicalDocument, canonicalItems_eq_map]
  object members := by
    rw [canonicalDocument, ← canonicalMembers_sortMembers, canonicalMembers_eq_map]
    rfl
  key _ := rfl

section Gaps

variable {text : NumberText} {left stack : List ContainerFrame} {piece : List Char}

/-- A value the canonical style opens has no other numbers than finite ones outside its members. -/
theorem writeValue_finite (hvalue : Parsed value)
    (hstack : StackAll Parsed stack)
    (h : writeValue (canonicalStyle text) value stack = .ok (piece, left)) :
    StackAll Parsed left ∧
      (StackAll Representable left → Representable value ∧ StackAll Representable stack) := by
  cases hvalue with
  | null =>
    cases h
    exact ⟨hstack, fun hleft => ⟨.null, hleft⟩⟩
  | bool flag =>
    cases h
    exact ⟨hstack, fun hleft => ⟨.bool flag, hleft⟩⟩
  | string chars =>
    cases h
    exact ⟨hstack, fun hleft => ⟨.string chars, hleft⟩⟩
  | @number number hnumber =>
    cases hfinite : number.isFinite with
    | false => simp [writeValue, openValue, canonicalStyle, canonicalLeafText, hfinite] at h
    | true =>
      simp only [writeValue, openValue, canonicalStyle, canonicalLeafText, hfinite, if_true,
        Option.map_some, Except.ok.injEq, Prod.mk.injEq] at h
      rw [← h.2]
      exact ⟨hstack, fun hleft => ⟨.number hfinite, hleft⟩⟩
  | @array items hitems =>
    cases h
    have hentries : ∀ holds : JsonDocument → Prop,
        (∀ member ∈ arrayEntries items, holds member.2) ↔ ∀ item ∈ items, holds item := by
      intro holds
      have hmap := @List.forall_mem_map _ _ Prod.snd (arrayEntries items) holds
      rw [arrayEntries_snd] at hmap
      exact hmap.symm
    refine ⟨hstack.push ((hentries _).mpr hitems), fun hleft => ⟨.array ?_, ?_⟩⟩
    · exact (hentries _).mp (hleft _ List.mem_cons_self)
    · exact fun frame hmem => hleft frame (List.mem_cons_of_mem _ hmem)
  | @object members hdistinct hmembers =>
    cases h
    have hentries : ∀ holds : JsonDocument → Prop,
        (∀ member ∈ objectMembers (canonicalStyle text) members, holds member.2) ↔
          ∀ member ∈ members, holds member.2 := by
      intro holds
      rw [objectMembers, List.forall_mem_map]
      exact forall_congr' fun member => imp_congr_left (ordered_perm _ members).mem_iff
    refine ⟨hstack.push ((hentries _).mpr hmembers), fun hleft => ⟨.object hdistinct ?_, ?_⟩⟩
    · exact (hentries _).mp (hleft _ List.mem_cons_self)
    · exact fun frame hmem => hleft frame (List.mem_cons_of_mem _ hmem)

theorem writeLoop_finite (bound : Nat) : ∀ {stack : List ContainerFrame} {pieces : List (List Char)},
    StackAll Parsed stack → writeLoop (canonicalStyle text) bound stack = some (pieces, none) →
    StackAll Representable stack := by
  induction bound with
  | zero =>
    intro stack pieces hstack h
    cases stack with
    | nil => exact fun frame hmem => absurd hmem List.not_mem_nil
    | cons frame below => cases h
  | succ bound ih =>
    intro stack pieces hstack h
    cases stack with
    | nil => exact fun frame hmem => absurd hmem List.not_mem_nil
    | cons frame below =>
      obtain ⟨close, members, position⟩ := frame
      have hbelow : StackAll Parsed below := fun other hmem => hstack other (.tail _ hmem)
      have hown := hstack _ List.mem_cons_self
      cases members with
      | nil =>
        simp only [writeLoop, writeRound, Option.map_eq_some_iff, Prod.mk.injEq] at h
        obtain ⟨⟨more, gap⟩, hmore, -, rfl⟩ := h
        exact (ih hbelow hmore).push fun member hmem => absurd hmem List.not_mem_nil
      | cons member rest =>
        obtain ⟨place, child⟩ := member
        have hadvanced : StackAll Parsed (⟨close, rest, some place⟩ :: below) :=
          hbelow.push fun member hmem => hown member (.tail _ hmem)
        cases hwrite : writeValue (canonicalStyle text) child (⟨close, rest, some place⟩ :: below) with
        | error gap => simp [writeLoop, writeRound, hwrite] at h
        | ok opened =>
          simp only [writeLoop, writeRound, hwrite, Option.map_eq_some_iff, Prod.mk.injEq] at h
          obtain ⟨⟨more, gap⟩, hmore, -, rfl⟩ := h
          obtain ⟨hparsed, hback⟩ := writeValue_finite (hown _ List.mem_cons_self) hadvanced hwrite
          obtain ⟨hchild, hrest⟩ := hback (ih hparsed hmore)
          refine StackAll.push (fun other hmem => hrest other (.tail _ hmem)) ?_
          rw [List.forall_mem_cons]
          exact ⟨hchild, hrest _ List.mem_cons_self⟩

theorem representable_of_canonicalPieces {written : List Char}
    (hvalue : Parsed value) (h : canonicalPieces text value = some (.ok written)) :
    Representable value := by
  have hempty : StackAll Parsed [] := fun frame hmem => absurd hmem List.not_mem_nil
  unfold canonicalPieces jsonTextPieces at h
  cases hwrite : writeValue (canonicalStyle text) value [] with
  | error gap => simp [hwrite] at h
  | ok opened =>
    simp only [hwrite, Option.map_map, Option.map_eq_some_iff] at h
    obtain ⟨⟨pieces, gap⟩, hloop, hok⟩ := h
    cases gap with
    | some gap => cases hok
    | none =>
      obtain ⟨hparsed, hback⟩ := writeValue_finite hvalue hempty hwrite
      exact (hback (writeLoop_finite _ hparsed hloop)).1

end Gaps

theorem canonicalPieces_eq {text : NumberText} (h : Representable value) :
    canonicalPieces text value = some (.ok (canonicalJson text value)) := by
  obtain ⟨pieces, hpieces, htext⟩ := (canonicalStyle_spells text).jsonTextPieces_eq h
  simp only [canonicalPieces, hpieces, Option.map_some, htext, canonicalJson]

end RefundStudy.Record
