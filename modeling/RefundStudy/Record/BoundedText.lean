/-
  JSON text cut to a limit (`boundedJsonText` of `record-contract/json-value.ts`).
-/
import RefundStudy.Record.TextWriter

set_option autoImplicit false

namespace RefundStudy.Record.BoundedText

open Foundation Store

def textUnits (chars : List Char) : JsString := chars.flatMap unitsOf

def cutString (limit : Nat) (text : JsString) : JsString :=
  if text.length > limit then text.take (limit + 1) else text

/-- `nonStringLeafText`, of a number. -/
def leafNumberText (text : NumberText) : Double → List Char
  | .nan => "NaN".toList
  | .infinite false => "Infinity".toList
  | .infinite true => "-Infinity".toList
  | number => (text.print number).toList

def boundedLeafText (text : NumberText) (limit : Nat) : JsonDocument → Option (List Char)
  | .string value => some (stringify (cutString limit value))
  | .number value => some (leafNumberText text value)
  | other => some (jsonText text other)

def boundedStyle (text : NumberText) (limit : Nat) : JsonTextStyle where
  sortKeys := false
  leafText := boundedLeafText text limit
  keyText name := stringify (cutString limit name)

/-- The loop over the pieces, with the text so far. -/
def boundedLoop (limit : Nat) (text : JsString) : List (List Char) → JsString
  | [] => text
  | piece :: pieces =>
    if (text ++ textUnits piece).length > limit then truncatedText (text ++ textUnits piece) limit
    else boundedLoop limit (text ++ textUnits piece) pieces

def boundedJsonText (text : NumberText) (value : JsonDocument) (limit : Nat) : Option JsString :=
  (jsonTextPieces (boundedStyle text limit) value).map fun written => boundedLoop limit [] written.1

/-! ## Agreement up to the limit -/

/-- The texts are the same, or both are longer than the limit and the same up to it. -/
def Agree (limit : Nat) (first second : JsString) : Prop :=
  first = second ∨
    limit < first.length ∧ limit < second.length ∧ first.take limit = second.take limit

theorem Agree.append {limit : Nat} {first second more others : JsString}
    (h : Agree limit first second) (hmore : Agree limit more others) :
    Agree limit (first ++ more) (second ++ others) := by
  rcases h with rfl | ⟨hfirst, hsecond, hsame⟩
  · rcases hmore with rfl | ⟨hmore, hothers, hsame⟩
    · exact .inl rfl
    · have hrest := congrArg (List.take (limit - first.length)) hsame
      rw [List.take_take, List.take_take, Nat.min_eq_left (Nat.sub_le _ _)] at hrest
      refine .inr ⟨?_, ?_, ?_⟩
      · rw [List.length_append]
        omega
      · rw [List.length_append]
        omega
      · rw [List.take_append, List.take_append, hrest]
  · refine .inr ⟨?_, ?_, ?_⟩
    · rw [List.length_append]
      omega
    · rw [List.length_append]
      omega
    · rw [List.take_append_of_le_length hfirst.le, List.take_append_of_le_length hsecond.le, hsame]

/-- The whole text, or its part up to the limit with the marker. -/
def boundedTo (limit : Nat) (text : JsString) : JsString :=
  if text.length ≤ limit then text else truncatedText text limit

theorem Agree.bounded_eq {limit : Nat} {first second : JsString} (h : Agree limit first second) :
    boundedTo limit first = boundedTo limit second := by
  rcases h with rfl | ⟨hfirst, hsecond, hsame⟩
  · rfl
  · rw [boundedTo, boundedTo, if_neg (Nat.not_le.mpr hfirst),
      if_neg (Nat.not_le.mpr hsecond), truncatedText, truncatedText, hsame]

theorem boundedLoop_eq (limit : Nat) (pieces : List (List Char)) :
    ∀ text : JsString, text.length ≤ limit →
      boundedLoop limit text pieces = boundedTo limit (text ++ textUnits pieces.flatten) := by
  induction pieces with
  | nil =>
    intro text htext
    rw [boundedLoop, boundedTo, List.flatten_nil, textUnits, List.flatMap_nil, List.append_nil,
      if_pos htext]
  | cons piece pieces ih =>
    intro text _
    have hsplit : text ++ textUnits (piece :: pieces).flatten =
        (text ++ textUnits piece) ++ textUnits pieces.flatten := by
      rw [List.flatten_cons, textUnits, List.flatMap_append, ← List.append_assoc]
      rfl
    rw [boundedLoop, hsplit]
    split_ifs with hlong
    · have hlonger : limit < ((text ++ textUnits piece) ++ textUnits pieces.flatten).length := by
        rw [List.length_append]
        omega
      rw [boundedTo, if_neg (Nat.not_le.mpr hlonger), truncatedText, truncatedText,
        List.take_append_of_le_length (Nat.le_of_lt hlong)]
    · exact ih _ (Nat.not_lt.mp hlong)

/-! ## Quoting a cut string -/

theorem unitsOf_pos (c : Char) : 0 < (unitsOf c).length := by
  unfold unitsOf
  split_ifs
  · exact Nat.one_pos
  · exact Nat.two_pos

theorem quotedUnit_pos (unit : UInt16) : 0 < (textUnits (quotedUnit unit)).length := by
  have hne : quotedUnit unit ≠ [] := by
    rcases quotedUnit_cases unit with ⟨escape, -, -, heq⟩ | heq | ⟨-, heq⟩ <;> rw [heq] <;>
      exact List.cons_ne_nil _ _
  obtain ⟨c, rest, hchars⟩ := List.exists_cons_of_ne_nil hne
  have hfirst := unitsOf_pos c
  rw [hchars, textUnits, List.flatMap_cons, List.length_append]
  omega

theorem pair_units {high low : UInt16} (h : (isHigh high && isLow low) = true) :
    (unitsOf (Char.ofNat (pairPoint high low))).length = 2 := by
  simp only [isHigh, isLow, Bool.and_eq_true, decide_eq_true_eq] at h
  have hscalar : (Char.ofNat (pairPoint high low)).toNat = pairPoint high low :=
    toNat_ofNat_scalar (by unfold pairPoint; omega)
  rw [unitsOf, hscalar, if_neg (by unfold pairPoint; omega)]
  rfl

theorem length_quotedUnits (units : JsString) :
    units.length ≤ (textUnits (quotedUnits units)).length := by
  induction units using quotedUnits.induct with
  | case1 => exact Nat.zero_le _
  | case2 unit => exact quotedUnit_pos unit
  | case3 first second rest hpair ih =>
    have htwo := pair_units hpair
    rw [quotedUnits, if_pos hpair, textUnits, List.flatMap_cons, List.length_append]
    rw [textUnits] at ih
    simp only [List.length_cons]
    omega
  | case4 first second rest hpair ih =>
    have hone := quotedUnit_pos first
    rw [quotedUnits, if_neg hpair, textUnits, List.flatMap_append, List.length_append]
    rw [textUnits] at ih hone
    rw [List.length_cons]
    omega

/-- Two texts that begin alike and then agree for the rest of the way. -/
theorem take_append_congr {front first second : JsString} {bound : Nat}
    (h : first.take (bound - front.length) = second.take (bound - front.length)) :
    (front ++ first).take bound = (front ++ second).take bound := by
  rw [List.take_append, List.take_append, h]

/-- One unit more than is kept is enough: the unit behind it is quoted past the limit, whether or
not it is half of a pair. -/
theorem quotedUnits_take (bound : Nat) : ∀ units : JsString,
    (textUnits (quotedUnits (units.take (bound + 1)))).take bound =
      (textUnits (quotedUnits units)).take bound := by
  induction bound using Nat.strongRecOn with
  | ind bound ih =>
    intro units
    rcases bound with _ | bound
    · rw [List.take_zero, List.take_zero]
    rcases units with _ | ⟨first, _ | ⟨second, rest⟩⟩
    · rfl
    · rfl
    have hcut : (first :: second :: rest).take (bound + 1 + 1) = first :: second :: rest.take bound :=
      rfl
    rw [hcut]
    by_cases hpair : (isHigh first && isLow second) = true
    · rw [quotedUnits, if_pos hpair, quotedUnits, if_pos hpair, textUnits, textUnits,
        List.flatMap_cons, List.flatMap_cons]
      refine take_append_congr ?_
      rw [pair_units hpair]
      cases bound with
      | zero => rfl
      | succ bound => exact ih bound (by omega) rest
    · rw [quotedUnits, if_neg hpair, quotedUnits, if_neg hpair, textUnits, textUnits,
        List.flatMap_append, List.flatMap_append]
      refine take_append_congr ?_
      have hone := quotedUnit_pos first
      have hrest := congrArg (List.take (bound + 1 - (textUnits (quotedUnit first)).length))
        (ih bound (by omega) (second :: rest))
      rw [List.take_take, List.take_take, Nat.min_eq_left (by omega)] at hrest
      exact hrest

theorem stringify_agree (limit : Nat) (text : JsString) :
    Agree limit (textUnits (stringify (cutString limit text))) (textUnits (stringify text)) := by
  unfold cutString
  split_ifs with hlong
  · have hunits : ∀ units : JsString, textUnits (stringify units) =
        unitsOf '"' ++ textUnits (quotedUnits units) ++ unitsOf '"' := by
      intro units
      simp [stringify, textUnits, List.flatMap_append]
    have hquote : unitsOf '"' = [0x22] := rfl
    have hcut := length_quotedUnits (text.take (limit + 1))
    have hwhole := length_quotedUnits text
    rw [List.length_take, Nat.min_eq_left hlong] at hcut
    refine .inr ⟨?_, ?_, ?_⟩
    · rw [hunits, hquote]
      simp only [List.length_append, List.length_singleton]
      omega
    · rw [hunits, hquote]
      simp only [List.length_append, List.length_singleton]
      omega
    · rw [hunits, hunits, List.append_assoc, List.append_assoc]
      refine take_append_congr ?_
      rw [List.take_append_of_le_length (by omega), List.take_append_of_le_length (by omega)]
      have hsame := congrArg (List.take (limit - (unitsOf '"').length)) (quotedUnits_take limit text)
      rwa [List.take_take, List.take_take, Nat.min_eq_left (Nat.sub_le _ _)] at hsame
  · exact .inl rfl

/-! ## Values -/

section Values

variable (limit : Nat)

mutual

def cutStrings : JsonDocument → JsonDocument
  | .string value => .string (cutString limit value)
  | .array items => .array (cutItems items)
  | .object members => .object (cutMembers members)
  | other => other

def cutItems : List JsonDocument → List JsonDocument
  | [] => []
  | item :: rest => cutStrings item :: cutItems rest

def cutMembers : List (JsString × JsonDocument) → List (JsString × JsonDocument)
  | [] => []
  | (name, value) :: rest => (cutString limit name, cutStrings value) :: cutMembers rest

end

theorem cutItems_eq_map (items : List JsonDocument) :
    cutItems limit items = items.map (cutStrings limit) := by
  induction items with
  | nil => rfl
  | cons item rest ih => rw [cutItems, ih, List.map_cons]

theorem cutMembers_eq_map (members : List (JsString × JsonDocument)) :
    cutMembers limit members =
      members.map fun member => (cutString limit member.1, cutStrings limit member.2) := by
  induction members with
  | nil => rfl
  | cons member rest ih => rw [cutMembers, ih, List.map_cons]

theorem boundedStyle_spells (text : NumberText) :
    Spells (boundedStyle text limit) text (cutStrings limit) (cutString limit) where
  leaf value hvalue hleaf := by
    cases hvalue with
    | @number number hfinite =>
      cases number with
      | finite number => rfl
      | _ => cases hfinite
    | array _ => exact absurd hleaf id
    | object _ _ => exact absurd hleaf id
    | bool flag => cases flag <;> rfl
    | _ => rfl
  array items := by rw [cutStrings, cutItems_eq_map]
  object members := by
    rw [cutStrings, cutMembers_eq_map]
    rfl
  key _ := rfl

def TextsAgree (first second : List Char) : Prop :=
  Agree limit (textUnits first) (textUnits second)

variable {limit}

theorem TextsAgree.append {first second more others : List Char}
    (h : TextsAgree limit first second) (hmore : TextsAgree limit more others) :
    TextsAgree limit (first ++ more) (second ++ others) := by
  unfold TextsAgree textUnits
  rw [List.flatMap_append, List.flatMap_append]
  exact Agree.append h hmore

theorem TextsAgree.cons {first second : List Char} (h : TextsAgree limit first second) (c : Char) :
    TextsAgree limit (c :: first) (c :: second) :=
  TextsAgree.append (.inl rfl : TextsAgree limit [c] [c]) h

variable (text : NumberText)

mutual

theorem jsonText_agree : ∀ value : JsonDocument,
    TextsAgree limit (jsonText text (cutStrings limit value)) (jsonText text value)
  | .null | .bool _ | .number _ => .inl rfl
  | .string value => stringify_agree limit value
  | .array items => (itemsText_agree items).cons '['
  | .object members => (membersText_agree members).cons '\x7b'

theorem itemsText_agree : ∀ items : List JsonDocument,
    TextsAgree limit (itemsText text (cutItems limit items)) (itemsText text items)
  | [] => .inl rfl
  | item :: rest => (jsonText_agree item).append (moreItemsText_agree rest)

theorem moreItemsText_agree : ∀ items : List JsonDocument,
    TextsAgree limit (moreItemsText text (cutItems limit items)) (moreItemsText text items)
  | [] => .inl rfl
  | item :: rest => ((jsonText_agree item).append (moreItemsText_agree rest)).cons ','

theorem membersText_agree : ∀ members : List (JsString × JsonDocument),
    TextsAgree limit (membersText text (cutMembers limit members)) (membersText text members)
  | [] => .inl rfl
  | (name, value) :: rest => TextsAgree.append (stringify_agree limit name)
    (((jsonText_agree value).append (moreMembersText_agree rest)).cons ':')

theorem moreMembersText_agree : ∀ members : List (JsString × JsonDocument),
    TextsAgree limit (moreMembersText text (cutMembers limit members)) (moreMembersText text members)
  | [] => .inl rfl
  | (name, value) :: rest => (TextsAgree.append (stringify_agree limit name)
    (((jsonText_agree value).append (moreMembersText_agree rest)).cons ':')).cons ','

end

end Values

/-- A value with finite numbers is written exactly as `JSON.stringify` writes it where that text has
at most `limit` code units, and otherwise as the first `limit` of them and the marker. -/
theorem bounded_text_is_stringified_text (text : NumberText) {value : JsonDocument}
    (h : Representable value) (limit : Nat) :
    boundedJsonText text value limit =
      some (if (textUnits (jsonText text value)).length ≤ limit then textUnits (jsonText text value)
        else (textUnits (jsonText text value)).take limit ++ truncationMarker) := by
  obtain ⟨pieces, hpieces, hwritten⟩ := (boundedStyle_spells limit text).jsonTextPieces_eq h
  have hloop := boundedLoop_eq limit pieces [] (Nat.zero_le _)
  rw [List.nil_append, hwritten, (jsonText_agree text value).bounded_eq] at hloop
  rw [boundedJsonText, hpieces, Option.map_some, hloop]
  rfl

/-- The string is cut inside its surrogate pair. -/
theorem split_pair_is_past_the_limit :
    boundedJsonText exactText (.array [.string (jsString "ab\n😀")]) 3 =
      some (jsString "[\"a" ++ truncationMarker) :=
  bounded_text_is_stringified_text exactText
    (.array fun _ hmem => List.mem_singleton.mp hmem ▸ .string _) 3

end RefundStudy.Record.BoundedText
