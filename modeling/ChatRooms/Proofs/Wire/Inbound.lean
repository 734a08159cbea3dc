import ChatRooms.Proofs.Json.Unambiguous
import ChatRooms.Proofs.Json.Writing
import ChatRooms.Wire.Frame

/-!
Which texts are frames. A frame is an object with one member for the room and one for the content,
whatever other members there are, or a list of the two; and it must name a room.
-/

namespace ChatRooms

open ChatRooms.Json ChatRooms.Json.Grammar ChatRooms.Text ChatRooms.Text.Symbol

namespace Json.Grammar

/-- The text is an object with these members, with space around it. -/
def IsObject (s : List Char) (ms : List (String × List Char)) : Prop :=
  ∃ w t z, s = w ++ (t ++ z) ∧ Space w ∧ Object ms t ∧ Space z

/-- The text is a list of these elements, with space around it. -/
def IsSequence (s : List Char) (vs : List (List Char)) : Prop :=
  ∃ w t z, s = w ++ (t ++ z) ∧ Space w ∧ Sequence vs t ∧ Space z

theorem Object.noSpace {ms : List (String × List Char)} {t : List Char} (h : Object ms t)
    (r : List Char) : NoSpace (t ++ r) := by
  cases h <;> exact noSpace_cons rfl

/-- The members of a text are no others. -/
theorem IsObject.unique {s : List Char} {ms ms' : List (String × List Char)} (h : IsObject s ms)
    (h' : IsObject s ms') : ms = ms' := by
  obtain ⟨w, t, z, rfl, hw, ht, -⟩ := h
  obtain ⟨w', t', z', heq, hw', ht', -⟩ := h'
  exact ht.prefix_unique ht' (hw.prefix_unique hw' (ht.noSpace z) (ht'.noSpace z') heq)

theorem IsObject.not_isSequence {s : List Char} {ms : List (String × List Char)}
    {vs : List (List Char)} (h : IsObject s ms) : ¬IsSequence s vs := by
  rintro ⟨w', t', z', heq, hw', ht', -⟩
  obtain ⟨w, t, z, rfl, hw, ht, -⟩ := h
  have hbracket : NoSpace (t' ++ z') := by
    cases ht' <;> exact noSpace_cons rfl
  have hsame := hw.prefix_unique hw' (ht.noSpace z) hbracket heq
  cases ht <;> cases ht' <;> cases hsame

end Json.Grammar

namespace InboundFrame

/-- The members of an object write a frame: the room and the content have one member each. -/
def Fields (ms : List (String × List Char)) (f : InboundFrame) : Prop :=
  (∃ t, valuesOf ms "room_id" = [t] ∧ Grammar.Text t f.roomId) ∧
    ∃ t, valuesOf ms "content" = [t] ∧ Grammar.Text t f.content

/-- The text writes a frame: as an object, or as a list of the room and the content. -/
def IsFrame (s : List Char) (f : InboundFrame) : Prop :=
  (∃ ms, IsObject s ms ∧ Fields ms f) ∨
    ∃ t u, IsSequence s [t, u] ∧ Grammar.Text t f.roomId ∧ Grammar.Text u f.content

theorem fills_iff {ms : List (String × List Char)} {f : InboundFrame} :
    Fills schema.fields ms f.toRow ↔ Fields ms f := by
  simp [Fills, FieldIs, Kind.absent?, Writes, toRow, Fields]

theorem lists_iff {vs : List (List Char)} {f : InboundFrame} :
    Json.Lists schema.fields vs f.toRow ↔
      ∃ t u, vs = [t, u] ∧ Grammar.Text t f.roomId ∧ Grammar.Text u f.content := by
  match vs with
  | [] | [_] | _ :: _ :: _ :: _ => simp [Json.Lists, toRow]
  | [t, u] =>
    constructor
    · rintro ⟨ht, hu, -⟩
      exact ⟨t, u, rfl, ht, hu⟩
    · rintro ⟨t', u', heq, ht, hu⟩
      cases heq
      exact ⟨ht, hu, trivial⟩

theorem decode_iff (raw : String) (f : InboundFrame) :
    schema.decode (ofChars raw.toList) = .ok f.toRow ↔ IsFrame raw.toList f := by
  rw [schema.decode_ok_iff (by decide)]
  constructor
  · rintro ⟨w, t, z, hs, hw, hz, ⟨ms, ht, hrow⟩ | ⟨vs, ht, hrow⟩⟩
    · exact .inl ⟨ms, ⟨w, t, z, hs, hw, ht, hz⟩, fills_iff.mp hrow⟩
    · obtain ⟨v, u, rfl, hv, hu⟩ := lists_iff.mp hrow
      exact .inr ⟨v, u, ⟨w, t, z, hs, hw, ht, hz⟩, hv, hu⟩
  · rintro (⟨ms, ⟨w, t, z, hs, hw, ht, hz⟩, hfields⟩ | ⟨v, u, ⟨w, t, z, hs, hw, ht, hz⟩, hv, hu⟩)
    · exact ⟨w, t, z, hs, hw, hz, .inl ⟨ms, ht, fills_iff.mpr hfields⟩⟩
    · exact ⟨w, t, z, hs, hw, hz, .inr ⟨_, ht, lists_iff.mpr ⟨v, u, rfl, hv, hu⟩⟩⟩

/-- What `parse` does with a text. -/
theorem parse_cases (raw : String) :
    (∃ f : InboundFrame, schema.decode (ofChars raw.toList) = .ok f.toRow ∧ f.roomId ≠ "" ∧
      parse raw = .ok f) ∨
    ∃ text, parse raw = .error (.malformedMessage text) ∧
      ∀ f : InboundFrame, schema.decode (ofChars raw.toList) = .ok f.toRow → f.roomId = "" := by
  unfold parse Schema.decodeText
  dsimp only
  cases hrow : schema.decode (ofChars raw.toList) with
  | error fault => exact .inr ⟨_, rfl, fun f hf => by cases hf⟩
  | ok row =>
    by_cases hempty : (ofRow row).roomId = ""
    · refine .inr ⟨_, if_pos (by simpa using hempty), fun f hf => ?_⟩
      obtain rfl := Except.ok.inj hf
      exact hempty
    · exact .inl ⟨ofRow row, rfl, hempty, if_neg (by simpa using hempty)⟩

theorem parse_ok_iff (raw : String) (f : InboundFrame) :
    parse raw = .ok f ↔ f.roomId ≠ "" ∧ IsFrame raw.toList f := by
  rw [← decode_iff]
  rcases parse_cases raw with ⟨f', hrow, hroom, hok⟩ | ⟨text, herror, hempty⟩
  · rw [hok, hrow]
    constructor
    · rintro h
      cases h
      exact ⟨hroom, rfl⟩
    · rintro ⟨-, h⟩
      exact congrArg Except.ok (congrArg ofRow (Except.ok.inj h))
  · rw [herror]
    constructor
    · intro h
      cases h
    · rintro ⟨hroom, h⟩
      exact absurd (hempty f h) hroom

/-! ### Members that are not known -/

/-- The member is the room or the content of a frame. -/
def isKnown (m : String × List Char) : Bool := m.1 = "room_id" || m.1 = "content"

/-- The values of a known key are the same in objects with the same known members. -/
theorem valuesOf_eq_of_perm {ms ms' : List (String × List Char)} {key : String} {t : List Char}
    (hkey : ∀ m : String × List Char, m.1 = key → isKnown m = true)
    (hperm : (ms.filter isKnown).Perm (ms'.filter isKnown)) (h : valuesOf ms key = [t]) :
    valuesOf ms' key = [t] := by
  have hknown : ∀ ms, valuesOf (ms.filter isKnown) key = valuesOf ms key := by
    intro ms
    unfold valuesOf
    rw [List.filter_filter]
    refine congrArg _ (List.filter_congr fun m _ => ?_)
    by_cases hm : m.1 = key
    · simp [hm, hkey m hm]
    · simp [hm]
  have hvalues : (valuesOf ms key).Perm (valuesOf ms' key) := by
    rw [← hknown ms, ← hknown ms']
    exact (hperm.filter _).map _
  rw [h] at hvalues
  exact List.perm_singleton.mp hvalues.symm

/-- Members that are not known, wherever they stand, change nothing. -/
theorem parse_of_perm {raw raw' : String} {ms ms' : List (String × List Char)} {f : InboundFrame}
    (hms : IsObject raw.toList ms) (hms' : IsObject raw'.toList ms')
    (hperm : (ms.filter isKnown).Perm (ms'.filter isKnown)) (hok : parse raw = .ok f) :
    parse raw' = .ok f := by
  obtain ⟨hroom, ⟨ms₀, hms₀, ⟨t, ht, hroomId⟩, u, hu, hcontent⟩ | ⟨t, u, hsequence, -⟩⟩ :=
    (parse_ok_iff raw f).mp hok
  · obtain rfl := hms.unique hms₀
    refine (parse_ok_iff raw' f).mpr ⟨hroom, .inl ⟨ms', hms', ⟨t, ?_, hroomId⟩, u, ?_, hcontent⟩⟩
    · exact valuesOf_eq_of_perm (by simp [isKnown]) hperm ht
    · exact valuesOf_eq_of_perm (by simp [isKnown]) hperm hu
  · exact absurd hsequence hms.not_isSequence

/-- **Which texts are frames**, and what they say. Every other text is malformed. Members that are
not known, wherever they stand, change nothing. -/
theorem parse_spec (raw : String) :
    (∀ f, parse raw = .ok f ↔ f.roomId ≠ "" ∧
      ((∃ ms, IsObject raw.toList ms ∧
          (∃ t, valuesOf ms "room_id" = [t] ∧ Grammar.Text t f.roomId) ∧
          ∃ t, valuesOf ms "content" = [t] ∧ Grammar.Text t f.content) ∨
        ∃ t u, IsSequence raw.toList [t, u] ∧ Grammar.Text t f.roomId ∧ Grammar.Text u f.content)) ∧
    ((∃ f, parse raw = .ok f) ∨ ∃ text, parse raw = .error (.malformedMessage text)) ∧
    ∀ {f ms ms'} {raw' : String}, parse raw = .ok f → IsObject raw.toList ms →
      IsObject raw'.toList ms' → (ms.filter isKnown).Perm (ms'.filter isKnown) →
      parse raw' = .ok f := by
  refine ⟨parse_ok_iff raw, ?_, fun hok hms hms' hperm => parse_of_perm hms hms' hperm hok⟩
  rcases parse_cases raw with ⟨f, -, -, hok⟩ | ⟨text, herror, -⟩
  · exact .inl ⟨f, hok⟩
  · exact .inr ⟨text, herror⟩

/-- The members of a frame in another order, with others between them. -/
theorem parse_spec_shuffled :
    parse " \x7b\"x\":[\x7b\x7d],\"content\":\"c\",\"x\":null,\"room_id\":\"r\"\x7d" =
      .ok ⟨"r", "c"⟩ := by
  have hspace : Space [] := by simp [Space]
  have hroom : Value (writeText "r") := (text_writeText "r").value
  have hcontent : Value (writeText "c") := (text_writeText "c").value
  have hlist : Value ['[', '\x7b', '\x7d', ']'] :=
    .bracket (.last hspace (.element (.empty .object hspace)) hspace)
  have hplain : IsObject "\x7b\"room_id\":\"r\",\"content\":\"c\"\x7d".toList
      [("room_id", writeText "r"), ("content", writeText "c")] :=
    ⟨[], _, [], rfl, hspace, object_writeObject (by simp [hroom, hcontent]), hspace⟩
  have hshuffled : IsObject
      " \x7b\"x\":[\x7b\x7d],\"content\":\"c\",\"x\":null,\"room_id\":\"r\"\x7d".toList
      [("x", ['[', '\x7b', '\x7d', ']']), ("content", writeText "c"), ("x", writeNull),
        ("room_id", writeText "r")] := by
    refine ⟨[' '], _, [], rfl, by simp [Space, isSpace], object_writeObject ?_, hspace⟩
    simp [hroom, hcontent, hlist, show Value writeNull from .null]
  exact (parse_spec _).2.2 rfl hplain hshuffled (.swap _ _ _)

/-- The key of an unknown member must be a text as well: one that escapes half a surrogate pair
spoils what is a frame otherwise. -/
theorem lone_surrogate_in_key_is_refused :
    let raw := "\x7b\"room_id\":\"r\",\"content\":\"c\",\"\\ud800\":1\x7d"
    ∃ key value : List Char,
      raw.toList = '\x7b' :: (writeMember ("room_id", writeText "r") ++ ',' ::
        (writeMember ("content", writeText "c") ++ ',' :: (key ++ ':' :: (value ++ ['\x7d'])))) ∧
      Token key ∧ (∀ s, ¬Grammar.Text key s) ∧ Value value ∧
      parse raw = .error (.malformedMessage "unexpected end of hex escape at line 1 column 37") := by
  have hkey : Token "\"\\ud800\"".toList := .quoted (.single (.code (.digits rfl)))
  have hvalue : Value (writeNat 1) := .number (natural_writeNat (show 1 < 2 by decide)).number
  refine ⟨_, _, rfl, hkey, fun s hs => ?_, hvalue, rfl⟩
  obtain ⟨u, hu, hread⟩ := readText_complete hs []
  cases hu
  cases hread

end InboundFrame

end ChatRooms
