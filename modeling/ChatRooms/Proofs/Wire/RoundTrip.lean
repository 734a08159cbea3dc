import ChatRooms.Accounts.User
import ChatRooms.Proofs.Json.Writing
import ChatRooms.Rooms.Room
import ChatRooms.Wire.Frame

/-!
What is sent arrives. Every record that goes over a socket or through a request is read back as it
was written, so that no two of them are written alike. Only a leap second that does not end a minute
is written like the second behind it; a record that holds one is read back with the latter.
-/

namespace ChatRooms

open ChatRooms.Json ChatRooms.Time

/-- A record is read back if its row gives the record and the values of the row fit. -/
theorem decode_written {α : Type} {c : Schema} {toRow : α → Row c.fields}
    {ofRow : Row c.fields → α} {a : α} (hnames : (c.fields.map (·.name)).Nodup)
    (hfits : RowFits c.fields (toRow a)) (hrow : ofRow (toRow a) = a) :
    (c.decodeText (String.ofList (c.write (toRow a)))).map ofRow = .ok a := by
  rw [Schema.decodeText_write hnames hfits, Except.map, hrow]

theorem Envelope.decode_encode {e : Envelope} (h : e.timestamp.IsRegular) :
    (schema.decodeText e.encode).map ofRow = .ok e :=
  decode_written (by decide) ⟨trivial, trivial, trivial, trivial, h, trivial⟩ rfl

theorem InboundFrame.decode_json (f : InboundFrame) :
    (schema.decodeText f.json).map ofRow = .ok f :=
  decode_written (by decide) ⟨trivial, trivial, trivial⟩ rfl

theorem Identity.decode_json (i : Identity) :
    (schema.decodeText i.json).map ofRow = .ok i :=
  decode_written (by decide) ⟨trivial, trivial, trivial⟩ rfl

theorem RoomPresence.decode_json {p : RoomPresence} (h : p.online < Numeral.limit) :
    (schema.decodeText p.json).map ofRow = .ok p :=
  decode_written (by decide) ⟨trivial, h, trivial⟩ rfl

theorem Session.decode_json {s : Session} (h : s.createdAt.IsRegular)
    (h' : s.expiresAt.IsRegular) : (schema.decodeText s.json).map ofRow = .ok s :=
  decode_written (by decide) ⟨trivial, trivial, h, h', trivial⟩ rfl

theorem UserInfo.decode_json {u : UserInfo} (h : u.createdAt.IsRegular) :
    (schema.decodeText u.json).map ofRow = .ok u :=
  decode_written (by decide) ⟨trivial, trivial, trivial, h, trivial⟩ rfl

theorem Room.decode_json {r : Room} (h : r.createdAt.IsRegular) :
    (schema.decodeText r.json).map ofRow = .ok r :=
  decode_written (by decide) ⟨trivial, trivial, h, trivial⟩ rfl

/-- A frame that names a room is accepted as it was written. -/
theorem InboundFrame.parse_json {f : InboundFrame} (h : f.roomId ≠ "") : parse f.json = .ok f := by
  have hdecode := f.decode_json
  unfold parse
  cases hrow : schema.decodeText f.json with
  | error text =>
    rw [hrow] at hdecode
    cases hdecode
  | ok row =>
    rw [hrow] at hdecode
    cases hdecode
    exact if_neg (by simpa using h)

/-- Records that are read from the same text are the same. -/
theorem eq_of_decoded {α ε : Type} {a b : α} {x y : Except ε α} (ha : x = .ok a) (hb : y = .ok b)
    (h : x = y) : a = b := by
  rw [h, hb] at ha
  exact (Except.ok.inj ha).symm

/-! ### Instants that no text tells -/

/-- Instants are written as the regular ones with the same text. -/
theorem writeKind_instant_settled (t : Instant) :
    writeKind .instant t.settled = writeKind .instant t := by
  rw [writeKind, writeKind, t.stamp_settled.2]

/-- The envelope that is read back. -/
def Envelope.settled (e : Envelope) : Envelope := { e with timestamp := e.timestamp.settled }

/-- The session that is read back. -/
def Session.settled (s : Session) : Session :=
  { s with createdAt := s.createdAt.settled, expiresAt := s.expiresAt.settled }

/-- The user that is read back. -/
def UserInfo.settled (u : UserInfo) : UserInfo := { u with createdAt := u.createdAt.settled }

/-- The room that is read back. -/
def Room.settled (r : Room) : Room := { r with createdAt := r.createdAt.settled }

theorem Envelope.encode_settled (e : Envelope) : e.settled.encode = e.encode := by
  simp only [encode, Schema.write, toRow, rowMembers, settled, writeKind_instant_settled]

theorem Session.json_settled (s : Session) : s.settled.json = s.json := by
  simp only [json, Schema.write, toRow, rowMembers, settled, writeKind_instant_settled]

theorem UserInfo.json_settled (u : UserInfo) : u.settled.json = u.json := by
  simp only [json, Schema.write, toRow, rowMembers, settled, writeKind_instant_settled]

theorem Room.json_settled (r : Room) : r.settled.json = r.json := by
  simp only [json, Schema.write, toRow, rowMembers, settled, writeKind_instant_settled]

theorem Envelope.decode_encode_settled (e : Envelope) :
    (schema.decodeText e.encode).map ofRow = .ok e.settled := by
  rw [← e.encode_settled]
  exact decode_encode e.timestamp.settled_isRegular

theorem Session.decode_json_settled (s : Session) :
    (schema.decodeText s.json).map ofRow = .ok s.settled := by
  rw [← s.json_settled]
  exact decode_json s.createdAt.settled_isRegular s.expiresAt.settled_isRegular

theorem UserInfo.decode_json_settled (u : UserInfo) :
    (schema.decodeText u.json).map ofRow = .ok u.settled := by
  rw [← u.json_settled]
  exact decode_json u.createdAt.settled_isRegular

theorem Room.decode_json_settled (r : Room) :
    (schema.decodeText r.json).map ofRow = .ok r.settled := by
  rw [← r.json_settled]
  exact decode_json r.createdAt.settled_isRegular

/-- Records have one text exactly if the same record is read back from both. -/
theorem text_eq_iff {α ε : Type} {text : α → String} {d : String → Except ε α}
    {settled : α → α} (hsame : ∀ a, text (settled a) = text a)
    (hdecode : ∀ a, d (text a) = .ok (settled a)) (a b : α) :
    text a = text b ↔ settled a = settled b := by
  constructor
  · exact fun h => eq_of_decoded (hdecode a) (hdecode b) (by rw [h])
  · intro h
    rw [← hsame a, h, hsame b]

/-- **What is sent arrives.** Every record whose leap seconds end minutes is read back from its
text, whatever characters its strings are made of and whatever instants it holds; and different ones
have different texts. Whatever is read from a text is such a record. Any other one is read back with
the second behind its leap second, and has the text of what is read back. -/
theorem decode_undoes_encode :
    (∀ e : Envelope, e.timestamp.IsRegular →
      (Envelope.schema.decodeText e.encode).map Envelope.ofRow = .ok e) ∧
    (∀ f : InboundFrame, (InboundFrame.schema.decodeText f.json).map InboundFrame.ofRow = .ok f) ∧
    (∀ f : InboundFrame, f.roomId ≠ "" → InboundFrame.parse f.json = .ok f) ∧
    (∀ i : Identity, (Identity.schema.decodeText i.json).map Identity.ofRow = .ok i) ∧
    (∀ p : RoomPresence, p.online < Numeral.limit →
      (RoomPresence.schema.decodeText p.json).map RoomPresence.ofRow = .ok p) ∧
    (∀ s : Session, s.createdAt.IsRegular → s.expiresAt.IsRegular →
      (Session.schema.decodeText s.json).map Session.ofRow = .ok s) ∧
    (∀ u : UserInfo, u.createdAt.IsRegular →
      (UserInfo.schema.decodeText u.json).map UserInfo.ofRow = .ok u) ∧
    (∀ r : Room, r.createdAt.IsRegular →
      (Room.schema.decodeText r.json).map Room.ofRow = .ok r) ∧
    -- different records have different texts
    (∀ e e' : Envelope, e.timestamp.IsRegular → e'.timestamp.IsRegular →
      e.encode = e'.encode → e = e') ∧
    (∀ f f' : InboundFrame, f.json = f'.json → f = f') ∧
    (∀ i i' : Identity, i.json = i'.json → i = i') ∧
    (∀ p p' : RoomPresence, p.online < Numeral.limit → p'.online < Numeral.limit →
      p.json = p'.json → p = p') ∧
    (∀ s s' : Session, s.createdAt.IsRegular → s.expiresAt.IsRegular →
      s'.createdAt.IsRegular → s'.expiresAt.IsRegular → s.json = s'.json → s = s') ∧
    (∀ u u' : UserInfo, u.createdAt.IsRegular → u'.createdAt.IsRegular →
      u.json = u'.json → u = u') ∧
    (∀ r r' : Room, r.createdAt.IsRegular → r'.createdAt.IsRegular →
      r.json = r'.json → r = r') ∧
    -- which instants are read back, and what is read instead of the others
    (∀ (s : List Char) (t : Instant), Instant.read s = .ok t → t.IsRegular) ∧
    (∀ t : Instant, t.settled = t ↔ t.IsRegular) ∧
    (∀ e : Envelope, (Envelope.schema.decodeText e.encode).map Envelope.ofRow = .ok e.settled ∧
      ∀ e' : Envelope, e.encode = e'.encode ↔ e.settled = e'.settled) ∧
    (∀ s : Session, (Session.schema.decodeText s.json).map Session.ofRow = .ok s.settled ∧
      ∀ s' : Session, s.json = s'.json ↔ s.settled = s'.settled) ∧
    (∀ u : UserInfo, (UserInfo.schema.decodeText u.json).map UserInfo.ofRow = .ok u.settled ∧
      ∀ u' : UserInfo, u.json = u'.json ↔ u.settled = u'.settled) ∧
    (∀ r : Room, (Room.schema.decodeText r.json).map Room.ofRow = .ok r.settled ∧
      ∀ r' : Room, r.json = r'.json ↔ r.settled = r'.settled) := by
  refine ⟨fun _ => Envelope.decode_encode, InboundFrame.decode_json,
    fun _ => InboundFrame.parse_json, Identity.decode_json, fun _ => RoomPresence.decode_json,
    fun _ => Session.decode_json, fun _ => UserInfo.decode_json, fun _ => Room.decode_json,
    ?_, ?_, ?_, ?_, ?_, ?_, ?_, fun _ _ => Instant.isRegular_of_read,
    Instant.settled_eq_self_iff, ?_, ?_, ?_, ?_⟩
  · intro e e' he he' h
    exact eq_of_decoded (Envelope.decode_encode he) (Envelope.decode_encode he') (by rw [h])
  · intro f f' h
    exact eq_of_decoded f.decode_json f'.decode_json (by rw [h])
  · intro i i' h
    exact eq_of_decoded i.decode_json i'.decode_json (by rw [h])
  · intro p p' hp hp' h
    exact eq_of_decoded (RoomPresence.decode_json hp) (RoomPresence.decode_json hp') (by rw [h])
  · intro s s' hs hend hs' hend' h
    exact eq_of_decoded (Session.decode_json hs hend) (Session.decode_json hs' hend') (by rw [h])
  · intro u u' hu hu' h
    exact eq_of_decoded (UserInfo.decode_json hu) (UserInfo.decode_json hu') (by rw [h])
  · intro r r' hr hr' h
    exact eq_of_decoded (Room.decode_json hr) (Room.decode_json hr') (by rw [h])
  · exact fun e => ⟨e.decode_encode_settled,
      text_eq_iff (d := fun s => (Envelope.schema.decodeText s).map Envelope.ofRow)
        Envelope.encode_settled Envelope.decode_encode_settled e⟩
  · exact fun s => ⟨s.decode_json_settled,
      text_eq_iff (d := fun s => (Session.schema.decodeText s).map Session.ofRow)
        Session.json_settled Session.decode_json_settled s⟩
  · exact fun u => ⟨u.decode_json_settled,
      text_eq_iff (d := fun s => (UserInfo.schema.decodeText s).map UserInfo.ofRow)
        UserInfo.json_settled UserInfo.decode_json_settled u⟩
  · exact fun r => ⟨r.decode_json_settled,
      text_eq_iff (d := fun s => (Room.schema.decodeText s).map Room.ofRow)
        Room.json_settled Room.decode_json_settled r⟩

/-- A frame with quotes, backslashes and a line feed, a full room, and a message in a leap second.
-/
theorem decode_undoes_encode_quoted :
    InboundFrame.parse (InboundFrame.json ⟨"lab", "a \"b\" \\ \n"⟩) =
      .ok ⟨"lab", "a \"b\" \\ \n"⟩ ∧
    (RoomPresence.schema.decodeText (RoomPresence.json ⟨"lab", 3⟩)).map RoomPresence.ofRow =
      .ok ⟨"lab", 3⟩ ∧
    ∃ t : Instant, Instant.withParts? 1483228799 1500000000 = some t ∧
      (Envelope.schema.decodeText (Envelope.encode ⟨"lab", "hi", "u1", "Ada", t⟩)).map
        Envelope.ofRow = .ok ⟨"lab", "hi", "u1", "Ada", t⟩ := by
  obtain ⟨henvelope, -, hparse, -, hpresence, -⟩ := decode_undoes_encode
  exact ⟨hparse _ (by decide), hpresence _ (by decide), ⟨1483228799, 1500000000, by decide,
    by decide⟩, rfl, henvelope ⟨"lab", "hi", "u1", "Ada", _⟩ (by decide)⟩

/-- A third of a second behind the end of a second that does not end a minute: the message is
written like another one, and read back as the other one. -/
theorem irregular_instant_is_lost :
    ∃ t u : Instant, Instant.withParts? 4 1333333333 = some t ∧
      Instant.withParts? 5 333333333 = some u ∧
      let e : Envelope := ⟨"lab", "hi", "u1", "Ada", t⟩
      let e' : Envelope := ⟨"lab", "hi", "u1", "Ada", u⟩
      e ≠ e' ∧ e.encode = e'.encode ∧
        (Envelope.schema.decodeText e.encode).map Envelope.ofRow = .ok e' := by
  refine ⟨⟨4, 1333333333, by decide, by decide⟩, ⟨5, 333333333, by decide, by decide⟩, rfl, rfl, ?_⟩
  intro e e'
  have hsettled : e.settled = e' := by
    have hnot : ¬e.timestamp.IsRegular := by decide
    obtain ⟨hseconds, hnanos⟩ := Instant.settled_of_not_isRegular hnot
    have htime : e.timestamp.settled = e'.timestamp :=
      Instant.ext hseconds (hnanos.trans (by decide))
    exact congrArg (Envelope.mk "lab" "hi" "u1" "Ada") htime
  have htext : e.encode = e'.encode := by rw [← e.encode_settled, hsettled]
  refine ⟨by decide, htext, ?_⟩
  rw [htext]
  exact Envelope.decode_encode (by decide)

end ChatRooms
