import OrderSaga.Proofs.JsonText
import OrderSaga.Proofs.Records

namespace OrderSaga.Json

mutual
theorem refusal?_of_readable : ∀ {j : Json}, Readable j → j.refusal? = none
  | .null, _ | .bool _, _ | .num _, _ | .str _, _ => rfl
  | .arr items, h => @firstItem_of_readable items h
  | .obj fields, h => @firstField_of_readable fields h
  | .refused _, h => absurd h (by simp [Readable])

theorem firstItem_of_readable : ∀ {items : List Json}, ReadableItems items →
    refusal?.firstItem items = none
  | [], _ => rfl
  | j :: rest, ⟨hj, hrest⟩ => by
    simp [refusal?.firstItem, refusal?_of_readable hj, firstItem_of_readable hrest]

theorem firstField_of_readable : ∀ {fields : List (String × Json)}, ReadableFields fields →
    refusal?.firstField fields = none
  | [], _ => rfl
  | (_, v) :: rest, ⟨hv, hrest⟩ => by
    simp [refusal?.firstField, refusal?_of_readable hv, firstField_of_readable hrest]
end

theorem readableItems_iff {items : List Json} : ReadableItems items ↔ ∀ j ∈ items, Readable j := by
  induction items with
  | nil => simp [ReadableItems]
  | cons j items ih => simp [ReadableItems, ih]

theorem readableFields_iff {fields : List (String × Json)} :
    ReadableFields fields ↔ ∀ m ∈ fields, Readable m.2 := by
  induction fields with
  | nil => simp [ReadableFields]
  | cons m fields ih =>
    obtain ⟨k, v⟩ := m
    simp [ReadableFields, ih]

theorem itemsNesting_le {items : List Json} {n : Nat} :
    itemsNesting items ≤ n ↔ ∀ j ∈ items, nesting j ≤ n := by
  induction items with
  | nil => simp [itemsNesting]
  | cons j items ih => simp [itemsNesting, ih]

theorem fieldsNesting_le {fields : List (String × Json)} {n : Nat} :
    fieldsNesting fields ≤ n ↔ ∀ m ∈ fields, nesting m.2 ≤ n := by
  induction fields with
  | nil => simp [fieldsNesting]
  | cons m fields ih =>
    obtain ⟨k, v⟩ := m
    simp [fieldsNesting, ih]

theorem nesting_obj_le {fields : List (String × Json)} {n : Nat} :
    nesting (.obj fields) ≤ n + 1 ↔ ∀ m ∈ fields, nesting m.2 ≤ n := by
  simp [nesting, fieldsNesting_le]

@[simp] theorem readable_ofUInt64 (n : UInt64) : Readable (ofUInt64 n) := isNumber_nat n.toNat

@[simp] theorem readable_ofInt64 (n : Int64) : Readable (ofInt64 n) := isNumber_int n.toInt

@[simp] theorem readable_ofOption (o : Option String) : Readable (ofOption o) := by
  cases o <;> simp [ofOption, Readable]

theorem readable_time {t : Instant} (ht : t.Writable) : Readable t.toJson := by
  rw [toJson_writable ht]
  simp [Readable]

theorem parse_of_compact {j : Json} {text : String} (hc : compact j = text) (hj : Readable j)
    (hd : nesting j ≤ maxDepth) : parse text = some j :=
  hc ▸ parse_compact hj hd

@[simp] theorem nesting_ofUInt64 (n : UInt64) : nesting (ofUInt64 n) = 0 := rfl

@[simp] theorem nesting_ofOption (o : Option String) : nesting (ofOption o) = 0 := by
  cases o <;> rfl

@[simp] theorem nesting_time (t : Instant) : nesting t.toJson = 0 := by
  unfold Instant.toJson
  split <;> rfl

end OrderSaga.Json

namespace OrderSaga

open Json

namespace Line

@[simp] theorem readable_listJson (ls : List Line) : Readable (listJson ls) := by
  simp only [listJson, Readable, readableItems_iff, List.mem_map]
  rintro _ ⟨l, -, rfl⟩
  simp [toJson, Readable, ReadableFields]

theorem nesting_listJson (ls : List Line) : nesting (listJson ls) ≤ 2 := by
  have hline : ∀ l : Line, nesting l.toJson = 1 := fun l => rfl
  simp only [listJson, nesting]
  have : itemsNesting (ls.map toJson) ≤ 1 := by
    simp [itemsNesting_le, hline]
  omega

@[simp] theorem readable_listJson? (o : Option (List Line)) : Readable (listJson? o) := by
  cases o <;> simp [listJson?, Readable]

theorem nesting_listJson? (o : Option (List Line)) : nesting (listJson? o) ≤ 2 := by
  cases o with
  | none => simp [listJson?, nesting]
  | some ls => exact nesting_listJson ls

end Line

namespace Payload

theorem readable_toJson (p : Payload) (ht : p.timestamp.Writable) : Readable p.toJson := by
  have htime := readable_time ht
  cases p <;> simp_all [toJson, Readable, readableFields_iff, identity, timestamp,
    List.mem_ite_nil_left, or_imp]

theorem nesting_toJson (p : Payload) : nesting p.toJson ≤ 3 := by
  cases p <;> rw [toJson, nesting_obj_le] <;>
    simp [identity, nesting, Line.nesting_listJson, Line.nesting_listJson?, List.mem_ite_nil_left, or_imp,
      forall_and]

end Payload

namespace Envelope

/-- An envelope that its text carries whole: it has an event id, its payload has the shape of its
type and passes the payload's checks, and both of its instants have RFC 3339 texts. -/
structure Sound (e : Envelope) : Prop where
  eventId : e.eventId ≠ ""
  shape : e.payload.shape = e.type.shape
  valid : e.payload.validate = .ok ()
  occurredAt : e.occurredAt.Writable
  timestamp : e.payload.timestamp.Writable

variable {e : Envelope}

theorem nesting_toJson (e : Envelope) : nesting e.toJson ≤ 4 := by
  rw [toJson, nesting_obj_le]
  simp [nesting, Payload.nesting_toJson, or_imp, forall_and]

section Written

variable (ho : e.occurredAt.Writable) (ht : e.payload.timestamp.Writable)
include ho ht

theorem readable_toJson : Readable e.toJson := by
  simp [toJson, Readable, readableFields_iff, or_imp, forall_and, readable_time ho,
    Payload.readable_toJson _ ht]

theorem parse_toJson : parse (compact e.toJson) = some e.toJson :=
  parse_compact (readable_toJson ho ht) (by have := nesting_toJson e; unfold maxDepth; omega)

omit ht in
theorem wire_read :
    wireReader.decode? e.toJson {} =
      some ⟨e.eventId, e.type.name, e.occurredAt, some e.payload.toJson⟩ := by
  rw [Reader.decode?_of_check]
  · simp +decide [wireReader, Reader.record, readRecord, toJson, Field.each,
      Reader.instant_read ho, Reader.raw]
  · simp +decide [wireReader, Reader.record, toJson, Field.each, Schema.check,
      Schema.checkMembers, Schema.fieldCheck, check_time ho, Reader.raw]

theorem decode_toJson (hshape : e.payload.shape = e.type.shape) {e' : Envelope}
    (h : decode (compact e.toJson) = .ok e') : e' = e := by
  have hread : Payload.read e.type.shape e.payload.toJson = some e.payload := by
    rw [← hshape]
    exact Payload.read_toJson _ ht
  simp only [decode, parse_toJson ho ht, Option.bind_some, wire_read ho, EventType.ofName?_name,
    hread] at h
  split at h
  · cases h
  · split at h
    · cases h
      rfl
    · cases h

end Written

theorem encode?_of_sound (h : e.Sound) : e.encode? = .ok (compact e.toJson) := by
  have hp := refusal?_of_readable (Payload.readable_toJson _ h.timestamp)
  have he := refusal?_of_readable (readable_toJson h.occurredAt h.timestamp)
  simp only [encode?, hp, he]

theorem decode_of_sound (h : e.Sound) : decode (compact e.toJson) = .ok e := by
  have hread : Payload.read e.type.shape e.payload.toJson = some e.payload := by
    rw [← h.shape]
    exact Payload.read_toJson _ h.timestamp
  simp only [decode, parse_toJson h.occurredAt h.timestamp, Option.bind_some,
    wire_read h.occurredAt, EventType.ofName?_name, String.isEmpty_iff, h.eventId, if_false,
    hread, h.valid]

theorem create_checks {t : EventType} {p : Payload} {now : Instant}
    (h : create t (some p) now = .ok e) :
    e = ⟨"", t, now, p⟩ ∧ p.shape = t.shape ∧ p.validate = .ok () := by
  simp only [create] at h
  split at h
  · rename_i hshape
    split at h
    · rename_i hvalid
      exact ⟨(Except.ok.inj h).symm, beq_iff_eq.mp hshape, hvalid⟩
    · cases h
  · cases h

theorem decode_checks {d : String} (h : decode d = .ok e) :
    e.eventId ≠ "" ∧ e.payload.shape = e.type.shape ∧ e.payload.validate = .ok () ∧
      e.occurredAt.Textual ∧ e.payload.timestamp.Textual := by
  simp only [decode] at h
  split at h
  · cases h
  rename_i w hw
  split at h
  · cases h
  rename_i t _
  split at h
  · cases h
  rename_i hid
  split at h
  · cases h
  rename_i p hp
  split at h
  · rename_i hvalid
    cases h
    obtain ⟨j, -, hj⟩ := Option.bind_eq_some_iff.mp hw
    obtain ⟨pj, -, hpj⟩ := Option.bind_eq_some_iff.mp hp
    obtain ⟨hshape, htime⟩ := Payload.read_shape_textual hpj
    have hat : w.occurredAt.Textual :=
      record_textual Wire.occurredAt (by simp +contextual [Field.each, foldl_instant_textual]) hj
        Instant.zero_textual
    exact ⟨fun he => hid (String.isEmpty_iff.mpr he), hshape, hvalid, hat, htime⟩
  · cases h

end Envelope

/-- An envelope comes back whole through its text when its instants can be written, and an envelope
that `decode` accepts comes back whole again. -/
theorem envelope_text_round_trip :
    (∀ (t : EventType) (p : Payload) (now : Instant) (e : Envelope) (id : String),
      Envelope.create t (some p) now = .ok e → id ≠ "" →
      now.Textual → now.offset.natAbs < 86400 →
      p.timestamp.Textual → p.timestamp.offset.natAbs < 86400 →
      ∃ s, { e with eventId := id }.encode? = .ok s ∧
        Envelope.decode s = .ok { e with eventId := id }) ∧
    (∀ (d : String) (e : Envelope), Envelope.decode d = .ok e →
      e.occurredAt.offset.natAbs < 86400 → e.payload.timestamp.offset.natAbs < 86400 →
      ∃ s, e.encode? = .ok s ∧ Envelope.decode s = .ok e) := by
  constructor
  · intro t p now e id hc hid hnow hnowday hts htsday
    obtain ⟨rfl, hshape, hvalid⟩ := Envelope.create_checks hc
    have hsound : Envelope.Sound ⟨id, t, now, p⟩ :=
      ⟨hid, hshape, hvalid, Instant.writable_of_textual hnow hnowday,
        Instant.writable_of_textual hts htsday⟩
    exact ⟨_, Envelope.encode?_of_sound hsound, Envelope.decode_of_sound hsound⟩
  · intro d e hd hday htsday
    obtain ⟨hid, hshape, hvalid, hat, hts⟩ := Envelope.decode_checks hd
    have hsound : e.Sound :=
      ⟨hid, hshape, hvalid, Instant.writable_of_textual hat hday,
        Instant.writable_of_textual hts htsday⟩
    exact ⟨_, Envelope.encode?_of_sound hsound, Envelope.decode_of_sound hsound⟩

/-- A reservation request for a coupon, given an event id, comes back whole through its text. -/
theorem coupon_request_round_trips :
    ∃ s, Envelope.encode? ⟨"evt-1", .reserveRequested .coupon, Instant.zero,
        .command { sagaId := "saga-1", orderId := 1, userId := 7, kind := "coupon"
                   lines := [⟨5, 1⟩] }⟩ = .ok s ∧
      Envelope.decode s = .ok ⟨"evt-1", .reserveRequested .coupon, Instant.zero,
        .command { sagaId := "saga-1", orderId := 1, userId := 7, kind := "coupon"
                   lines := [⟨5, 1⟩] }⟩ :=
  envelope_text_round_trip.1 (.reserveRequested .coupon)
    (.command { sagaId := "saga-1", orderId := 1, userId := 7, kind := "coupon"
                lines := [⟨5, 1⟩] })
    Instant.zero _ "evt-1" rfl (by decide) Instant.zero_textual (by decide)
    Instant.zero_textual (by decide)

/-- An envelope whose instant is written with an offset of a whole day is accepted by `decode`, and
cannot be written again: RFC 3339 texts are read with an offset of any number of hours, and written
only with one of less than a day. -/
theorem day_offset_envelope_not_reencoded :
    ∃ e, Envelope.decode "\x7b\"eventId\":\"evt-1\",\"type\":\"RESERVATION_RESULT\",\"occurredAt\":\"2025-03-04T05:06:07+24:00\",\"payload\":\x7b\"sagaId\":\"saga-x\",\"orderId\":100,\"userId\":7,\"kind\":\"coupon\",\"success\":true,\"outcome\":\"RESERVED\"\x7d\x7d" = .ok e ∧
      e.occurredAt.offset = 86400 ∧
      e.encode? = .error
        "json: error calling MarshalJSON for type *time.Time: timezone hour outside of range [0,23]" := by
  have hparse : parse "\x7b\"eventId\":\"evt-1\",\"type\":\"RESERVATION_RESULT\",\"occurredAt\":\"2025-03-04T05:06:07+24:00\",\"payload\":\x7b\"sagaId\":\"saga-x\",\"orderId\":100,\"userId\":7,\"kind\":\"coupon\",\"success\":true,\"outcome\":\"RESERVED\"\x7d\x7d" =
      some (.obj [("eventId", .str "evt-1"), ("type", .str "RESERVATION_RESULT"),
        ("occurredAt", .str "2025-03-04T05:06:07+24:00"),
        ("payload", .obj [("sagaId", .str "saga-x"), ("orderId", .ofUInt64 100),
          ("userId", .ofUInt64 7), ("kind", .str "coupon"), ("success", .bool true),
          ("outcome", .str "RESERVED")])]) :=
    parse_of_compact (by decide +kernel) (by simp [Readable, ReadableFields]) (by decide)
  have htime : Instant.parse? "2025-03-04T05:06:07+24:00" = some ⟨1740978367000000000, 86400⟩ := by
    decide +kernel
  have htype : EventType.ofName? "RESERVATION_RESULT" = some .reservationResult := by decide
  refine ⟨⟨"evt-1", .reservationResult, ⟨1740978367000000000, 86400⟩, .stepResult
    { sagaId := "saga-x", orderId := 100, userId := 7, kind := "coupon", success := true
      outcome := "RESERVED" }⟩, ?_, rfl, ?_⟩
  ·
    simp +decide [Envelope.decode, hparse, Reader.decode?_of_check, Envelope.wireReader,
      Reader.record, readRecord, Field.each, Schema.check, Schema.checkMembers, Schema.fieldCheck,
      Reader.instant_read_str, htime, Reader.raw, htype, EventType.shape, Payload.read,
      Payload.stepResultReader, Payload.validate, Payload.checkIdentity, Payload.checkKind]
    rfl
  · decide +kernel

end OrderSaga
