import OrderSaga.Event.Envelope
import OrderSaga.Proofs.TimeText

namespace OrderSaga.Json

/-! ## Numbers -/

theorem toDigits_head (n : Nat) :
    ∃ c ds, Nat.toDigits 10 n = c :: ds ∧ c ≠ '-' ∧ ∀ x ∈ c :: ds, x.isDigit = true := by
  obtain ⟨c, ds, hcds⟩ :=
    List.exists_cons_of_ne_nil (Nat.toDigits_ne_nil : Nat.toDigits 10 n ≠ [])
  have hd : ∀ x ∈ c :: ds, x.isDigit = true := fun x hx =>
    Nat.isDigit_of_mem_toDigits (by decide) (by decide) (hcds ▸ hx)
  refine ⟨c, ds, hcds, fun h => ?_, hd⟩
  have := hd c List.mem_cons_self
  rw [h] at this
  exact absurd this (by decide)

theorem intText?_ofNat (n : Nat) : intText? (toString n) = some n := by
  obtain ⟨c, ds, hcds, hc, hd⟩ := toDigits_head n
  have hval : intText?.digitsValue (c :: ds) = n := by
    rw [← hcds]
    exact Nat.ofDigitChars_ten_toDigits
  simp only [intText?, Nat.toString_eq_repr, Nat.toList_repr, hcds]
  split
  · rename_i h
    cases h
    exact absurd rfl hc
  · simp [List.all_eq_true.mpr hd, hval]

theorem intText?_ofInt (i : Int) : intText? (toString i) = some i := by
  cases i with
  | ofNat n => exact intText?_ofNat n
  | negSucc n =>
    obtain ⟨c, ds, hcds, -, hd⟩ := toDigits_head (n + 1)
    have hval : intText?.digitsValue (c :: ds) = n + 1 := by
      rw [← hcds]
      exact Nat.ofDigitChars_ten_toDigits
    have htext : (toString (Int.negSucc n)).toList = '-' :: c :: ds := by
      show (Int.repr (Int.negSucc n)).toList = _
      simp [Int.repr, Nat.toList_repr, hcds]
    simp only [intText?, htext]
    simp [List.all_eq_true.mpr hd, hval]
    omega

theorem startsWith_ofNat (n : Nat) : (toString n).startsWith "-" = false := by
  obtain ⟨c, ds, hcds, hc, -⟩ := toDigits_head n
  simp [hcds, Ne.symm hc]

theorem wholeFits_ofNat {hi : Int} {n : Nat} (h : n ≤ hi) : wholeFits 0 hi (toString n) = true := by
  simp only [wholeFits, intText?_ofNat, startsWith_ofNat]
  simp [h]

theorem wholeFits_ofInt {lo hi i : Int} (hlo : lo < 0) (h1 : lo ≤ i) (h2 : i ≤ hi) :
    wholeFits lo hi (toString i) = true := by
  simp only [wholeFits, intText?_ofInt]
  simp [hlo, h1, h2]

/-! ## Values read back -/

theorem toJson_writable {t : Instant} (ht : t.Writable) : t.toJson = .str t.text := by
  unfold Instant.toJson
  rw [ht.1]

namespace Reader

@[simp] theorem text_read (s old : String) : text.read (.str s) old = s := rfl

@[simp] theorem flag_read (b old : Bool) : flag.read (.bool b) old = b := rfl

@[simp] theorem uint64_read (n old : UInt64) : uint64.read (ofUInt64 n) old = n := by
  have hfit : wholeFits 0 (UInt64.size - 1) (toString n.toNat) = true :=
    wholeFits_ofNat (by have := n.toNat_lt_size; omega)
  simp only [uint64, whole, Schema.uint64, ofUInt64, Json.ofNat, hfit, if_true, intText?_ofNat]
  simp

@[simp] theorem int64_read (n old : Int64) : int64.read (ofInt64 n) old = n := by
  have hfit : wholeFits Int64.minValue.toInt Int64.maxValue.toInt (toString n.toInt) = true :=
    wholeFits_ofInt (by decide) n.minValue_le_toInt n.toInt_le
  simp only [int64, whole, Schema.int64, ofInt64, Json.ofInt, hfit, if_true, intText?_ofInt]
  simp

theorem instant_read_str (s : String) (old : Instant) :
    instant.read (.str s) old = (Instant.parse? s).getD old := rfl

theorem instant_read {t : Instant} (ht : t.Writable) (old : Instant) :
    instant.read t.toJson old = t := by
  rw [toJson_writable ht, instant_read_str, Instant.parse?_text ht, Option.getD_some]

@[simp] theorem text_schema : text.schema = .text := rfl

@[simp] theorem flag_schema : flag.schema = .flag := rfl

@[simp] theorem optional_text_schema : (text.optional "").schema = .text := rfl

@[simp] theorem uint64_schema : uint64.schema = Schema.uint64 := rfl

@[simp] theorem int64_schema : int64.schema = Schema.int64 := rfl

@[simp] theorem instant_schema : instant.schema = Schema.time := rfl

@[simp] theorem optional_text_read (o : Option String) (old : Option String) :
    (text.optional "").read (ofOption o) old = o := by
  cases o <;> rfl

theorem decode?_of_check {β : Type} {r : Reader β} {j : Json} (h : r.schema.check j = none)
    (start : β) : r.decode? j start = some (r.read j start) := by
  simp [decode?, h]

end Reader

/-! ## Values that fit their types -/

@[simp] theorem check_uint64 (n : UInt64) : Schema.uint64.check (ofUInt64 n) = none := by
  have hfit : wholeFits 0 (UInt64.size - 1) (toString n.toNat) = true :=
    wholeFits_ofNat (by have := n.toNat_lt_size; omega)
  simp only [Schema.uint64, Schema.check, ofUInt64, Json.ofNat, hfit, if_true]

@[simp] theorem check_int64 (n : Int64) : Schema.int64.check (ofInt64 n) = none := by
  have hfit : wholeFits Int64.minValue.toInt Int64.maxValue.toInt (toString n.toInt) = true :=
    wholeFits_ofInt (by decide) n.minValue_le_toInt n.toInt_le
  simp only [Schema.int64, Schema.check, ofInt64, Json.ofInt, hfit, if_true]

theorem check_time {t : Instant} (ht : t.Writable) : Schema.time.check t.toJson = none := by
  rw [toJson_writable ht]
  simp only [Schema.check, Instant.parse?_text ht, Option.isSome_some, if_true]

@[simp] theorem check_any (j : Json) : Schema.any.check j = none := by
  cases j <;> simp [Schema.check]

@[simp] theorem check_text_ofOption (o : Option String) :
    Schema.text.check (ofOption o) = none := by
  cases o <;> simp [ofOption, Schema.check]

theorem checkItems_none {s : Schema} {items : List Json} (h : ∀ j ∈ items, s.check j = none)
    (i : Nat) : Schema.checkItems s.check i items = none := by
  induction items generalizing i with
  | nil => simp [Schema.checkItems]
  | cons j items ih =>
    simp only [Schema.checkItems, h j List.mem_cons_self]
    exact ih (fun j hj => h j (List.mem_cons_of_mem _ hj)) (i + 1)

theorem checkMembers_append (field : String → Option (String × (Json → Option Mismatch)))
    (ms ms' : List (String × Json)) :
    Schema.checkMembers field (ms ++ ms') =
      (Schema.checkMembers field ms).or (Schema.checkMembers field ms') := by
  induction ms with
  | nil => simp [Schema.checkMembers]
  | cons m ms ih =>
    obtain ⟨k, v⟩ := m
    simp only [List.cons_append, Schema.checkMembers]
    split
    · split <;> simp [ih]
    · exact ih

/-! ## Lists read back -/

section Lists

variable {β : Type} {elem : Json → β → β} {zero : β} {toJ : β → Json}

theorem readElements_written (hread : ∀ x h, elem (toJ x) h = x) (xs held : List β) :
    readElements elem zero (xs.map toJ) held = xs ++ held.drop xs.length := by
  induction xs generalizing held with
  | nil => simp [readElements]
  | cons x xs ih =>
    cases held with
    | nil => simp [readElements, hread, ih]
    | cons h hs => simp [readElements, hread, ih]

theorem readList_written (hread : ∀ x h, elem (toJ x) h = x) (xs : List β)
    (old : Option (List β)) : readList elem zero [.arr (xs.map toJ)] old = some xs := by
  cases xs with
  | nil => simp [readList, readHeld]
  | cons x xs =>
    simp only [readList, List.foldl_cons, List.foldl_nil, List.map_cons, readHeld]
    rw [← List.map_cons, readElements_written hread]
    simp

theorem readList_null (old : Option (List β)) : readList elem zero [.null] old = none := by
  simp [readList, readHeld]

theorem readList_nil : readList elem zero [] none = none := rfl

end Lists

/-! ## What reading keeps -/

theorem readRecord_keeps {α : Type} (P : α → Prop) {fields : List (Field α)}
    (hf : ∀ f ∈ fields, ∀ js a, P a → P (f.read js a)) {start : α} (h0 : P start) (j : Json) :
    P (readRecord fields j start) := by
  cases j with
  | obj ms =>
    simp only [readRecord]
    induction fields generalizing start with
    | nil => exact h0
    | cons f fs ih =>
      exact ih (fun g hg => hf g (List.mem_cons_of_mem _ hg))
        (hf f List.mem_cons_self _ _ h0)
  | _ => exact h0

theorem instant_read_textual {old : Instant} (hold : old.Textual) (j : Json) :
    (Reader.instant.read j old).Textual := by
  cases j with
  | str s =>
    rw [Reader.instant_read_str]
    cases hs : Instant.parse? s with
    | none => exact hold
    | some t => exact Instant.parse?_textual hs
  | _ => exact hold

theorem record_textual {α : Type} {name : String} {fields : List (Field α)} (ts : α → Instant)
    (hf : ∀ f ∈ fields, ∀ js a, (ts a).Textual → (ts (f.read js a)).Textual) {start x : α}
    {j : Json} (h : (Reader.record name fields).decode? j start = some x)
    (h0 : (ts start).Textual) : (ts x).Textual := by
  simp only [Reader.decode?] at h
  split at h
  · cases h
  · cases h
    exact readRecord_keeps (fun a => (ts a).Textual) hf h0 j

theorem foldl_instant_textual {old : Instant} (hold : old.Textual) (js : List Json) :
    (js.foldl (fun b j => Reader.instant.read j b) old).Textual := by
  induction js generalizing old with
  | nil => exact hold
  | cons j js ih => exact ih (instant_read_textual hold j)

end OrderSaga.Json

namespace OrderSaga

open Json

namespace Line

@[simp] theorem read_toJson (l old : Line) : reader.read l.toJson old = l := by
  simp +decide [reader, Reader.record, readRecord, toJson, Field.each]

@[simp] theorem check_toJson (l : Line) : reader.schema.check l.toJson = none := by
  simp +decide [reader, Reader.record, toJson, Schema.check, Schema.checkMembers,
    Schema.fieldCheck, Field.each]

@[simp] theorem readList_listJson (ls : List Line) (old : Option (List Line)) :
    readList reader.read default [listJson ls] old = some ls :=
  readList_written read_toJson ls old

@[simp] theorem check_listJson (n : String) (ls : List Line) :
    (Schema.list reader.schema n).check (listJson ls) = none := by
  simp only [listJson, Schema.check]
  exact checkItems_none (by simp) 0

end Line

namespace Payload

/-- The instant a payload was written at. -/
def timestamp : Payload → Instant
  | .command c => c.timestamp
  | .compensationRequest r => r.timestamp
  | .stepResult r => r.timestamp
  | .compensationReport r => r.timestamp

theorem ite_empty_text (s : String) : (if s = "" then "" else s) = s := by
  split <;> simp_all

/-! ### Each shape reads back -/

theorem command_read (c : Command) (ht : c.timestamp.Writable) :
    commandReader.read (toJson (.command c)) {} = c := by
  obtain ⟨s, o, u, k, ls, t⟩ := c
  cases ls <;> simp +decide [commandReader, Reader.record, readRecord, toJson, Field.each,
    Line.field, Field.list, identity, Reader.instant_read ht, readList_nil]

theorem command_check (c : Command) (ht : c.timestamp.Writable) :
    commandReader.schema.check (toJson (.command c)) = none := by
  obtain ⟨s, o, u, k, ls, t⟩ := c
  cases ls <;> simp +decide [commandReader, Reader.record, toJson, Field.each, Line.field,
    Field.list, identity, Schema.check, Schema.checkMembers, Schema.fieldCheck, check_time ht]

theorem compensationRequest_read (r : CompensationRequest) (ht : r.timestamp.Writable) :
    compensationRequestReader.read (toJson (.compensationRequest r)) {} = r := by
  obtain ⟨s, o, u, k, ls, t⟩ := r
  cases ls <;> simp +decide [compensationRequestReader, Reader.record, readRecord, toJson,
    Field.each, Line.field, Field.list, identity, Reader.instant_read ht, Line.listJson?,
    readList_null]

theorem compensationRequest_check (r : CompensationRequest) (ht : r.timestamp.Writable) :
    compensationRequestReader.schema.check (toJson (.compensationRequest r)) = none := by
  obtain ⟨s, o, u, k, ls, t⟩ := r
  cases ls <;> simp +decide [compensationRequestReader, Reader.record, toJson, Field.each,
    Line.field, Field.list, identity, Schema.check, Schema.checkMembers, Schema.fieldCheck,
    check_time ht, Line.listJson?]

theorem stepResult_read (r : StepResult) (ht : r.timestamp.Writable) :
    stepResultReader.read (toJson (.stepResult r)) {} = r := by
  cases r
  simp +decide [stepResultReader, Reader.record, readRecord, toJson, Field.each, identity,
    Reader.instant_read ht, List.filterMap_append, apply_ite (List.filterMap _),
    apply_ite (List.foldl _ _), ite_empty_text]

theorem stepResult_check (r : StepResult) (ht : r.timestamp.Writable) :
    stepResultReader.schema.check (toJson (.stepResult r)) = none := by
  simp +decide [stepResultReader, Reader.record, toJson, Field.each, identity, Schema.check,
    checkMembers_append, apply_ite (Schema.checkMembers _), Schema.checkMembers, Schema.fieldCheck,
    check_time ht]

theorem compensationReport_read (r : CompensationReport) (ht : r.timestamp.Writable) :
    compensationReportReader.read (toJson (.compensationReport r)) {} = r := by
  cases r
  simp +decide [compensationReportReader, Reader.record, readRecord, toJson, Field.each,
    identity, Reader.instant_read ht]

theorem compensationReport_check (r : CompensationReport) (ht : r.timestamp.Writable) :
    compensationReportReader.schema.check (toJson (.compensationReport r)) = none := by
  simp +decide [compensationReportReader, Reader.record, toJson, Field.each, identity,
    Schema.check, Schema.checkMembers, Schema.fieldCheck, check_time ht]

theorem read_toJson (p : Payload) (ht : p.timestamp.Writable) :
    read p.shape p.toJson = some p := by
  cases p with
  | command c =>
    simp only [read, shape, Reader.decode?_of_check (command_check c ht), command_read c ht,
      Option.map_some]
  | compensationRequest r =>
    simp only [read, shape, Reader.decode?_of_check (compensationRequest_check r ht),
      compensationRequest_read r ht, Option.map_some]
  | stepResult r =>
    simp only [read, shape, Reader.decode?_of_check (stepResult_check r ht),
      stepResult_read r ht, Option.map_some]
  | compensationReport r =>
    simp only [read, shape, Reader.decode?_of_check (compensationReport_check r ht),
      compensationReport_read r ht, Option.map_some]

theorem read_shape_textual {sh : Shape} {j : Json} {p : Payload} (h : read sh j = some p) :
    p.shape = sh ∧ p.timestamp.Textual := by
  cases sh <;> obtain ⟨x, hx, rfl⟩ := Option.map_eq_some_iff.mp h
  case command =>
    refine ⟨rfl, record_textual Command.timestamp ?_ hx Instant.zero_textual⟩
    simp +contextual [Field.each, Line.field, Field.list, foldl_instant_textual]
  case compensationRequest =>
    refine ⟨rfl, record_textual CompensationRequest.timestamp ?_ hx Instant.zero_textual⟩
    simp +contextual [Field.each, Line.field, Field.list, foldl_instant_textual]
  case stepResult =>
    refine ⟨rfl, record_textual StepResult.timestamp ?_ hx Instant.zero_textual⟩
    simp +contextual [Field.each, foldl_instant_textual]
  case compensationReport =>
    refine ⟨rfl, record_textual CompensationReport.timestamp ?_ hx Instant.zero_textual⟩
    simp +contextual [Field.each, foldl_instant_textual]

end Payload

end OrderSaga
