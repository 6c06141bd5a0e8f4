import OrderSaga.Model.Outbox

namespace OrderSaga.OutboxEntry

open Utf8

theorem size_utf8Encode_le_of_prefix {p q : List Char} (h : p <+: q) :
    p.utf8Encode.size ≤ q.utf8Encode.size := by
  obtain ⟨r, rfl⟩ := h
  rw [List.utf8Encode_append, ByteArray.size_append]
  exact Nat.le_add_right _ _

theorem truncateError_utf8Encode {cs : List Char} (h : cs.length ≤ maxErrorLength) :
    truncateError cs.utf8Encode = cs.utf8Encode := by
  rw [truncateError_eq, toValidUTF8_utf8Encode, String.toList_ofList,
    List.take_of_length_le h, String.toByteArray_ofList]

theorem clipError_eq (reason : String) :
    clipError reason = String.ofList (reason.toList.take maxErrorLength) := by
  apply String.toByteArray_inj.mp
  show truncateError reason.toByteArray = _
  rw [truncateError_eq, ← String.utf8Encode_toList (b := reason), toValidUTF8_utf8Encode,
    String.toList_ofList]

/-- What is kept of a reason is the longest prefix of the reason made valid that holds at most
`maxErrorLength` characters: valid UTF-8, cut between two characters, the whole valid text when that
is short enough, and kept as it is when fitted again. -/
theorem truncateError_keeps_longest_prefix (reason : ByteArray) :
    let t := toValidUTF8 reason "?"
    truncateError reason = (String.ofList (t.toList.take maxErrorLength)).toByteArray ∧
    (∀ p : String, p.toList <+: t.toList → p.length ≤ maxErrorLength →
      p.toByteArray.size ≤ (truncateError reason).size) ∧
    (truncateError reason).IsValidUTF8 ∧
    truncateError reason ++ (String.ofList (t.toList.drop maxErrorLength)).toByteArray =
      t.toByteArray ∧
    (String.fromUTF8 (truncateError reason) (isValidUTF8_truncateError reason)).length ≤
      maxErrorLength ∧
    (t.length ≤ maxErrorLength → truncateError reason = t.toByteArray) ∧
    truncateError (truncateError reason) = truncateError reason := by
  intro t
  have kept := truncateError_eq reason
  rw [String.toByteArray_ofList] at kept
  refine ⟨truncateError_eq reason, fun p hp hlen => ?_, isValidUTF8_truncateError reason,
    ?_, ?_, fun hshort => ?_, ?_⟩
  ·
    rw [kept, ← String.utf8Encode_toList]
    apply size_utf8Encode_le_of_prefix
    exact List.prefix_take_iff.mpr ⟨hp, by rwa [String.length_toList]⟩
  · rw [kept, String.toByteArray_ofList, ← List.utf8Encode_append, List.take_append_drop,
      String.utf8Encode_toList]
  · have hstr : String.fromUTF8 (truncateError reason) (isValidUTF8_truncateError reason) =
        String.ofList (t.toList.take maxErrorLength) :=
      String.toByteArray_inj.mp (by
        show truncateError reason = _
        rw [kept, String.toByteArray_ofList])
    rw [hstr, String.length_ofList, List.length_take]
    exact Nat.min_le_left _ _
  · rw [kept, List.take_of_length_le (by rwa [← String.length_toList] at hshort),
      String.utf8Encode_toList]
  · rw [kept]
    exact truncateError_utf8Encode (List.length_take_le _ _)

end OrderSaga.OutboxEntry
