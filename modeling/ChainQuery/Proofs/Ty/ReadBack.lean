import ChainQuery.Proofs.Json.ReadBack
import ChainQuery.Ty.Json
/-!
# Reading back the JSON form of types

A type is read back from what is written for it (`Ty.decode_toJson`), in both manners of reading, by every
reader with as many levels as the written value nests.

The reader recurses along its levels and not along what it reads.  The argument is therefore one
induction along the type, for all levels at once.
-/

namespace ChainQuery

namespace Ty

/-! Reading a written shape is reading its parts.  There is one equation for each shape, and they hold by
computation once the levels that the shape takes are there. -/

section Shapes

variable (manner : Json.Manner) (levels : Nat)

theorem decode_scalar (s : ScalarType) :
    decode manner (levels + 1) (.object [("scalar", s.toJson)])
      = (do return .scalar (← ScalarType.ofJson? manner s.toJson)) := by
  delta decode
  rfl

theorem decode_row (name : String) :
    decode manner (levels + 1) (.object [("row", .string name)]) = some (.row name) := by
  delta decode
  rfl

theorem decode_nullable (j : Json) :
    decode manner (levels + 1) (.object [("nullable", j)])
      = (do return .nullable (← decode manner levels j)) := by
  delta decode
  rfl

theorem decode_collection (j : Json) :
    decode manner (levels + 1) (.object [("collection", j)])
      = (do return .collection (← decode manner levels j)) := by
  delta decode
  rfl

theorem decode_group (k e : Json) :
    decode manner (levels + 2) (.object [("group", .object [("key", k), ("element", e)])])
      = (do return .group (← decode manner levels k) (← decode manner levels e)) := by
  delta decode
  rfl

theorem decode_record_nil (name : String) :
    decode manner (levels + 3)
      (.object [("record", .object [("name", .string name), ("fields", .array [])])])
      = some (.record name []) := by
  delta decode
  rfl

/-- Reads a field whose type may nest `levels` arrays and objects. -/
def decodeField (j : Json) : Option (String × Ty) := do
  let ms ← j.members?
  return (← ms.string? "name", ← decode manner levels (← ms.required? "type"))

theorem decode_record (name : String) (fields : List Json) :
    decode manner (levels + 4)
      (.object [("record", .object [("name", .string name), ("fields", .array fields)])])
      = (do return .record name (← fields.mapM (decodeField manner levels))) := by
  delta decodeField decode
  rfl

end Shapes

mutual
/-- **A type is read back**, in either manner and with as many levels as it nests. -/
theorem decode_toJson (manner : Json.Manner) : ∀ (t : Ty) {levels : Nat}, t.toJson.depth ≤ levels →
    decode manner levels t.toJson = some t
  | .scalar s, levels, h => by
    obtain ⟨levels, rfl⟩ := Nat.exists_eq_add_of_le' h
    have hs := ScalarType.ofJson?_toJson manner s
    exact (decode_scalar manner _ s).trans (by rw [hs]; rfl)
  | .nullable t, levels, h => by
    have hdepth : t.toJson.depth + 1 ≤ levels := by
      simp only [toJson, Json.depth, Json.depthMembers] at h
      omega
    obtain ⟨levels, rfl⟩ := Nat.exists_eq_add_of_le' (Nat.le_trans (Nat.le_add_left 1 _) hdepth)
    rw [toJson, decode_nullable, decode_toJson manner t (by omega)]
    rfl
  | .row name, levels, h => by
    obtain ⟨levels, rfl⟩ := Nat.exists_eq_add_of_le' h
    exact decode_row manner _ name
  | .record name fields, levels, h => by
    have hdepth : Json.depthItems (fieldsToJson fields) + 3 ≤ levels := by
      simp only [toJson, Json.depth, Json.depthMembers] at h
      omega
    have hfields : ∀ levels : Nat, Json.depthItems (fieldsToJson fields) ≤ levels + 1 →
        (fieldsToJson fields).mapM (decodeField manner levels) = some fields :=
      fun _ => mapM_decodeField manner fields
    cases fields with
    | nil =>
      obtain ⟨levels, rfl⟩ := Nat.exists_eq_add_of_le' hdepth
      exact decode_record_nil manner _ name
    | cons f rest =>
      -- the first field is an object, so there is a fourth level
      have hfirst : 1 ≤ Json.depthItems (fieldsToJson (f :: rest)) :=
        Nat.le_trans (Nat.le_add_left 1 _) (Nat.le_max_left _ _)
      obtain ⟨levels, rfl⟩ := Nat.exists_eq_add_of_le' (show 4 ≤ levels by omega)
      rw [toJson, decode_record, hfields levels (by omega)]
      rfl
  | .collection t, levels, h => by
    have hdepth : t.toJson.depth + 1 ≤ levels := by
      simp only [toJson, Json.depth, Json.depthMembers] at h
      omega
    obtain ⟨levels, rfl⟩ := Nat.exists_eq_add_of_le' (Nat.le_trans (Nat.le_add_left 1 _) hdepth)
    rw [toJson, decode_collection, decode_toJson manner t (by omega)]
    rfl
  | .group k t, levels, h => by
    have hdepth : max k.toJson.depth t.toJson.depth + 2 ≤ levels := by
      simp only [toJson, Json.depth, Json.depthMembers] at h
      omega
    obtain ⟨levels, rfl⟩ := Nat.exists_eq_add_of_le' (Nat.le_trans (Nat.le_add_left 2 _) hdepth)
    rw [toJson, decode_group, decode_toJson manner k (by omega), decode_toJson manner t (by omega)]
    rfl

theorem mapM_decodeField (manner : Json.Manner) : ∀ (fields : List (String × Ty)) {levels : Nat},
    Json.depthItems (fieldsToJson fields) ≤ levels + 1 →
      (fieldsToJson fields).mapM (decodeField manner levels) = some fields
  | [], _, _ => rfl
  | (name, t) :: rest, levels, h => by
    obtain ⟨ht, hrest⟩ := Nat.max_le.mp h
    have hdepth : t.toJson.depth ≤ levels := by
      simp only [Json.depth, Json.depthMembers] at ht
      omega
    have hfield : decodeField manner levels (.object [("name", .string name), ("type", t.toJson)])
        = (do return (name, ← decode manner levels t.toJson)) := rfl
    rw [fieldsToJson, List.mapM_cons, hfield, decode_toJson manner t hdepth,
      mapM_decodeField manner rest hrest]
    rfl
end

mutual
/-- There is no number in the JSON form of a type. -/
@[simp] theorem numbers_toJson : ∀ t : Ty, t.toJson.numbers = []
  | .scalar _ => rfl
  | .nullable t => by simp [toJson, Json.numbers, Json.memberNumbers, numbers_toJson t]
  | .row _ => rfl
  | .record _ fields => by
    simp [toJson, Json.numbers, Json.memberNumbers, itemNumbers_fieldsToJson fields]
  | .collection t => by simp [toJson, Json.numbers, Json.memberNumbers, numbers_toJson t]
  | .group k t => by
    simp [toJson, Json.numbers, Json.memberNumbers, numbers_toJson k, numbers_toJson t]

theorem itemNumbers_fieldsToJson : ∀ fields : List (String × Ty),
    Json.itemNumbers (fieldsToJson fields) = []
  | [] => rfl
  | (_, t) :: rest => by
    simp [fieldsToJson, Json.itemNumbers, Json.numbers, Json.memberNumbers, numbers_toJson t,
      itemNumbers_fieldsToJson rest]
end

end Ty

end ChainQuery
