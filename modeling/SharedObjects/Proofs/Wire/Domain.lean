import SharedObjects.Proofs.Wire.Writing
set_option autoImplicit false

namespace SharedObjects

variable {c : Catalog} {type : FieldType} {v : Value} {bytes : Octets}

/-- The declared type accepts a value, the wire has room for it and for all values inside it, they
are not nested too deep, and there are codes for all types they name. -/
structure Value.Encodable (c : Catalog) (type : FieldType) (v : Value) : Prop where
  accepted : type.accepts v = true
  streamable : v.Streamable c
  shallow : v.nesting ≤ maxNesting
  few : v.typeNames.dedup.length ≤ maxTypeCode

namespace Value

theorem room_iff : Room c 0 ∅ [v] ↔
    v.Streamable c ∧ v.nesting ≤ maxNesting ∧ v.typeNames.dedup.length ≤ maxTypeCode := by
  have coded : (Codes.useAll ∅ ([v].flatMap typeNames)).size = v.typeNames.dedup.length := by
    rw [List.flatMap_singleton, Codes.size_useAll_empty]
  constructor
  · intro room
    exact ⟨room.streamable v (by simp), by simpa using room.shallow v (by simp),
      coded ▸ room.coded⟩
  · rintro ⟨streamable, shallow, few⟩
    exact ⟨by simpa using streamable, by simpa using shallow, coded.symm ▸ few⟩

theorem encodable_iff : v.Encodable c type ↔ type.accepts v = true ∧ Room c 0 ∅ [v] := by
  rw [room_iff]
  exact ⟨fun ⟨accepted, streamable, shallow, few⟩ => ⟨accepted, streamable, shallow, few⟩,
    fun ⟨accepted, streamable, shallow, few⟩ => ⟨accepted, streamable, shallow, few⟩⟩

theorem writes_encodable (c : Catalog) (type : FieldType) (v : Value) :
    Writes (Write.value c type v) .empty (v.Encodable c type) ()
      (v.declaredWire type (v.wire c ∅)) v.typeNames :=
  ((written c v).value .empty sane_empty type).congr encodable_iff.symm

theorem encode_eq_ok_iff :
    encode c type v = .ok bytes ↔ v.Encodable c type ∧ bytes = v.declaredWire type (v.wire c ∅) :=
  (writes_encodable c type v).bytesOf_eq_ok_iff

/-- A value has an encoding exactly within the limits of the format, and in every other case the
fault is one of encoding. -/
theorem encode_domain (c : Catalog) (type : FieldType) (v : Value) :
    ((∃ bytes, encode c type v = .ok bytes) ↔ v.Encodable c type) ∧
      ((∃ cause, encode c type v = .error (.encoding cause)) ↔ ¬v.Encodable c type) := by
  have spelled (encodable : v.Encodable c type) :
      encode c type v = .ok (v.declaredWire type (v.wire c ∅)) :=
    encode_eq_ok_iff.mpr ⟨encodable, rfl⟩
  refine ⟨⟨?_, fun encodable => ⟨_, spelled encodable⟩⟩, ?_, ?_⟩
  · rintro ⟨bytes, written⟩
    exact (encode_eq_ok_iff.mp written).1
  · rintro ⟨cause, failed⟩ encodable
    rw [spelled encodable] at failed
    cases failed
  · exact (writes_encodable c type v).bytesOf_eq_error

end Value

end SharedObjects
