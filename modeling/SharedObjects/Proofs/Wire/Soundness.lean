import SharedObjects.Proofs.Wire.Domain
import SharedObjects.Proofs.Wire.RoundTrip
import SharedObjects.Proofs.Wire.TakingValues
set_option autoImplicit false

namespace SharedObjects

variable {α : Type} {c : Catalog}

theorem Takes.whole {r : Read α} {asked : α → List String → Nat → Prop}
    (takes : Takes c 0 ∅ r asked) {bytes : Octets} {a : α}
    (accepted : Read.whole r bytes = .ok a) :
    ∃ names size, asked a names size ∧ size ≤ bytes.length := by
  obtain ⟨after, read, -⟩ := Read.whole_eq_ok_iff.mp accepted
  obtain ⟨names, size, fits, within, -⟩ := takes bytes ∅ a after (named_empty c ∅) read
  exact ⟨names, size, fits, by omega⟩

namespace Value

variable {type : FieldType} {v : Value} {names : List String} {size : Nat}

theorem Found.encodable (found : v.Found c 0 ∅ type names size)
    (few : v.typeNames.dedup.length ≤ maxTypeCode) : v.Encodable c type :=
  ⟨found.accepted, found.sound.streamable, by simpa using found.sound.shallow, few⟩

/-- Decoding fails for the bytes' sake, or gives a value that its type accepts, not nested too deep,
with distinct keys in every set and every record a complete one of a registered streamable type.
With codes for the types it names, the value has an encoding, no longer than the bytes it was read
from, that is decoded as it. -/
theorem decode_sound (reachable : c.Reachable) (type : FieldType) (bytes : Octets) :
    (∃ fault, decode c type bytes = .error fault ∧ fault.isWire = true) ∨
    ∃ v, decode c type bytes = .ok v ∧ type.accepts v = true ∧ v.nesting ≤ maxNesting ∧
      v.WellKeyed ∧ v.Streamable c ∧
      (v.typeNames.dedup.length ≤ maxTypeCode → ∃ again, encode c type v = .ok again ∧
        again.length ≤ bytes.length ∧ decode c type again = .ok v) := by
  cases outcome : decode c type bytes with
  | error fault => exact .inl ⟨fault, rfl, (Read.Steady.value type).isWire_of_whole outcome⟩
  | ok v =>
    have takes : Takes c 0 ∅ (Read.value c type) (Found c 0 ∅ type) :=
      .value reachable (Nat.zero_le _) ∅ type
    obtain ⟨names, size, found, within⟩ := takes.whole outcome
    have shallow : v.nesting ≤ maxNesting := by simpa using found.sound.shallow
    refine .inr ⟨v, rfl, found.accepted, shallow, found.sound.keyed, found.sound.streamable, ?_⟩
    intro few
    have written : encode c type v = .ok (v.declaredWire type (v.wire c ∅)) :=
      encode_eq_ok_iff.mpr ⟨found.encodable few, rfl⟩
    exact ⟨_, written, found.spelled ▸ within,
      (Restores.value reachable type found.sound.keyed).whole written⟩

end Value

def markType : ResolvedType := ⟨"Mark", .streamable, [], []⟩

def markCatalog : Catalog := ⟨Catalog.initial.types.insert "Mark" markType⟩

theorem get?_mark : markCatalog.get? "Mark" = some markType := by simp [markCatalog, Catalog.get?]

theorem register_mark : Catalog.initial.register (.streamable "Mark") =
    .ok (markCatalog, markType) := by
  simp [Catalog.register, Catalog.resolution, Catalog.inherited, Schema.streamable,
    Catalog.contains, markCatalog, markType, Catalog.initial, rootName, firstRepeat, maxFields]

/-- A mark under a code that no encoding would choose. -/
theorem decode_mark : Value.decode markCatalog .record [255, 251, 0, 4, 77, 97, 114, 107] =
    .ok (.record "Mark" []) := by
  have code : Read.int16 (.ofOctets [255, 251, 0, 4, 77, 97, 114, 107]) =
      .ok (-5) ⟨[0, 4, 77, 97, 114, 107], 0, ∅⟩ := rfl
  have name : Read.text ⟨[0, 4, 77, 97, 114, 107], 0, ∅⟩ = .ok "Mark" ⟨[], 0, ∅⟩ := by rfl
  have tag : Read.typeTag markCatalog (.ofOctets [255, 251, 0, 4, 77, 97, 114, 107]) =
      .ok (some markType) ⟨[], 0, .insert ∅ 5 markType⟩ := by
    rw [Read.typeTag, Attempt.bind_ok code, if_neg (by decide), if_pos (by decide),
      Attempt.bind_ok name]
    simp only [get?_mark]
    rfl
  have record (below : Option Read.ValueReader) (room : below.isSome) :
      Read.recordWith markCatalog below (.ofOctets [255, 251, 0, 4, 77, 97, 114, 107]) =
        .ok (some ("Mark", [])) ⟨[], 0, .insert ∅ 5 markType⟩ := by
    obtain ⟨value, rfl⟩ := Option.isSome_iff_exists.mp room
    rw [Read.recordWith, Attempt.bind_ok tag]
    rfl
  refine Read.whole_eq_ok_iff.mpr ⟨⟨[], 0, .insert ∅ 5 markType⟩, ?_, rfl⟩
  exact Attempt.bind_ok (record (Read.below markCatalog maxNesting) rfl)

theorem Value.decode_sound_mark : markCatalog.Reachable ∧
    ∃ again, encode markCatalog .record (.record "Mark" []) = .ok again ∧ again.length ≤ 8 ∧
      decode markCatalog .record again = .ok (.record "Mark" []) := by
  have reachable : markCatalog.Reachable := .register .initial register_mark
  refine ⟨reachable, ?_⟩
  rcases decode_sound reachable .record [255, 251, 0, 4, 77, 97, 114, 107] with
    ⟨fault, failed, -⟩ | ⟨v, read, -, -, -, -, again⟩
  · rw [decode_mark] at failed
    cases failed
  · rw [decode_mark] at read
    cases read
    exact again (by decide)

end SharedObjects
