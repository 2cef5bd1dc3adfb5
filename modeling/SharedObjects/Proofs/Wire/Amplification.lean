import SharedObjects.Proofs.Wire.Events
/-!
Decoding makes no more of bytes than there is. Every value inside a value is spelled with at least
one byte that belongs to no other, null and records without fields included, so no decoded value has
more parts than its message has bytes. The check on the lengths of collections goes by the same
count: it keeps out what cannot be there, and nothing that was written.
-/
set_option autoImplicit false

namespace SharedObjects

variable {c : Catalog} {codes : Codes}

theorem Codes.two_le_length_tag (codes : Codes) (name : String) :
    2 ≤ (codes.tag name).length := by
  unfold tag
  split <;> simp [Octets.length_ofInt16]

namespace Value

variable {v : Value} {vs : List Value}

/-- What is spelled behind a mark or kind has a byte for every part of the value. -/
def Spacious (c : Catalog) (v : Value) : Prop :=
  ∀ codes, v ≠ null → v.parts.length ≤ (v.wire c codes).length

theorem parts_le_taggedWire (spacious : v.Spacious c) (codes : Codes) :
    v.parts.length ≤ (v.taggedWire (v.wire c codes)).length := by
  by_cases null : v = null
  · subst null
    exact Nat.le_refl 1
  · obtain ⟨type, held⟩ : ∃ type, v.type? = some type := by
      cases v <;> first | exact ⟨_, rfl⟩ | exact absurd rfl null
    simpa [taggedWire, held] using Nat.le_succ_of_le (spacious codes null)

theorem parts_le_declaredWire {type : FieldType} (spacious : v.Spacious c)
    (accepted : type.accepts v = true) (codes : Codes) :
    v.parts.length ≤ (v.declaredWire type (v.wire c codes)).length := by
  by_cases null : v = null
  · subst null
    have single : null.parts.length = 1 := rfl
    cases type <;> simp_all [FieldType.accepts, declaredWire, taggedWire, type?, isNull,
      FieldType.isPrimitive, Octets.length_ofInt16]
  · have payload := spacious codes null
    have present := isNull_of_ne_null null
    cases type with
    | any => exact parts_le_taggedWire spacious codes
    | _ =>
      simp [declaredWire, FieldType.isPrimitive, present]
      omega

namespace Spacious

theorem flat (flat : v.isFlat = true) : v.Spacious c := by
  intro codes present
  rw [parts_of_isFlat flat, List.length_singleton]
  cases v <;> simp_all [isFlat, wire, Octets.ofInt16, Octets.ofText, Octets.ofByteString] <;> omega

theorem items (each : ∀ v ∈ vs, v.Spacious c) :
    (vs.flatMap parts).length ≤ (itemsWire c codes vs).length := by
  induction vs generalizing codes with
  | nil => exact Nat.le_refl 0
  | cons v vs ih =>
    obtain ⟨first, rest⟩ := List.forall_mem_cons.mp each
    simp only [List.flatMap_cons, itemsWire, List.length_append]
    exact Nat.add_le_add (parts_le_taggedWire first codes) (ih rest)

theorem members {es : Members} (each : ∀ e ∈ es, e.2.Spacious c) :
    ((es.map Prod.snd).flatMap parts).length ≤ (membersWire c codes es).length := by
  induction es generalizing codes with
  | nil => exact Nat.le_refl 0
  | cons e es ih =>
    obtain ⟨first, rest⟩ := List.forall_mem_cons.mp each
    have here := parts_le_taggedWire first codes
    have behind : _ ≤ (membersWire c (codes.useAll e.2.typeNames) es).length := ih rest
    simp only [List.map_cons, List.flatMap_cons, membersWire, List.length_append]
    omega

theorem fields {fs : List Field} (each : ∀ v ∈ vs, v.Spacious c) (accepted : Accepted vs fs) :
    (vs.flatMap parts).length ≤ (fieldsWire c codes vs fs).length := by
  induction accepted generalizing codes with
  | nil => exact Nat.le_refl 0
  | cons here _ ih =>
    obtain ⟨first, rest⟩ := List.forall_mem_cons.mp each
    simp only [List.flatMap_cons, fieldsWire, List.length_append]
    exact Nat.add_le_add (parts_le_declaredWire first here codes) (ih rest)

end Spacious

theorem Streamable.spacious (streamable : v.Streamable c) : v.Spacious c := by
  induction v using Value.induction with
  | flat v flat => exact .flat flat
  | list items ih =>
    obtain ⟨-, inside⟩ := forall_parts_iff.mp streamable
    intro codes _
    have within : _ ≤ (itemsWire c codes items).length :=
      Spacious.items fun v mem => ih v mem (inside v mem)
    simp only [parts_eq, contents, wire, List.length_cons, List.length_append,
      Octets.length_ofNat]
    omega
  | set members ih =>
    obtain ⟨-, inside⟩ := forall_parts_iff.mp streamable
    intro codes _
    have within : _ ≤ (membersWire c codes members).length :=
      Spacious.members fun e mem => ih e mem (inside e.2 (List.mem_map_of_mem mem))
    simp only [parts_eq, contents, wire, List.length_cons, List.length_append,
      Octets.length_ofNat]
    omega
  | record name fields ih =>
    obtain ⟨⟨type, known, -, -, accepted⟩, inside⟩ := forall_parts_iff.mp streamable
    intro codes _
    have within : _ ≤ (fieldsWire c (codes.use name) fields type.fields).length :=
      Spacious.fields (fun v mem => ih v mem (inside v mem)) accepted
    have tagged : 2 ≤ (codes.tag name).length := codes.two_le_length_tag name
    simp only [parts_eq, contents, wire, Catalog.fieldsOf, known, List.length_cons,
      List.length_append]
    omega

theorem parts_le_of_decode (reachable : c.Reachable) {type : FieldType} {bytes : Octets}
    (decoded : decode c type bytes = .ok v) : v.parts.length ≤ bytes.length := by
  have takes : Takes c 0 ∅ (Read.value c type) (Found c 0 ∅ type) :=
    .value reachable (Nat.zero_le _) ∅ type
  obtain ⟨names, size, found, within⟩ := takes.whole decoded
  calc v.parts.length
      ≤ (v.declaredWire type (v.wire c ∅)).length :=
        parts_le_declaredWire found.sound.streamable.spacious found.accepted ∅
    _ = size := found.spelled.symm
    _ ≤ bytes.length := within

end Value

theorem Read.length_eq_ok_iff {input after : Input} {n : Nat} : length input = .ok n after ↔
    4 ≤ input.rest.length ∧ n = Octets.toNat (input.rest.take 4) ∧
      after = { input with rest := input.rest.drop 4 } ∧ n ≤ after.remaining := by
  constructor
  · intro read
    obtain ⟨m, behind, first, read⟩ := Attempt.of_bind_ok read
    obtain ⟨⟨⟩, same, check, made⟩ := Attempt.of_bind_ok read
    cases made
    obtain ⟨enough, rfl⟩ := ensure_eq_ok_iff.mp check
    obtain ⟨four, number, taken⟩ := natural_eq_ok_iff.mp first
    exact ⟨four, number, taken, enough⟩
  · rintro ⟨four, number, taken, enough⟩
    rw [length, Attempt.bind_ok (natural_eq_ok_iff.mpr ⟨four, number, taken⟩)]
    exact Attempt.bind_ok (ensure_eq_ok_iff.mpr ⟨enough, rfl⟩)

/-- Decoding never gives more values, inner ones counted, than there are bytes. A collection's
length is accepted exactly if there are as many bytes behind it, and everything that was encoded, a
value, a whole set or an event, is decoded, so that no length in it is refused. -/
theorem Catalog.Reachable.never_amplifies (reachable : c.Reachable) :
    (∀ type bytes v, Value.decode c type bytes = .ok v → v.parts.length ≤ bytes.length) ∧
    (∀ input n after, Read.length input = .ok n after ↔
      4 ≤ input.rest.length ∧ n = Octets.toNat (input.rest.take 4) ∧
        after = { input with rest := input.rest.drop 4 } ∧ n ≤ after.remaining) ∧
    (∀ type v bytes, v.WellKeyed → Value.encode c type v = .ok bytes →
      Value.decode c type bytes = .ok v) ∧
    (∀ es bytes, (Value.set es).WellKeyed → Members.encode c es = .ok bytes →
      Members.decode c bytes = .ok es) ∧
    ∀ e bytes, e.WellKeyed → Event.encode c e = .ok bytes → Event.decode c bytes = .ok e :=
  ⟨fun _ _ _ => Value.parts_le_of_decode reachable, fun _ _ _ => Read.length_eq_ok_iff,
    fun type _ _ keyed written => (Restores.value reachable type keyed).whole written,
    fun _ _ keyed written => (Restores.members reachable keyed).whole written,
    fun _ _ keyed written => Event.decode_encode reachable keyed written⟩

theorem Catalog.initial_never_amplifies :
    let members : Members := [(.number 7, .null), (.text "é", .list [.null, .null])]
    let body : Octets := [0, 0, 0, 2, 1, 0, 0, 0, 0, 0, 0, 0, 7, 0, 2, 0, 2, 0xC3, 0xA9, 10, 0, 0,
      0, 2, 0, 0]
    let e : Event := ⟨⟨1⟩, 3, .fieldSet (.set members)⟩
    (Value.decode .initial .any (11 :: body) = .ok (.set members) ∧
      (Value.set members).parts.length = 5 ∧ 5 ≤ (11 :: body).length) ∧
    Members.decode .initial body = .ok members ∧
    Event.decode .initial ([0, 0, 0, 1, 0, 3, 1, 11] ++ body) = .ok e ∧
    Read.length ⟨[0, 0, 0, 2, 0, 0], 0, ∅⟩ = .ok 2 ⟨[0, 0], 0, ∅⟩ := by
  intro members body e
  obtain ⟨amount, check, value, set, event⟩ := Catalog.Reachable.initial.never_amplifies
  have keyed : (Value.set members).WellKeyed := by decide +kernel
  have decoded : Value.decode .initial .any (11 :: body) = .ok (.set members) :=
    value .any _ _ keyed (by decide +kernel)
  refine ⟨⟨decoded, rfl, amount .any _ _ decoded⟩, set _ _ keyed (by decide +kernel), ?_, ?_⟩
  · exact event e _ (by simpa [e, Event.WellKeyed, Action.values] using keyed) (by decide +kernel)
  · exact (check _ 2 _).mpr ⟨by decide, by decide, rfl, by decide⟩

end SharedObjects
