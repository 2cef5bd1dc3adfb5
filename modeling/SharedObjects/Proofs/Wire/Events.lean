import SharedObjects.Proofs.Wire.Soundness
import SharedObjects.Proofs.Wire.Traffic
set_option autoImplicit false

namespace SharedObjects

variable {c : Catalog} {codes : Codes}

namespace Takes

theorem any (reachable : c.Reachable) :
    Takes c 0 codes (Read.any c) (Value.Found c 0 codes .any) :=
  value reachable (Nat.zero_le _) codes .any

theorem member (reachable : c.Reachable) :
    Takes c 0 codes (Read.member c) fun e names size =>
      Value.AllFound c 0 [e.2] (e.1.wire ++ e.2.taggedWire (e.2.wire c codes)) names size :=
  bind (key fun k _ => map ((any reachable).mono fun _ _ _ found => found.alone.behind k.wire))

theorem action (reachable : c.Reachable) (kind : EventKind) :
    Takes c 0 ∅ (Read.action c kind) fun a names size =>
      Value.AllFound c 0 a.values (a.wire c) names size := by
  cases kind with
  | fieldSet => exact map ((any reachable).mono fun _ _ _ found => found.alone)
  | elementAdd | elementUpdate =>
    refine bind ((member reachable).mono fun _ _ _ found => pure ?_)
    simpa [Action.values, Action.wire] using found
  | elementRemove => exact map (key fun k _ => ⟨by simp [Action.values], rfl, rfl⟩)
  | listSet =>
    refine bind (uint32 fun position => map ((any reachable).mono fun _ _ _ found => ?_))
    exact (Octets.length_ofNat 4 position.toNat) ▸ found.alone.behind _
  | message =>
    refine bind (text fun name _ => bind (natural fun count _ => map ?_))
    refine (items (value reachable (Nat.zero_le _)) count).mono ?_
    rintro arguments names size ⟨rfl, found⟩
    exact ⟨found.sound, found.named, by simp [Action.wire, found.spelled]⟩

theorem event (reachable : c.Reachable) :
    Takes c 0 ∅ (Read.event c) fun e names size =>
      Value.AllFound c 0 e.action.values (e.wire c) names size := by
  refine bind (uint32 fun object => bind (uint16 fun field => bind (byte fun code => ?_)))
  split
  · refine map ((action reachable _).mono fun a names size found => ?_)
    exact ⟨found.sound, found.named, by simp [Event.wire, found.spelled]; omega⟩
  · exact fail _

end Takes

namespace Read

theorem uint32_ok {input after : Input} {n : UInt32} (read : uint32 input = .ok n after) :
    4 ≤ input.rest.length ∧ n = UInt32.ofNat (Octets.toNat (input.rest.take 4)) := by
  obtain ⟨_, _, number, made⟩ := Attempt.of_bind_ok read
  cases made
  obtain ⟨four, rfl, -⟩ := natural_eq_ok_iff.mp number
  exact ⟨four, rfl⟩

theorem object_of_event {input after : Input} {e : Event} (read : event c input = .ok e after) :
    ∃ behind, uint32 input = .ok e.object.number behind := by
  obtain ⟨object, behind, first, read⟩ := Attempt.of_bind_ok read
  obtain ⟨field, _, -, read⟩ := Attempt.of_bind_ok read
  obtain ⟨code, _, -, read⟩ := Attempt.of_bind_ok read
  cases known : EventKind.ofCode? code with
  | none =>
    simp only [known] at read
    cases read
  | some kind =>
    simp only [known] at read
    obtain ⟨a, _, -, made⟩ := Attempt.of_bind_ok read
    cases made
    exact ⟨behind, first⟩

end Read

namespace Event

variable {e : Event} {body : Octets}

theorem peekObject_of_decode (decoded : decode c body = .ok e) :
    peekObject body = .ok e.object := by
  obtain ⟨after, read, -⟩ := Read.whole_eq_ok_iff.mp decoded
  obtain ⟨behind, first⟩ := Read.object_of_event read
  obtain ⟨long, number⟩ := Read.uint32_ok first
  have enough : Octets.atLeast 4 body = true := Octets.atLeast_iff.mpr long
  have object : ObjectId.ofOctets (body.take 4) = e.object := congrArg ObjectId.mk number.symm
  rw [peekObject, if_pos enough, object]

theorem eventHeaderSize_lt_of_decode (reachable : c.Reachable) (decoded : decode c body = .ok e) :
    eventHeaderSize < body.length := by
  obtain ⟨names, size, found, within⟩ := (Takes.event reachable).whole decoded
  exact Nat.lt_of_lt_of_le e.eventHeaderSize_lt (found.spelled ▸ within)

/-- A body is longer than the header of an event, its object is seen without reading it, and every
message that carries it arrives as it was sent and is about that object. -/
structure Travels (body : Octets) (object : ObjectId) : Prop where
  long : eventHeaderSize < body.length
  peeked : peekObject body = .ok object
  carried : ∀ m, (∃ seq, m = .event seq body) ∨ m = .forwardEvent body →
    m.object = .ok object ∧ ∃ sent, m.encode = .ok sent ∧ Message.decode sent = .ok m

theorem travels_of_decode (reachable : c.Reachable) (decoded : decode c body = .ok e) :
    Travels body e.object := by
  have long := eventHeaderSize_lt_of_decode reachable decoded
  have peeked := peekObject_of_decode decoded
  refine ⟨long, peeked, fun m carries => ?_⟩
  have full : eventHeaderSize ≤ body.length := Nat.le_of_lt long
  rcases carries with ⟨seq, rfl⟩ | rfl
  · exact ⟨peeked, _, Message.encode_eq_ok_iff.mpr ⟨trivial, rfl⟩,
      Message.decode_wire full trivial⟩
  · exact ⟨peeked, _, Message.encode_eq_ok_iff.mpr ⟨trivial, rfl⟩,
      Message.decode_wire full trivial⟩

/-- An encoded event is decoded as it was and travels in messages about its object. So does every
body that is decoded at all, whatever wrote it; and what is refused is refused for its bytes. -/
theorem round_trip_travels (reachable : c.Reachable) :
    (∀ e body, e.WellKeyed → encode c e = .ok body →
      decode c body = .ok e ∧ Travels body e.object) ∧
    (∀ body e, decode c body = .ok e → Travels body e.object) ∧
    ∀ body fault, decode c body = .error fault → fault.isWire = true := by
  refine ⟨fun e body keyed written => ?_, fun body e => travels_of_decode reachable,
    fun body fault => Read.Steady.event.isWire_of_whole⟩
  have decoded := decode_encode reachable keyed written
  exact ⟨decoded, travels_of_decode reachable decoded⟩

theorem round_trip_travels_message : Catalog.Reachable .initial ∧
    let e : Event := ⟨⟨0x01020304⟩, 0x0506,
      .message "é" [.set [(.number 7, .double 0x8000000000000000)], .null]⟩
    let body : Octets := [1, 2, 3, 4, 5, 6, 6, 0, 2, 0xC3, 0xA9, 0, 2, 11, 0, 0, 0, 1, 1, 0, 0, 0,
      0, 0, 0, 0, 7, 7, 0x80, 0, 0, 0, 0, 0, 0, 0, 0]
    encode .initial e = .ok body ∧ decode .initial body = .ok e ∧ Travels body ⟨0x01020304⟩ := by
  refine ⟨.initial, ?_⟩
  intro e body
  have keyed : e.WellKeyed := by
    intro v mem
    simp only [e, Action.values, List.mem_cons, List.not_mem_nil, or_false] at mem
    rcases mem with rfl | rfl <;> decide
  have written : encode .initial e = .ok body := by decide +kernel
  obtain ⟨back, -, -⟩ := round_trip_travels .initial
  exact ⟨written, back e body keyed written⟩

end Event

end SharedObjects
