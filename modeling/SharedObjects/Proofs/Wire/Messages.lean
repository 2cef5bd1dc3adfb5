import SharedObjects.Proofs.Wire.Steadiness
import SharedObjects.Proofs.Wire.Traffic
/-!
Messages and their bytes. What is decoded is spelled by the very bytes it came from, so a message
has one encoding at most and every other byte string is refused. Encoding looks only at the length
of a reason, decoding also at that of a body: a message whose body is too short for what it should
hold is written, but not read again.
-/
set_option autoImplicit false

namespace SharedObjects

/-- A result of the reading is as asked together with the bytes that were taken for it, and where
the reading fails, the bytes are to blame. -/
structure Draws {α : Type} (r : Read α) (asked : α → Octets → Prop) : Prop where
  taken : ∀ input a after, r input = .ok a after →
    ∃ bytes, asked a bytes ∧ input.rest = bytes ++ after.rest
  wire : ∀ input fault after, r input = .error fault after → fault.isWire = true

namespace Draws

variable {α β : Type} {r : Read α} {k : α → Read β} {asked : α → Octets → Prop}

theorem pure {a : α} (fits : asked a []) : Draws (Pure.pure a) asked where
  taken := by
    rintro input _ _ ⟨⟩
    exact ⟨[], fits, rfl⟩
  wire := by rintro _ _ _ ⟨⟩

theorem mono {asked' : α → Octets → Prop} (draws : Draws r asked)
    (enough : ∀ a bytes, asked a bytes → asked' a bytes) : Draws r asked' where
  taken input a after read := by
    obtain ⟨bytes, fits, split⟩ := draws.taken input a after read
    exact ⟨bytes, enough a bytes fits, split⟩
  wire := draws.wire

theorem throw {fault : Fault} (bytes : fault.isWire = true) :
    Draws (throw fault : Read α) asked where
  taken := by rintro _ _ _ ⟨⟩
  wire := by
    rintro _ _ _ ⟨⟩
    exact bytes

theorem fail (cause : FormatFault) : Draws (Read.fail cause : Read α) asked := throw rfl

theorem bind {asked : β → Octets → Prop}
    (draws : Draws r fun a bytes => Draws (k a) fun b more => asked b (bytes ++ more)) :
    Draws (r >>= k) asked where
  taken input b last read := by
    obtain ⟨a, between, first, second⟩ := Attempt.of_bind_ok read
    obtain ⟨bytes, next, split⟩ := draws.taken _ _ _ first
    obtain ⟨more, fits, split'⟩ := next.taken _ _ _ second
    exact ⟨bytes ++ more, fits, by rw [split, split', List.append_assoc]⟩
  wire input fault last failed := by
    cases first : r input with
    | error cause between =>
      rw [Attempt.bind_error first] at failed
      cases failed
      exact draws.wire _ _ _ first
    | ok a between =>
      rw [Attempt.bind_ok first] at failed
      obtain ⟨bytes, next, -⟩ := draws.taken _ _ _ first
      exact next.wire _ _ _ failed

theorem map {f : α → β} {asked : β → Octets → Prop}
    (draws : Draws r fun a bytes => asked (f a) bytes) : Draws (do return f (← r)) asked :=
  bind (draws.mono fun _ bytes fits => pure (by rwa [List.append_nil]))

theorem octets {n : Nat} {asked : Octets → Octets → Prop}
    (fits : ∀ bytes, bytes.length = n → asked bytes bytes) : Draws (Read.octets n) asked where
  taken input bytes after read := by
    obtain ⟨enough, rfl, rfl⟩ := Read.octets_eq_ok_iff.mp read
    exact ⟨_, fits _ (List.length_take_of_le enough), (List.take_append_drop n _).symm⟩
  wire := (Read.Steady.octets n).wire

theorem natural {width : Nat} {asked : Nat → Octets → Prop}
    (fits : ∀ n, n < Octets.capacity width → asked n (Octets.ofNat width n)) :
    Draws (Read.natural width) asked := by
  refine map (octets fun bytes size => ?_)
  subst size
  -- A number of a fixed width is spelled in one way only.
  have spelled : Octets.ofNat bytes.length (Octets.toNat bytes) = bytes := by
    simpa using Octets.ofNat_toNat bytes 0
  have written := fits _ (Octets.toNat_lt bytes)
  rwa [spelled] at written

theorem byte {asked : UInt8 → Octets → Prop} (fits : ∀ b, asked b [b]) :
    Draws Read.byte asked := by
  refine map (natural fun n small => ?_)
  have spelled : Octets.ofNat 1 n = [UInt8.ofNat n] := by simp [Octets.ofNat, Octets.capacity]
  exact spelled ▸ fits _

theorem uint32 {asked : UInt32 → Octets → Prop} (fits : ∀ n, asked n (Octets.ofNat 4 n.toNat)) :
    Draws Read.uint32 asked := by
  refine map (natural fun n small => ?_)
  have back : (UInt32.ofNat n).toNat = n := UInt32.toNat_ofNat_of_lt small
  simpa only [back] using fits (UInt32.ofNat n)

theorem uint64 {asked : UInt64 → Octets → Prop} (fits : ∀ n, asked n (Octets.ofNat 8 n.toNat)) :
    Draws Read.uint64 asked := by
  refine map (natural fun n small => ?_)
  have back : (UInt64.ofNat n).toNat = n := UInt64.toNat_ofNat_of_lt small
  simpa only [back] using fits (UInt64.ofNat n)

theorem text {asked : String → Octets → Prop}
    (fits : ∀ s, s.utf8ByteSize ≤ maxTextSize → asked s (Octets.ofText s)) :
    Draws Read.text asked := by
  refine bind (natural fun size short => bind (octets fun bytes count => ?_))
  split
  · rename_i s decoded
    obtain rfl := Utf8.eq_encode_of_decode decoded
    have limit : Octets.capacity 2 = maxTextSize + 1 := rfl
    rw [Utf8.length_encode] at count
    refine pure ?_
    simpa [Octets.ofText, count] using fits s (by omega)
  · exact fail _

theorem rest {asked : Octets → Octets → Prop} (fits : ∀ bytes, asked bytes bytes) :
    Draws Read.rest asked where
  taken := by
    rintro input _ _ ⟨⟩
    exact ⟨input.rest, fits _, (List.append_nil _).symm⟩
  wire := by rintro _ _ _ ⟨⟩

theorem ensure_rest {n : Nat} {f : Octets → α}
    (fits : ∀ bytes, n ≤ bytes.length → asked (f bytes) bytes) :
    Draws (do Read.ensure n; return f (← Read.rest)) asked where
  taken input a after read := by
    obtain ⟨_, between, first, second⟩ := Attempt.of_bind_ok read
    obtain ⟨enough, rfl⟩ := Read.ensure_eq_ok_iff.mp first
    cases second
    exact ⟨_, fits _ enough, (List.append_nil _).symm⟩
  wire input fault after failed := by
    cases first : Read.ensure n input with
    | error cause between =>
      rw [Attempt.bind_error first] at failed
      cases failed
      exact (Read.Steady.ensure n).wire _ _ _ first
    | ok _ between =>
      rw [Attempt.bind_ok first] at failed
      cases failed

end Draws

namespace Read.Misses

variable {α β : Type}

theorem after {r : Read α} {k : α → Read β} {a : α} {bytes more : Octets}
    (first : Reads .initial 0 ∅ r bytes a []) (second : ∀ types, (k a).Misses ⟨more, 0, types⟩)
    (types : Std.HashMap Nat ResolvedType) : (r >>= k).Misses ⟨bytes ++ more, 0, types⟩ := by
  obtain ⟨known, _, step⟩ := first more types (by simp [Agree])
  obtain ⟨needed, remaining, after, short⟩ := second known
  exact ⟨needed, remaining, after, by rw [Attempt.bind_ok step, short]⟩

theorem ensure {n : Nat} {r : Read α} {bytes : Octets} (short : bytes.length < n)
    (types : Std.HashMap Nat ResolvedType) :
    (do Read.ensure n; r : Read α).Misses ⟨bytes, 0, types⟩ := by
  have lacks : Octets.atLeast n bytes = false := by
    rw [← Bool.not_eq_true, Octets.atLeast_iff]
    omega
  exact ⟨n, _, _, Attempt.bind_error (by simp only [Read.ensure, lacks]; rfl)⟩

end Read.Misses

namespace Message

theorem draws_kind (kind : MessageKind) : Draws (readKind kind) fun m bytes =>
    m.kind = kind ∧ m.Full ∧ m.Fits ∧ bytes = m.payload := by
  cases kind with
  | snapshot =>
    refine .bind (.uint32 fun object => .bind (.uint64 fun seq => .bind (.rest fun body => ?_)))
    split
    · exact .bind (.throw rfl)
    · rename_i present
      exact .pure ⟨rfl, by simpa [Full] using present, trivial, by simp [payload]⟩
  | event =>
    refine .bind (.uint64 fun seq => .ensure_rest fun body long => ?_)
    exact ⟨rfl, long, trivial, rfl⟩
  | removed => exact .map (.uint32 fun object => ⟨rfl, trivial, trivial, rfl⟩)
  | subscribeFailed =>
    refine .bind (.uint32 fun object => .map (.text fun reason short => ?_))
    exact ⟨rfl, trivial, short, rfl⟩
  | forwardEvent => exact .ensure_rest fun body long => ⟨rfl, long, trivial, rfl⟩

theorem draws : Draws read fun m bytes => m.Full ∧ m.Fits ∧ bytes = m.wire := by
  refine .bind (.byte fun code => ?_)
  split
  · rename_i kind known
    refine (draws_kind kind).mono ?_
    rintro m bytes ⟨rfl, full, fits, rfl⟩
    exact ⟨full, fits, by rw [wire, MessageKind.code_of_ofCode? known, List.singleton_append]⟩
  · exact .fail _

theorem decode_eq_ok_iff {bytes : Octets} {m : Message} :
    decode bytes = .ok m ↔ m.Full ∧ m.Fits ∧ bytes = m.wire := by
  constructor
  · intro read
    obtain ⟨after, step, ended⟩ := Read.whole_eq_ok_iff.mp read
    obtain ⟨taken, spelled, split⟩ := draws.taken _ _ _ step
    have all : bytes = taken := by
      rw [ended, List.append_nil] at split
      exact split
    rwa [all]
  · rintro ⟨full, fits, rfl⟩
    exact decode_wire full fits

theorem not_fits_iff {m : Message} : ¬m.Fits ↔
    ∃ object reason, m = .subscribeFailed object reason ∧ maxTextSize < reason.utf8ByteSize := by
  cases m <;> simp [Fits]

theorem encode_of_not_fits {m : Message} (long : ¬m.Fits) :
    ∃ cause, m.encode = .error (.encoding cause) := m.writes.bytesOf_eq_error long

theorem not_fits_of_encode {m : Message} {fault : Fault} (failed : m.encode = .error fault) :
    ¬m.Fits := by
  intro fits
  rw [encode_eq_ok_iff.mpr ⟨fits, rfl⟩] at failed
  cases failed

theorem decode_wire_of_not_full {m : Message} (short : ¬m.Full) :
    ∃ needed remaining, decode m.wire = .error (.truncated needed remaining) := by
  have behind (types : Std.HashMap Nat ResolvedType) :
      (readKind m.kind).Misses ⟨m.payload, 0, types⟩ := by
    cases m with
    | snapshot object seq body =>
      obtain rfl : body = [] := by simpa [Full] using short
      refine .after (.uint32 _) (.after (.uint64 _) fun types => ?_) types
      exact ⟨2, 0, _, rfl⟩
    | event seq body =>
      exact .after (.uint64 _) (.ensure (Nat.lt_of_not_le short)) types
    | removed object => exact absurd trivial short
    | subscribeFailed object reason => exact absurd trivial short
    | forwardEvent body => exact .ensure (Nat.lt_of_not_le short) types
  have whole : read.Misses ⟨[m.kind.code] ++ m.payload, 0, ∅⟩ := by
    refine .after (.byte m.kind.code) (fun types => ?_) ∅
    simpa only [MessageKind.ofCode?_code] using behind types
  obtain ⟨needed, remaining, after, step⟩ := whole
  have ran : read (.ofOctets m.wire) = .error (.truncated needed remaining) after := step
  exact ⟨needed, remaining, by rw [decode, Read.whole_eq, ran]⟩

/-- The bytes of a message are its own. Only a reason that is too long cannot be encoded, and only
what lacks a part of its body is not read back as it was written, but found truncated. What is
decoded has been encoded in the very same way, and whatever else arrives is refused on account of
the bytes. -/
theorem encode_decode :
    (∀ m : Message,
      ((∃ fault, m.encode = .error fault) ↔ ∃ object reason, m = .subscribeFailed object reason ∧
        maxTextSize < reason.utf8ByteSize) ∧
      ∀ fault, m.encode = .error fault → ∃ cause, fault = .encoding cause) ∧
    (∀ (m : Message) (bytes : Octets), m.encode = .ok bytes →
      (decode bytes = .ok m ↔ m.Full) ∧
      (¬m.Full → ∃ needed remaining, decode bytes = .error (.truncated needed remaining))) ∧
    (∀ (bytes : Octets) (m : Message), decode bytes = .ok m → m.encode = .ok bytes) ∧
    ∀ (bytes : Octets) (fault : Fault), decode bytes = .error fault → fault.isWire = true := by
  refine ⟨fun m => ⟨?_, fun fault failed => ?_⟩, fun m bytes written => ?_,
    fun bytes m read => ?_,
    fun bytes fault => Read.isWire_of_whole_of_wire draws.wire⟩
  · rw [← not_fits_iff]
    refine ⟨fun ⟨fault, failed⟩ => not_fits_of_encode failed, fun long => ?_⟩
    obtain ⟨cause, failed⟩ := encode_of_not_fits long
    exact ⟨_, failed⟩
  · obtain ⟨cause, failed'⟩ := encode_of_not_fits (not_fits_of_encode failed)
    rw [failed'] at failed
    cases failed
    exact ⟨cause, rfl⟩
  · obtain ⟨fits, rfl⟩ := encode_eq_ok_iff.mp written
    refine ⟨⟨fun read => (decode_eq_ok_iff.mp read).1, fun full => decode_wire full fits⟩, ?_⟩
    exact decode_wire_of_not_full
  · obtain ⟨-, fits, rfl⟩ := decode_eq_ok_iff.mp read
    exact encode_eq_ok_iff.mpr ⟨fits, rfl⟩

theorem encode_decode_spot :
    decode [3, 0, 0, 0, 7] = .ok (.removed ⟨7⟩) ∧
    (∃ needed remaining, decode [2, 0, 0, 0, 0, 0, 0, 0, 1, 8, 8] =
      .error (.truncated needed remaining)) ∧
    (subscribeFailed ⟨7⟩ "hi").encode = .ok [4, 0, 0, 0, 7, 0, 2, 0x68, 0x69] ∧
    (Fault.format (.trailing 1)).isWire = true := by
  obtain ⟨-, written, read, refused⟩ := encode_decode
  refine ⟨(written (.removed ⟨7⟩) _ rfl).1.mpr trivial,
    (written (.event ⟨1⟩ [8, 8]) _ rfl).2 (by simp [Full, eventHeaderSize]), read _ _ rfl,
    refused [3, 0, 0, 0, 7, 0] _ rfl⟩

end Message

end SharedObjects
