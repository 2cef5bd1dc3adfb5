import SharedObjects.SharedObject.Snapshot
import SharedObjects.Wire.Event
import SharedObjects.Proofs.Steps
/-!
Readings that go by the bytes they take. Such a reading either misses bytes, and says so, or comes
out the same whatever follows its input; and where it fails, the bytes are to blame. All readings of
values, events and snapshots are of this kind.
-/
set_option autoImplicit false

namespace SharedObjects

variable {α β : Type} {c : Catalog}

def Input.followedBy (input : Input) (more : Octets) : Input :=
  { input with rest := input.rest ++ more }

namespace Read

def leaving (more : Octets) : EStateM.Result Fault Input α → EStateM.Result Fault Input α
  | .ok a after => .ok a (after.followedBy more)
  | .error fault after => .error fault (after.followedBy more)

def Misses (r : Read α) (input : Input) : Prop :=
  ∃ needed remaining after, r input = .error (.truncated needed remaining) after

/-- Unless bytes are missing, those that follow the input make no difference; and no fault but one
of the bytes comes up. -/
structure Steady (r : Read α) : Prop where
  settled : ∀ input, r.Misses input ∨ ∀ more, r (input.followedBy more) = leaving more (r input)
  wire : ∀ input fault after, r input = .error fault after → fault.isWire = true

theorem isWire_of_whole_of_wire {r : Read α} {bytes : Octets} {fault : Fault}
    (wire : ∀ input fault after, r input = .error fault after → fault.isWire = true)
    (failed : whole r bytes = .error fault) : fault.isWire = true := by
  rw [whole_eq] at failed
  split at failed
  · split at failed <;> cases failed
    rfl
  · rename_i step
    cases failed
    exact wire _ _ _ step

namespace Steady

variable {r : Read α}

theorem isWire_of_whole (steady : Steady r) {bytes : Octets} {fault : Fault}
    (failed : whole r bytes = .error fault) : fault.isWire = true :=
  isWire_of_whole_of_wire steady.wire failed

theorem pure (a : α) : Steady (Pure.pure a : Read α) :=
  ⟨fun _ => .inr fun _ => rfl, fun _ _ _ failed => by cases failed⟩

theorem fail (cause : FormatFault) : Steady (Read.fail cause : Read α) :=
  ⟨fun _ => .inr fun _ => rfl, fun _ _ _ failed => by cases failed; rfl⟩

theorem unknownType (name : String) : Steady (throw (.unknownType name) : Read α) :=
  ⟨fun _ => .inr fun _ => rfl, fun _ _ _ failed => by cases failed; rfl⟩

theorem bind {k : α → Read β} (first : Steady r) (second : ∀ a, Steady (k a)) :
    Steady (r >>= k) where
  settled input := by
    rcases first.settled input with ⟨needed, remaining, after, short⟩ | same
    · exact .inl ⟨needed, remaining, after, Attempt.bind_error short⟩
    cases step : r input with
    | error fault after =>
      have longer more : r (input.followedBy more) = .error fault (after.followedBy more) := by
        rw [same, step, leaving]
      exact .inr fun more => by
        rw [Attempt.bind_error step, Attempt.bind_error (longer more), leaving]
    | ok a after =>
      have longer more : r (input.followedBy more) = .ok a (after.followedBy more) := by
        rw [same, step, leaving]
      rcases (second a).settled after with ⟨needed, remaining, last, short⟩ | same'
      · exact .inl ⟨needed, remaining, last, by rw [Attempt.bind_ok step, short]⟩
      · exact .inr fun more => by
          rw [Attempt.bind_ok step, Attempt.bind_ok (longer more), same']
  wire input fault after failed := by
    cases step : r input with
    | error cause last =>
      rw [Attempt.bind_error step] at failed
      cases failed
      exact first.wire _ _ _ step
    | ok a last =>
      rw [Attempt.bind_ok step] at failed
      exact (second a).wire _ _ _ failed

theorem map (f : α → β) (steady : Steady r) : Steady (do return f (← r)) :=
  steady.bind fun _ => pure _

theorem get {k : Input → Read β} (blind : ∀ input more, k (input.followedBy more) = k input)
    (next : ∀ input, Steady (k input)) : Steady (MonadState.get >>= k) where
  settled input := by
    rcases (next input).settled input with short | same
    · exact .inl short
    · refine .inr fun more => ?_
      have step : (MonadState.get >>= k) (input.followedBy more) =
          k input (input.followedBy more) := congrFun (blind input more) _
      exact step.trans (same more)
  wire input fault after failed := (next input).wire input fault after failed

theorem declare (code : Nat) (type : ResolvedType) : Steady
    (modify fun input => { input with types := input.types.insert code type } : Read PUnit) :=
  ⟨fun _ => .inr fun _ => rfl, fun _ _ _ failed => by cases failed⟩

theorem ensure (n : Nat) : Steady (Read.ensure n) where
  settled input := by
    unfold Read.Misses Read.ensure
    cases enough : Octets.atLeast n input.rest with
    | false => exact .inl ⟨_, _, _, rfl⟩
    | true =>
      refine .inr fun more => ?_
      rw [Octets.atLeast_iff] at enough
      have still : Octets.atLeast n (input.followedBy more).rest = true := by
        rw [Octets.atLeast_iff, Input.followedBy, List.length_append]
        omega
      simp only [still, if_true, leaving]
  wire input fault after failed := by
    unfold Read.ensure at failed
    split at failed <;> cases failed
    rfl

theorem octets (n : Nat) : Steady (Read.octets n) where
  settled input := by
    unfold Read.Misses
    by_cases enough : n ≤ input.rest.length
    · refine .inr fun more => ?_
      have still : n ≤ (input.followedBy more).rest.length := by
        rw [Input.followedBy, List.length_append]
        omega
      rw [octets_eq, octets_eq, if_pos enough, if_pos still]
      simp only [leaving, Input.followedBy, List.take_append_of_le_length enough,
        List.drop_append_of_le_length enough]
    · exact .inl ⟨_, _, _, by rw [octets_eq, if_neg enough]⟩
  wire input fault after failed := by
    rw [octets_eq] at failed
    split at failed <;> cases failed
    rfl

theorem natural (width : Nat) : Steady (Read.natural width) := (octets width).map _

theorem byte : Steady Read.byte := (natural 1).map _

theorem bool : Steady Read.bool := by
  refine byte.bind fun b => ?_
  split
  · exact pure _
  · split
    · exact pure _
    · exact fail _

theorem uint16 : Steady Read.uint16 := (natural 2).map _

theorem int16 : Steady Read.int16 := uint16.map _

theorem uint32 : Steady Read.uint32 := (natural 4).map _

theorem uint64 : Steady Read.uint64 := (natural 8).map _

theorem text : Steady Read.text := by
  refine (natural 2).bind fun size => (octets size).bind fun bytes => ?_
  split
  · exact pure _
  · exact fail _

theorem byteString : Steady Read.byteString := (natural 4).bind octets

theorem length : Steady Read.length := (natural 4).bind fun n => (ensure n).map _

theorem mapM (items : List α) {f : α → Read β} (each : ∀ a ∈ items, Steady (f a)) :
    Steady (items.mapM f) := by
  induction items with
  | nil => exact pure []
  | cons a items ih =>
    rw [List.mapM_cons]
    exact (each a (by simp)).bind fun _ => (ih fun b mem => each b (by simp [mem])).map _

theorem foldlM {items : List α} {f : β → α → Read β} (each : ∀ b a, Steady (f b a)) (b : β) :
    Steady (items.foldlM f b) := by
  induction items generalizing b with
  | nil => exact pure b
  | cons a items ih =>
    rw [List.foldlM_cons]
    exact (each b a).bind ih

theorem deeper (inner : Steady r) : Steady (Read.deeper r) where
  settled input := by
    rcases inner.settled { input with depth := input.depth + 1 } with ⟨_, _, _, short⟩ | same
    · exact .inl ⟨_, _, _, by simp only [Read.deeper, short]; rfl⟩
    · refine .inr fun more => ?_
      have longer : r { input.followedBy more with depth := input.depth + 1 } = _ := same more
      unfold Read.deeper
      rw [show (input.followedBy more).depth = input.depth from rfl, longer]
      cases r { input with depth := input.depth + 1 } <;> rfl
  wire input fault after failed := by
    unfold Read.deeper at failed
    split at failed <;> cases failed
    exact inner.wire _ _ _ ‹_›

theorem typeTag : Steady (Read.typeTag c) := by
  unfold Read.typeTag
  refine int16.bind fun code => ?_
  split
  · exact pure _
  split
  · refine text.bind fun name => ?_
    split
    · exact unknownType name
    · split
      · exact (fail _).bind fun _ => (declare _ _).map _
      · exact (declare _ _).map _
  · refine get (fun _ _ => rfl) fun input => ?_
    split
    · exact pure _
    · exact fail _

theorem key : Steady Read.key := by
  refine byte.bind fun kind => ?_
  split
  · exact (uint64.map _).map _
  · split
    · exact text.map _
    · exact fail _

/-- Readers one level down are steady, if there is room for one more level. -/
def Below (below : Option ValueReader) : Prop :=
  ∀ value, below = some value → ∀ type, Steady (value type)

section Values

variable {below : Option ValueReader}

theorem inside (ready : Below below) {contents : ValueReader → Read α}
    (steady : ∀ value, (∀ type, Steady (value type)) → Steady (contents value)) :
    Steady (Read.inside below contents) := by
  unfold Read.inside
  split
  · exact fail _
  · exact (steady _ (ready _ rfl)).deeper

theorem times (n : Nat) (item : Steady r) : Steady (Read.times n r) := mapM _ fun _ _ => item

theorem memberOnto {value : ValueReader} (any : Steady (value .any)) (es : Members) :
    Steady (Read.memberOnto value es) := by
  refine key.bind fun k => any.bind fun v => ?_
  split
  · exact pure _
  · exact fail _

theorem membersWith (ready : Below below) : Steady (Read.membersWith below) :=
  inside ready fun _ steady => length.bind fun _ => foldlM (fun es _ => memberOnto (steady _) es) _

theorem recordWith (ready : Below below) : Steady (Read.recordWith c below) := by
  refine typeTag.bind fun tag => ?_
  have fields (type : ResolvedType) :=
    (inside ready fun _ steady => mapM type.fields fun f _ => steady f.type).map
      fun values => some (type.name, values)
  split
  · exact pure _
  · split
    · exact (fail _).bind fun _ => fields _
    · exact fields _

theorem payloadWith (ready : Below below) (type : FieldType) :
    Steady (Read.payloadWith c below type) := by
  cases type with
  | bool => exact bool.map _
  | byte => exact (byte.map _).map _
  | short => exact int16.map _
  | int => exact (uint32.map _).map _
  | long => exact (uint64.map _).map _
  | float => exact uint32.map _
  | double => exact uint64.map _
  | text => exact text.map _
  | bytes => exact byteString.map _
  | list => exact inside ready fun _ steady => length.bind fun n => (times n (steady _)).map _
  | set => exact (membersWith ready).map _
  | record =>
    refine (recordWith ready).bind fun found => ?_
    split
    · exact pure _
    · exact fail _
  | any => exact fail _

theorem valueWith (ready : Below below) (type : FieldType) :
    Steady (Read.valueWith c below type) := by
  have payload := payloadWith (c := c) ready
  have bare := payload type
  have marked (type : FieldType) :
      Steady (do if ← Read.bool then Read.payloadWith c below type else return .null) := by
    refine bool.bind fun present => ?_
    split
    · exact payload type
    · exact pure _
  cases type with
  | any =>
    refine byte.bind fun kind => ?_
    split
    · exact pure _
    · split
      · exact payload _
      · exact fail _
  | record =>
    refine (recordWith ready).bind fun found => ?_
    split <;> exact pure _
  | text | bytes | list | set => exact marked _
  | _ => exact bare

end Values

theorem below (room : Nat) : Below (Read.below c room) := by
  induction room with
  | zero => intro _ none; cases none
  | succ room ih =>
    rintro _ ⟨⟩ type
    exact valueWith ih type

theorem here {k : Option ValueReader → Read α} (steady : ∀ below, Below below → Steady (k below)) :
    Steady (belowHere c >>= k) := by
  rw [belowHere_bind]
  exact get (fun _ _ => rfl) fun input => steady _ (below _)

theorem value (type : FieldType) : Steady (Read.value c type) :=
  here fun _ ready => valueWith ready type

theorem any : Steady (Read.any c) := value .any

theorem members : Steady (Read.members c) := here fun _ => membersWith

theorem fields (type : ResolvedType) : Steady (Read.fields c type) :=
  mapM type.fields fun f _ => value f.type

theorem member : Steady (Read.member c) := key.bind fun _ => any.map _

theorem action (kind : EventKind) : Steady (Read.action c kind) := by
  cases kind with
  | fieldSet => exact any.map _
  | elementAdd => exact member.map _
  | elementRemove => exact key.map _
  | elementUpdate => exact member.map _
  | listSet => exact uint32.bind fun _ => any.map _
  | message => exact text.bind fun _ => (natural 2).bind fun count => (times count any).map _

theorem event : Steady (Read.event c) := by
  refine uint32.bind fun _ => uint16.bind fun _ => byte.bind fun code => ?_
  split
  · exact (action _).map _
  · exact fail _

theorem readSnapshot (id : ObjectId) : Steady (SharedObject.readSnapshot c id) := by
  refine typeTag.bind fun tag => ?_
  split
  · exact fail _
  · rename_i type
    split
    · exact (fail _).bind fun _ => (fields type).map _
    · exact (fields type).map _

end Steady

end Read

end SharedObjects
