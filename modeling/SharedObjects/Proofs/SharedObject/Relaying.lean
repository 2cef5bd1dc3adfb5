import SharedObjects.Proofs.Members.Ordered
import SharedObjects.Proofs.SharedObject.Applying
import SharedObjects.Proofs.Wire.Domain
set_option autoImplicit false

namespace SharedObjects

/-- A change can travel: its value can be encoded by itself, with distinct keys in every set, and
its key is short enough. -/
structure Change.Travels (c : Catalog) (change : Change) : Prop where
  keyed : ∀ v ∈ (Action.ofChange change).values, v.WellKeyed
  encoded : ∀ v ∈ (Action.ofChange change).values, ∃ bytes, Value.encode c .any v = .ok bytes
  short : ∀ k ∈ (Action.ofChange change).keys, k.Fits

/-- An object takes a change to one of its sets that reaches it as an event in bytes. -/
def SharedObject.relay (c : Catalog) (index : UInt16) (o : SharedObject) (change : Change) :
    Except Fault SharedObject := do
  let bytes ← (Event.ofChange o.id index change).encode c
  o.apply (← Event.decode c bytes)

variable {c : Catalog} {change : Change}

theorem Change.Travels.fits (travels : change.Travels c) : (Action.ofChange change).Fits c where
  room := by
    have one (v : Value) (mem : v ∈ (Action.ofChange change).values) : Room c 0 ∅ [v] := by
      obtain ⟨bytes, written⟩ := travels.encoded v mem
      exact (Value.encodable_iff.mp (Value.encode_eq_ok_iff.mp written).1).2
    cases change with
    | added k v | updated k v => exact one v (by simp [Action.ofChange, Action.values])
    | removed k => exact .nil sane_empty
  keys := travels.short
  heard := by cases change <;> simp [Action.ofChange]

namespace SharedObject

variable {o : SharedObject} {index : UInt16} {members after : Members}

theorem revised_ofChange (index : UInt16) (declared : FieldType) (held : Value) (change : Change) :
    revised index declared held (.ofChange change) = changeSet index declared held change := by
  cases change <;> rfl

theorem apply_ofChange (live : o.stage = .live) {f : Field}
    (declared : o.type.field? index = some f) (set : f.type = .set)
    (within : index.toNat < o.values.length)
    (applied : Members.apply change members = .ok after) :
    (o.put index (.set members)).apply (.ofChange o.id index change) =
      .ok (o.put index (.set after)) := by
  have lasting : (Event.ofChange o.id index change).isTransient = false := by
    cases change <;> rfl
  have made : revised index f.type (.set members) (.ofChange change) = .ok (.set after) := by
    rw [revised_ofChange, changeSet_eq_ok_iff]
    exact ⟨set, members, after, rfl, applied, rfl⟩
  have held : (o.put index (.set members)).get? index = some (.set members) :=
    get?_put within (.set members)
  rw [apply_slot (o := o.put index (.set members)) live rfl lasting declared held]
  simp only [Event.ofChange, made, Except.map, put_put]

theorem relay_put (reachable : c.Reachable) (live : o.stage = .live) {f : Field}
    (declared : o.type.field? index = some f) (set : f.type = .set)
    (within : index.toNat < o.values.length) (travels : change.Travels c)
    (applied : Members.apply change members = .ok after) :
    (o.put index (.set members)).relay c index change = .ok (o.put index (.set after)) := by
  have written : (Event.ofChange o.id index change).encode c = .ok (Event.wire c _) :=
    Event.encode_eq_ok_iff.mpr ⟨travels.fits, rfl⟩
  have decoded := Event.decode_encode reachable (e := .ofChange o.id index change) travels.keyed
    written
  have id : (o.put index (.set members)).id = o.id := rfl
  have taken := apply_ofChange live declared set within applied
  simp only [relay, id, written, decoded, taken, bind, Except.bind]

end SharedObject

namespace SetCall

open Attempt (inTurn successes)

end SetCall

/-- The second member of a roster leaves and comes back last, the first one gets members of its own,
and two calls are refused. -/
def rosterCalls : List SetCall :=
  [.update (.number 1) (.set [(.text "own", .null)]), .remove (.number 2),
    .add (.number 2) (.bool false), .add (.number 3) .null, .remove (.text "own")]

end SharedObjects
