import SharedObjects.Entries
import SharedObjects.Fault
/-!
Events of one object in their order. Each is released once, as soon as all before it are; one that
comes early waits, one that was released or is waiting already is dropped, and when too many wait
for a gap to fill the next early one is refused.
-/
set_option autoImplicit false

namespace SharedObjects

structure SequencerConfig where
  maxPending : Nat
  deriving DecidableEq, Repr

namespace SequencerConfig

def default : SequencerConfig := ⟨256⟩

def strict : SequencerConfig := ⟨0⟩

def tolerant : SequencerConfig := ⟨4096⟩

def presets : Entries String SequencerConfig :=
  [("default", default), ("strict", strict), ("tolerant", tolerant)]

end SequencerConfig

/-- The last position released and the items that wait behind a gap. -/
structure Sequencer (α : Type) where
  object : ObjectId
  last : Seq
  pending : Entries Seq α
  config : SequencerConfig
  deriving Repr

inductive Arrival (α : Type)
  | ready (items : List α)
  | buffered
  | duplicate
  deriving DecidableEq, Repr

namespace Sequencer

variable {α : Type}

def startAfter (object : ObjectId) (last : Seq) (config : SequencerConfig) : Sequencer α :=
  ⟨object, last, [], config⟩

/-- Releases what waits without a gap after `last`, at most `fuel` items. -/
def release : Nat → Seq → Entries Seq α → List α × Seq × Entries Seq α
  | 0, last, pending => ([], last, pending)
  | fuel + 1, last, pending =>
    match pending.get? last.next with
    | none => ([], last, pending)
    | some item =>
      let (items, final, rest) := release fuel last.next (pending.erase last.next)
      (item :: items, final, rest)

def accept (s : Sequencer α) (seq : Seq) (item : α) : Except Fault (Arrival α × Sequencer α) :=
  if seq ≤ s.last || s.pending.contains seq then .ok (.duplicate, s)
  else if seq = s.last.next then
    let (items, last, pending) := release s.pending.length seq s.pending
    .ok (.ready (item :: items), { s with last := last, pending := pending })
  else if s.pending.length ≥ s.config.maxPending then
    .error (.outOfOrder s.object s.last.next seq)
  else .ok (.buffered, { s with pending := s.pending.put seq item })

def reset (s : Sequencer α) (last : Seq) : Sequencer α := { s with last := last, pending := [] }

end Sequencer

end SharedObjects
