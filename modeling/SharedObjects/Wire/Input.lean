import Std.Data.HashMap
import SharedObjects.Attempt
/-!
Reading. An input is the rest of a message together with what its values share: how deep the value
in hand is nested, and the types declared under codes so far. A reading that fails keeps what it
consumed, which at most is a length or a code before the bytes that were missing or wrong.
-/
set_option autoImplicit false

namespace SharedObjects

/-- What is left of a message, the nesting depth, and the types behind its codes. -/
structure Input where
  rest : Octets
  depth : Nat
  types : Std.HashMap Nat ResolvedType

def Input.ofOctets (bytes : Octets) : Input := ⟨bytes, 0, ∅⟩

def Input.remaining (input : Input) : Nat := input.rest.length

abbrev Read := Attempt Input

namespace Read

def fail {α : Type} (cause : FormatFault) : Read α := throw (.format cause)

def ensure (n : Nat) : Read Unit := fun input =>
  if Octets.atLeast n input.rest then .ok () input
  else .error (.truncated n input.remaining) input

def octets (n : Nat) : Read Octets := do
  ensure n
  modifyGet (fun input => (input.rest.take n, { input with rest := input.rest.drop n }))

theorem octets_eq (n : Nat) (input : Input) : octets n input =
    if n ≤ input.rest.length then .ok (input.rest.take n) { input with rest := input.rest.drop n }
    else .error (.truncated n input.remaining) input := by
  by_cases enough : n ≤ input.rest.length
  · have passes : Octets.atLeast n input.rest = true := Octets.atLeast_iff.mpr enough
    simp only [octets, ensure, Bind.bind, EStateM.bind, passes, enough, if_true]
    rfl
  · have fails : Octets.atLeast n input.rest = false := by
      rw [← Bool.not_eq_true, Octets.atLeast_iff]
      exact enough
    simp [octets, ensure, Bind.bind, EStateM.bind, fails, enough]

theorem ensure_eq_ok_iff {n : Nat} {input after : Input} : ensure n input = .ok () after ↔
    n ≤ input.rest.length ∧ after = input := by
  rw [ensure, ← Octets.atLeast_iff]
  split <;> simp [*, eq_comm]

theorem octets_eq_ok_iff {n : Nat} {bytes : Octets} {input after : Input} :
    octets n input = .ok bytes after ↔ n ≤ input.rest.length ∧ bytes = input.rest.take n ∧
      after = { input with rest := input.rest.drop n } := by
  rw [octets_eq]
  split <;> simp [*, eq_comm]

def rest : Read Octets := modifyGet (fun input => (input.rest, { input with rest := [] }))

def natural (width : Nat) : Read Nat := do
  return Octets.toNat (← octets width)

theorem natural_eq_ok_iff {width n : Nat} {input after : Input} :
    natural width input = .ok n after ↔ width ≤ input.rest.length ∧
      n = Octets.toNat (input.rest.take width) ∧
      after = { input with rest := input.rest.drop width } := by
  simp only [natural, Bind.bind, EStateM.bind, octets_eq]
  by_cases enough : width ≤ input.rest.length
  · simp [enough, Pure.pure, EStateM.pure, eq_comm]
  · simp [enough]

def byte : Read UInt8 := do
  return UInt8.ofNat (← natural 1)

def bool : Read Bool := do
  let b ← byte
  if b = 0 then return false
  else if b = 1 then return true
  else fail (.booleanByte b)

def int8 : Read Int8 := do
  return (← byte).toInt8

def uint16 : Read UInt16 := do
  return UInt16.ofNat (← natural 2)

def int16 : Read Int16 := do
  return (← uint16).toInt16

def uint32 : Read UInt32 := do
  return UInt32.ofNat (← natural 4)

def int32 : Read Int32 := do
  return (← uint32).toInt32

def uint64 : Read UInt64 := do
  return UInt64.ofNat (← natural 8)

def int64 : Read Int64 := do
  return (← uint64).toInt64

def text : Read String := do
  let bytes ← octets (← natural 2)
  match Utf8.decode bytes with
  | .ok s => return s
  | .error defect => fail (.badText defect)

def byteString : Read Octets := do
  octets (← natural 4)

/-- The length of a collection. Every item takes a byte at least, so a length beyond the bytes that
are left is refused at once. -/
def length : Read Nat := do
  let n ← natural 4
  ensure n
  return n

def expectEnd : Read Unit := fun input =>
  if input.rest.isEmpty then .ok () input
  else .error (.format (.trailing input.remaining)) input

def times {α : Type} (n : Nat) (item : Read α) : Read (List α) :=
  (List.replicate n ()).mapM (fun _ => item)

theorem times_succ {α : Type} (n : Nat) (item : Read α) : times (n + 1) item = do
    let a ← item
    let as ← times n item
    return a :: as := by
  simp [times, List.replicate_succ]

/-- Reads one level deeper; the depth comes back even when the reading fails. -/
def deeper {α : Type} (inner : Read α) : Read α := fun input =>
  match inner { input with depth := input.depth + 1 } with
  | .ok a input => .ok a { input with depth := input.depth - 1 }
  | .error fault input => .error fault { input with depth := input.depth - 1 }

def whole {α : Type} (r : Read α) (bytes : Octets) : Except Fault α :=
  match (do let a ← r; expectEnd; return a : Read α) (.ofOctets bytes) with
  | .ok a _ => .ok a
  | .error fault _ => .error fault

theorem whole_eq {α : Type} (r : Read α) (bytes : Octets) : whole r bytes =
    match r (.ofOctets bytes) with
    | .ok a after =>
      if after.rest = [] then .ok a else .error (.format (.trailing after.rest.length))
    | .error fault _ => .error fault := by
  unfold whole
  cases step : r (.ofOctets bytes) with
  | error fault after => simp only [Bind.bind, EStateM.bind, step]
  | ok a after =>
    simp only [Bind.bind, EStateM.bind, step, expectEnd, Input.remaining, List.isEmpty_iff]
    by_cases ended : after.rest = []
    · simp only [ended, if_true]
      rfl
    · simp only [ended, if_false]

theorem whole_eq_ok_iff {α : Type} {r : Read α} {bytes : Octets} {a : α} : whole r bytes = .ok a ↔
    ∃ after, r (.ofOctets bytes) = .ok a after ∧ after.rest = [] := by
  rw [whole_eq]
  constructor
  · intro read
    split at read
    · rename_i after step
      split at read <;> cases read
      exact ⟨after, step, ‹_›⟩
    · cases read
  · rintro ⟨after, step, ended⟩
    simp only [step, ended, if_true]

end Read

end SharedObjects
