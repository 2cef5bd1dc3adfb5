import SharedObjects.Event
import SharedObjects.Wire.ValueReader
import SharedObjects.Wire.ValueWriter
set_option autoImplicit false

namespace SharedObjects

def eventHeaderSize : Nat := 7

namespace Write

def anyAll (c : Catalog) : List Value → Write Unit
  | [] => pure ()
  | v :: vs => do
    any c v
    anyAll c vs

def action (c : Catalog) : Action → Write Unit
  | .fieldSet v => any c v
  | .elementAdd k v => member c k v
  | .elementRemove k => key k
  | .elementUpdate k v => member c k v
  | .listSet position v => do
    uint32 position
    any c v
  | .message name arguments => do
    if arguments.length > maxArguments then fail (.tooManyArguments name)
    text name
    natural 2 arguments.length
    anyAll c arguments

def event (c : Catalog) (e : Event) : Write Unit := do
  uint32 e.object.number
  uint16 e.field
  byte e.kind.code
  action c e.action

end Write

namespace Read

def action (c : Catalog) : EventKind → Read Action
  | .fieldSet => return .fieldSet (← any c)
  | .elementAdd => do
    let (k, v) ← member c
    return .elementAdd k v
  | .elementRemove => return .elementRemove (← key)
  | .elementUpdate => do
    let (k, v) ← member c
    return .elementUpdate k v
  | .listSet => do
    let position ← uint32
    return .listSet position (← any c)
  | .message => do
    let name ← text
    let count ← natural 2
    return .message name (← times count (any c))

def event (c : Catalog) : Read Event := do
  let object ← uint32
  let field ← uint16
  let code ← byte
  match EventKind.ofCode? code with
  | some kind => return ⟨⟨object⟩, field, ← action c kind⟩
  | none => fail (.eventKind code)

end Read

namespace Event

def encode (c : Catalog) (e : Event) : Except Fault Octets := Write.bytesOf (Write.event c e)

def decode (c : Catalog) (bytes : Octets) : Except Fault Event :=
  Read.whole (Read.event c) bytes

/-- The object of an encoded event, without reading the rest. -/
def peekObject (bytes : Octets) : Except Fault ObjectId :=
  if Octets.atLeast 4 bytes then .ok (.ofOctets (bytes.take 4))
  else .error (.truncated 4 bytes.length)

end Event

end SharedObjects
