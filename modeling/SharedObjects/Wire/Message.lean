import SharedObjects.Wire.Event
set_option autoImplicit false

namespace SharedObjects

inductive Message
  | snapshot (object : ObjectId) (seq : Seq) (body : Octets)
  | event (seq : Seq) (body : Octets)
  | removed (object : ObjectId)
  | subscribeFailed (object : ObjectId) (reason : String)
  | forwardEvent (body : Octets)
  deriving DecidableEq, Repr

namespace Message

def kind : Message → MessageKind
  | snapshot _ _ _ => .snapshot
  | event _ _ => .event
  | removed _ => .removed
  | subscribeFailed _ _ => .subscribeFailed
  | forwardEvent _ => .forwardEvent

/-- The object a message is about, found in the body of an event. -/
def object : Message → Except Fault ObjectId
  | snapshot object _ _ | removed object | subscribeFailed object _ => .ok object
  | event _ body | forwardEvent body => Event.peekObject body

def write (m : Message) : Write Unit := do
  Write.byte m.kind.code
  match m with
  | snapshot object seq body =>
    Write.uint32 object.number
    Write.uint64 seq.number
    Write.octets body
  | event seq body =>
    Write.uint64 seq.number
    Write.octets body
  | removed object => Write.uint32 object.number
  | subscribeFailed object reason =>
    Write.uint32 object.number
    Write.text reason
  | forwardEvent body => Write.octets body

def encode (m : Message) : Except Fault Octets := Write.bytesOf m.write

/-- What follows the byte of the kind. A body is refused if it is too short for what it should hold:
a type code in a snapshot, a header in an event. -/
def readKind : MessageKind → Read Message
  | .snapshot => do
    let object ← Read.uint32
    let seq ← Read.uint64
    let body ← Read.rest
    if body.isEmpty then throw (.truncated 2 0)
    return snapshot ⟨object⟩ ⟨seq⟩ body
  | .event => do
    let seq ← Read.uint64
    Read.ensure eventHeaderSize
    return event ⟨seq⟩ (← Read.rest)
  | .removed => return removed ⟨← Read.uint32⟩
  | .subscribeFailed => do
    let object ← Read.uint32
    return subscribeFailed ⟨object⟩ (← Read.text)
  | .forwardEvent => do
    Read.ensure eventHeaderSize
    return forwardEvent (← Read.rest)

def read : Read Message := do
  let code ← Read.byte
  match MessageKind.ofCode? code with
  | some kind => readKind kind
  | none => Read.fail (.messageKind code)

def decode (bytes : Octets) : Except Fault Message := Read.whole read bytes

end Message

def Event.forwarded (c : Catalog) (e : Event) : Except Fault Octets :=
  match e.encode c with
  | .ok body => (Message.forwardEvent body).encode
  | .error fault => .error fault

end SharedObjects
