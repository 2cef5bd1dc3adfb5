import Std.Data.HashMap
import SharedObjects.Attempt
set_option autoImplicit false

namespace SharedObjects

/-- The bytes of a message, the nesting depth, and the codes of the type names it has used. -/
structure Output where
  bytes : Array UInt8
  depth : Nat
  codes : Std.HashMap String Nat

def Output.empty : Output := ⟨#[], 0, ∅⟩

abbrev Write := Attempt Output

namespace Write

def fail {α : Type} (cause : EncodingFault) : Write α := throw (.encoding cause)

def octets (bytes : Octets) : Write Unit :=
  modify (fun out => { out with bytes := out.bytes ++ bytes })

def natural (width n : Nat) : Write Unit := octets (Octets.ofNat width n)

def byte (b : UInt8) : Write Unit := octets [b]

def bool (b : Bool) : Write Unit := byte (if b then 1 else 0)

def int8 (n : Int8) : Write Unit := byte n.toUInt8

def uint16 (n : UInt16) : Write Unit := natural 2 n.toNat

def int16 (n : Int16) : Write Unit := uint16 n.toUInt16

def uint32 (n : UInt32) : Write Unit := natural 4 n.toNat

def int32 (n : Int32) : Write Unit := uint32 n.toUInt32

def uint64 (n : UInt64) : Write Unit := natural 8 n.toNat

def int64 (n : Int64) : Write Unit := uint64 n.toUInt64

def text (s : String) : Write Unit := do
  let bytes := Utf8.encode s
  if bytes.length > maxTextSize then fail (.textTooLong bytes.length)
  natural 2 bytes.length
  octets bytes

def byteString (bytes : Octets) : Write Unit := do
  if bytes.length > maxLength then fail (.bytesTooLong bytes.length)
  natural 4 bytes.length
  octets bytes

def length (n : Nat) : Write Unit :=
  if n > maxLength then fail (.collectionTooLong n) else natural 4 n

/-- Writes one level deeper; the depth comes back even when the writing fails. -/
def nested {α : Type} (inner : Write α) : Write α := fun out =>
  if out.depth ≥ maxNesting then .error (.encoding .nestingTooDeep) out
  else
    match inner { out with depth := out.depth + 1 } with
    | .ok a out => .ok a { out with depth := out.depth - 1 }
    | .error fault out => .error fault { out with depth := out.depth - 1 }

def within {α : Type} (type field : String) (inner : Write α) : Write α := fun out =>
  match inner out with
  | .error (.encoding cause) out => .error (.encoding (.inField type field cause)) out
  | result => result

def bytesOf {α : Type} (w : Write α) : Except Fault Octets :=
  match w .empty with
  | .ok _ out => .ok out.bytes.toList
  | .error fault _ => .error fault

end Write

end SharedObjects
