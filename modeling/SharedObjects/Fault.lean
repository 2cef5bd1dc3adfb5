import SharedObjects.Identifier
import SharedObjects.Key
import SharedObjects.Kind
import SharedObjects.Limits
import SharedObjects.Schema
import SharedObjects.Stage
import SharedObjects.Text.Utf8
set_option autoImplicit false

namespace SharedObjects

def heldName : Option FieldType → String
  | some t => "Some(" ++ t.name ++ ")"
  | none => "None"

def misfitText (declared : FieldType) (held : Option FieldType) : String :=
  declared.name ++ " field cannot hold " ++ heldName held

def nestingText : String := "values nest deeper than " ++ Nat.repr maxNesting ++ " levels"

def distributedValueText (type : String) : String :=
  "distributed object " ++ type ++ " cannot be streamed as a field value"

def byteText (b : UInt8) : String := "0x" ++ Octets.hex [b]

/-- Why a value cannot be written, a type not declared, or an object not made. -/
inductive EncodingFault
  | nestingTooDeep
  | uncoded (type : String)
  | tooManyTypes
  | misfit (declared : FieldType) (held : Option FieldType)
  | nullPayload
  | distributedValue (type : String)
  | fieldCount (type : String) (declared given : Nat)
  | inField (type field : String) (cause : EncodingFault)
  | textTooLong (size : Nat)
  | bytesTooLong (size : Nat)
  | collectionTooLong (size : Nat)
  | tooManyArguments (message : String)
  | frameTooLong (size limit : Nat)
  | unnamedType
  | typeTwice (type : String)
  | parentMissing (type parent : String)
  | kindMismatch (type : String) (kind : TypeKind) (parent : String) (parentKind : TypeKind)
  | rootless (type : String)
  | tooManyFields (type : String)
  | fieldTwice (type field : String)
  | notStreamable (type : String)
  | notDistributed (type : String)
  | identifiersExhausted
  | catalogInstalled
  | catalogMissing
  | stated (text : String)
  deriving DecidableEq, Repr

def EncodingFault.text : EncodingFault → String
  | nestingTooDeep => nestingText
  | uncoded type => "no codec registered for type " ++ type
  | tooManyTypes => "too many distinct types in one message"
  | misfit declared held => misfitText declared held
  | nullPayload => "null has no payload"
  | distributedValue type => distributedValueText type
  | fieldCount type declared given =>
    type ++ " declares " ++ Nat.repr declared ++ " fields, got " ++ Nat.repr given
  | inField type field cause => type ++ "." ++ field ++ ": " ++ cause.text
  | textTooLong size => "string too long: " ++ Nat.repr size ++ " > " ++ Nat.repr maxTextSize
  | bytesTooLong size => "byte array too long: " ++ Nat.repr size
  | collectionTooLong size => "collection too long: " ++ Nat.repr size
  | tooManyArguments message => "message " ++ message ++ " has too many arguments"
  | frameTooLong size limit =>
    "message of " ++ Nat.repr size ++ " bytes exceeds limit " ++ Nat.repr limit
  | unnamedType => "type name must not be empty"
  | typeTwice type => "type " ++ type ++ " registered twice"
  | parentMissing type parent => "type " ++ type ++ " extends unregistered " ++ parent
  | kindMismatch type kind parent parentKind =>
    "type " ++ type ++ " (" ++ kind.name ++ ") cannot extend " ++ parent ++ " (" ++
      parentKind.name ++ ")"
  | rootless type => "distributed object type " ++ type ++ " must extend " ++ rootName
  | tooManyFields type => "type " ++ type ++ " has too many fields"
  | fieldTwice type field => "type " ++ type ++ " declares field " ++ field ++ " twice"
  | notStreamable type => type ++ " is a distributed object type, not a streamable"
  | notDistributed type => type ++ " is not a distributed object type"
  | identifiersExhausted => "object identifier space exhausted"
  | catalogInstalled => "type registry already initialized"
  | catalogMissing => "type registry not initialized"
  | stated text => text

inductive FormatFault
  | nestingTooDeep
  | booleanByte (b : UInt8)
  | badText (defect : Utf8.Defect)
  | trailing (count : Nat)
  | typeCode (code : Int16)
  | undeclaredCode (code : Int16)
  | valueKind (b : UInt8)
  | nullRecord
  | distributedValue (type : String)
  | repeatedKey (key : Key)
  | keyKind (b : UInt8)
  | eventKind (b : UInt8)
  | messageKind (b : UInt8)
  | nullSnapshot
  | notDistributed (type : String)
  | frameTooLong (size limit : Nat)
  | notForwarded (kind : MessageKind)
  | strayForward
  | stated (text : String)
  deriving DecidableEq, Repr

def duplicateText (label : String) : String := "Duplicate element: " ++ label

def FormatFault.text : FormatFault → String
  | nestingTooDeep => nestingText
  | booleanByte b => "invalid boolean byte: " ++ byteText b
  | badText defect => "invalid UTF-8: " ++ defect.text
  | trailing count => Nat.repr count ++ " trailing bytes"
  | typeCode code => "invalid type code " ++ toString code.toInt
  | undeclaredCode code => "type code " ++ toString code.toInt ++ " used before declaration"
  | valueKind b => "invalid value kind " ++ byteText b
  | nullRecord => "null tag where an object was announced"
  | distributedValue type => distributedValueText type
  | repeatedKey key => "corrupt set snapshot: " ++ duplicateText key.label
  | keyKind b => "invalid key kind " ++ byteText b
  | eventKind b => "invalid event kind " ++ byteText b
  | messageKind b => "invalid message kind " ++ byteText b
  | nullSnapshot => "null type tag in snapshot"
  | notDistributed type => "snapshot of non-distributed type " ++ type
  | frameTooLong size limit =>
    "frame of " ++ Nat.repr size ++ " bytes exceeds limit " ++ Nat.repr limit
  | notForwarded kind => "expected a forwarded event, got " ++ kind.name
  | strayForward => "forwarded events only travel upstream"
  | stated text => text

inductive FieldFault
  | missing
  | misfit (declared : FieldType) (held : Option FieldType)
  | notSet
  | nullSet
  | notList
  | nullList
  | beyondList (position : UInt32)
  | wrongContainer (field : String) (declared wanted : FieldType)
  | stated (text : String)
  deriving DecidableEq, Repr

def FieldFault.text : FieldFault → String
  | missing => "no such field"
  | misfit declared held => misfitText declared held
  | notSet => "not a set field"
  | nullSet => "set field is null"
  | notList => "not a list field"
  | nullList => "list field is null"
  | beyondList position => "position " ++ Nat.repr position.toNat ++ " out of range"
  | wrongContainer field declared wanted =>
    field ++ " is a " ++ declared.name ++ " field, not " ++ wanted.name
  | stated text => text

inductive DeliveryFault
  | backpressure
  | disconnected
  | unknownEndpoint
  | failed (text : String)
  deriving DecidableEq, Repr

def DeliveryFault.text : DeliveryFault → String
  | backpressure => "outbound queue full"
  | disconnected => "endpoint disconnected"
  | unknownEndpoint => "unknown endpoint"
  | failed text => "transport failure: " ++ text

def DeliveryFault.name : DeliveryFault → String
  | backpressure => "Backpressure"
  | disconnected => "Disconnected"
  | unknownEndpoint => "UnknownEndpoint"
  | failed _ => "Failed"

/-- Everything an operation can fail with. -/
inductive Fault
  | encoding (cause : EncodingFault)
  | unknownType (name : String)
  | truncated (needed remaining : Nat)
  | format (cause : FormatFault)
  | field (index : UInt16) (cause : FieldFault)
  | duplicateElement (label : String)
  | notFound (label : String)
  | directWrite (id : ObjectId)
  | alreadyRegistered (id : ObjectId)
  | unknownObject (id : ObjectId)
  | notLive (id : ObjectId) (stage : Stage)
  | outOfOrder (object : ObjectId) (expected received : Seq)
  | delivery (cause : DeliveryFault)
  deriving DecidableEq, Repr

namespace Fault

def name : Fault → String
  | encoding _ => "Encoding"
  | unknownType _ => "UnknownType"
  | truncated _ _ => "TruncatedStream"
  | format _ => "InvalidWireFormat"
  | field _ _ => "InvalidField"
  | duplicateElement _ => "DuplicateElement"
  | notFound _ => "NotFound"
  | directWrite _ => "DirectWrite"
  | alreadyRegistered _ => "AlreadyRegistered"
  | unknownObject _ => "UnknownObject"
  | notLive _ _ => "NotLive"
  | outOfOrder _ _ _ => "OutOfOrder"
  | delivery _ => "Delivery"

/-- Does it come from malformed or incomplete bytes? -/
def isWire : Fault → Bool
  | unknownType _ | truncated _ _ | format _ => true
  | _ => false

def text : Fault → String
  | encoding cause => "Encoding failed: " ++ cause.text
  | unknownType name => "Unknown type: " ++ name
  | truncated needed remaining =>
    "Truncated stream: needed " ++ Nat.repr needed ++ " more bytes, " ++ Nat.repr remaining ++
      " remaining"
  | format cause => "Invalid wire format: " ++ cause.text
  | field index cause => "Invalid field " ++ Nat.repr index.toNat ++ ": " ++ cause.text
  | duplicateElement label => duplicateText label
  | notFound label => "Element not found: " ++ label
  | directWrite id => "Direct write on shared object " ++ id.text ++ "; mutate through events"
  | alreadyRegistered id => "Object already registered as " ++ id.text
  | unknownObject id => "Unknown object: " ++ id.text
  | notLive id stage =>
    "Object " ++ id.text ++ " is " ++ stage.name ++ ", operation requires Live"
  | outOfOrder object expected received =>
    "Out of order on object " ++ object.text ++ ": expected " ++ expected.text ++
      ", buffered past " ++ received.text
  | delivery cause => "Delivery failed: " ++ cause.text

end Fault

end SharedObjects
