import SharedObjects.Octets
set_option autoImplicit false

namespace SharedObjects.Utf8

/-- Where bytes stop being text: after `valid` good bytes, either `wrong` bytes that fit no
character or, when there is no such number, the end of the input inside a character. -/
structure Defect where
  valid : Nat
  wrong : Option Nat
  deriving DecidableEq, Repr

/-- What a character still needs: how many bytes, and the range of the next of them. -/
structure Owed where
  count : Nat
  least : UInt8
  greatest : UInt8

def owedAfter (lead : UInt8) : Option Owed :=
  if 0xC2 ≤ lead ∧ lead ≤ 0xDF then some ⟨1, 0x80, 0xBF⟩
  else if lead = 0xE0 then some ⟨2, 0xA0, 0xBF⟩
  else if lead = 0xED then some ⟨2, 0x80, 0x9F⟩
  else if 0xE1 ≤ lead ∧ lead ≤ 0xEF then some ⟨2, 0x80, 0xBF⟩
  else if lead = 0xF0 then some ⟨3, 0x90, 0xBF⟩
  else if 0xF1 ≤ lead ∧ lead ≤ 0xF3 then some ⟨3, 0x80, 0xBF⟩
  else if lead = 0xF4 then some ⟨3, 0x80, 0x8F⟩
  else none

/-- The first defect after `valid` good bytes; `inside` holds the length read of the character in
hand and what it still needs. -/
def defectFrom (valid : Nat) : Option (Nat × Owed) → Octets → Defect
  | _, [] => ⟨valid, none⟩
  | none, lead :: rest =>
    if lead < 0x80 then defectFrom (valid + 1) none rest
    else match owedAfter lead with
      | none => ⟨valid, some 1⟩
      | some owed => defectFrom valid (some (1, owed)) rest
  | some (taken, owed), b :: rest =>
    if owed.least ≤ b ∧ b ≤ owed.greatest then
      if owed.count ≤ 1 then defectFrom (valid + taken + 1) none rest
      else defectFrom valid (some (taken + 1, ⟨owed.count - 1, 0x80, 0xBF⟩)) rest
    else ⟨valid, some taken⟩

def defect (bytes : Octets) : Defect := defectFrom 0 none bytes

def encode (text : String) : Octets := text.toUTF8.data.toList

def decode (bytes : Octets) : Except Defect String :=
  match String.fromUTF8? ⟨bytes.toArray⟩ with
  | some text => .ok text
  | none => .error (defect bytes)

@[simp] theorem length_encode (text : String) : (encode text).length = text.utf8ByteSize := by
  rfl

@[simp] theorem decode_encode (text : String) : decode (encode text) = .ok text := by
  have valid : text.toByteArray.IsValidUTF8 := text.isValidUTF8
  simp [decode, encode, String.fromUTF8?, String.fromUTF8, valid]

theorem eq_encode_of_decode {bytes : Octets} {text : String} (read : decode bytes = .ok text) :
    bytes = encode text := by
  unfold decode String.fromUTF8? at read
  split at read
  · rename_i found
    split at found
    · cases found
      cases read
      simp [encode, String.fromUTF8]
    · cases found
  · cases read

def Defect.text (d : Defect) : String :=
  match d.wrong with
  | some n =>
    "invalid utf-8 sequence of " ++ Nat.repr n ++ " bytes from index " ++ Nat.repr d.valid
  | none => "incomplete utf-8 byte sequence from index " ++ Nat.repr d.valid

end SharedObjects.Utf8
