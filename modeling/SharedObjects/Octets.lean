set_option autoImplicit false

namespace SharedObjects

abbrev Octets := List UInt8

namespace Octets

def capacity : Nat → Nat
  | 0 => 1
  | width + 1 => capacity width * 256

theorem capacity_pos (width : Nat) : 0 < capacity width := by
  induction width with
  | zero => exact Nat.one_pos
  | succ width ih => exact Nat.mul_pos ih (by decide)

/-- The last `width` base-256 digits of a number, most significant first. -/
def ofNat : Nat → Nat → Octets
  | 0, _ => []
  | width + 1, n => UInt8.ofNat (n / capacity width) :: ofNat width n

def toNatFrom : Nat → Octets → Nat
  | high, [] => high
  | high, b :: bs => toNatFrom (256 * high + b.toNat) bs

def toNat (bytes : Octets) : Nat := toNatFrom 0 bytes

@[simp] theorem length_ofNat (width n : Nat) : (ofNat width n).length = width := by
  induction width with
  | zero => rfl
  | succ width ih => simp [ofNat, ih]

theorem toNatFrom_ofNat (width n high : Nat) :
    toNatFrom high (ofNat width n) = capacity width * high + n % capacity width := by
  induction width generalizing high with
  | zero => simp [ofNat, toNatFrom, capacity, Nat.mod_one]
  | succ width ih =>
    have digit : (UInt8.ofNat (n / capacity width)).toNat = n / capacity width % 256 := by simp
    have split : n % capacity (width + 1)
        = n % capacity width + capacity width * (n / capacity width % 256) := by
      rw [capacity, Nat.mod_mul]
    rw [ofNat, toNatFrom, ih, digit, split, capacity, Nat.mul_add, Nat.mul_assoc]
    omega

theorem toNat_ofNat (width n : Nat) : toNat (ofNat width n) = n % capacity width := by
  simp [toNat, toNatFrom_ofNat]

theorem toNat_ofNat_of_lt {width n : Nat} (fits : n < capacity width) :
    toNat (ofNat width n) = n := by
  rw [toNat_ofNat, Nat.mod_eq_of_lt fits]

theorem toNatFrom_eq (high : Nat) (bytes : Octets) :
    toNatFrom high bytes = capacity bytes.length * high + toNat bytes := by
  induction bytes generalizing high with
  | nil => simp [toNatFrom, toNat, capacity]
  | cons b bs ih =>
    rw [toNat, toNatFrom, toNatFrom, ih, ih (256 * 0 + b.toNat), List.length_cons, capacity,
      Nat.mul_add, Nat.mul_assoc]
    simp [Nat.add_assoc]

theorem toNat_lt (bytes : Octets) : toNat bytes < capacity bytes.length := by
  induction bytes with
  | nil => simp [toNat, toNatFrom, capacity]
  | cons b bs ih =>
    have small : b.toNat < 256 := b.toNat_lt
    rw [toNat, toNatFrom, toNatFrom_eq, List.length_cons, capacity]
    calc capacity bs.length * (256 * 0 + b.toNat) + toNat bs
        < capacity bs.length * (256 * 0 + b.toNat) + capacity bs.length := by omega
      _ = capacity bs.length * (b.toNat + 1) := by simp [Nat.mul_add]
      _ ≤ capacity bs.length * 256 := Nat.mul_le_mul_left _ (by omega)

theorem ofNat_toNat (bytes : Octets) (high : Nat) :
    ofNat bytes.length (capacity bytes.length * high + toNat bytes) = bytes := by
  induction bytes generalizing high with
  | nil => rfl
  | cons b bs ih =>
    have rest : toNat bs < capacity bs.length := toNat_lt bs
    have value : capacity (b :: bs).length * high + toNat (b :: bs)
        = capacity bs.length * (256 * high + b.toNat) + toNat bs := by
      rw [toNat, toNatFrom, toNatFrom_eq, List.length_cons, capacity, Nat.mul_assoc, Nat.mul_zero,
        Nat.zero_add, Nat.mul_add (capacity bs.length), Nat.add_assoc]
    have top : (capacity bs.length * (256 * high + b.toNat) + toNat bs) / capacity bs.length
        = 256 * high + b.toNat := by
      rw [Nat.mul_add_div (capacity_pos _), Nat.div_eq_of_lt rest, Nat.add_zero]
    rw [value, List.length_cons, ofNat, top, ih]
    congr 1
    apply UInt8.toNat_inj.mp
    simp

/-- Are there so many bytes, looking no further than needed? -/
def atLeast : Nat → Octets → Bool
  | 0, _ => true
  | _ + 1, [] => false
  | n + 1, _ :: bs => atLeast n bs

theorem atLeast_iff {n : Nat} {bytes : Octets} : atLeast n bytes = true ↔ n ≤ bytes.length := by
  induction n generalizing bytes with
  | zero => simp [atLeast]
  | succ n ih => cases bytes <;> simp [atLeast, ih]

def hexDigits (b : UInt8) : List Char :=
  [Nat.digitChar (b.toNat / 16), Nat.digitChar (b.toNat % 16)]

def hex (bytes : Octets) : String := String.ofList (bytes.flatMap hexDigits)

def hexDigit? (c : Char) : Option Nat := (List.range 16).find? (fun n => n.digitChar = c)

/-- The bytes that these hexadecimal digits spell, behind those read already, last first. -/
def readHex? (done : Octets) : List Char → Option Octets
  | [] => some done.reverse
  | [_] => none
  | high :: low :: rest =>
    match hexDigit? high, hexDigit? low with
    | some h, some l => readHex? (UInt8.ofNat (16 * h + l) :: done) rest
    | _, _ => none

def ofHex? (digits : String) : Option Octets := readHex? [] digits.toList

end Octets

end SharedObjects
