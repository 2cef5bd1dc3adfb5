import SharedObjects.Value
set_option autoImplicit false

namespace SharedObjects.Value

theorem sizeOf_lt_of_get? {k : Key} {v : Value} {es : List (Key × Value)}
    (held : Entries.get? k es = some v) : sizeOf v < sizeOf es := by
  have inside := List.sizeOf_lt_of_mem (Entries.mem_of_get? held)
  simp only [Prod.mk.sizeOf_spec] at inside
  omega

mutual

def same : Value → Value → Bool
  | null, null => true
  | bool a, bool b => a = b
  | byte a, byte b => a = b
  | short a, short b => a = b
  | int a, int b => a = b
  | long a, long b => a = b
  | float a, float b => a = b
  | double a, double b => a = b
  | text a, text b => a = b
  | bytes a, bytes b => a = b
  | list xs, list ys => sameItems xs ys
  | set xs, set ys => xs.length = ys.length && sameMembers xs ys
  | record t xs, record u ys => t = u && sameItems xs ys
  | _, _ => false
  termination_by v w => sizeOf v + sizeOf w

def sameItems : List Value → List Value → Bool
  | [], [] => true
  | x :: xs, y :: ys => same x y && sameItems xs ys
  | _, _ => false
  termination_by xs ys => sizeOf xs + sizeOf ys

/-- Every member of the first stands in the second with a value that says the same. It is that value
which is compared with the member's. -/
def sameMembers : List (Key × Value) → List (Key × Value) → Bool
  | [], _ => true
  | (k, x) :: xs, ys =>
    (match _ : Entries.get? k ys with
      | some y => same y x
      | none => false) && sameMembers xs ys
  termination_by xs ys => sizeOf xs + sizeOf ys
  decreasing_by
    · have inside := sizeOf_lt_of_get? ‹_›
      simp only [List.cons.sizeOf_spec, Prod.mk.sizeOf_spec]
      omega
    · simp only [List.cons.sizeOf_spec]
      omega

end

instance : BEq Value := ⟨same⟩

@[simp] theorem sameMembers_nil (fs : Members) : sameMembers [] fs = true := by rw [sameMembers]

theorem sameMembers_cons (e : Key × Value) (es fs : Members) : sameMembers (e :: es) fs =
    ((fs.get? e.1).any (fun w => w.same e.2) && sameMembers es fs) := by
  obtain ⟨k, v⟩ := e
  rw [sameMembers]
  split <;> simp [*]

end SharedObjects.Value
