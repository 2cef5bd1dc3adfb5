import SharedObjects.Proofs.Wire.ReadingValues
import SharedObjects.Proofs.Wire.Steadiness
/-!
What reading makes of bytes that nobody may have written. Whatever stands in an input, a value that
is read from it is one that could have been written there, codes aside, and has taken at least the
bytes that its spelling would: a reader may have been told the code of a type more often than
needed, but never less often.
-/
set_option autoImplicit false

namespace SharedObjects

variable {α β : Type} {c : Catalog} {depth : Nat} {codes : Codes}

def Named (c : Catalog) (codes : Codes) (types : Std.HashMap Nat ResolvedType) : Prop :=
  ∀ (code : Nat) (type : ResolvedType), types[code]? = some type → c.get? type.name = some type ∧
    type.name.utf8ByteSize ≤ maxTextSize ∧ type.name ∈ codes

theorem named_empty (c : Catalog) (codes : Codes) : Named c codes ∅ := by simp [Named]

theorem Named.useAll {types : Std.HashMap Nat ResolvedType} (named : Named c codes types)
    (names : List String) : Named c (codes.useAll names) types := by
  intro code type held
  obtain ⟨known, short, used⟩ := named code type held
  exact ⟨known, short, Codes.mem_useAll.mpr (.inr used)⟩

/-- Whatever stands in an input at this depth, a result of the reading is as asked, together with
the types it names and a number of bytes that have been taken from the input at least. -/
def Takes (c : Catalog) (depth : Nat) (codes : Codes) (r : Read α)
    (asked : α → List String → Nat → Prop) : Prop :=
  ∀ rest types a after, Named c codes types → r ⟨rest, depth, types⟩ = .ok a after →
    ∃ names size, asked a names size ∧ size + after.rest.length ≤ rest.length ∧
      after.depth = depth ∧ Named c (codes.useAll names) after.types

namespace Takes

variable {r : Read α} {asked asked' : α → List String → Nat → Prop}

theorem mono (takes : Takes c depth codes r asked)
    (enough : ∀ a names size, asked a names size → asked' a names size) :
    Takes c depth codes r asked' := by
  intro rest types a after named read
  obtain ⟨names, size, fits, others⟩ := takes rest types a after named read
  exact ⟨names, size, enough a names size fits, others⟩

theorem of_less (takes : Takes c depth codes r fun a names size =>
    ∃ less ≤ size, asked a names less) : Takes c depth codes r asked := by
  intro rest types a after named read
  obtain ⟨names, size, ⟨less, le, fits⟩, within, others⟩ := takes rest types a after named read
  exact ⟨names, less, fits, by omega, others⟩

theorem naming {a : α} (names : List String) (fits : asked a names 0) :
    Takes c depth codes (Pure.pure a) asked := by
  rintro rest types _ _ named ⟨⟩
  exact ⟨names, 0, fits, by simp, rfl, named.useAll names⟩

theorem pure {a : α} (fits : asked a [] 0) : Takes c depth codes (Pure.pure a) asked :=
  naming [] fits

theorem throw (fault : Fault) : Takes c depth codes (throw fault : Read α) asked := by
  rintro _ _ _ _ _ ⟨⟩

theorem fail (cause : FormatFault) : Takes c depth codes (Read.fail cause) asked := throw _

theorem bind {k : α → Read β} {asked : β → List String → Nat → Prop}
    (takes : Takes c depth codes r fun a names size =>
      Takes c depth (codes.useAll names) (k a) fun b others more =>
        asked b (names ++ others) (size + more)) :
    Takes c depth codes (r >>= k) asked := by
  intro rest types b after named read
  obtain ⟨a, ⟨between, _, known⟩, first, second⟩ := Attempt.of_bind_ok read
  obtain ⟨names, size, next, within, rfl, named⟩ := takes rest types a _ named first
  obtain ⟨others, more, fits, within', same, named⟩ := next between known b after named second
  have bytes : size + between.length ≤ rest.length := within
  rw [← Codes.useAll_append] at named
  exact ⟨names ++ others, size + more, fits, by omega, same, named⟩

theorem map {f : α → β} {asked : β → List String → Nat → Prop}
    (takes : Takes c depth codes r fun a names size => asked (f a) names size) :
    Takes c depth codes (do return f (← r)) asked :=
  bind (takes.mono fun a names size fits => pure (by simpa using fits))

theorem get {k : Input → Read α}
    (takes : ∀ input : Input, input.depth = depth → Named c codes input.types →
      Takes c depth codes (k input) asked) :
    Takes c depth codes (MonadState.get >>= k) asked := by
  intro rest types a after named read
  exact takes ⟨rest, depth, types⟩ rfl named rest types a after named read

theorem octets {n : Nat} {asked : Octets → List String → Nat → Prop}
    (fits : ∀ bytes, bytes.length = n → asked bytes [] n) :
    Takes c depth codes (Read.octets n) asked := by
  intro rest types bytes after named read
  obtain ⟨enough, rfl, rfl⟩ := Read.octets_eq_ok_iff.mp read
  have enough : n ≤ rest.length := enough
  refine ⟨[], n, fits _ (List.length_take_of_le enough), ?_, rfl, named⟩
  simp only [List.length_drop]
  omega

theorem natural {width : Nat} {asked : Nat → List String → Nat → Prop}
    (fits : ∀ n, n < Octets.capacity width → asked n [] width) :
    Takes c depth codes (Read.natural width) asked :=
  map (octets fun bytes size => fits _ (size ▸ Octets.toNat_lt bytes))

theorem byte {asked : UInt8 → List String → Nat → Prop} (fits : ∀ b, asked b [] 1) :
    Takes c depth codes Read.byte asked := map (natural fun _ _ => fits _)

theorem uint16 {asked : UInt16 → List String → Nat → Prop} (fits : ∀ n, asked n [] 2) :
    Takes c depth codes Read.uint16 asked := map (natural fun _ _ => fits _)

theorem int16 {asked : Int16 → List String → Nat → Prop} (fits : ∀ n, asked n [] 2) :
    Takes c depth codes Read.int16 asked := map (uint16 fun _ => fits _)

theorem uint32 {asked : UInt32 → List String → Nat → Prop} (fits : ∀ n, asked n [] 4) :
    Takes c depth codes Read.uint32 asked := map (natural fun _ _ => fits _)

theorem uint64 {asked : UInt64 → List String → Nat → Prop} (fits : ∀ n, asked n [] 8) :
    Takes c depth codes Read.uint64 asked := map (natural fun _ _ => fits _)

theorem int64 {asked : Int64 → List String → Nat → Prop} (fits : ∀ n, asked n [] 8) :
    Takes c depth codes Read.int64 asked := map (uint64 fun _ => fits _)

theorem bool {asked : Bool → List String → Nat → Prop} (fits : ∀ b, asked b [] 1) :
    Takes c depth codes Read.bool asked := by
  refine bind (byte fun b => ?_)
  split
  · exact pure (fits false)
  · split
    · exact pure (fits true)
    · exact fail _

theorem text {asked : String → List String → Nat → Prop}
    (fits : ∀ s, s.utf8ByteSize ≤ maxTextSize → asked s [] (Octets.ofText s).length) :
    Takes c depth codes Read.text asked := by
  refine bind (natural fun size short => bind (octets fun bytes count => ?_))
  split
  · rename_i s decoded
    obtain rfl := Utf8.eq_encode_of_decode decoded
    have spelled : (Octets.ofText s).length = 2 + size := by simp [Octets.ofText, ← count]
    refine pure (spelled ▸ fits s ?_)
    have limit : Octets.capacity 2 = maxTextSize + 1 := rfl
    rw [← Utf8.length_encode]
    omega
  · exact fail _

theorem byteString {asked : Octets → List String → Nat → Prop}
    (fits : ∀ bs, bs.length ≤ maxLength → asked bs [] (Octets.ofByteString bs).length) :
    Takes c depth codes Read.byteString asked := by
  refine bind (natural fun size short => octets fun bytes count => ?_)
  have spelled : (Octets.ofByteString bytes).length = 4 + size := by
    simp [Octets.ofByteString, count]
  have limit : Octets.capacity 4 = maxLength + 1 := rfl
  exact spelled ▸ fits bytes (by omega)

theorem ensure {n : Nat} {asked : Unit → List String → Nat → Prop} (fits : asked () [] 0) :
    Takes c depth codes (Read.ensure n) asked := by
  intro rest types _ after named read
  obtain ⟨-, rfl⟩ := Read.ensure_eq_ok_iff.mp read
  exact ⟨[], 0, fits, by simp, rfl, named⟩

theorem length {asked : Nat → List String → Nat → Prop} (fits : ∀ n ≤ maxLength, asked n [] 4) :
    Takes c depth codes Read.length asked := by
  refine bind (natural fun n short => map (ensure (fits n ?_)))
  have limit : Octets.capacity 4 = maxLength + 1 := rfl
  omega

theorem key {asked : Key → List String → Nat → Prop}
    (fits : ∀ k : Key, k.Fits → asked k [] k.wire.length) :
    Takes c depth codes Read.key asked := by
  refine bind (byte fun kind => ?_)
  split
  · exact map (int64 fun n => by simpa [Key.wire] using fits (.number n) trivial)
  · split
    · refine map (text fun s short => ?_)
      simpa [Key.wire, Nat.add_comm] using fits (.text s) short
    · exact fail _

end Takes

end SharedObjects
