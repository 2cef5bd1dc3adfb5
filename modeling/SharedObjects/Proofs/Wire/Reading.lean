import SharedObjects.Wire.ValueReader
import SharedObjects.Proofs.Catalog.Growth
import SharedObjects.Proofs.Wire.Writing
set_option autoImplicit false

namespace SharedObjects

variable {α β : Type} {c : Catalog}

/-- Behind every code in use the reader finds the type of that name. -/
def Agree (c : Catalog) (codes : Codes) (types : Std.HashMap Nat ResolvedType) : Prop :=
  ∀ name code, codes[name]? = some code →
    0 < code ∧ code ≤ codes.size ∧ ∃ type, c.get? name = some type ∧ types[code]? = some type

theorem agree_empty (c : Catalog) : Agree c ∅ ∅ := by simp [Agree]

theorem Agree.declare {codes : Codes} {types : Std.HashMap Nat ResolvedType} {name : String}
    {type : ResolvedType} (agree : Agree c codes types) (known : c.get? name = some type)
    (new : codes[name]? = none) :
    Agree c (codes.use name) (types.insert (codes.size + 1) type) := by
  intro other code coded
  rw [Codes.size_use_of_none new]
  rw [Codes.use_of_none new, Std.HashMap.getElem?_insert] at coded
  rw [Std.HashMap.getElem?_insert]
  by_cases same : name = other
  · subst same
    obtain rfl : codes.size + 1 = code := by simpa using coded
    exact ⟨by omega, by omega, type, known, by simp⟩
  · obtain ⟨positive, old, held⟩ := agree other code (by simpa [same] using coded)
    have elsewhere : codes.size + 1 ≠ code := by omega
    exact ⟨positive, by omega, by simpa [elsewhere] using held⟩

def Coded (codes : Codes) (types : Std.HashMap Nat ResolvedType) : Prop :=
  ∀ (code : Nat) (type : ResolvedType), types[code]? = some type →
    ∃ name : String, codes[name]? = some code

theorem coded_empty (codes : Codes) : Coded codes ∅ := by simp [Coded]

theorem Coded.declare {codes : Codes} {types : Std.HashMap Nat ResolvedType} {name : String}
    (coded : Coded codes types) (type : ResolvedType) (new : codes[name]? = none) :
    Coded (codes.use name) (types.insert (codes.size + 1) type) := by
  intro code held known
  rw [Codes.use_of_none new]
  rw [Std.HashMap.getElem?_insert] at known
  by_cases last : codes.size + 1 = code
  · exact ⟨name, by simp [last]⟩
  · obtain ⟨other, used⟩ := coded code held (by simpa [last] using known)
    have differs : name ≠ other := by
      rintro rfl
      simp [new] at used
    exact ⟨other, by simpa [Std.HashMap.getElem?_insert, differs] using used⟩

/-- Once the names are in use as well, the reader knows their types, and still no more types than
there are codes if it did before. -/
structure Learns (c : Catalog) (codes : Codes) (names : List String)
    (types known : Std.HashMap Nat ResolvedType) : Prop where
  agree : Agree c (codes.useAll names) known
  coded : Coded codes types → Coded (codes.useAll names) known

theorem Agree.learns {codes : Codes} {types : Std.HashMap Nat ResolvedType}
    (agree : Agree c codes types) : Learns c codes [] types types := ⟨agree, id⟩

theorem Learns.trans {codes : Codes} {types between known : Std.HashMap Nat ResolvedType}
    {names others : List String} (first : Learns c codes names types between)
    (second : Learns c (codes.useAll names) others between known) :
    Learns c codes (names ++ others) types known where
  agree := Codes.useAll_append codes names others ▸ second.agree
  coded start := Codes.useAll_append codes names others ▸ second.coded (first.coded start)

theorem Codes.toInt_code {code : Nat} (few : code ≤ maxTypeCode) :
    (Int16.ofNat code).toInt = code :=
  Int16.toInt_ofNat_of_lt (by unfold maxTypeCode at few; omega)

theorem Codes.toInt_neg_code {code : Nat} (few : code ≤ maxTypeCode) :
    (-Int16.ofNat code).toInt = -code := by
  unfold maxTypeCode at few
  rw [Int16.toInt_neg, toInt_code few, Int.bmod_eq_of_le (by omega) (by omega)]

/-- From every input at this depth that agrees with the codes, the reading takes these bytes, gives
a result, and leaves an input that agrees with the names used as well. -/
def Reads (c : Catalog) (depth : Nat) (codes : Codes) (r : Read α) (bytes : Octets) (a : α)
    (names : List String) : Prop :=
  ∀ tail types, Agree c codes types → ∃ known, Learns c codes names types known ∧
    r ⟨bytes ++ tail, depth, types⟩ = .ok a ⟨tail, depth, known⟩

namespace Reads

variable {depth : Nat} {codes : Codes} {r : Read α} {a a' : α} {b : β} {bytes more : Octets}
  {names others : List String}

theorem cast (reads : Reads c depth codes r bytes a names)
    (spelled : bytes = more := by simp) (used : names = others := by simp) :
    Reads c depth codes r more a others := by
  subst spelled used
  exact reads

theorem reading {r' : Read α} (reads : Reads c depth codes r bytes a names) (same : r' = r) :
    Reads c depth codes r' bytes a names := by
  subst same
  exact reads

theorem giving (reads : Reads c depth codes r bytes a names) (result : a = a') :
    Reads c depth codes r bytes a' names := by
  subst result
  exact reads

theorem pure (a : α) : Reads c depth codes (Pure.pure a) [] a [] :=
  fun _ types agree => ⟨types, agree.learns, rfl⟩

theorem bind {k : α → Read β} (first : Reads c depth codes r bytes a names)
    (second : Reads c depth (codes.useAll names) (k a) more b others) :
    Reads c depth codes (r >>= k) (bytes ++ more) b (names ++ others) := by
  intro tail types agree
  obtain ⟨known, learns, step⟩ := first (more ++ tail) types agree
  obtain ⟨later, learns', step'⟩ := second tail known learns.agree
  refine ⟨later, learns.trans learns', ?_⟩
  rw [List.append_assoc]
  simp only [Bind.bind, EStateM.bind, step, step']

theorem map (f : α → β) (reads : Reads c depth codes r bytes a names) :
    Reads c depth codes (do return f (← r)) bytes (f a) names :=
  (reads.bind (pure (f a))).cast

theorem octets (bytes : Octets) :
    Reads c depth codes (Read.octets bytes.length) bytes bytes [] := by
  intro tail types agree
  refine ⟨types, agree.learns, ?_⟩
  have enough : bytes.length ≤ (bytes ++ tail).length := by simp
  rw [Read.octets_eq, if_pos enough, List.take_left, List.drop_left]

theorem natural {width n : Nat} (fits : n < Octets.capacity width) :
    Reads c depth codes (Read.natural width) (Octets.ofNat width n) n [] := by
  have taken : Reads c depth codes (Read.octets (Octets.ofNat width n).length)
      (Octets.ofNat width n) (Octets.ofNat width n) [] := octets _
  rw [Octets.length_ofNat] at taken
  exact (taken.map Octets.toNat).giving (Octets.toNat_ofNat_of_lt fits)

theorem byte (b : UInt8) : Reads c depth codes Read.byte [b] b [] := by
  have spelled : Octets.ofNat 1 b.toNat = [b] := by simp [Octets.ofNat, Octets.capacity]
  exact (((natural b.toNat_lt).map UInt8.ofNat).cast spelled).giving (by simp)

theorem bool (b : Bool) : Reads c depth codes Read.bool [if b then 1 else 0] b [] := by
  cases b with
  | false => exact (byte 0).bind (pure false)
  | true => exact (byte 1).bind (pure true)

theorem int8 (n : Int8) : Reads c depth codes Read.int8 [n.toUInt8] n [] :=
  ((byte n.toUInt8).map UInt8.toInt8).giving (by simp)

theorem uint16 (n : UInt16) : Reads c depth codes Read.uint16 (Octets.ofNat 2 n.toNat) n [] :=
  ((natural n.toNat_lt).map UInt16.ofNat).giving (by simp)

theorem int16 (n : Int16) : Reads c depth codes Read.int16 (Octets.ofInt16 n) n [] :=
  ((uint16 n.toUInt16).map UInt16.toInt16).giving (by simp)

theorem uint32 (n : UInt32) : Reads c depth codes Read.uint32 (Octets.ofNat 4 n.toNat) n [] :=
  ((natural n.toNat_lt).map UInt32.ofNat).giving (by simp)

theorem int32 (n : Int32) :
    Reads c depth codes Read.int32 (Octets.ofNat 4 n.toUInt32.toNat) n [] :=
  ((uint32 n.toUInt32).map UInt32.toInt32).giving (by simp)

theorem uint64 (n : UInt64) : Reads c depth codes Read.uint64 (Octets.ofNat 8 n.toNat) n [] :=
  ((natural n.toNat_lt).map UInt64.ofNat).giving (by simp)

theorem int64 (n : Int64) :
    Reads c depth codes Read.int64 (Octets.ofNat 8 n.toUInt64.toNat) n [] :=
  ((uint64 n.toUInt64).map UInt64.toInt64).giving (by simp)

theorem text {s : String} (fits : s.utf8ByteSize ≤ maxTextSize) :
    Reads c depth codes Read.text (Octets.ofText s) s [] := by
  have count : (Utf8.encode s).length < Octets.capacity 2 := by
    have : Octets.capacity 2 = maxTextSize + 1 := rfl
    rw [Utf8.length_encode]
    omega
  exact ((natural count).bind ((octets _).bind
    ((pure s).reading (by simp only [Utf8.decode_encode])))).cast (by simp [Octets.ofText])

theorem byteString {bs : Octets} (fits : bs.length ≤ maxLength) :
    Reads c depth codes Read.byteString (Octets.ofByteString bs) bs [] := by
  have count : bs.length < Octets.capacity 4 := by
    have : Octets.capacity 4 = maxLength + 1 := rfl
    omega
  exact (natural count).bind (octets bs)

theorem key {k : Key} (fits : k.Fits) : Reads c depth codes Read.key k.wire k [] := by
  cases k with
  | number n => exact (byte 1).bind ((int64 n).map Key.number)
  | text s => exact (byte 2).bind ((text fits).map Key.text)

theorem ensure {n : Nat} (enough : n ≤ bytes.length)
    (rest : Reads c depth codes r bytes a names) :
    Reads c depth codes (do Read.ensure n; r) bytes a names := by
  intro tail types agree
  have passes : Octets.atLeast n (bytes ++ tail) = true := by
    rw [Octets.atLeast_iff, List.length_append]
    omega
  obtain ⟨known, learns, step⟩ := rest tail types agree
  exact ⟨known, learns, by simp [Read.ensure, Bind.bind, EStateM.bind, passes, step]⟩

theorem length {n : Nat} {k : Nat → Read β} (fits : n ≤ maxLength) (enough : n ≤ bytes.length)
    (rest : Reads c depth codes (k n) bytes b names) :
    Reads c depth codes (Read.length >>= k) (Octets.ofNat 4 n ++ bytes) b names := by
  have count : n < Octets.capacity 4 := by
    have : Octets.capacity 4 = maxLength + 1 := rfl
    omega
  have steps : Read.length >>= k = (do let n ← Read.natural 4; Read.ensure n; k n) := by
    simp [Read.length]
  rw [steps]
  exact (natural count).bind (rest.ensure enough)

theorem typeTag_used {name : String} {type : ResolvedType} {code : Nat}
    (known : c.get? name = some type) (coded : codes[name]? = some code)
    (few : codes.size ≤ maxTypeCode) :
    Reads c depth codes (Read.typeTag c) (Octets.ofInt16 (Int16.ofNat code)) (some type)
      [name] := by
  intro tail types agree
  obtain ⟨types, learns, step⟩ := (int16 (Int16.ofNat code) : Reads c depth codes _ _ _ _)
    tail types agree
  obtain ⟨positive, within, type', known', held⟩ := learns.agree name code coded
  obtain rfl : type' = type := by simpa [known] using known'.symm
  have used : codes.useAll [name] = codes := Codes.use_of_some coded
  have number : (Int16.ofNat code).toInt = code := Codes.toInt_code (Nat.le_trans within few)
  have nonzero : Int16.ofNat code ≠ 0 := by
    intro zero
    rw [zero, Int16.toInt_zero] at number
    omega
  have nonnegative : ¬Int16.ofNat code < 0 := by
    rw [Int16.lt_iff_toInt_lt, number, Int16.toInt_zero]
    omega
  refine ⟨types, ⟨by rw [used]; exact learns.agree, by rw [used]; exact learns.coded⟩, ?_⟩
  simp only [Read.typeTag, Bind.bind, EStateM.bind, step, nonzero, nonnegative, if_false, number,
    Int.toNat_natCast, Attempt.get_run, held]
  rfl

theorem typeTag_new {name : String} {type : ResolvedType} (known : c.get? name = some type)
    (short : name.utf8ByteSize ≤ maxTextSize) (new : codes[name]? = none)
    (few : codes.size + 1 ≤ maxTypeCode) :
    Reads c depth codes (Read.typeTag c)
      (Octets.ofInt16 (-Int16.ofNat (codes.size + 1)) ++ Octets.ofText name) (some type)
      [name] := by
  intro tail types agree
  have number : (-Int16.ofNat (codes.size + 1)).toInt = -(codes.size + 1 : Nat) :=
    Codes.toInt_neg_code few
  obtain ⟨between, learns, step⟩ := (int16 (-Int16.ofNat (codes.size + 1)) :
    Reads c depth codes _ _ _ _) (Octets.ofText name ++ tail) types agree
  obtain ⟨between', learns', step'⟩ := (text short : Reads c depth codes _ _ _ _) tail between
    learns.agree
  have nonzero : -Int16.ofNat (codes.size + 1) ≠ 0 := by
    intro zero
    rw [zero, Int16.toInt_zero] at number
    omega
  have negative : -Int16.ofNat (codes.size + 1) < 0 := by
    rw [Int16.lt_iff_toInt_lt, number, Int16.toInt_zero]
    omega
  -- The reader refuses the least number, whose counterpart does not exist.
  have notLeast : -Int16.ofNat (codes.size + 1) ≠ Int16.minValue := by
    intro least
    unfold maxTypeCode at few
    rw [least, Int16.toInt_minValue] at number
    omega
  refine ⟨between'.insert (codes.size + 1) type, ⟨learns'.agree.declare known new, fun start =>
    (learns'.coded (learns.coded start)).declare type new⟩, ?_⟩
  have back : (-(-Int16.ofNat (codes.size + 1)).toInt).toNat = codes.size + 1 := by
    rw [number]
    omega
  simp only [Read.typeTag, Bind.bind, EStateM.bind, List.append_assoc, step, step', nonzero,
    negative, notLeast, if_false, if_true, known, Attempt.modify_run, back]
  rfl

theorem typeTag {name : String} {type : ResolvedType} (known : c.get? name = some type)
    (short : name.utf8ByteSize ≤ maxTextSize) (few : (codes.use name).size ≤ maxTypeCode) :
    Reads c depth codes (Read.typeTag c) (codes.tag name) (some type) [name] := by
  unfold Codes.tag
  cases coded : codes[name]? with
  | some code => exact typeTag_used known coded (Codes.use_of_some coded ▸ few)
  | none => exact typeTag_new known short coded (Codes.size_use_of_none coded ▸ few)

end Reads

end SharedObjects
