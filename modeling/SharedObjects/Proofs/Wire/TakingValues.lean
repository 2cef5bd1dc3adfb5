import SharedObjects.Proofs.SharedObject.Changes
import SharedObjects.Proofs.Wire.Taking
set_option autoImplicit false

namespace SharedObjects

variable {α : Type} {c : Catalog} {depth : Nat} {codes : Codes}

/-- At its depth the wire has room for a value, as far as codes do not matter, and its sets are
sets. -/
structure Value.Sound (c : Catalog) (depth : Nat) (v : Value) : Prop where
  streamable : v.Streamable c
  shallow : depth + v.nesting ≤ maxNesting
  keyed : v.WellKeyed

namespace Value.Sound

variable {v : Value}

theorem flat (flat : v.isFlat = true) (shallow : depth ≤ maxNesting) (fits : v.Fits c) :
    v.Sound c depth where
  streamable := by simpa [Streamable, parts_of_isFlat flat] using fits
  shallow := by simpa [nesting_of_isFlat flat] using shallow
  keyed := by
    rw [WellKeyed, parts_of_isFlat flat]
    cases v <;> simp_all [isFlat, KeysDistinct]

theorem container (container : v.isFlat = false) (deep : depth < maxNesting) (fits : v.Fits c)
    (distinct : v.KeysDistinct) (inside : ∀ w ∈ v.contents, w.Sound c (depth + 1)) :
    v.Sound c depth where
  streamable := forall_parts_iff.mpr ⟨fits, fun w mem => (inside w mem).streamable⟩
  shallow := (add_nesting_le_iff container).mpr ⟨deep, fun w mem => (inside w mem).shallow⟩
  keyed := wellKeyed_iff.mpr ⟨distinct, fun w mem => (inside w mem).keyed⟩

end Value.Sound

theorem FieldType.accepts_of_type {type : FieldType} {v : Value} (held : v.type? = some type) :
    type.accepts v = true := by simp [accepts, held]

theorem Octets.length_ofInt16 (n : Int16) : (ofInt16 n).length = 2 := length_ofNat 2 _

theorem Codes.length_tag_of_mem {name : String} (used : name ∈ codes) :
    (codes.tag name).length = 2 := by
  obtain ⟨code, coded⟩ : ∃ code, codes[name]? = some code :=
    Option.isSome_iff_exists.mp (Std.HashMap.mem_iff_isSome_getElem?.mp used)
  simp [tag, coded, Octets.length_ofInt16]

theorem Codes.length_tag_le (codes : Codes) (name : String) :
    (codes.tag name).length ≤ 2 + (Octets.ofText name).length := by
  unfold tag
  split <;> simp [Octets.length_ofInt16]

structure Value.Behind (c : Catalog) (depth : Nat) (codes : Codes) (type : FieldType) (v : Value)
    (names : List String) (size : Nat) : Prop where
  held : v.type? = some type
  sound : v.Sound c depth
  named : names = v.typeNames
  spelled : size = (v.wire c codes).length

/-- What is found where a field of the declared type is read. -/
structure Value.Found (c : Catalog) (depth : Nat) (codes : Codes) (type : FieldType) (v : Value)
    (names : List String) (size : Nat) : Prop where
  accepted : type.accepts v = true
  sound : v.Sound c depth
  named : names = v.typeNames
  spelled : size = (v.declaredWire type (v.wire c codes)).length

structure Value.AllFound (c : Catalog) (depth : Nat) (vs : List Value) (spelling : Octets)
    (names : List String) (size : Nat) : Prop where
  sound : ∀ v ∈ vs, v.Sound c depth
  named : names = vs.flatMap typeNames
  spelled : size = spelling.length

namespace Value

variable {type : FieldType} {v : Value} {vs ws : List Value} {names others : List String}
  {size left : Nat} {spelling more : Octets}

theorem Behind.flat (flat : v.isFlat = true) (held : v.type? = some type)
    (shallow : depth ≤ maxNesting) (fits : v.Fits c) (spelled : size = (v.wire c codes).length) :
    v.Behind c depth codes type [] size :=
  ⟨held, .flat flat shallow fits, (typeNames_of_isFlat flat).symm, spelled⟩

theorem Behind.found {declared : FieldType} {lead : Nat}
    (behind : v.Behind c depth codes type names size) (accepted : declared.accepts v = true)
    (spelled : (v.declaredWire declared (v.wire c codes)).length =
      lead + (v.wire c codes).length) :
    v.Found c depth codes declared names (lead + size) :=
  ⟨accepted, behind.sound, behind.named, by rw [spelled, behind.spelled]⟩

theorem AllFound.nil : AllFound c depth [] [] [] 0 := ⟨by simp, rfl, rfl⟩

theorem Found.alone (found : v.Found c depth codes type names size) :
    AllFound c depth [v] (v.declaredWire type (v.wire c codes)) names size :=
  ⟨by simpa using found.sound, by simpa using found.named, found.spelled⟩

theorem AllFound.behind (found : AllFound c depth vs spelling names size) (lead : Octets) :
    AllFound c depth vs (lead ++ spelling) names (lead.length + size) :=
  ⟨found.sound, found.named, by rw [found.spelled, List.length_append]⟩

theorem AllFound.append (found : AllFound c depth vs spelling names size)
    (rest : AllFound c depth ws more others left) :
    AllFound c depth (vs ++ ws) (spelling ++ more) (names ++ others) (size + left) where
  sound := List.forall_mem_append.mpr ⟨found.sound, rest.sound⟩
  named := by rw [found.named, rest.named, List.flatMap_append]
  spelled := by rw [found.spelled, rest.spelled, List.length_append]

end Value

/-- Whatever has been spelled so far, a reader finds a value of every type asked for. -/
def Finds (c : Catalog) (depth : Nat) (value : Read.ValueReader) : Prop :=
  ∀ codes type, Takes c depth codes (value type) (Value.Found c depth codes type)

/-- If there is a reader for one level down, there is room for that level and it finds values. -/
def Digs (c : Catalog) (depth : Nat) (below : Option Read.ValueReader) : Prop :=
  ∀ value, below = some value → depth < maxNesting ∧ Finds c (depth + 1) value

namespace Takes

variable {below : Option Read.ValueReader}

theorem declare {code : Nat} {type : ResolvedType} {asked : PUnit → List String → Nat → Prop}
    (known : c.get? type.name = some type) (short : type.name.utf8ByteSize ≤ maxTextSize)
    (fits : asked ⟨⟩ [type.name] 0) :
    Takes c depth codes
      (modify fun input => { input with types := input.types.insert code type }) asked := by
  rintro rest types _ _ named ⟨⟩
  refine ⟨[type.name], 0, fits, by simp, rfl, fun other held found => ?_⟩
  rw [Std.HashMap.getElem?_insert] at found
  split at found
  · cases found
    exact ⟨known, short, Codes.mem_use.mpr (.inl rfl)⟩
  · exact named.useAll _ other held found

theorem typeTag (reachable : c.Reachable)
    {asked : Option ResolvedType → List String → Nat → Prop} (null : asked none [] 2)
    (some : ∀ type, c.get? type.name = some type → type.name.utf8ByteSize ≤ maxTextSize →
      asked (some type) [type.name] (codes.tag type.name).length) :
    Takes c depth codes (Read.typeTag c) asked := by
  unfold Read.typeTag
  refine of_less (bind (int16 fun code => ?_))
  split
  · exact pure ⟨2, by simp, null⟩
  split
  · -- A type is declared, perhaps not for the first time.
    refine bind (text fun name short => ?_)
    split
    · exact throw _
    · rename_i type known
      have same : type.name = name := reachable.name_eq known
      rw [← same] at known short
      have result : Takes c depth codes
          (do
            modify fun input => { input with types := input.types.insert (-code.toInt).toNat type }
            return Option.some type)
          fun a names size => ∃ less ≤ 2 + ((Octets.ofText name).length + size),
            asked a names less := by
        refine bind (declare known short (pure ?_))
        have within := Codes.length_tag_le codes type.name
        exact ⟨_, by rw [← same]; simpa using within, some type known short⟩
      split
      · exact bind (fail _)
      · exact result
  · -- A code is used, and so its name has been declared.
    refine get fun input _ named => ?_
    split
    · rename_i type found
      obtain ⟨known, short, used⟩ := named _ _ found
      have spelled : (codes.tag type.name).length = 2 := Codes.length_tag_of_mem used
      exact naming [type.name] ⟨2, by simp, spelled ▸ some type known short⟩
    · exact fail _

theorem deeper {r : Read α} {asked : α → List String → Nat → Prop}
    (inner : Takes c (depth + 1) codes r asked) : Takes c depth codes (Read.deeper r) asked := by
  intro rest types a after named read
  unfold Read.deeper at read
  split at read <;> cases read
  rename_i last step
  obtain ⟨names, size, fits, within, same, named⟩ := inner rest types a _ named step
  exact ⟨names, size, fits, within, by simp [same], named⟩

theorem inside {contents : Read.ValueReader → Read α} {asked : α → List String → Nat → Prop}
    (digs : Digs c depth below)
    (takes : ∀ value, depth < maxNesting → Finds c (depth + 1) value →
      Takes c (depth + 1) codes (contents value) asked) :
    Takes c depth codes (Read.inside below contents) asked := by
  unfold Read.inside
  split
  · exact fail _
  · obtain ⟨deep, finds⟩ := digs _ rfl
    exact deeper (takes _ deep finds)

section Contents

variable {value : Read.ValueReader}

theorem items (finds : Finds c depth value) (n : Nat) :
    Takes c depth codes (Read.times n (value .any)) fun vs names size =>
      vs.length = n ∧ Value.AllFound c depth vs (Value.itemsWire c codes vs) names size := by
  induction n generalizing codes with
  | zero => exact pure ⟨rfl, .nil⟩
  | succ n ih =>
    rw [Read.times_succ]
    refine bind ((finds codes .any).mono fun v names size found => map (ih.mono ?_))
    rintro vs others more ⟨rfl, all⟩
    obtain rfl := found.named
    exact ⟨rfl, found.alone.append all⟩

theorem fields (finds : Finds c depth value) (fs : List Field) :
    Takes c depth codes (fs.mapM fun f => value f.type) fun vs names size =>
      Value.Accepted vs fs ∧
        Value.AllFound c depth vs (Value.fieldsWire c codes vs fs) names size := by
  induction fs generalizing codes with
  | nil => exact pure ⟨.nil, .nil⟩
  | cons f fs ih =>
    rw [List.mapM_cons]
    refine bind ((finds codes f.type).mono fun v names size found => map (ih.mono ?_))
    rintro vs others more ⟨accepted, all⟩
    obtain rfl := found.named
    exact ⟨.cons found.accepted accepted, found.alone.append all⟩

theorem memberOnto (finds : Finds c depth value) {done : Members} (distinct : done.Distinct) :
    Takes c depth codes (Read.memberOnto value done) fun es names size => es.Distinct ∧
      ∃ k v, es = done ++ [(k, v)] ∧ k.Fits ∧
        Value.AllFound c depth [v] (k.wire ++ v.taggedWire (v.wire c codes)) names size := by
  refine bind (key fun k fits => bind ((finds codes .any).mono fun v names size found => ?_))
  split
  · rename_i es added
    have applied : Members.apply (.added k v) done = .ok es := added
    have appended : es = done ++ [(k, v)] := by
      unfold Members.add at added
      split at added <;> cases added
      rfl
    refine pure ⟨Members.distinct_of_apply distinct applied, k, v, appended, fits, ?_⟩
    simpa [Value.declaredWire] using found.alone.behind k.wire
  · exact fail _

theorem members (finds : Finds c depth value) (n : Nat) {done : Members}
    (distinct : done.Distinct) :
    Takes c depth codes
      ((List.replicate n ()).foldlM (fun es _ => Read.memberOnto value es) done)
      fun es names size => es.Distinct ∧ ∃ more : Members, es = done ++ more ∧ more.length = n ∧
        (∀ e ∈ more, e.1.Fits) ∧
        Value.AllFound c depth (more.map Prod.snd) (Value.membersWire c codes more) names size := by
  induction n generalizing codes done with
  | zero => exact pure ⟨distinct, [], by simp, rfl, by simp, .nil⟩
  | succ n ih =>
    rw [List.replicate_succ, List.foldlM_cons]
    refine bind ((memberOnto finds distinct).mono ?_)
    rintro es names size ⟨distinct, k, v, rfl, fits, first⟩
    obtain rfl : names = v.typeNames := by simpa using first.named
    refine (ih distinct).mono ?_
    rintro es others left ⟨distinct, more, rfl, rfl, rest, all⟩
    refine ⟨distinct, (k, v) :: more, by simp, rfl, List.forall_mem_cons.mpr ⟨fits, rest⟩, ?_⟩
    simpa [Value.membersWire] using first.append all

end Contents

theorem membersWith (digs : Digs c depth below) :
    Takes c depth codes (Read.membersWith below) fun es names size =>
      (Value.set es).Behind c depth codes .set names size := by
  refine inside digs fun value deep finds => bind (length fun n short => ?_)
  have distinct : Entries.Distinct ([] : Members) := List.nodup_nil
  refine (members finds n distinct).mono ?_
  rintro _ names size ⟨distinct, es, rfl, rfl, fits, all⟩
  refine ⟨rfl, .container rfl deep ⟨short, fits⟩ distinct all.sound, ?_, ?_⟩
  · rw [Value.typeNames_eq]
    exact all.named
  · simp [Value.wire, all.spelled]

theorem recordWith (reachable : c.Reachable) (digs : Digs c depth below) :
    Takes c depth codes (Read.recordWith c below) fun found names size =>
      match found with
      | none => names = [] ∧ size = 2
      | some (name, values) =>
        (Value.record name values).Behind c depth codes .record names size := by
  refine bind (typeTag reachable (pure ⟨rfl, rfl⟩) fun type known short => ?_)
  by_cases distributed : type.isDistributed = true
  · simp only [distributed, if_true]
    exact bind (fail _)
  · simp only [distributed]
    refine map (inside digs fun value deep finds => (fields finds type.fields).mono ?_)
    rintro values names size ⟨accepted, all⟩
    have fits : (Value.record type.name values).Fits c :=
      ⟨type, known, by simpa using distributed, short, accepted⟩
    refine ⟨rfl, .container rfl deep fits trivial all.sound, ?_, ?_⟩
    · rw [Value.typeNames_eq, all.named]
      rfl
    · simp only [Value.wire, Catalog.fieldsOf, known, List.length_append, all.spelled]
      rfl

theorem payloadWith (reachable : c.Reachable) (shallow : depth ≤ maxNesting)
    (digs : Digs c depth below) (type : FieldType) :
    Takes c depth codes (Read.payloadWith c below type) fun v names size =>
      v.Behind c depth codes type names size := by
  cases type with
  | bool => exact map (bool fun b => .flat rfl rfl shallow trivial rfl)
  | byte => exact map (map (byte fun n => .flat rfl rfl shallow trivial rfl))
  | short => exact map (int16 fun n => .flat rfl rfl shallow trivial rfl)
  | int => exact map (map (uint32 fun n => .flat rfl rfl shallow trivial rfl))
  | long => exact map (int64 fun n => .flat rfl rfl shallow trivial rfl)
  | float => exact map (uint32 fun bits => .flat rfl rfl shallow trivial rfl)
  | double => exact map (uint64 fun bits => .flat rfl rfl shallow trivial rfl)
  | text => exact map (text fun s short => .flat rfl rfl shallow short rfl)
  | bytes => exact map (byteString fun bs short => .flat rfl rfl shallow short rfl)
  | list =>
    refine inside digs fun value deep finds => bind (length fun n short => map ?_)
    refine (items finds n).mono ?_
    rintro vs names size ⟨rfl, all⟩
    refine ⟨rfl, .container rfl deep short trivial all.sound, ?_, ?_⟩
    · rw [Value.typeNames_eq]
      exact all.named
    · simp [Value.wire, all.spelled]
  | set => exact map (membersWith digs)
  | record =>
    refine bind ((recordWith reachable digs).mono fun found names size fits => ?_)
    split
    · exact pure (by simpa using fits)
    · exact fail _
  | any => exact fail _

theorem valueWith (reachable : c.Reachable) (shallow : depth ≤ maxNesting)
    (digs : Digs c depth below) (type : FieldType) :
    Takes c depth codes (Read.valueWith c below type) (Value.Found c depth codes type) := by
  have payload (type : FieldType) : Takes c depth codes (Read.payloadWith c below type) _ :=
    payloadWith reachable shallow digs type
  have null : Value.null.Sound c depth := .flat rfl shallow trivial
  -- What is neither primitive nor a record nor anything at all stands behind a mark.
  have marked (primitive : type.isPrimitive = false) (other : type ≠ .record ∧ type ≠ .any) :
      Takes c depth codes
        (do if ← Read.bool then Read.payloadWith c below type else return .null)
        (Value.Found c depth codes type) := by
    refine bind (bool fun present => ?_)
    split
    · refine (payload type).mono fun v names size behind => ?_
      refine behind.found (FieldType.accepts_of_type behind.held) ?_
      cases type <;> simp_all [Value.declaredWire, Value.isNull, behind.held,
        FieldType.isPrimitive, Nat.add_comm]
    · refine pure ⟨by simp [FieldType.accepts, Value.type?, primitive], null, rfl, ?_⟩
      cases type <;> simp_all [Value.declaredWire, FieldType.isPrimitive, Value.isNull, Value.type?]
  have bare (primitive : type.isPrimitive = true) :
      Takes c depth codes (Read.payloadWith c below type) (Value.Found c depth codes type) := by
    refine (payload type).mono fun v names size behind => ?_
    refine Nat.zero_add size ▸ behind.found (FieldType.accepts_of_type behind.held) ?_
    cases type <;> simp_all [Value.declaredWire, FieldType.isPrimitive]
  cases type with
  | any =>
    refine bind (byte fun kind => ?_)
    split
    · exact pure ⟨rfl, null, rfl, rfl⟩
    · split
      · rename_i natural _
        refine (payload natural).mono fun v names size behind => ?_
        refine behind.found (by simp [FieldType.accepts, behind.held]) ?_
        simp [Value.declaredWire, Value.taggedWire, behind.held, Nat.add_comm]
      · exact fail _
  | record =>
    refine bind ((recordWith reachable digs).mono fun found names size fits => ?_)
    split
    · rename_i name values
      have behind : (Value.record name values).Behind c depth codes .record names size := fits
      have spelled : ((Value.record name values).declaredWire .record
          ((Value.record name values).wire c codes)).length = 0 + _ := (Nat.zero_add _).symm
      exact pure (by simpa using behind.found rfl spelled)
    · obtain ⟨rfl, rfl⟩ := fits
      exact pure ⟨rfl, null, rfl, rfl⟩
  | text | bytes | list | set => exact marked rfl (by simp)
  | _ => exact bare rfl

theorem digs (reachable : c.Reachable) {room : Nat} (limit : depth + room = maxNesting) :
    Digs c depth (Read.below c room) := by
  induction room generalizing depth with
  | zero => intro _ none; cases none
  | succ room ih =>
    rintro _ ⟨⟩
    exact ⟨by omega, fun codes type =>
      valueWith reachable (by omega) (ih (by omega)) type⟩

theorem here {k : Option Read.ValueReader → Read α} {asked : α → List String → Nat → Prop}
    (takes : Takes c depth codes (k (Read.below c (maxNesting - depth))) asked) :
    Takes c depth codes (Read.belowHere c >>= k) asked := by
  rw [Read.belowHere_bind]
  exact get fun input same _ => same ▸ takes

theorem value (reachable : c.Reachable) (shallow : depth ≤ maxNesting) :
    Finds c depth (Read.value c) :=
  fun _ type => here (valueWith reachable shallow (digs reachable (by omega)) type)

end Takes

end SharedObjects
