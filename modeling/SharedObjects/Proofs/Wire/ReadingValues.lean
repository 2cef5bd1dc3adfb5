import SharedObjects.Proofs.Members
import SharedObjects.Proofs.Wire.Reading
set_option autoImplicit false

namespace SharedObjects

variable {α : Type} {c : Catalog} {depth : Nat} {codes : Codes}

abbrev Read.valueAt (c : Catalog) (depth : Nat) : Read.ValueReader :=
  Read.valueWith c (Read.below c (maxNesting - depth))

abbrev Read.payloadAt (c : Catalog) (depth : Nat) : Read.ValueReader :=
  Read.payloadWith c (Read.below c (maxNesting - depth))

/-- Wherever the wire had room for it, the spelling of a value that is not null is read as it. -/
def Value.ReadBack (c : Catalog) (v : Value) : Prop :=
  ∀ depth codes type, Room c depth codes [v] → v.WellKeyed → v.type? = some type →
    Reads c depth codes (Read.payloadAt c depth type) (v.wire c codes) v v.typeNames

namespace Reads

variable {v : Value} {bytes : Octets} {a : α} {names : List String}

theorem inside {contents : Read.ValueReader → Read α} (deep : depth < maxNesting)
    (reads : Reads c (depth + 1) codes (contents (Read.valueAt c (depth + 1))) bytes a names) :
    Reads c depth codes (Read.inside (Read.below c (maxNesting - depth)) contents) bytes a
      names := by
  intro tail types agree
  obtain ⟨known, learns, step⟩ := reads tail types agree
  have room : maxNesting - depth = maxNesting - (depth + 1) + 1 := by omega
  refine ⟨known, learns, ?_⟩
  rw [room]
  simp only [Read.below, Read.inside, Read.deeper, step, Nat.add_sub_cancel]

theorem ofCode_code (type : FieldType) : type.code ≠ 0 := by cases type <;> decide

theorem tagged (reads : ∀ type, v.type? = some type →
      Reads c depth codes (Read.payloadAt c depth type) bytes v v.typeNames) :
    Reads c depth codes (Read.valueAt c depth .any) (v.taggedWire bytes) v v.typeNames := by
  unfold Value.taggedWire
  cases held : v.type? with
  | none =>
    obtain rfl : v = .null := Value.eq_null_of_type? held
    exact (byte 0).bind (pure Value.null)
  | some type =>
    exact (byte type.code).bind
      ((reads type held).reading (by simp only [ofCode_code, if_false, FieldType.ofCode?_code]))

theorem record (reads : Reads c depth codes (Read.payloadAt c depth .record) bytes v names) :
    Reads c depth codes (Read.valueAt c depth .record) bytes v names := by
  intro tail types agree
  obtain ⟨known, learns, step⟩ := reads tail types agree
  refine ⟨known, learns, ?_⟩
  simp only [Read.payloadAt, Read.payloadWith, Read.valueAt, Read.valueWith, Bind.bind,
    EStateM.bind] at step ⊢
  split at step
  · rename_i found _ _
    cases found with
    | some record => exact step
    | none => cases step
  · cases step

theorem nullRecord :
    Reads c depth codes (Read.valueAt c depth .record) (Octets.ofInt16 0) .null [] := by
  have tag : Reads c depth codes (Read.typeTag c) (Octets.ofInt16 0) none [] :=
    (int16 0).bind (pure none)
  have nothing : Reads c depth codes (Read.recordWith c (Read.below c (maxNesting - depth)))
      (Octets.ofInt16 0) none [] := tag.bind (pure none)
  exact nothing.bind (pure Value.null)

theorem declared {type : FieldType} (accepted : type.accepts v = true)
    (reads : ∀ type, v.type? = some type →
      Reads c depth codes (Read.payloadAt c depth type) bytes v v.typeNames) :
    Reads c depth codes (Read.valueAt c depth type) (v.declaredWire type bytes) v v.typeNames := by
  unfold Value.declaredWire
  cases held : v.type? with
  | none =>
    obtain rfl : v = .null := Value.eq_null_of_type? held
    have absent : Reads c depth codes
        (do if ← Read.bool then Read.payloadAt c depth type else return .null) [0] .null [] :=
      (bool false).bind (pure Value.null)
    cases type with
    | any => exact tagged reads
    | record => exact nullRecord
    | text | bytes | list | set => exact absent
    | _ => cases accepted
  | some natural =>
    have present : v.isNull = false := by simp [Value.isNull, held]
    have payload := reads natural held
    by_cases any : type = .any
    · subst any
      exact tagged reads
    · have same : natural = type := by simpa [FieldType.accepts, held, any] using accepted
      subst same
      have marked : Reads c depth codes
          (do if ← Read.bool then Read.payloadAt c depth natural else return .null) (1 :: bytes) v
            v.typeNames := (bool true).bind payload
      simp only [present]
      cases natural with
      | any => exact absurd rfl any
      | record => exact payload.record
      | text | bytes | list | set => exact marked
      | _ => exact payload

end Reads

namespace Value

theorem one_le_length_taggedWire (v : Value) (payload : Octets) :
    1 ≤ (v.taggedWire payload).length := by
  unfold taggedWire
  split <;> simp

theorem length_le_itemsWire (vs : List Value) : vs.length ≤ (itemsWire c codes vs).length := by
  induction vs generalizing codes with
  | nil => exact Nat.zero_le _
  | cons v vs ih =>
    have first := one_le_length_taggedWire v (v.wire c codes)
    have rest : vs.length ≤ (itemsWire c (codes.useAll v.typeNames) vs).length := ih
    simp only [itemsWire, List.length_cons, List.length_append]
    omega

theorem length_le_membersWire (es : Members) : es.length ≤ (membersWire c codes es).length := by
  induction es generalizing codes with
  | nil => exact Nat.zero_le _
  | cons e es ih =>
    have first := one_le_length_taggedWire e.2 (e.2.wire c codes)
    have rest : es.length ≤ (membersWire c (codes.useAll e.2.typeNames) es).length := ih
    simp only [membersWire, List.length_cons, List.length_append]
    omega

end Value

namespace Value.ReadBack

variable {v : Value} {vs : List Value}

theorem any (back : v.ReadBack c) (room : Room c depth codes [v]) (keyed : v.WellKeyed) :
    Reads c depth codes (Read.valueAt c depth .any) (v.taggedWire (v.wire c codes)) v v.typeNames :=
  .tagged fun type held => back depth codes type room keyed held

theorem value (back : v.ReadBack c) (room : Room c depth codes [v]) (keyed : v.WellKeyed)
    {type : FieldType} (accepted : type.accepts v = true) :
    Reads c depth codes (Read.valueAt c depth type) (v.declaredWire type (v.wire c codes)) v
      v.typeNames :=
  .declared accepted fun type held => back depth codes type room keyed held

theorem items (back : ∀ v ∈ vs, v.ReadBack c) (room : Room c depth codes vs)
    (keyed : ∀ v ∈ vs, v.WellKeyed) :
    Reads c depth codes (Read.times vs.length (Read.valueAt c depth .any)) (itemsWire c codes vs) vs
      (vs.flatMap typeNames) := by
  induction vs generalizing codes with
  | nil => exact .pure []
  | cons v vs ih =>
    obtain ⟨first, rest⟩ := Room.cons_iff.mp room
    have head := (back v (by simp)).any first (keyed v (by simp))
    have tail := ih (fun w mem => back w (by simp [mem])) rest fun w mem => keyed w (by simp [mem])
    rw [List.length_cons, Read.times_succ]
    exact head.bind (tail.map (v :: ·))

theorem members {es done : Members} (back : ∀ e ∈ es, e.2.ReadBack c)
    (room : Room c depth codes (es.map Prod.snd)) (fits : ∀ e ∈ es, e.1.Fits)
    (keyed : ∀ e ∈ es, e.2.WellKeyed) (distinct : (done ++ es : Members).Distinct) :
    Reads c depth codes
      ((List.replicate es.length ()).foldlM
        (fun es _ => Read.memberOnto (Read.valueAt c depth) es) done)
      (membersWire c codes es) (done ++ es) ((es.map Prod.snd).flatMap typeNames) := by
  induction es generalizing codes done with
  | nil => exact (Reads.pure done).giving (by simp)
  | cons e es ih =>
    obtain ⟨k, v⟩ := e
    obtain ⟨first, rest⟩ := Room.cons_iff.mp room
    have value := (back (k, v) (by simp)).any first (keyed (k, v) (by simp))
    have new : Members.add k v done = .ok (done ++ [(k, v)]) := Members.add_of_distinct distinct
    have added : Reads c depth (codes.useAll v.typeNames) (Pure.pure (done ++ [(k, v)])) []
        (done ++ [(k, v)]) [] := .pure _
    have head : Reads c depth codes (Read.memberOnto (Read.valueAt c depth) done)
        (k.wire ++ v.taggedWire (v.wire c codes)) (done ++ [(k, v)]) v.typeNames :=
      ((Reads.key (fits (k, v) (by simp))).bind
        (value.bind (added.reading (by simp only [new])))).cast
    have still : (done ++ [(k, v)] ++ es : Members).Distinct := by simpa using distinct
    have tail := ih (fun w mem => back w (by simp [mem])) rest (fun w mem => fits w (by simp [mem]))
      (fun w mem => keyed w (by simp [mem])) still
    exact ((head.bind tail).cast (by simp [membersWire])).giving (by simp)

theorem set {es : Members} (back : ∀ e ∈ es, e.2.ReadBack c)
    (room : Room c depth codes [.set es]) (keyed : (Value.set es).WellKeyed) :
    Reads c depth codes (Read.membersWith (Read.below c (maxNesting - depth)))
      ((Value.set es).wire c codes) es (Value.set es).typeNames := by
  have inner : _ ∧ (es.length ≤ maxLength ∧ ∀ e ∈ es, e.1.Fits) ∧
      Room c (depth + 1) codes (es.map Prod.snd) := (Room.container_iff rfl).mp room
  obtain ⟨deep, ⟨short, fits⟩, room⟩ := inner
  obtain ⟨distinct, keyed⟩ := wellKeyed_iff.mp keyed
  have distinct : ([] ++ es : Members).Distinct := distinct
  have read := members back room fits (fun e mem => keyed e.2 (List.mem_map_of_mem mem)) distinct
  have names : (Value.set es).typeNames = (es.map Prod.snd).flatMap typeNames := typeNames_eq _
  rw [names]
  exact .inside deep (.length short (length_le_membersWire es) read)

theorem fields {fs : List Field} (back : ∀ v ∈ vs, v.ReadBack c) (room : Room c depth codes vs)
    (keyed : ∀ v ∈ vs, v.WellKeyed) (accepted : Accepted vs fs) :
    Reads c depth codes (fs.mapM fun f => Read.valueAt c depth f.type)
      (fieldsWire c codes vs fs) vs (vs.flatMap typeNames) := by
  induction accepted generalizing codes with
  | nil => exact .pure []
  | cons here _ ih =>
    obtain ⟨first, rest⟩ := Room.cons_iff.mp room
    have head := (back _ (by simp)).value first (keyed _ (by simp)) here
    have tail := ih (fun w mem => back w (by simp [mem])) rest fun w mem => keyed w (by simp [mem])
    rw [List.mapM_cons]
    exact head.bind (tail.map _)

theorem flat (flat : v.isFlat = true) : v.ReadBack c := by
  intro depth codes type room _ held
  have fits := (room.streamable v (by simp)) v v.self_mem_parts
  rw [typeNames_of_isFlat flat]
  cases v with
  | null => cases held
  | bool b => cases held; exact (Reads.bool b).map _
  | byte n => cases held; exact (Reads.int8 n).map _
  | short n => cases held; exact (Reads.int16 n).map _
  | int n => cases held; exact (Reads.int32 n).map _
  | long n => cases held; exact (Reads.int64 n).map _
  | float bits => cases held; exact (Reads.uint32 bits).map _
  | double bits => cases held; exact (Reads.uint64 bits).map _
  | text s => cases held; exact (Reads.text fits).map _
  | bytes bs => cases held; exact (Reads.byteString fits).map _
  | list items | set members | record type fields => simp [isFlat] at flat

theorem list (back : ∀ v ∈ vs, v.ReadBack c) : (Value.list vs).ReadBack c := by
  intro depth codes type room keyed held
  cases held
  have inner : _ ∧ vs.length ≤ maxLength ∧ Room c (depth + 1) codes vs :=
    (Room.container_iff rfl).mp room
  obtain ⟨deep, short, room⟩ := inner
  have read := items back room (wellKeyed_iff.mp keyed).2
  have names : (Value.list vs).typeNames = vs.flatMap typeNames := typeNames_eq _
  rw [names]
  exact .inside deep (.length short (length_le_itemsWire vs) (read.map Value.list))

theorem record {name : String} (reachable : c.Reachable) (back : ∀ v ∈ vs, v.ReadBack c) :
    (Value.record name vs).ReadBack c := by
  intro depth codes type room keyed held
  cases held
  have inner : _ ∧ (Value.record name vs).Fits c ∧ Room c (depth + 1) (codes.use name) vs :=
    (Room.container_iff rfl).mp room
  obtain ⟨deep, ⟨type, known, streamable, short, accepted⟩, room⟩ := inner
  have names : (Value.record name vs).typeNames = name :: vs.flatMap typeNames := typeNames_eq _
  have count := Nat.le_trans (Codes.size_le_useAll _ _) room.coded
  have tag : Reads c depth codes (Read.typeTag c) (codes.tag name) (some type) [name] :=
    .typeTag known short count
  have values : Reads c depth (codes.use name)
      (Read.inside (Read.below c (maxNesting - depth)) fun value =>
        type.fields.mapM fun f => value f.type)
      (fieldsWire c (codes.use name) vs type.fields) vs (vs.flatMap typeNames) :=
    .inside deep (fields back room (wellKeyed_iff.mp keyed).2 accepted)
  have behind : Reads c depth (codes.use name)
      (do
        if type.isDistributed then Read.fail (.distributedValue type.name)
        let values ← Read.inside (Read.below c (maxNesting - depth)) fun value =>
          type.fields.mapM fun f => value f.type
        return some (type.name, values))
      (fieldsWire c (codes.use name) vs type.fields) (some (name, vs)) (vs.flatMap typeNames) := by
    -- The reader names the record after its type, which stands under that very name.
    simp only [streamable, reachable.name_eq known]
    exact values.map _
  have record : Reads c depth codes (Read.recordWith c (Read.below c (maxNesting - depth)))
      ((Value.record name vs).wire c codes) (some (name, vs)) (name :: vs.flatMap typeNames) := by
    simp only [wire, Catalog.fieldsOf, known]
    exact tag.bind behind
  rw [names]
  exact (record.bind (.pure (Value.record name vs))).cast

end Value.ReadBack

namespace Value

theorem readBack (reachable : c.Reachable) (v : Value) : v.ReadBack c := by
  induction v using Value.induction with
  | flat v flat => exact .flat flat
  | list items ih => exact .list ih
  | set members ih =>
    intro depth codes type room keyed held
    cases held
    exact ((ReadBack.set ih room keyed).map set).cast
  | record name fields ih => exact .record reachable ih

end Value

end SharedObjects
