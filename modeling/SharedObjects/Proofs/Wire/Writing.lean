import SharedObjects.Wire.ValueWriter
import SharedObjects.Proofs.Steps
import SharedObjects.Proofs.Wire.Spelling
/-!
What writing does. A value is written exactly when the wire has room for it and for all values
inside it, when it is not nested too deep, and when there are codes for the types it names; then its
spelling is added to the output, and in every other case the fault is one of encoding.
-/
set_option autoImplicit false

namespace SharedObjects

variable {α β : Type} {c : Catalog}

theorem Write.typeTag_of_none {name : String} (unknown : c.get? name = none) :
    typeTag c name = fail (.uncoded name) := by
  simp only [typeTag, unknown]

def Output.adding (out : Output) (bytes : Octets) (names : List String) : Output :=
  { out with bytes := out.bytes ++ bytes, codes := Codes.useAll out.codes names }

@[simp] theorem Output.adding_nil (out : Output) : out.adding [] [] = out := by
  simp [adding]

@[simp] theorem Output.adding_adding (out : Output) (bytes more : Octets)
    (names others : List String) :
    (out.adding bytes names).adding more others = out.adding (bytes ++ more) (names ++ others) := by
  have bytewise : out.bytes ++ bytes ++ more = out.bytes ++ (bytes ++ more) := by
    apply Array.ext'
    simp
  simp only [adding, bytewise, Codes.useAll_append]

@[simp] theorem Output.codes_adding (out : Output) (bytes : Octets) (names : List String) :
    (out.adding bytes names).codes = Codes.useAll out.codes names := rfl

@[simp] theorem Output.depth_adding (out : Output) (bytes : Octets) (names : List String) :
    (out.adding bytes names).depth = out.depth := rfl

/-- From this output the writing succeeds exactly under a condition, and then gives a result and
adds these bytes and names. -/
structure Writes (w : Write α) (out : Output) (ok : Prop) (a : α) (bytes : Octets)
    (names : List String) : Prop where
  succeeds : ok → w out = .ok a (out.adding bytes names)
  fails : ¬ok → ∃ cause after, w out = .error (.encoding cause) after

namespace Writes

variable {out : Output} {ok ok' : Prop} {a : α} {b : β} {bytes more : Octets}
  {names others : List String}

theorem of_ok {w : Write α} (writes : Writes w out ok a bytes names) {a' : α} {after : Output}
    (written : w out = .ok a' after) : ok ∧ a' = a ∧ after = out.adding bytes names := by
  by_cases holds : ok
  · have step := writes.succeeds holds
    rw [written] at step
    cases step
    exact ⟨holds, rfl, rfl⟩
  · obtain ⟨_, _, step⟩ := writes.fails holds
    rw [written] at step
    cases step

theorem bytesOf_eq_ok_iff {w : Write α} (writes : Writes w .empty ok a bytes names)
    {message : Octets} : Write.bytesOf w = .ok message ↔ ok ∧ message = bytes := by
  have spelled : (Output.empty.adding bytes names).bytes.toList = bytes := by
    simp [Output.adding, Output.empty]
  by_cases holds : ok
  · simp [Write.bytesOf, writes.succeeds holds, spelled, holds, eq_comm]
  · obtain ⟨_, _, step⟩ := writes.fails holds
    simp [Write.bytesOf, step, holds]

theorem bytesOf_eq_error {w : Write α} (writes : Writes w .empty ok a bytes names)
    (lacks : ¬ok) : ∃ cause, Write.bytesOf w = .error (.encoding cause) := by
  obtain ⟨cause, _, step⟩ := writes.fails lacks
  exact ⟨cause, by simp only [Write.bytesOf, step]⟩

theorem congr {w : Write α} (writes : Writes w out ok a bytes names) (same : ok ↔ ok') :
    Writes w out ok' a bytes names :=
  ⟨fun holds => writes.succeeds (same.mpr holds),
    fun lacks => writes.fails (fun holds => lacks (same.mp holds))⟩

theorem cast {w : Write α} (writes : Writes w out ok a bytes names)
    (spelled : bytes = more := by simp) (used : names = others := by simp) :
    Writes w out ok a more others := by
  subst spelled used
  exact writes

theorem pure (a : α) : Writes (Pure.pure a : Write α) out True a [] [] :=
  ⟨fun _ => by rw [Output.adding_nil]; rfl, fun lacks => absurd trivial lacks⟩

theorem bind {w : Write α} {k : α → Write β} (first : Writes w out ok a bytes names)
    (second : ok → Writes (k a) (out.adding bytes names) ok' b more others) :
    Writes (w >>= k) out (ok ∧ ok') b (bytes ++ more) (names ++ others) where
  succeeds := fun ⟨holds, holds'⟩ => by
    have step := (second holds).succeeds holds'
    simp only [Bind.bind, EStateM.bind, first.succeeds holds, step, Output.adding_adding]
  fails := fun lacks => by
    by_cases holds : ok
    · obtain ⟨cause, after, step⟩ := (second holds).fails (fun holds' => lacks ⟨holds, holds'⟩)
      exact ⟨cause, after, by simp only [Bind.bind, EStateM.bind, first.succeeds holds, step]⟩
    · obtain ⟨cause, after, step⟩ := first.fails holds
      exact ⟨cause, after, by simp only [Bind.bind, EStateM.bind, step]⟩

theorem fail (cause : EncodingFault) (never : ¬ok) :
    Writes (Write.fail cause : Write α) out ok a bytes names :=
  ⟨fun holds => absurd holds never, fun _ => ⟨cause, out, rfl⟩⟩

theorem fail_bind (cause : EncodingFault) {k : α → Write β} (never : ¬ok) :
    Writes (Write.fail cause >>= k) out ok b bytes names :=
  ⟨fun holds => absurd holds never, fun _ => ⟨cause, out, rfl⟩⟩

theorem octets (bytes : Octets) : Writes (Write.octets bytes) out True () bytes [] :=
  ⟨fun _ => rfl, fun lacks => absurd trivial lacks⟩

theorem natural (width n : Nat) :
    Writes (Write.natural width n) out True () (Octets.ofNat width n) [] := octets _

theorem byte (b : UInt8) : Writes (Write.byte b) out True () [b] [] := octets _

theorem int16 (n : Int16) : Writes (Write.int16 n) out True () (Octets.ofInt16 n) [] := octets _

theorem text (s : String) :
    Writes (Write.text s) out (s.utf8ByteSize ≤ maxTextSize) () (Octets.ofText s) [] := by
  unfold Write.text
  by_cases long : (Utf8.encode s).length > maxTextSize
  · have never : ¬s.utf8ByteSize ≤ maxTextSize := by simpa using long
    simp only [long, if_true]
    exact fail_bind _ never
  · have short : s.utf8ByteSize ≤ maxTextSize := by simpa using long
    simp only [long, if_false]
    exact ((natural 2 _).bind (fun _ => octets _)).congr (by simp [short])

theorem byteString (bs : Octets) :
    Writes (Write.byteString bs) out (bs.length ≤ maxLength) () (Octets.ofByteString bs) [] := by
  unfold Write.byteString
  by_cases long : bs.length > maxLength
  · have never : ¬bs.length ≤ maxLength := by omega
    simp only [long, if_true]
    exact fail_bind _ never
  · have short : bs.length ≤ maxLength := by omega
    simp only [long, if_false]
    exact ((natural 4 _).bind (fun _ => octets _)).congr (by simp [short])

theorem length (n : Nat) :
    Writes (Write.length n) out (n ≤ maxLength) () (Octets.ofNat 4 n) [] := by
  unfold Write.length
  split
  · exact fail _ (by omega)
  · exact (natural 4 n).congr (by simp; omega)

theorem key (k : Key) : Writes (Write.key k) out k.Fits () k.wire [] := by
  cases k with
  | number n => exact ((byte 1).bind (fun _ => natural 8 _)).congr (by simp [Key.Fits])
  | text s => exact ((byte 2).bind (fun _ => text s)).congr (by simp [Key.Fits])

theorem nested {w : Write α}
    (inner : out.depth < maxNesting →
      Writes w { out with depth := out.depth + 1 } ok a bytes names) :
    Writes (Write.nested w) out (out.depth < maxNesting ∧ ok) a bytes names where
  succeeds := fun ⟨room, holds⟩ => by
    have full : ¬out.depth ≥ maxNesting := by omega
    simp only [Write.nested, full, if_false, (inner room).succeeds holds]
    rfl
  fails := fun lacks => by
    by_cases room : out.depth < maxNesting
    · have full : ¬out.depth ≥ maxNesting := by omega
      obtain ⟨cause, after, step⟩ := (inner room).fails (fun holds => lacks ⟨room, holds⟩)
      exact ⟨cause, { after with depth := after.depth - 1 }, by
        simp only [Write.nested, full, if_false, step]⟩
    · have full : out.depth ≥ maxNesting := by omega
      exact ⟨.nestingTooDeep, out, by simp only [Write.nested, full, if_true]⟩

theorem within {w : Write α} (type field : String) (writes : Writes w out ok a bytes names) :
    Writes (Write.within type field w) out ok a bytes names where
  succeeds := fun holds => by simp only [Write.within, writes.succeeds holds]
  fails := fun lacks => by
    obtain ⟨cause, after, step⟩ := writes.fails lacks
    exact ⟨.inField type field cause, after, by simp only [Write.within, step]⟩

end Writes

/-- The depth is within its limit, no more codes are given than there are, and the names that have
one can be written. -/
structure Sane (depth : Nat) (codes : Codes) : Prop where
  depth_le : depth ≤ maxNesting
  size_le : codes.size ≤ maxTypeCode
  short : ∀ name ∈ codes, name.utf8ByteSize ≤ maxTextSize

/-- At a depth where these codes are in use, values can be written one after the other. -/
structure Room (c : Catalog) (depth : Nat) (codes : Codes) (vs : List Value) : Prop where
  streamable : ∀ v ∈ vs, v.Streamable c
  shallow : ∀ v ∈ vs, depth + v.nesting ≤ maxNesting
  coded : (codes.useAll (vs.flatMap Value.typeNames)).size ≤ maxTypeCode

theorem sane_empty : Sane 0 ∅ := ⟨by simp, by simp, by simp⟩

theorem Value.Streamable.short {v : Value} (streamable : v.Streamable c) :
    ∀ name ∈ v.typeNames, name.utf8ByteSize ≤ maxTextSize := by
  intro name mem
  obtain ⟨w, part, named⟩ := List.mem_filterMap.mp mem
  have fits := streamable w part
  cases w with
  | record type fields =>
    obtain ⟨_, _, _, short, _⟩ := fits
    simp only [Value.recordType?, Option.some.injEq] at named
    rwa [← named]
  | _ => simp [Value.recordType?] at named

namespace Room

variable {depth : Nat} {codes : Codes} {v : Value} {vs : List Value}

theorem sane (room : Room c depth codes [v]) (sane : Sane depth codes) :
    Sane depth (codes.useAll v.typeNames) where
  depth_le := sane.depth_le
  size_le := by simpa using room.coded
  short := fun name mem => (Codes.mem_useAll.mp mem).elim
    ((room.streamable v (by simp)).short name) (sane.short name)

theorem nil (sane : Sane depth codes) : Room c depth codes [] :=
  ⟨by simp, by simp, by simpa using sane.size_le⟩

theorem flat_iff (sane : Sane depth codes) (flat : v.isFlat = true) :
    Room c depth codes [v] ↔ v.Fits c := by
  constructor
  · exact fun room => room.streamable v (by simp) v v.self_mem_parts
  · intro fits
    refine ⟨?_, ?_, ?_⟩
    · simpa [Value.Streamable, Value.parts_of_isFlat flat] using fits
    · simpa [Value.nesting_of_isFlat flat] using sane.depth_le
    · simpa [Value.typeNames_of_isFlat flat] using sane.size_le

theorem cons_iff : Room c depth codes (v :: vs) ↔
    Room c depth codes [v] ∧ Room c depth (codes.useAll v.typeNames) vs := by
  constructor
  · intro room
    have coded := room.coded
    rw [List.flatMap_cons, Codes.useAll_append] at coded
    refine ⟨⟨?_, ?_, ?_⟩, ⟨?_, ?_, coded⟩⟩
    · simpa using room.streamable v (by simp)
    · simpa using room.shallow v (by simp)
    · simpa using Nat.le_trans (Codes.size_le_useAll _ _) coded
    · exact fun w mem => room.streamable w (by simp [mem])
    · exact fun w mem => room.shallow w (by simp [mem])
  · intro ⟨first, rest⟩
    refine ⟨?_, ?_, ?_⟩
    · simpa using ⟨first.streamable v (by simp), rest.streamable⟩
    · simpa using ⟨first.shallow v (by simp), rest.shallow⟩
    · rw [List.flatMap_cons, Codes.useAll_append]
      exact rest.coded

/-- What a container asks for beside room for its contents one level deeper. -/
theorem container_iff (container : v.isFlat = false) : Room c depth codes [v] ↔
    depth < maxNesting ∧ v.Fits c ∧
      Room c (depth + 1) (codes.useAll v.recordType?.toList) v.contents := by
  have inside : v.Streamable c ↔ v.Fits c ∧ ∀ w ∈ v.contents, w.Streamable c :=
    Value.forall_parts_iff
  have deep : depth + v.nesting ≤ maxNesting ↔
      depth < maxNesting ∧ ∀ w ∈ v.contents, depth + 1 + w.nesting ≤ maxNesting :=
    Value.add_nesting_le_iff container
  have coded : codes.useAll ([v].flatMap Value.typeNames) =
      (codes.useAll v.recordType?.toList).useAll (v.contents.flatMap Value.typeNames) := by
    simp [v.typeNames_eq, Codes.useAll_append]
  constructor
  · intro room
    have fits := inside.mp (room.streamable v (by simp))
    have shallow := deep.mp (room.shallow v (by simp))
    exact ⟨shallow.1, fits.1, fits.2, shallow.2, coded ▸ room.coded⟩
  · intro ⟨here, fits, room⟩
    refine ⟨?_, ?_, coded ▸ room.coded⟩
    · simpa using inside.mpr ⟨fits, room.streamable⟩
    · simpa using deep.mpr ⟨here, room.shallow⟩

end Room

namespace Writes

variable {out : Output} {v : Value} {payload : Write Unit} {bytes : Octets}

theorem get {k : Output → Write β} {ok : Prop} {b : β} {names : List String}
    (next : Writes (k out) out ok b bytes names) :
    Writes (MonadState.get >>= k) out ok b bytes names := ⟨next.succeeds, next.fails⟩

theorem declare {name : String} {code : Nat} (new : out.codes[name]? = none)
    (next : code = out.codes.size + 1) :
    Writes (modify fun out => { out with codes := out.codes.insert name code }) out True () []
      [name] :=
  ⟨fun _ => by
    have used : Codes.use out.codes name = out.codes.insert name code :=
      next ▸ Codes.use_of_none new
    simp [Output.adding, used],
    fun lacks => absurd trivial lacks⟩

theorem typeTag (sane : Sane out.depth out.codes) {name : String} {type : ResolvedType}
    (known : c.get? name = some type) :
    Writes (Write.typeTag c name) out
      (name.utf8ByteSize ≤ maxTextSize ∧ (Codes.use out.codes name).size ≤ maxTypeCode) type
      (Codes.tag out.codes name) [name] := by
  unfold Write.typeTag
  simp only [known]
  apply get
  cases coded : out.codes[name]? with
  | some code =>
    have short : name.utf8ByteSize ≤ maxTextSize := sane.short name (by
      rw [Std.HashMap.mem_iff_isSome_getElem?, coded]
      rfl)
    have same : Codes.use out.codes name = out.codes := Codes.use_of_some coded
    have writes : Writes (do Write.int16 (Int16.ofNat code); return type : Write ResolvedType) out
        (True ∧ True) type (Octets.ofInt16 (Int16.ofNat code)) [] :=
      cast (bind (int16 _) fun _ => pure type)
    refine ⟨fun _ => ?_, fun lacks => absurd ⟨short, by rw [same]; exact sane.size_le⟩ lacks⟩
    simpa [Output.adding, Codes.tag, coded, same] using writes.succeeds ⟨trivial, trivial⟩
  | none =>
    apply get
    have size := Codes.size_use_of_none coded
    by_cases many : out.codes.size + 1 > maxTypeCode
    · simp only [many, if_true]
      exact fail_bind _ (by omega)
    · simp only [many, if_false, Codes.tag, coded]
      refine congr (cast (bind (int16 _) fun _ => bind (text name) fun _ =>
        bind (declare (by simpa using coded) (by simp)) fun _ => pure type)) ?_
      simp only [true_and, and_true]
      exact ⟨fun short => ⟨short, by omega⟩, fun both => both.1⟩

theorem tagged (sane : Sane out.depth out.codes)
    (writes : v ≠ .null → ∀ lead,
      Writes payload (out.adding lead []) (Room c out.depth out.codes [v]) () bytes v.typeNames) :
    Writes (Write.tagged v payload) out (Room c out.depth out.codes [v]) () (v.taggedWire bytes)
      v.typeNames := by
  unfold Write.tagged Value.taggedWire
  cases held : v.type? with
  | none =>
    obtain rfl : v = .null := Value.eq_null_of_type? held
    have room : Room c out.depth out.codes [.null] := (Room.flat_iff sane rfl).mpr trivial
    exact (byte 0).congr (by simp [room])
  | some type =>
    have present : v ≠ .null := fun null => by simp [null, Value.type?] at held
    exact (bind (byte type.code) fun _ => writes present _).congr (by simp)

theorem expectFields (type : ResolvedType) (given : Nat) :
    Writes (Write.expectFields type given) out (given = type.fields.length) () [] [] := by
  unfold Write.expectFields
  split
  · rename_i same
    exact (pure ()).congr (by simp [same])
  · exact fail _ ‹_›

theorem marked (sane : Sane out.depth out.codes) (absent lead : Octets)
    (writes : v ≠ .null → ∀ lead,
      Writes payload (out.adding lead []) (Room c out.depth out.codes [v]) () bytes v.typeNames) :
    Writes (if v.isNull then Write.octets absent else (do Write.octets lead; payload)) out
      (Room c out.depth out.codes [v]) () (if v.isNull then absent else lead ++ bytes)
      v.typeNames := by
  by_cases here : v = .null
  · subst here
    have room : Room c out.depth out.codes [.null] := (Room.flat_iff sane rfl).mpr trivial
    exact (octets absent).congr (by simp [room])
  · have present : v.isNull = false := Value.isNull_of_ne_null here
    simp only [present, Bool.false_eq_true, if_false]
    exact (bind (octets lead) fun _ => writes here _).congr (by simp)

theorem declared (sane : Sane out.depth out.codes) (type : FieldType)
    (writes : v ≠ .null → ∀ lead,
      Writes payload (out.adding lead []) (Room c out.depth out.codes [v]) () bytes v.typeNames) :
    Writes (Write.declared type v payload) out
      (type.accepts v = true ∧ Room c out.depth out.codes [v]) ()
      (v.declaredWire type bytes) v.typeNames := by
  unfold Write.declared Value.declaredWire
  cases accepted : type.accepts v with
  | false => exact fail _ (by simp)
  | true =>
    have behindMark := marked sane [0] [1] writes
    have bare (primitive : type.isPrimitive = true) :
        Writes payload out (Room c out.depth out.codes [v]) () bytes v.typeNames := by
      have here : v ≠ .null := fun null => by
        simp [null, FieldType.accepts, Value.type?, primitive] at accepted
      simpa using writes here []
    have once : Room c out.depth out.codes [v] ↔ true = true ∧ Room c out.depth out.codes [v] := by
      simp
    refine congr ?_ once
    cases type
    case any => exact tagged sane writes
    case record => exact marked sane (Octets.ofInt16 0) [] writes
    case text | bytes | list | set => exact behindMark
    all_goals exact bare rfl

end Writes

def Value.Written (c : Catalog) (v : Value) : Prop :=
  ∀ out : Output, Sane out.depth out.codes → v ≠ .null →
    Writes (Write.payload c v) out (Room c out.depth out.codes [v]) () (v.wire c out.codes)
      v.typeNames

theorem Sane.deeper {depth : Nat} {codes : Codes} (sane : Sane depth codes)
    (room : depth < maxNesting) : Sane (depth + 1) codes :=
  ⟨room, sane.size_le, sane.short⟩

namespace Value.Written

variable {out : Output} {v : Value} {vs : List Value}

theorem any (written : v.Written c) (out : Output) (sane : Sane out.depth out.codes) :
    Writes (Write.any c v) out (Room c out.depth out.codes [v]) ()
      (v.taggedWire (v.wire c out.codes)) v.typeNames :=
  .tagged sane fun present _ => written _ sane present

theorem value (written : v.Written c) (out : Output) (sane : Sane out.depth out.codes)
    (type : FieldType) :
    Writes (Write.value c type v) out
      (type.accepts v = true ∧ Room c out.depth out.codes [v]) ()
      (v.declaredWire type (v.wire c out.codes)) v.typeNames :=
  .declared sane type fun present _ => written _ sane present

theorem items (written : ∀ v ∈ vs, v.Written c) (sane : Sane out.depth out.codes) :
    Writes (Write.itemPayloads c vs) out (Room c out.depth out.codes vs) ()
      (itemsWire c out.codes vs) (vs.flatMap typeNames) := by
  induction vs generalizing out with
  | nil => exact (Writes.pure ()).congr (by simp [Room.nil sane])
  | cons v vs ih =>
    rw [Write.itemPayloads, itemsWire, List.flatMap_cons]
    refine ((written v (by simp)).any out sane |>.bind fun room => ?_).congr Room.cons_iff.symm
    exact ih (fun w mem => written w (by simp [mem])) (room.sane sane)

theorem members {es : Members} (written : ∀ e ∈ es, e.2.Written c)
    (sane : Sane out.depth out.codes) :
    Writes (Write.memberPayloads c es) out
      ((∀ e ∈ es, e.1.Fits) ∧ Room c out.depth out.codes (es.map Prod.snd)) ()
      (membersWire c out.codes es) ((es.map Prod.snd).flatMap typeNames) := by
  induction es generalizing out with
  | nil => exact (Writes.pure ()).congr (by simp [Room.nil sane])
  | cons e es ih =>
    obtain ⟨k, v⟩ := e
    have first : v.Written c := written (k, v) (by simp)
    have split : Room c out.depth out.codes (v :: es.map Prod.snd) ↔ _ := Room.cons_iff
    rw [Write.memberPayloads, membersWire, List.map_cons, List.flatMap_cons]
    refine (Writes.bind (Writes.key k) fun _ =>
      (first.any (out.adding k.wire []) sane).bind fun room =>
        ih (fun w mem => written w (by simp [mem])) (room.sane sane)).congr ?_
    rw [split, List.forall_mem_cons]
    exact ⟨fun ⟨fits, first, rest, others⟩ => ⟨⟨fits, rest⟩, first, others⟩,
      fun ⟨⟨fits, rest⟩, first, others⟩ => ⟨fits, first, rest, others⟩⟩

theorem fields (written : ∀ v ∈ vs, v.Written c) (sane : Sane out.depth out.codes) (type : String)
    {fs : List Field} (count : vs.length = fs.length) :
    Writes (Write.fieldPayloads c type vs fs) out
      (Accepted vs fs ∧ Room c out.depth out.codes vs) ()
      (fieldsWire c out.codes vs fs) (vs.flatMap typeNames) := by
  induction vs generalizing out fs with
  | nil =>
    have none : fs = [] := by simpa using count.symm
    subst none
    exact (Writes.pure ()).congr (by simp [Room.nil sane, Accepted])
  | cons v vs ih =>
    rcases fs with _ | ⟨f, fs⟩
    · simp at count
    have first : v.Written c := written v (by simp)
    have split : Room c out.depth out.codes (v :: vs) ↔ _ := Room.cons_iff
    rw [Write.fieldPayloads, fieldsWire, List.flatMap_cons]
    refine ((first.value out sane f.type).within _ _ |>.bind fun accepted =>
      ih (fun w mem => written w (by simp [mem])) (accepted.2.sane sane)
        (by simpa using count)).congr ?_
    rw [split, Accepted, List.forall₂_cons]
    exact ⟨fun ⟨⟨fits, first⟩, rest, others⟩ => ⟨⟨fits, rest⟩, first, others⟩,
      fun ⟨⟨fits, rest⟩, first, others⟩ => ⟨⟨fits, first⟩, rest, others⟩⟩

theorem flat (flat : v.isFlat = true) : v.Written c := by
  intro out sane present
  have names : v.typeNames = [] := typeNames_of_isFlat flat
  rw [names]
  refine Writes.congr ?_ (Room.flat_iff sane flat).symm
  cases v with
  | null => exact absurd rfl present
  | bool b => exact .byte _
  | byte n => exact .byte _
  | short n => exact .int16 n
  | int n => exact .natural 4 _
  | long n => exact .natural 8 _
  | float bits => exact .natural 4 _
  | double bits => exact .natural 8 _
  | text s => exact .text s
  | bytes bs => exact .byteString bs
  | list items | set members | record type fields => simp [isFlat] at flat

theorem list (written : ∀ v ∈ vs, v.Written c) : (Value.list vs).Written c := by
  intro out sane _
  have names : (Value.list vs).typeNames = vs.flatMap typeNames := typeNames_eq _
  have room : Room c out.depth out.codes [.list vs] ↔ out.depth < maxNesting ∧
      vs.length ≤ maxLength ∧ Room c (out.depth + 1) out.codes vs := Room.container_iff rfl
  rw [names]
  refine Writes.congr (.nested fun deep => .bind (.length _) fun _ => ?_) room.symm
  exact items written (sane.deeper deep)

theorem set {es : Members} (written : ∀ e ∈ es, e.2.Written c) : (Value.set es).Written c := by
  intro out sane _
  have names : (Value.set es).typeNames = (es.map Prod.snd).flatMap typeNames := typeNames_eq _
  have room : Room c out.depth out.codes [.set es] ↔ out.depth < maxNesting ∧
      (es.length ≤ maxLength ∧ ∀ e ∈ es, e.1.Fits) ∧
        Room c (out.depth + 1) out.codes (es.map Prod.snd) := Room.container_iff rfl
  rw [names]
  refine Writes.congr (.nested fun deep => .bind (.length _) fun _ =>
    members written (sane.deeper deep)) ?_
  rw [room, and_assoc]
  rfl

theorem record {name : String} (written : ∀ v ∈ vs, v.Written c) :
    (Value.record name vs).Written c := by
  intro out sane _
  have names : (Value.record name vs).typeNames = name :: vs.flatMap typeNames := typeNames_eq _
  have room : Room c out.depth out.codes [.record name vs] ↔ out.depth < maxNesting ∧
      (Value.record name vs).Fits c ∧ Room c (out.depth + 1) (Codes.use out.codes name) vs :=
    Room.container_iff rfl
  rw [names]
  refine Writes.congr ?_ room.symm
  simp only [Write.payload, Value.wire, Value.Fits, Catalog.fieldsOf, Write.expectStreamable]
  -- An unknown type passes the check on distributed types and fails for want of a code.
  cases known : c.get? name with
  | none =>
    simp only [Write.typeTag_of_none known]
    refine Writes.congr (.bind (.pure ()) fun _ => .nested fun _ => .fail_bind _ id) ?_
    simp
  | some type =>
    cases distributed : type.isDistributed with
    | true =>
      simp only [distributed, if_true]
      exact .fail_bind _ (by simp [distributed])
    | false =>
      simp only [distributed, Bool.false_eq_true, if_false]
      refine Writes.congr (.bind (.pure ()) fun _ => .nested fun deep =>
        .bind (.typeTag (sane.deeper deep) known) fun tagged =>
        .bind (.expectFields _ _) fun count => fields written ?_ type.name count) ?_
      · refine ⟨deep, tagged.2, fun other mem => ?_⟩
        exact (Codes.mem_use.mp mem).elim (fun same => same ▸ tagged.1) (sane.short other)
      · have count (accepted : Accepted vs type.fields) : vs.length = type.fields.length :=
          accepted.length_eq
        simp only [Option.some.injEq, exists_eq_left', distributed]
        constructor
        · rintro ⟨_, deep, ⟨named, _⟩, _, accepted, room⟩
          exact ⟨deep, ⟨trivial, named, accepted⟩, room⟩
        · rintro ⟨deep, ⟨_, named, accepted⟩, room⟩
          -- The codes in use only grow, so the tag had its code if all values had theirs.
          have coded := Nat.le_trans (Codes.size_le_useAll _ _) room.coded
          exact ⟨trivial, deep, ⟨named, coded⟩, count accepted, accepted, room⟩

end Value.Written

theorem Value.written (c : Catalog) (v : Value) : v.Written c := by
  induction v using Value.induction with
  | flat v flat => exact .flat flat
  | list items ih => exact .list ih
  | set members ih => exact .set ih
  | record name fields ih => exact .record ih

end SharedObjects
