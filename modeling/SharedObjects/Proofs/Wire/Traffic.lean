import SharedObjects.SharedObject.Snapshot
import SharedObjects.Wire.Message
import SharedObjects.Proofs.SharedObject.Changes
import SharedObjects.Proofs.Wire.RoundTrip
set_option autoImplicit false

namespace SharedObjects

variable {c : Catalog} {out : Output}

/-- The wire has room for the values of an action, and its keys and texts are short enough. -/
structure Action.Fits (c : Catalog) (a : Action) : Prop where
  room : Room c 0 ∅ a.values
  keys : ∀ k ∈ a.keys, k.Fits
  heard : ∀ name arguments, a = message name arguments →
    arguments.length ≤ maxArguments ∧ name.utf8ByteSize ≤ maxTextSize

def Action.wire (c : Catalog) : Action → Octets
  | fieldSet v => v.taggedWire (v.wire c ∅)
  | elementAdd k v | elementUpdate k v => k.wire ++ v.taggedWire (v.wire c ∅)
  | elementRemove k => k.wire
  | listSet position v => Octets.ofNat 4 position.toNat ++ v.taggedWire (v.wire c ∅)
  | message name arguments =>
    Octets.ofText name ++ Octets.ofNat 2 arguments.length ++ Value.itemsWire c ∅ arguments

def Event.wire (c : Catalog) (e : Event) : Octets :=
  Octets.ofNat 4 e.object.number.toNat ++ Octets.ofNat 2 e.field.toNat ++ [e.kind.code] ++
    e.action.wire c

def Event.WellKeyed (e : Event) : Prop := ∀ v ∈ e.action.values, v.WellKeyed

theorem Action.one_le_length_wire (a : Action) : 1 ≤ (a.wire c).length := by
  have key (k : Key) : 1 ≤ k.wire.length := by cases k <;> simp [Key.wire]
  cases a with
  | fieldSet v => exact Value.one_le_length_taggedWire v _
  | elementAdd k v | elementUpdate k v =>
    exact Nat.le_trans (key k) (by simp [wire])
  | elementRemove k => exact key k
  | listSet position v => simp [wire]; omega
  | message name arguments => simp [wire, Octets.ofText]; omega

theorem Event.eventHeaderSize_lt (e : Event) : eventHeaderSize < (e.wire c).length := by
  have behind := e.action.one_le_length_wire (c := c)
  simp only [wire, List.length_append, Octets.length_ofNat, List.length_singleton, eventHeaderSize]
  omega

namespace Writes

theorem anyAll_eq (vs : List Value) : Write.anyAll c vs = Write.itemPayloads c vs := by
  induction vs with
  | nil => rfl
  | cons v vs ih => simp [Write.anyAll, Write.itemPayloads, Write.any, ih]

theorem sane_of_fresh (start : out.depth = 0) (fresh : out.codes = ∅) :
    Sane out.depth out.codes := by
  rw [start, fresh]
  exact sane_empty

theorem any (start : out.depth = 0) (fresh : out.codes = ∅) (v : Value) :
    Writes (Write.any c v) out (Room c 0 ∅ [v]) () (v.taggedWire (v.wire c ∅)) v.typeNames := by
  have writes := (Value.written c v).any out (sane_of_fresh start fresh)
  rwa [start, fresh] at writes

theorem anyAll (start : out.depth = 0) (fresh : out.codes = ∅) (vs : List Value) :
    Writes (Write.anyAll c vs) out (Room c 0 ∅ vs) () (Value.itemsWire c ∅ vs)
      (vs.flatMap Value.typeNames) := by
  have writes : Writes (Write.itemPayloads c vs) out _ _ _ _ :=
    Value.Written.items (fun v _ => Value.written c v) (sane_of_fresh start fresh)
  rwa [start, fresh, ← anyAll_eq] at writes

theorem member (start : out.depth = 0) (fresh : out.codes = ∅) (k : Key) (v : Value) :
    Writes (Write.member c k v) out (k.Fits ∧ Room c 0 ∅ [v]) ()
      (k.wire ++ v.taggedWire (v.wire c ∅)) v.typeNames :=
  ((key k).bind fun _ => @any c (out.adding k.wire []) start fresh v).cast rfl rfl

theorem action (start : out.depth = 0) (fresh : out.codes = ∅) (a : Action) :
    Writes (Write.action c a) out (a.Fits c) () (a.wire c) (a.values.flatMap Value.typeNames) := by
  have single (v : Value) : v.typeNames = [v].flatMap Value.typeNames := by simp
  cases a with
  | fieldSet v =>
    refine ((any start fresh v).cast rfl (single v)).congr ⟨fun room => ?_, Action.Fits.room⟩
    exact ⟨room, by simp [Action.keys], by simp⟩
  | elementAdd k v =>
    refine ((member start fresh k v).cast rfl (single v)).congr ⟨?_, fun fits =>
      ⟨fits.keys k (by simp [Action.keys]), fits.room⟩⟩
    rintro ⟨fits, room⟩
    exact ⟨room, by simpa [Action.keys] using fits, by simp⟩
  | elementRemove k =>
    refine (key k).congr ⟨fun fits => ?_, fun fits => fits.keys k (by simp [Action.keys])⟩
    exact ⟨.nil sane_empty, by simpa [Action.keys] using fits, by simp⟩
  | elementUpdate k v =>
    refine ((member start fresh k v).cast rfl (single v)).congr ⟨?_, fun fits =>
      ⟨fits.keys k (by simp [Action.keys]), fits.room⟩⟩
    rintro ⟨fits, room⟩
    exact ⟨room, by simpa [Action.keys] using fits, by simp⟩
  | listSet position v =>
    refine (((natural 4 _).bind fun _ => @any c (out.adding _ []) start fresh v).cast rfl
      (single v)).congr ⟨?_, fun fits => ⟨trivial, fits.room⟩⟩
    rintro ⟨-, room⟩
    exact ⟨room, by simp [Action.keys], by simp⟩
  | message name arguments =>
    unfold Write.action
    by_cases many : arguments.length > maxArguments
    · simp only [many, if_true]
      exact fail_bind _ fun fits => by have := (fits.heard _ _ rfl).1; omega
    · simp only [many, if_false]
      refine (((text name).bind fun _ => (natural 2 _).bind fun _ =>
        @anyAll c ((out.adding _ []).adding _ []) start fresh arguments).cast
          (by simp [Action.wire]) (by simp [Action.values])).congr ?_
      constructor
      · rintro ⟨short, -, room⟩
        refine ⟨room, by simp [Action.keys], fun _ _ same => ?_⟩
        cases same
        exact ⟨by omega, short⟩
      · exact fun fits => ⟨(fits.heard _ _ rfl).2, trivial, fits.room⟩

theorem event (e : Event) :
    Writes (Write.event c e) .empty (e.action.Fits c) () (e.wire c)
      (e.action.values.flatMap Value.typeNames) :=
  (((natural 4 _).bind fun _ => (natural 2 _).bind fun _ => (byte _).bind fun _ =>
    @action c (((Output.empty.adding _ []).adding _ []).adding _ []) rfl rfl e.action).cast
      (by simp [Event.wire])).congr (by simp)

end Writes

namespace Restores

theorem member (reachable : c.Reachable) (k : Key) {v : Value} (keyed : v.WellKeyed) :
    Restores c (Write.member c k v) (Read.member c) (k, v) :=
  (key k).bind fun _ => (any reachable keyed).map _

theorem anyAll (reachable : c.Reachable) {vs : List Value} (keyed : ∀ v ∈ vs, v.WellKeyed) :
    Restores c (Write.anyAll c vs) (Read.times vs.length (Read.any c)) vs := by
  induction vs with
  | nil => exact pure []
  | cons v vs ih =>
    have rest := ih fun w mem => keyed w (by simp [mem])
    rw [List.length_cons, Read.times_succ]
    exact (any reachable (keyed v (by simp))).bind fun _ => rest.map _

theorem action (reachable : c.Reachable) {a : Action} (keyed : ∀ v ∈ a.values, v.WellKeyed) :
    Restores c (Write.action c a) (Read.action c a.kind) a := by
  cases a with
  | fieldSet v => exact (any reachable (keyed v (by simp [Action.values]))).map Action.fieldSet
  | elementAdd k v =>
    exact (member reachable k (keyed v (by simp [Action.values]))).map fun e =>
      Action.elementAdd e.1 e.2
  | elementRemove k => exact (key k).map Action.elementRemove
  | elementUpdate k v =>
    exact (member reachable k (keyed v (by simp [Action.values]))).map fun e =>
      Action.elementUpdate e.1 e.2
  | listSet position v =>
    exact (uint32 position).bind fun _ =>
      (any reachable (keyed v (by simp [Action.values]))).map _
  | message name arguments =>
    unfold Write.action
    by_cases many : arguments.length > maxArguments
    · intro out x after _ written
      simp [many, Write.fail, Bind.bind, EStateM.bind] at written
    · simp only [many, if_false]
      have count : Restores c (Write.natural 2 arguments.length) (Read.natural 2)
          arguments.length := of_plain (fun _ => .natural 2 _) fun _ _ _ => .natural (by
        have : Octets.capacity 2 = maxArguments + 1 := rfl
        omega)
      exact (text name).bind fun _ => count.bind fun _ => (anyAll reachable keyed).map _

theorem event (reachable : c.Reachable) {e : Event} (keyed : e.WellKeyed) :
    Restores c (Write.event c e) (Read.event c) e := by
  have body : Restores c (Write.action c e.action) _ e :=
    (action reachable keyed).map fun a => Event.mk ⟨e.object.number⟩ e.field a
  exact (uint32 _).bind fun _ => (uint16 _).bind fun _ => (byte _).bind fun _ =>
    body.reading (by simp only [EventKind.ofCode?_code, Event.kind])

end Restores

theorem Event.encode_eq_ok_iff {e : Event} {bytes : Octets} :
    e.encode c = .ok bytes ↔ e.action.Fits c ∧ bytes = e.wire c :=
  (Writes.event e).bytesOf_eq_ok_iff

theorem Event.decode_encode (reachable : c.Reachable) {e : Event} (keyed : e.WellKeyed)
    {bytes : Octets} (written : e.encode c = .ok bytes) : Event.decode c bytes = .ok e :=
  (Restores.event reachable keyed).whole written

/-- An object of a catalogued type can be written as a whole. -/
structure SharedObject.Sendable (c : Catalog) (o : SharedObject) : Prop where
  named : o.type.name.utf8ByteSize ≤ maxTextSize
  accepted : Value.Accepted o.values o.type.fields
  room : Room c 0 (Codes.use ∅ o.type.name) o.values

def SharedObject.wire (c : Catalog) (o : SharedObject) : Octets :=
  Codes.tag ∅ o.type.name ++
    Value.fieldsWire c (Codes.use ∅ o.type.name) o.values o.type.fields

theorem SharedObject.wire_ne_nil (o : SharedObject) : o.wire c ≠ [] := by
  simp [wire, Codes.tag, Octets.ofInt16, Octets.ofNat]

theorem Codes.size_use_empty (name : String) : (use ∅ name).size = 1 :=
  size_use_of_none (by simp)

namespace Writes

theorem fields (sane : Sane out.depth out.codes) (type : ResolvedType) (vs : List Value) :
    Writes (Write.fields c type vs) out
      (Value.Accepted vs type.fields ∧ Room c out.depth out.codes vs) ()
      (Value.fieldsWire c out.codes vs type.fields) (vs.flatMap Value.typeNames) := by
  refine ((expectFields type vs.length).bind fun count =>
    Value.Written.fields (fun v _ => Value.written c v) sane type.name count).congr ?_
  exact ⟨fun ⟨_, fits⟩ => fits, fun fits => ⟨fits.1.length_eq, fits⟩⟩

theorem snapshot {o : SharedObject} {type : ResolvedType} (known : c.get? o.type.name = some type) :
    Writes (o.writeSnapshot c) .empty (o.Sendable c) () (o.wire c)
      (o.type.name :: o.values.flatMap Value.typeNames) := by
  have tag : Writes (Write.typeTag c o.type.name) .empty _ type _ _ := typeTag sane_empty known
  have size : (Codes.use ∅ o.type.name).size ≤ maxTypeCode := by
    simp [Codes.size_use_empty, maxTypeCode]
  refine (tag.bind fun short => fields ⟨Nat.zero_le _, size, fun name mem => ?_⟩ _ _).congr ?_
  · have mem : name ∈ Codes.use ∅ o.type.name := mem
    have same : name = o.type.name := by simpa [Codes.mem_use] using mem
    exact same ▸ short.1
  · exact ⟨fun ⟨⟨named, _⟩, accepted, room⟩ => ⟨named, accepted, room⟩,
      fun ⟨named, accepted, room⟩ => ⟨⟨named, size⟩, accepted, room⟩⟩

end Writes

namespace Restores

variable {α γ : Type} {w : Write γ} {r : Read α} {a : α}

theorem within (type field : String) (restores : Restores c w r a) :
    Restores c (Write.within type field w) r a := by
  intro out x after sane written
  refine restores out x after sane ?_
  unfold Write.within at written
  split at written
  · cases written
  · exact written

theorem fields (reachable : c.Reachable) (type : String) {vs : List Value} {fs : List Field}
    (count : vs.length = fs.length) (keyed : ∀ v ∈ vs, v.WellKeyed) :
    Restores c (Write.fieldPayloads c type vs fs) (fs.mapM fun f => Read.value c f.type) vs := by
  induction vs generalizing fs with
  | nil =>
    have none : fs = [] := by simpa using count.symm
    subst none
    exact pure []
  | cons v vs ih =>
    rcases fs with _ | ⟨f, fs⟩
    · simp at count
    have count : vs.length = fs.length := by simpa using count
    have rest := ih count fun w mem => keyed w (by simp [mem])
    rw [List.mapM_cons]
    exact ((value reachable f.type (keyed v (by simp))).within type f.name).bind fun _ =>
      rest.map _

theorem fieldsOf (reachable : c.Reachable) (type : ResolvedType) {values : List Value}
    (keyed : ∀ v ∈ values, v.WellKeyed) :
    Restores c (Write.fields c type values) (Read.fields c type) values := by
  unfold Write.fields Write.expectFields
  by_cases count : values.length = type.fields.length
  · simp only [count, if_true]
    exact fields reachable type.name count keyed
  · intro out x after _ written
    simp [count, Write.fail, Bind.bind, EStateM.bind] at written

theorem typeTag {name : String} {type : ResolvedType} (known : c.get? name = some type) :
    Restores c (Write.typeTag c name) (Read.typeTag c) (some type) := by
  intro out x after sane written
  obtain ⟨⟨short, few⟩, -, rfl⟩ := (Writes.typeTag sane known).of_ok written
  refine ⟨_, _, rfl, ⟨sane.depth_le, few, fun other mem => ?_⟩, .typeTag known short few⟩
  exact (Codes.mem_use.mp mem).elim (fun same => same ▸ short) (sane.short other)

theorem snapshot (reachable : c.Reachable) {o : SharedObject} (id : ObjectId)
    (known : c.get? o.type.name = some o.type) (distributed : o.type.isDistributed = true)
    (keyed : ∀ v ∈ o.values, v.WellKeyed) :
    Restores c (o.writeSnapshot c) (SharedObject.readSnapshot c id)
      ⟨id, .live, o.type, o.values, []⟩ := by
  have fields : Restores c (o.writeFields c)
      (do
        if !o.type.isDistributed then Read.fail (.notDistributed o.type.name)
        return ⟨id, .live, o.type, ← Read.fields c o.type, []⟩)
      (⟨id, .live, o.type, o.values, []⟩ : SharedObject) := by
    simp only [distributed]
    exact (fieldsOf reachable o.type keyed).map _
  exact (typeTag known).bind fun _ => fields

end Restores

theorem SharedObject.snapshot_eq_ok_iff {o : SharedObject} {type : ResolvedType}
    (known : c.get? o.type.name = some type) {bytes : Octets} :
    o.snapshot c = .ok bytes ↔ o.Sendable c ∧ bytes = o.wire c :=
  (Writes.snapshot known).bytesOf_eq_ok_iff

theorem SharedObject.ofSnapshot_snapshot (reachable : c.Reachable) {o : SharedObject}
    (id : ObjectId) (known : c.get? o.type.name = some o.type)
    (distributed : o.type.isDistributed = true) (keyed : ∀ v ∈ o.values, v.WellKeyed)
    {bytes : Octets} (written : o.snapshot c = .ok bytes) :
    ofSnapshot c id bytes = .ok ⟨id, .live, o.type, o.values, []⟩ :=
  (Restores.snapshot reachable id known distributed keyed).whole written

namespace Message

def Full : Message → Prop
  | snapshot _ _ body => body ≠ []
  | event _ body | forwardEvent body => eventHeaderSize ≤ body.length
  | removed _ | subscribeFailed _ _ => True

def payload : Message → Octets
  | snapshot object seq body =>
    Octets.ofNat 4 object.number.toNat ++ (Octets.ofNat 8 seq.number.toNat ++ body)
  | event seq body => Octets.ofNat 8 seq.number.toNat ++ body
  | removed object => Octets.ofNat 4 object.number.toNat
  | subscribeFailed object reason => Octets.ofNat 4 object.number.toNat ++ Octets.ofText reason
  | forwardEvent body => body

def wire (m : Message) : Octets := m.kind.code :: m.payload

def Fits : Message → Prop
  | subscribeFailed _ reason => reason.utf8ByteSize ≤ maxTextSize
  | _ => True

theorem writes (m : Message) : Writes m.write out m.Fits () m.wire [] := by
  have behind {w : Write Unit}
      (rest : Writes w (out.adding [m.kind.code] []) m.Fits () m.payload []) :
      Writes (do Write.byte m.kind.code; w) out m.Fits () m.wire [] :=
    ((Writes.byte _).bind fun _ => rest).congr (by simp)
  cases m with
  | snapshot object seq body =>
    exact behind (((Writes.natural 4 _).bind fun _ => (Writes.natural 8 _).bind fun _ =>
      Writes.octets body).congr (by simp [Fits]))
  | event seq body =>
    exact behind (((Writes.natural 8 _).bind fun _ => Writes.octets body).congr (by simp [Fits]))
  | removed object => exact behind ((Writes.natural 4 _).congr (by simp [Fits]))
  | subscribeFailed object reason =>
    exact behind (((Writes.natural 4 _).bind fun _ => Writes.text reason).congr (by simp [Fits]))
  | forwardEvent body => exact behind ((Writes.octets body).congr (by simp [Fits]))

theorem encode_eq_ok_iff {m : Message} {bytes : Octets} :
    m.encode = .ok bytes ↔ m.Fits ∧ bytes = m.wire := m.writes.bytesOf_eq_ok_iff

end Message

/-- The reading takes these bytes to their end and gives a result, whatever types are known. -/
def Consumes {α : Type} (r : Read α) (bytes : Octets) (a : α) : Prop :=
  ∀ types, ∃ known, r ⟨bytes, 0, types⟩ = .ok a ⟨[], 0, known⟩

namespace Consumes

variable {α β : Type} {r : Read α} {a : α} {bytes more : Octets}

theorem rest (f : Octets → β) (bytes : Octets) :
    Consumes (do return f (← Read.rest)) bytes (f bytes) := fun types => ⟨types, rfl⟩

theorem ensure {n : Nat} (enough : n ≤ bytes.length) (consumes : Consumes r bytes a) :
    Consumes (do Read.ensure n; r) bytes a := by
  intro types
  obtain ⟨known, step⟩ := consumes types
  have passes : Octets.atLeast n bytes = true := Octets.atLeast_iff.mpr enough
  exact ⟨known, by simp [Read.ensure, Bind.bind, EStateM.bind, passes, step]⟩

theorem after {k : α → Read β} {b : β} (first : Reads .initial 0 ∅ r bytes a [])
    (second : Consumes (k a) more b) : Consumes (r >>= k) (bytes ++ more) b := by
  intro types
  obtain ⟨known, _, step⟩ := first more types (by simp [Agree])
  obtain ⟨later, step'⟩ := second known
  exact ⟨later, by simp only [Bind.bind, EStateM.bind, step, step']⟩

theorem of_reads (reads : Reads .initial 0 ∅ r bytes a []) : Consumes r bytes a := by
  intro types
  obtain ⟨known, _, step⟩ := reads [] types (by simp [Agree])
  exact ⟨known, by rwa [List.append_nil] at step⟩

theorem reading {r' : Read α} (consumes : Consumes r bytes a) (same : r' = r) :
    Consumes r' bytes a := by
  subst same
  exact consumes

theorem whole (consumes : Consumes r bytes a) : Read.whole r bytes = .ok a := by
  obtain ⟨known, step⟩ := consumes ∅
  have ran : r (.ofOctets bytes) = .ok a ⟨[], 0, known⟩ := step
  exact Read.whole_eq_ok_iff.mpr ⟨_, ran, rfl⟩

end Consumes

namespace Message

theorem decode_wire {m : Message} (full : m.Full) (fits : m.Fits) : decode m.wire = .ok m := by
  have behind : Consumes (readKind m.kind) m.payload m := by
    cases m with
    | snapshot object seq body =>
      have present : body.isEmpty = false := by simpa [Full] using full
      have last : Consumes
          (do
            let body ← Read.rest
            if body.isEmpty then throw (.truncated 2 0)
            return snapshot ⟨object.number⟩ ⟨seq.number⟩ body)
          body (snapshot object seq body) := by
        intro types
        refine ⟨types, ?_⟩
        simp [Read.rest, Bind.bind, EStateM.bind, present]
        rfl
      exact .after (.uint32 _) (.after (.uint64 _) last)
    | event seq body => exact .after (.uint64 _) (.ensure full (.rest _ body))
    | removed object => exact .of_reads ((Reads.uint32 _).map _)
    | subscribeFailed object reason =>
      exact .of_reads ((Reads.uint32 _).bind ((Reads.text fits).map _))
    | forwardEvent body => exact .ensure full (.rest _ body)
  exact (Consumes.after (.byte m.kind.code)
    (behind.reading (by simp only [MessageKind.ofCode?_code]))).whole

end Message

theorem Event.decode_forwarded {e : Event} {message : Octets} (sent : e.forwarded c = .ok message) :
    ∃ body, e.encode c = .ok body ∧ Message.decode message = .ok (.forwardEvent body) := by
  unfold forwarded at sent
  cases encoded : e.encode c with
  | error fault =>
    rw [encoded] at sent
    cases sent
  | ok body =>
    rw [encoded] at sent
    obtain ⟨fits, rfl⟩ := Message.encode_eq_ok_iff.mp sent
    have full : (Message.forwardEvent body).Full := by
      rw [(encode_eq_ok_iff.mp encoded).2]
      exact Nat.le_of_lt e.eventHeaderSize_lt
    exact ⟨body, rfl, Message.decode_wire full fits⟩

end SharedObjects
