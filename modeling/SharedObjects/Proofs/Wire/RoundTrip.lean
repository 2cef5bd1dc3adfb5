import SharedObjects.Proofs.Wire.ReadingValues
set_option autoImplicit false

namespace SharedObjects

variable {α β γ δ : Type} {c : Catalog}

/-- Whatever the writing leaves in a sane output, the reading takes off again and gives a result;
the output stays sane. -/
def Restores (c : Catalog) (w : Write γ) (r : Read α) (a : α) : Prop :=
  ∀ out x after, Sane out.depth out.codes → w out = .ok x after → ∃ bytes names,
    after = out.adding bytes names ∧ Sane after.depth after.codes ∧
      Reads c out.depth out.codes r bytes a names

namespace Restores

variable {w : Write γ} {r : Read α} {a : α} {b : β}

theorem pure (a : α) : Restores c (Pure.pure ()) (Pure.pure a) a := by
  intro out x after sane written
  cases written
  exact ⟨[], [], by simp, sane, .pure a⟩

theorem bind {l : γ → Write δ} {k : α → Read β} (first : Restores c w r a)
    (second : ∀ x, Restores c (l x) (k a) b) : Restores c (w >>= l) (r >>= k) b := by
  intro out x after sane written
  simp only [Bind.bind, EStateM.bind] at written
  split at written
  · rename_i between step
    obtain ⟨bytes, names, rfl, sane', reads⟩ := first _ _ _ sane step
    obtain ⟨more, others, rfl, sane'', reads'⟩ := second _ _ _ _ sane' written
    exact ⟨bytes ++ more, names ++ others, by simp, sane'', reads.bind reads'⟩
  · cases written

theorem reading {r' : Read α} (restores : Restores c w r a) (same : r' = r) :
    Restores c w r' a := by
  subst same
  exact restores

theorem map (f : α → β) (restores : Restores c w r a) :
    Restores c w (do return f (← r)) (f a) := by
  intro out x after sane written
  obtain ⟨bytes, names, rfl, sane, reads⟩ := restores out x after sane written
  exact ⟨bytes, names, rfl, sane, reads.map f⟩

theorem of_plain {ok : Prop} {x : γ} {bytes : Octets} (writes : ∀ out, Writes w out ok x bytes [])
    (reads : ok → ∀ depth codes, Reads c depth codes r bytes a []) : Restores c w r a := by
  intro out x after sane written
  obtain ⟨fits, -, rfl⟩ := (writes out).of_ok written
  exact ⟨bytes, [], rfl, sane, reads fits _ _⟩

theorem byte (b : UInt8) : Restores c (Write.byte b) Read.byte b :=
  of_plain (fun _ => .byte b) fun _ _ _ => .byte b

theorem uint16 (n : UInt16) : Restores c (Write.uint16 n) Read.uint16 n :=
  of_plain (fun _ => .natural 2 _) fun _ _ _ => .uint16 n

theorem uint32 (n : UInt32) : Restores c (Write.uint32 n) Read.uint32 n :=
  of_plain (fun _ => .natural 4 _) fun _ _ _ => .uint32 n

theorem text (s : String) : Restores c (Write.text s) Read.text s :=
  of_plain (fun _ => .text s) fun fits _ _ => .text fits

theorem key (k : Key) : Restores c (Write.key k) Read.key k :=
  of_plain (fun _ => .key k) fun fits _ _ => .key fits

theorem value (reachable : c.Reachable) (type : FieldType) {v : Value} (keyed : v.WellKeyed) :
    Restores c (Write.value c type v) (Read.value c type) v := by
  intro out x after sane written
  obtain ⟨⟨accepted, room⟩, -, rfl⟩ := ((Value.written c v).value out sane type).of_ok written
  exact ⟨_, _, rfl, room.sane sane, (v.readBack reachable).value room keyed accepted⟩

theorem any (reachable : c.Reachable) {v : Value} (keyed : v.WellKeyed) :
    Restores c (Write.any c v) (Read.any c) v := by
  have accepted : FieldType.any.accepts v = true := by cases v <;> rfl
  have same : Write.value c .any v = Write.any c v := by
    simp [Write.value, Write.declared, Write.any, accepted]
  exact same ▸ value reachable .any keyed

theorem values (reachable : c.Reachable) {pairs : List (FieldType × Value)}
    (keyed : ∀ p ∈ pairs, p.2.WellKeyed) :
    Restores c (forM pairs fun p => Write.value c p.1 p.2)
      (pairs.mapM fun p => Read.value c p.1) (pairs.map Prod.snd) := by
  induction pairs with
  | nil => exact pure []
  | cons p pairs ih =>
    have rest := ih fun q mem => keyed q (by simp [mem])
    rw [List.forM_cons, List.mapM_cons]
    exact (value reachable p.1 (keyed p (by simp))).bind fun _ => rest.map _

theorem members (reachable : c.Reachable) {es : Members} (keyed : (Value.set es).WellKeyed) :
    Restores c (Write.members c es) (Read.members c) es := by
  intro out x after sane written
  have writes : Writes (Write.members c es) out (Room c out.depth out.codes [.set es]) () _ _ :=
    Value.written c (.set es) out sane (by simp)
  obtain ⟨room, -, rfl⟩ := writes.of_ok written
  exact ⟨_, _, rfl, room.sane sane,
    Value.ReadBack.set (fun e _ => e.2.readBack reachable) room keyed⟩

theorem whole (restores : Restores c w r a) {bytes : Octets}
    (written : Write.bytesOf w = .ok bytes) : Read.whole r bytes = .ok a := by
  unfold Write.bytesOf at written
  split at written
  · rename_i after step
    obtain ⟨spelled, names, rfl, _, reads⟩ := restores _ _ _ sane_empty step
    obtain ⟨known, _, read⟩ := reads [] ∅ (agree_empty c)
    obtain rfl : spelled = bytes := by simpa [Output.adding, Output.empty] using written
    rw [List.append_nil] at read
    have ran : r (.ofOctets spelled) = .ok a ⟨[], 0, known⟩ := read
    exact Read.whole_eq_ok_iff.mpr ⟨_, ran, rfl⟩
  · cases written

end Restores

/-- A value comes back from its message as it was: with the order of its lists and sets, the names
of its types and the bits of its numbers. So does a whole set, and so do values against their types
one after the other, which fill their message. -/
theorem Catalog.Reachable.round_trip (reachable : c.Reachable) :
    (∀ type v bytes, v.WellKeyed → Value.encode c type v = .ok bytes →
      Value.decode c type bytes = .ok v) ∧
    (∀ es bytes, (Value.set es).WellKeyed → Members.encode c es = .ok bytes →
      Members.decode c bytes = .ok es) ∧
    (∀ (pairs : List (FieldType × Value)) bytes, (∀ p ∈ pairs, p.2.WellKeyed) →
      Write.bytesOf (forM pairs fun p => Write.value c p.1 p.2) = .ok bytes →
      Read.whole (pairs.mapM fun p => Read.value c p.1) bytes = .ok (pairs.map Prod.snd)) :=
  ⟨fun type _ _ keyed written => (Restores.value reachable type keyed).whole written,
    fun _ _ keyed written => (Restores.members reachable keyed).whole written,
    fun _ _ keyed written => (Restores.values reachable keyed).whole written⟩

theorem Catalog.initial_round_trip :
    let members : Members := [(.number 7, .double 0x8000000000000000), (.number 1, .null)]
    let pairs : List (FieldType × Value) :=
      [(.float, .float 0x7FC00001), (.any, .list [.set members])]
    Value.decode .initial .set [1, 0, 0, 0, 2, 1, 0, 0, 0, 0, 0, 0, 0, 7, 7, 128, 0, 0, 0, 0, 0, 0,
      0, 1, 0, 0, 0, 0, 0, 0, 0, 1, 0] = .ok (.set members) ∧
    Members.decode .initial [0, 0, 0, 2, 1, 0, 0, 0, 0, 0, 0, 0, 7, 7, 128, 0, 0, 0, 0, 0, 0, 0, 1,
      0, 0, 0, 0, 0, 0, 0, 1, 0] = .ok members ∧
    Read.whole (pairs.mapM fun p => Read.value .initial p.1) [127, 192, 0, 1, 10, 0, 0, 0, 1, 11, 0,
      0, 0, 2, 1, 0, 0, 0, 0, 0, 0, 0, 7, 7, 128, 0, 0, 0, 0, 0, 0, 0, 1, 0, 0, 0, 0, 0, 0, 0, 1, 0]
        = .ok (pairs.map Prod.snd) := by
  intro members pairs
  obtain ⟨value, set, sequence⟩ := Catalog.Reachable.initial.round_trip
  exact ⟨value .set (.set members) _ (by decide +kernel) (by decide +kernel),
    set members _ (by decide +kernel) (by decide +kernel),
    sequence pairs _ (by decide +kernel) (by decide +kernel)⟩

end SharedObjects
