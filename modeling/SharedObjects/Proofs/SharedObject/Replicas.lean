import SharedObjects.Proofs.Catalog.Lineage
import SharedObjects.Proofs.SharedObject.Making
import SharedObjects.Proofs.Wire.Soundness
import SharedObjects.Proofs.Wire.Traffic
set_option autoImplicit false

namespace SharedObjects

variable {c : Catalog}

namespace SharedObject

/-- An object made of a catalogued type, brought on by direct writes, going live and events, and
listened to by anyone. -/
inductive Built (c : Catalog) : SharedObject → Prop
  | new {name : String} {o : SharedObject} : SharedObject.new c name = .ok o → Built c o
  | set {o after : SharedObject} {index : UInt16} {v : Value} :
    Built c o → v.WellKeyed → o.set index v = .ok after → Built c after
  | goLive {o after : SharedObject} {id : ObjectId} :
    Built c o → o.goLive id = .ok after → Built c after
  | apply {o after : SharedObject} {e : Event} :
    Built c o → e.WellKeyed → o.apply e = .ok after → Built c after
  | listen {o : SharedObject} (listener : String) : Built c o → Built c (o.listen listener)

theorem Built.catalogued (reachable : c.Reachable) {o : SharedObject} (built : Built c o) :
    o.Catalogued c := by
  induction built with
  | new made => exact (fresh_of_new reachable made).catalogued
  | set _ keyed written ih =>
    obtain rfl := put_of_set written
    exact ih.put keyed _
  | goLive _ live ih =>
    unfold SharedObject.goLive at live
    split at live <;> cases live
    exact ⟨ih.known, ih.distributed, ih.keyed⟩
  | apply _ keyed applied ih =>
    refine ⟨?_, ?_, wellKeyed_of_apply applied ih.keyed keyed⟩
    · rw [type_of_apply applied]
      exact ih.known
    · rw [type_of_apply applied]
      exact ih.distributed
  | listen listener _ ih => exact ⟨ih.known, ih.distributed, ih.keyed⟩

end SharedObject

namespace Takes

theorem readSnapshot (reachable : c.Reachable) (id : ObjectId) :
    Takes c 0 ∅ (SharedObject.readSnapshot c id) fun o _ _ =>
      o.Catalogued c ∧ Value.Accepted o.values o.type.fields := by
  refine bind (typeTag reachable (fail _) fun type known _ => ?_)
  by_cases distributed : type.isDistributed = true
  · simp only [distributed]
    refine map ((fields (value reachable (Nat.zero_le _)) type.fields).mono ?_)
    rintro values _ _ ⟨accepted, all⟩
    exact ⟨⟨known, distributed, fun v mem => (all.sound v mem).keyed⟩, accepted⟩
  · simp only [distributed]
    exact bind (fail _)

end Takes

namespace SharedObject

/-- A snapshot is read as an object of the same type with the same values, the fields of supertypes
in front, that is live under the given identifier, has no listeners and has the same snapshot. From
whatever bytes a replica is made, its type is catalogued and accepts its values, field by field; and
what is refused is refused for its bytes. -/
theorem snapshot_round_trip (reachable : c.Reachable) :
    (∀ o bytes id, Built c o → o.snapshot c = .ok bytes → ∃ replica,
      ofSnapshot c id bytes = .ok replica ∧ replica.type = o.type ∧ replica.values = o.values ∧
      (∀ ancestor ∈ o.type.ancestors, ∃ above, c.get? ancestor = some above ∧
        above.fields <+: replica.type.fields) ∧
      replica.id = id ∧ replica.stage = .live ∧ replica.listeners = [] ∧
      replica.snapshot c = .ok bytes) ∧
    (∀ id bytes replica, ofSnapshot c id bytes = .ok replica →
      c.get? replica.type.name = some replica.type ∧
      Value.Accepted replica.values replica.type.fields) ∧
    ∀ id bytes fault, ofSnapshot c id bytes = .error fault → fault.isWire = true := by
  refine ⟨fun o bytes id built written => ?_, fun id bytes replica read => ?_,
    fun id bytes fault => (Read.Steady.readSnapshot id).isWire_of_whole⟩
  · have catalogued := built.catalogued reachable
    have read := ofSnapshot_snapshot reachable id catalogued.known catalogued.distributed
      catalogued.keyed written
    exact ⟨_, read, rfl, rfl, reachable.ancestors_fields catalogued.known, rfl, rfl, rfl, written⟩
  · obtain ⟨_, _, ⟨catalogued, accepted⟩, -⟩ := (Takes.readSnapshot reachable id).whole read
    exact ⟨catalogued.known, accepted⟩

end SharedObject

def boardType : ResolvedType := ⟨"Board", .distributed, [rootName], [⟨"marks", .list⟩]⟩

def boardCatalog : Catalog := ⟨markCatalog.types.insert "Board" boardType⟩

theorem get?_board : boardCatalog.get? "Board" = some boardType := by
  simp [boardCatalog, Catalog.get?]

theorem register_board :
    markCatalog.register ((Schema.distributed "Board").withField "marks" .list) =
      .ok (boardCatalog, boardType) := by
  have root : markCatalog.get? rootName = some .root := by
    simp [markCatalog, Catalog.get?, Catalog.initial, Std.HashMap.getElem_insert, rootName]
  have absent : markCatalog.contains "Board" = false := by
    simp [markCatalog, Catalog.contains, Catalog.initial, rootName]
  simp [Catalog.register, Catalog.resolution, Catalog.inherited, Schema.withField,
    Schema.distributed, root, absent, ResolvedType.root, firstRepeat, maxFields, boardCatalog,
    boardType]

def board : SharedObject :=
  ⟨⟨3⟩, .live, boardType, [.list [.record "Mark" [], .float 0x7FC00001]], []⟩

theorem built_board : board.Built boardCatalog := by
  let blank : SharedObject := ⟨.none, .unregistered, boardType, [.list []], []⟩
  have made : SharedObject.new boardCatalog "Board" = .ok blank := by
    simp [SharedObject.new, Catalog.resolve, get?_board, SharedObject.ofType]
    rfl
  let filled : SharedObject := { blank with values := [.list [.null, .float 0x7FC00001]] }
  have written : blank.set 0 (.list [.null, .float 0x7FC00001]) = .ok filled := rfl
  have live : filled.goLive ⟨3⟩ = .ok { filled with id := ⟨3⟩, stage := .live } := rfl
  have changed : SharedObject.apply { filled with id := ⟨3⟩, stage := .live }
      ⟨⟨3⟩, 0, .listSet 0 (.record "Mark" [])⟩ = .ok board := rfl
  have keyed : Event.WellKeyed ⟨⟨3⟩, 0, .listSet 0 (.record "Mark" [])⟩ := by
    simp only [Event.WellKeyed, Action.values, List.forall_mem_singleton]
    decide
  exact (((SharedObject.Built.new made).set (by decide) written).goLive live).apply keyed changed

theorem sendable_board : board.Sendable boardCatalog := by
  have mark : boardCatalog.get? "Mark" = some markType := by
    simp [boardCatalog, markCatalog, Catalog.get?, Std.HashMap.getElem_insert]
  refine ⟨by decide, .cons rfl .nil, ⟨?_, by decide, ?_⟩⟩
  · intro v mem w part
    obtain rfl := List.mem_singleton.mp mem
    have split : w = .list [.record "Mark" [], .float 0x7FC00001] ∨ w = .record "Mark" [] ∨
        w = .float 0x7FC00001 := by
      simpa [Value.parts, Value.itemParts] using part
    rcases split with rfl | rfl | rfl
    · exact (by decide : 2 ≤ maxLength)
    · exact ⟨markType, mark, rfl, by decide, .nil⟩
    · exact trivial
  · have codes : (Codes.useAll ∅ ["Board", "Mark"]).size ≤ maxTypeCode := by
      rw [Codes.size_useAll_empty]
      decide
    exact codes

theorem SharedObject.snapshot_round_trip_board : boardCatalog.Reachable ∧ board.Built boardCatalog ∧
    ∃ bytes, board.snapshot boardCatalog = .ok bytes ∧ ∃ replica,
      ofSnapshot boardCatalog ⟨9⟩ bytes = .ok replica ∧ replica.id = ⟨9⟩ ∧
      replica.values = [.list [.record "Mark" [], .float 0x7FC00001]] ∧
      replica.snapshot boardCatalog = .ok bytes := by
  have reachable : boardCatalog.Reachable :=
    (Catalog.Reachable.register .initial register_mark).register register_board
  have written : board.snapshot boardCatalog = .ok (board.wire boardCatalog) :=
    (snapshot_eq_ok_iff get?_board).mpr ⟨sendable_board, rfl⟩
  obtain ⟨back, -, -⟩ := snapshot_round_trip reachable
  obtain ⟨replica, read, -, values, -, id, -, -, again⟩ := back board _ ⟨9⟩ built_board written
  exact ⟨reachable, built_board, _, written, replica, read, id, values, again⟩

end SharedObjects
