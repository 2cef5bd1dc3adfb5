import SharedObjects.Proofs.Catalog.Order
/-!
Types by descent. Above a registered type stand its ancestors, nearest first, all of them registered
and of its kind, and behind each one stand the ancestors of that one. The fields of a type begin
with those of every ancestor, and no two have one name. So a name stands for the same index in a
type and in all that descend from it, and an index leads back to the name.
-/
set_option autoImplicit false

namespace SharedObjects

namespace ResolvedType

variable {t a : ResolvedType} {name : String} {index : UInt16}

structure Indexed (t : ResolvedType) : Prop where
  distinct : (t.fields.map Field.name).Nodup
  few : t.fields.length ≤ maxFields

theorem Indexed.toNat_ofNat (indexed : t.Indexed) {i : Nat} (inside : i < t.fields.length) :
    (UInt16.ofNat i).toNat = i :=
  UInt16.toNat_ofNat_of_lt' (Nat.lt_succ_of_lt (Nat.lt_of_lt_of_le inside indexed.few))

theorem Indexed.fieldIndex?_eq_some_iff (indexed : t.Indexed) :
    t.fieldIndex? name = some index ↔ ∃ f, t.field? index = some f ∧ f.name = name := by
  unfold fieldIndex? field?
  rw [Option.map_eq_some_iff]
  constructor
  · rintro ⟨i, found, rfl⟩
    obtain ⟨inside, named, -⟩ := List.findIdx?_eq_some_iff_getElem.mp found
    rw [indexed.toNat_ofNat inside]
    exact ⟨t.fields[i], List.getElem?_eq_getElem inside, by simpa using named⟩
  · rintro ⟨f, there, rfl⟩
    obtain ⟨inside, rfl⟩ := List.getElem?_eq_some_iff.mp there
    refine ⟨index.toNat, List.findIdx?_eq_some_iff_getElem.mpr ⟨inside, by simp, ?_⟩, by simp⟩
    intro j before
    have apart := List.pairwise_iff_getElem.mp indexed.distinct j index.toNat
      (by simpa using Nat.lt_trans before inside) (by simpa using inside) before
    simpa using apart

theorem Indexed.exists_fieldIndex? (indexed : t.Indexed) {f : Field} (declared : f ∈ t.fields) :
    ∃ index, t.fieldIndex? f.name = some index ∧ t.field? index = some f := by
  obtain ⟨i, inside, rfl⟩ := List.mem_iff_getElem.mp declared
  have there : t.field? (UInt16.ofNat i) = some t.fields[i] := by
    rw [field?, indexed.toNat_ofNat inside, List.getElem?_eq_getElem inside]
  exact ⟨_, indexed.fieldIndex?_eq_some_iff.mpr ⟨_, there, rfl⟩, there⟩

theorem Indexed.fieldIndex?_inherited (indexed : t.Indexed) (above : a.Indexed)
    (front : a.fields <+: t.fields) {f : Field} (declared : f ∈ a.fields) :
    t.fieldIndex? f.name = a.fieldIndex? f.name := by
  obtain ⟨index, named, there⟩ := above.exists_fieldIndex? declared
  obtain ⟨inside, -⟩ := List.getElem?_eq_some_iff.mp there
  obtain ⟨own, split⟩ := front
  rw [named, indexed.fieldIndex?_eq_some_iff]
  refine ⟨f, ?_, rfl⟩
  rwa [field?, ← split, List.getElem?_append_left inside]

end ResolvedType

namespace Catalog

variable {c after : Catalog} {s : Schema} {t p : ResolvedType} {name : String}

/-- A type that stands where it should among the types of a catalog. -/
structure Descended (c : Catalog) (t : ResolvedType) : Prop where
  named : t.name ≠ ""
  lineage : ∀ below ancestor above, t.ancestors = below ++ ancestor :: above →
    ∃ a, c.get? ancestor = some a ∧ a.kind = t.kind ∧ a.ancestors = above ∧
      a.fields <+: t.fields
  rooted : t.kind = .distributed → t = .root ∨ t.ancestors.getLast? = some rootName
  indexed : t.Indexed

theorem Descended.mono (descended : c.Descended t) (extends_ : c.Extends after) :
    after.Descended t where
  named := descended.named
  lineage below ancestor above split :=
    (descended.lineage below ancestor above split).imp fun a ⟨known, rest⟩ =>
      ⟨extends_ ancestor a known, rest⟩
  rooted := descended.rooted
  indexed := descended.indexed

theorem descended_root (c : Catalog) : c.Descended .root where
  named := by decide
  lineage below ancestor above split := by simp [ResolvedType.root] at split
  rooted _ := .inl rfl
  indexed := ⟨List.nodup_nil, Nat.zero_le _⟩

theorem Descended.resolved (reachable : c.Reachable) (resolves : c.Resolves s t)
    (all : ∀ name p, c.get? name = some p → c.Descended p) : c.Descended t := by
  have indexed : t.Indexed := ⟨resolves.distinct, resolves.few⟩
  obtain ⟨ancestors, above, inherited, rfl⟩ := resolves.shape
  have inherits := inherits_of_inherited inherited
  cases inherits with
  | nothing streamable =>
    exact ⟨resolves.named, by simp, by simp [streamable], indexed⟩
  | @parent name p known kind =>
    have parent := all name p known
    obtain rfl := reachable.name_eq known
    refine ⟨resolves.named, fun below ancestor above split => ?_, fun distributed => .inr ?_,
      indexed⟩
    · have front : p.fields <+: p.fields ++ s.fields := List.prefix_append _ _
      rcases List.cons_eq_append_iff.mp split with ⟨rfl, same⟩ | ⟨nearer, rfl, further⟩
      · cases same
        exact ⟨p, known, kind, rfl, front⟩
      · obtain ⟨a, found, alike, ancestors, before⟩ := parent.lineage _ _ _ further
        exact ⟨a, found, alike.trans kind, ancestors, before.trans front⟩
    · rcases parent.rooted (kind.trans distributed) with rfl | rooted
      · rfl
      · rw [List.getLast?_cons, rooted]
        rfl

theorem Reachable.descended (reachable : c.Reachable) (known : c.get? name = some t) :
    c.Descended t := by
  induction reachable generalizing name t with
  | initial =>
    obtain ⟨-, rfl⟩ := get?_initial_eq_some_iff.mp known
    exact descended_root _
  | register reachable registered ih =>
    have grown := extends_register registered
    rw [get?_register registered] at known
    split at known
    · cases known
      have resolves := resolves_of_register registered
      exact (Descended.resolved reachable resolves fun _ _ => ih).mono grown
    · exact (ih known).mono grown

/-- The fields of every ancestor stand in front of those of a type. -/
theorem Reachable.ancestors_fields (reachable : c.Reachable) (known : c.get? name = some t) :
    ∀ ancestor ∈ t.ancestors, ∃ above, c.get? ancestor = some above ∧
      above.fields <+: t.fields := by
  intro ancestor mem
  obtain ⟨below, above, split⟩ := List.append_of_mem mem
  obtain ⟨a, found, -, -, front⟩ := (reachable.descended known).lineage _ _ _ split
  exact ⟨a, found, front⟩

theorem Reachable.tryingAll (reachable : c.Reachable) (ss : List Schema) :
    (c.tryingAll ss).Reachable := by
  induction ss generalizing c with
  | nil => exact reachable
  | cons s ss ih =>
    refine ih ?_
    unfold trying
    split
    · exact reachable.register ‹_›
    · exact reachable

/-- Whatever has been registered or refused, and whatever will be: a type that is registered stays
as it is. It is found under its own name, which is not empty; its ancestors are registered, each in
front of its own ancestors, and of the same kind as the type, whose fields begin with theirs; if it
is distributed, it is the root or has the root for its last ancestor; its field names are distinct
and no more than indexes can tell apart. Every declared name has an index, which leads to the field
that has the name, and it is the same index in all types that inherit the field. -/
theorem hierarchy (done later : List Schema) :
    let c := initial.tryingAll done
    c.Extends (c.tryingAll later) ∧ c.get? rootName = some .root ∧
    ∀ name t, c.get? name = some t → t.name = name ∧ c.Descended t ∧
      (∀ f ∈ t.fields, ∃ index, t.fieldIndex? f.name = some index ∧ t.field? index = some f) ∧
      ∀ ancestor ∈ t.ancestors, ∃ a, c.get? ancestor = some a ∧
        ∀ f ∈ a.fields, t.fieldIndex? f.name = a.fieldIndex? f.name := by
  intro c
  have reachable : c.Reachable := Reachable.initial.tryingAll done
  have root : initial.get? rootName = some .root := get?_initial_eq_some_iff.mpr ⟨rfl, rfl⟩
  refine ⟨extends_tryingAll c later, extends_tryingAll initial done _ _ root,
    fun name t known => ?_⟩
  have descended := reachable.descended known
  refine ⟨reachable.name_eq known, descended, fun f => descended.indexed.exists_fieldIndex?,
    fun ancestor mem => ?_⟩
  obtain ⟨a, found, front⟩ := reachable.ancestors_fields known ancestor mem
  have above := (reachable.descended found).indexed
  exact ⟨a, found, fun f declared => descended.indexed.fieldIndex?_inherited above front declared⟩

/-- Circles are shapes with a radius. A ring would be a circle that declares the name of all shapes
once more, and is refused. -/
def shapeSchemas : List Schema :=
  [(Schema.distributed "Shape").withField "name" .text,
    ((Schema.distributed "Circle").extending "Shape").withField "radius" .int,
    ((Schema.distributed "Ring").extending "Circle").withField "name" .text]

def circleType : ResolvedType :=
  ⟨"Circle", .distributed, ["Shape", rootName], [⟨"name", .text⟩, ⟨"radius", .int⟩]⟩

theorem hierarchy_circle :
    let c := initial.tryingAll shapeSchemas
    c.get? "Circle" = some circleType ∧ c.get? "Ring" = none ∧
    (c.tryingAll [Schema.streamable "Circle"]).get? "Circle" = some circleType ∧
    (∃ index, circleType.fieldIndex? "radius" = some index ∧
      circleType.field? index = some ⟨"radius", .int⟩) ∧
    ∃ shape, c.get? "Shape" = some shape ∧ ∀ f ∈ shape.fields,
      circleType.fieldIndex? f.name = shape.fieldIndex? f.name := by
  intro c
  have held : c.get? "Circle" = some circleType ∧ c.get? "Ring" = none := by
    simp [c, shapeSchemas, tryingAll, trying, register, resolution, inherited, get?, contains,
      initial, rootName, Schema.distributed, Schema.extending, Schema.withField, firstRepeat,
      maxFields, circleType, ResolvedType.root]
  obtain ⟨kept, -, all⟩ := hierarchy shapeSchemas [.streamable "Circle"]
  obtain ⟨-, -, declared, inherited⟩ := all "Circle" circleType held.1
  exact ⟨held.1, held.2, kept _ _ held.1, declared ⟨"radius", .int⟩ (by decide),
    inherited "Shape" (by decide)⟩

end Catalog

end SharedObjects
