import SharedObjects.Proofs.Catalog.Order
import SharedObjects.Proofs.Wire.Soundness
/-!
Peers with catalogs of their own. Writers and readers look at nothing of a catalog but the type that
stands under a name. So they go alike under two catalogs that agree on every name, and what succeeds
under one of them succeeds in the same way under a catalog that knows more.
-/
set_option autoImplicit false

namespace SharedObjects

variable {σ α β : Type} {grown : Prop} {c c' : Catalog}

def Kept (grown : Prop) (result result' : Except Fault α) : Prop :=
  result' = result ∨ grown ∧ ∃ fault, result = .error fault

/-- The second attempt goes as the first, save where there is more to know and the first fails. -/
def Attempt.Follows (grown : Prop) (first second : Attempt σ α) : Prop :=
  ∀ s, second s = first s ∨ grown ∧ ∃ fault after, first s = .error fault after

/-- Both catalogs have the same type under a name, unless the second has grown and the first has
none there. -/
def Catalog.Sees (grown : Prop) (c c' : Catalog) : Prop :=
  ∀ name, c'.get? name = c.get? name ∨ grown ∧ c.get? name = none

namespace Attempt.Follows

variable {a b : Attempt σ α}

theorem refl (a : Attempt σ α) : Follows grown a a := fun _ => .inl rfl

theorem of_fails (more : grown) (fails : ∀ s, ∃ fault after, a s = .error fault after) :
    Follows grown a b := fun s => .inr ⟨more, fails s⟩

theorem bind {k l : α → Attempt σ β} (first : Follows grown a b)
    (second : ∀ x, Follows grown (k x) (l x)) : Follows grown (a >>= k) (b >>= l) := by
  intro s
  rcases first s with same | ⟨more, fault, after, failed⟩
  · cases step : a s with
    | error fault after =>
      rw [step] at same
      exact .inl ((bind_error same).trans (bind_error step).symm)
    | ok x between =>
      rw [step] at same
      rw [bind_ok same, bind_ok step]
      exact second x between
  · exact .inr ⟨more, fault, after, bind_error failed⟩

theorem behind (a : Attempt σ α) {k l : α → Attempt σ β}
    (second : ∀ x, Follows grown (k x) (l x)) : Follows grown (a >>= k) (a >>= l) :=
  (refl a).bind second

theorem map (f : α → β) (follows : Follows grown a b) :
    Follows grown (do return f (← a)) (do return f (← b)) := follows.bind fun _ => refl _

theorem mapM {γ : Type} (items : List γ) {f g : γ → Attempt σ α}
    (each : ∀ item, Follows grown (f item) (g item)) :
    Follows grown (items.mapM f) (items.mapM g) := by
  induction items with
  | nil => exact refl _
  | cons item items ih =>
    rw [List.mapM_cons, List.mapM_cons]
    exact (each item).bind fun _ => ih.map _

theorem foldlM {γ : Type} {items : List γ} {f g : α → γ → Attempt σ α}
    (each : ∀ x item, Follows grown (f x item) (g x item)) (x : α) :
    Follows grown (items.foldlM f x) (items.foldlM g x) := by
  induction items generalizing x with
  | nil => exact refl _
  | cons item items ih =>
    rw [List.foldlM_cons, List.foldlM_cons]
    exact (each x item).bind ih

end Attempt.Follows

open Attempt (Follows)
open Attempt.Follows

namespace Write

variable {w w' : Write α}

theorem follows_nested (follows : Follows grown w w') : Follows grown (nested w) (nested w') := by
  intro out
  by_cases full : out.depth ≥ maxNesting
  · simp only [nested, full, if_true, true_or]
  · refine (follows { out with depth := out.depth + 1 }).imp (fun same => ?_) ?_
    · simp only [nested, same]
    · rintro ⟨more, fault, after, failed⟩
      simp only [nested, full, if_false, failed]
      exact ⟨more, _, _, rfl⟩

theorem follows_within (type field : String) (follows : Follows grown w w') :
    Follows grown (within type field w) (within type field w') := by
  intro out
  refine (follows out).imp (fun same => ?_) ?_
  · simp only [within, same]
  · rintro ⟨more, fault, after, failed⟩
    simp only [within, failed]
    refine ⟨more, ?_⟩
    split <;> exact ⟨_, _, rfl⟩

theorem follows_tagged (v : Value) {payload payload' : Write Unit}
    (follows : Follows grown payload payload') :
    Follows grown (tagged v payload) (tagged v payload') := by
  unfold tagged
  split
  · exact refl _
  · exact behind _ fun _ => follows

theorem follows_declared (type : FieldType) (v : Value) {payload payload' : Write Unit}
    (follows : Follows grown payload payload') :
    Follows grown (declared type v payload) (declared type v payload') := by
  unfold declared
  split
  · exact refl _
  cases type with
  | any => exact follows_tagged v follows
  | record =>
    dsimp only
    split
    · exact refl _
    · exact follows
  | _ =>
    dsimp only
    repeat' split
    all_goals first
      | exact refl _
      | exact follows
      | exact behind _ fun _ => follows

theorem follows_typeTag (sees : c.Sees grown c') (name : String) :
    Follows grown (typeTag c name) (typeTag c' name) := by
  rcases sees name with same | ⟨more, none⟩
  · unfold typeTag
    rw [same]
    exact refl _
  · refine of_fails more fun out => ?_
    simp only [typeTag, none]
    exact ⟨_, _, rfl⟩

def Alike (grown : Prop) (c c' : Catalog) (v : Value) : Prop :=
  Follows grown (payload c v) (payload c' v)

section Values

variable {vs : List Value}

theorem follows_items (alike : ∀ v ∈ vs, Alike grown c c' v) :
    Follows grown (itemPayloads c vs) (itemPayloads c' vs) := by
  induction vs with
  | nil => exact refl _
  | cons v vs ih =>
    have first : Alike grown c c' v := alike v (by simp)
    exact (follows_tagged v first).bind fun _ => ih fun w mem => alike w (by simp [mem])

theorem follows_members {es : Members} (alike : ∀ e ∈ es, Alike grown c c' e.2) :
    Follows grown (memberPayloads c es) (memberPayloads c' es) := by
  induction es with
  | nil => exact refl _
  | cons e es ih =>
    have first : Alike grown c c' e.2 := alike e (by simp)
    exact behind _ fun _ =>
      (follows_tagged e.2 first).bind fun _ => ih fun w mem => alike w (by simp [mem])

theorem follows_fields (type : String) {fs : List Field}
    (alike : ∀ v ∈ vs, Alike grown c c' v) :
    Follows grown (fieldPayloads c type vs fs) (fieldPayloads c' type vs fs) := by
  induction vs generalizing fs with
  | nil => exact refl _
  | cons v vs ih =>
    cases fs with
    | nil => exact refl _
    | cons f fs =>
      have first : Alike grown c c' v := alike v (by simp)
      exact (follows_within type f.name (follows_declared f.type v first)).bind fun _ =>
        ih fun w mem => alike w (by simp [mem])

theorem record_fails {name : String} (none : c.get? name = none) (vs : List Value) (out : Output) :
    ∃ fault after, payload c (.record name vs) out = .error fault after := by
  simp only [payload, expectStreamable, none, typeTag, pure_bind]
  unfold nested
  split <;> exact ⟨_, _, rfl⟩

theorem alike_record (sees : c.Sees grown c') {name : String}
    (alike : ∀ v ∈ vs, Alike grown c c' v) : Alike grown c c' (.record name vs) := by
  rcases sees name with same | ⟨more, none⟩
  · have streamable : expectStreamable c' name = expectStreamable c name := by
      simp only [expectStreamable, same]
    simp only [Alike, payload, streamable]
    exact behind _ fun _ => follows_nested ((follows_typeTag sees name).bind fun type =>
      behind _ fun _ => follows_fields type.name alike)
  · exact of_fails more (record_fails none vs)

theorem alike (sees : c.Sees grown c') (v : Value) : Alike grown c c' v := by
  induction v using Value.induction with
  | flat v flat =>
    cases v with
    | list items | set members | record type fields => simp [Value.isFlat] at flat
    | _ => exact refl _
  | list items ih => exact follows_nested (behind _ fun _ => follows_items ih)
  | set members ih => exact follows_nested (behind _ fun _ => follows_members ih)
  | record name fields ih => exact alike_record sees ih

end Values

theorem follows_any (sees : c.Sees grown c') (v : Value) : Follows grown (any c v) (any c' v) :=
  follows_tagged v (alike sees v)

theorem follows_anyAll (sees : c.Sees grown c') (vs : List Value) :
    Follows grown (anyAll c vs) (anyAll c' vs) := by
  induction vs with
  | nil => exact refl _
  | cons v vs ih => exact (follows_any sees v).bind fun _ => ih

theorem follows_action (sees : c.Sees grown c') (a : Action) :
    Follows grown (action c a) (action c' a) := by
  cases a with
  | fieldSet v => exact follows_any sees v
  | elementAdd k v | elementUpdate k v => exact behind _ fun _ => follows_any sees v
  | elementRemove k => exact refl _
  | listSet position v => exact behind _ fun _ => follows_any sees v
  | message name arguments =>
    have rest := behind (text name) fun _ => behind (natural 2 arguments.length) fun _ =>
      follows_anyAll sees arguments
    simp only [action]
    split
    · exact behind _ fun _ => rest
    · exact rest

theorem follows_event (sees : c.Sees grown c') (e : Event) :
    Follows grown (event c e) (event c' e) :=
  behind _ fun _ => behind _ fun _ => behind _ fun _ => follows_action sees e.action

theorem follows_snapshot (sees : c.Sees grown c') (o : SharedObject) :
    Follows grown (o.writeSnapshot c) (o.writeSnapshot c') :=
  (follows_typeTag sees _).bind fun _ => behind _ fun _ =>
    follows_fields o.type.name fun v _ => alike sees v

theorem kept_bytesOf (follows : Follows grown w w') : Kept grown (bytesOf w) (bytesOf w') := by
  unfold bytesOf
  rcases follows .empty with same | ⟨more, fault, after, failed⟩
  · rw [same]
    exact .inl rfl
  · exact .inr ⟨more, fault, by rw [failed]⟩

end Write

namespace Read

variable {r r' : Read α}

theorem follows_deeper (follows : Follows grown r r') : Follows grown (deeper r) (deeper r') := by
  intro input
  refine (follows { input with depth := input.depth + 1 }).imp (fun same => ?_) ?_
  · simp only [deeper, same]
  · rintro ⟨more, fault, after, failed⟩
    simp only [deeper, failed]
    exact ⟨more, _, _, rfl⟩

theorem follows_typeTag (sees : c.Sees grown c') : Follows grown (typeTag c) (typeTag c') := by
  refine behind _ fun code => ?_
  split
  · exact refl _
  split
  · refine behind _ fun name => ?_
    rcases sees name with same | ⟨more, none⟩
    · rw [same]
      exact refl _
    · refine of_fails more fun input => ?_
      simp only [none]
      exact ⟨_, _, rfl⟩
  · exact refl _

inductive Paired (grown : Prop) : Option ValueReader → Option ValueReader → Prop
  | none : Paired grown none none
  | some {value value' : ValueReader} (follows : ∀ type, Follows grown (value type) (value' type)) :
    Paired grown (some value) (some value')

section Values

variable {below below' : Option ValueReader}

theorem follows_inside (paired : Paired grown below below')
    {contents contents' : ValueReader → Read α}
    (inner : ∀ value value', (∀ type, Follows grown (value type) (value' type)) →
      Follows grown (contents value) (contents' value')) :
    Follows grown (inside below contents) (inside below' contents') := by
  cases paired with
  | none => exact refl _
  | some follows => exact follows_deeper (inner _ _ follows)

theorem follows_times (n : Nat) (item : Follows grown r r') :
    Follows grown (times n r) (times n r') := mapM _ fun _ => item

theorem follows_membersWith (paired : Paired grown below below') :
    Follows grown (membersWith below) (membersWith below') :=
  follows_inside paired fun _ _ value => behind _ fun _ => foldlM
    (fun _ _ => behind _ fun _ => (value .any).bind fun _ => refl _) _

theorem follows_recordWith (sees : c.Sees grown c') (paired : Paired grown below below') :
    Follows grown (recordWith c below) (recordWith c' below') := by
  refine (follows_typeTag sees).bind fun tag => ?_
  split
  · exact refl _
  · rename_i type
    have fields := (follows_inside paired fun _ _ value =>
      mapM type.fields fun f => value f.type).map fun values => some (type.name, values)
    split
    · exact behind _ fun _ => fields
    · exact fields

theorem follows_payloadWith (sees : c.Sees grown c') (paired : Paired grown below below')
    (type : FieldType) : Follows grown (payloadWith c below type) (payloadWith c' below' type) := by
  cases type with
  | list => exact follows_inside paired fun _ _ value => behind _ fun n =>
      (follows_times n (value .any)).map _
  | set => exact (follows_membersWith paired).map _
  | record => exact (follows_recordWith sees paired).bind fun _ => refl _
  | _ => exact refl _

theorem follows_valueWith (sees : c.Sees grown c') (paired : Paired grown below below')
    (type : FieldType) : Follows grown (valueWith c below type) (valueWith c' below' type) := by
  have payload (type : FieldType) := follows_payloadWith sees paired type
  have marked (type : FieldType) :
      Follows grown (do if ← bool then payloadWith c below type else return .null)
        (do if ← bool then payloadWith c' below' type else return .null) := by
    refine behind _ fun present => ?_
    split
    · exact payload type
    · exact refl _
  have bare := payload type
  cases type with
  | any =>
    refine behind _ fun kind => ?_
    split
    · exact refl _
    · split
      · exact payload _
      · exact refl _
  | record => exact (follows_recordWith sees paired).bind fun _ => refl _
  | text | bytes | list | set => exact marked _
  | _ => exact bare

end Values

theorem paired_below (sees : c.Sees grown c') (room : Nat) :
    Paired grown (below c room) (below c' room) := by
  induction room with
  | zero => exact .none
  | succ room ih => exact .some (follows_valueWith sees ih)

theorem follows_here (sees : c.Sees grown c') {k l : Option ValueReader → Read α}
    (follows : ∀ below below', Paired grown below below' → Follows grown (k below) (l below')) :
    Follows grown (belowHere c >>= k) (belowHere c' >>= l) := by
  rw [belowHere_bind, belowHere_bind]
  exact behind _ fun _ => follows _ _ (paired_below sees _)

theorem follows_value (sees : c.Sees grown c') (type : FieldType) :
    Follows grown (value c type) (value c' type) :=
  follows_here sees fun _ _ paired => follows_valueWith sees paired type

theorem follows_members (sees : c.Sees grown c') : Follows grown (members c) (members c') :=
  follows_here sees fun _ _ => follows_membersWith

theorem follows_member (sees : c.Sees grown c') : Follows grown (member c) (member c') :=
  behind _ fun _ => (follows_value sees .any).map _

theorem follows_action (sees : c.Sees grown c') (kind : EventKind) :
    Follows grown (action c kind) (action c' kind) := by
  have any := follows_value sees .any
  cases kind with
  | fieldSet => exact any.map _
  | elementAdd | elementUpdate => exact (follows_member sees).map _
  | elementRemove => exact refl _
  | listSet => exact behind _ fun _ => any.map _
  | message => exact behind _ fun _ => behind _ fun n => (follows_times n any).map _

theorem follows_event (sees : c.Sees grown c') : Follows grown (event c) (event c') := by
  refine behind _ fun _ => behind _ fun _ => behind _ fun code => ?_
  split
  · exact (follows_action sees _).map _
  · exact refl _

theorem follows_snapshot (sees : c.Sees grown c') (id : ObjectId) :
    Follows grown (SharedObject.readSnapshot c id) (SharedObject.readSnapshot c' id) := by
  refine (follows_typeTag sees).bind fun tag => ?_
  split
  · exact refl _
  · rename_i type
    have fields := (mapM type.fields fun f => follows_value sees f.type).map
      fun values => (⟨id, .live, type, values, []⟩ : SharedObject)
    split
    · exact behind _ fun _ => fields
    · exact fields

theorem kept_whole (follows : Follows grown r r') (bytes : Octets) :
    Kept grown (whole r bytes) (whole r' bytes) := by
  rw [whole_eq, whole_eq]
  rcases follows (.ofOctets bytes) with same | ⟨more, fault, after, failed⟩
  · rw [same]
    exact .inl rfl
  · exact .inr ⟨more, fault, by rw [failed]⟩

end Read

/-- Under the second catalog every name, every writing and every reading comes out in this relation
to how it does under the first. -/
structure Catalog.Peers (R : {α : Type} → Except Fault α → Except Fault α → Prop)
    (c c' : Catalog) : Prop where
  resolve : ∀ name, R (c.resolve name) (c'.resolve name)
  encodeValue : ∀ type v, R (Value.encode c type v) (Value.encode c' type v)
  encodeMembers : ∀ es, R (Members.encode c es) (Members.encode c' es)
  encodeEvent : ∀ e, R (Event.encode c e) (Event.encode c' e)
  encodeObject : ∀ o, R (SharedObject.snapshot c o) (SharedObject.snapshot c' o)
  decodeValue : ∀ type bytes, R (Value.decode c type bytes) (Value.decode c' type bytes)
  decodeMembers : ∀ bytes, R (Members.decode c bytes) (Members.decode c' bytes)
  decodeEvent : ∀ bytes, R (Event.decode c bytes) (Event.decode c' bytes)
  decodeObject : ∀ id bytes,
    R (SharedObject.ofSnapshot c id bytes) (SharedObject.ofSnapshot c' id bytes)

namespace Catalog

theorem Sees.resolve (sees : c.Sees grown c') (name : String) :
    Kept grown (c.resolve name) (c'.resolve name) := by
  unfold Catalog.resolve
  rcases sees name with same | ⟨more, none⟩
  · rw [same]
    exact .inl rfl
  · rw [none]
    exact .inr ⟨more, _, rfl⟩

theorem Sees.peers (sees : c.Sees grown c')
    {R : {α : Type} → Except Fault α → Except Fault α → Prop}
    (kept : ∀ {α : Type} {result result' : Except Fault α},
      Kept grown result result' → R result result') : Peers R c c' where
  resolve name := kept (sees.resolve name)
  encodeValue type v :=
    kept (Write.kept_bytesOf (Write.follows_declared type v (Write.alike sees v)))
  encodeMembers es := kept (Write.kept_bytesOf (Write.alike sees (.set es)))
  encodeEvent e := kept (Write.kept_bytesOf (Write.follows_event sees e))
  encodeObject o := kept (Write.kept_bytesOf (Write.follows_snapshot sees o))
  decodeValue type := fun bytes => kept (Read.kept_whole (Read.follows_value sees type) bytes)
  decodeMembers bytes := kept (Read.kept_whole (Read.follows_members sees) bytes)
  decodeEvent bytes := kept (Read.kept_whole (Read.follows_event sees) bytes)
  decodeObject id := fun bytes => kept (Read.kept_whole (Read.follows_snapshot sees id) bytes)

/-- Where the same types were registered, in whatever order, every name stands for the same type,
everything is encoded to the same bytes or fails alike, and all bytes are read alike. Where more
types are registered later on, or only tried, all that was known, encoded or read before still is,
and in the same way. -/
theorem peers_agree :
    (∀ (ss ss' : List Schema) (c c' : Catalog), ss.Perm ss' → initial.registerAll ss = .ok c →
      initial.registerAll ss' = .ok c' → Peers (fun result result' => result = result') c c') ∧
    ∀ (c : Catalog) (ss : List Schema),
      Peers (fun result result' => ∀ a, result = .ok a → result' = .ok a) c (c.tryingAll ss) := by
  constructor
  · intro ss ss' c c' same one other
    have sees : c.Sees False c' := fun name => .inl (get?_eq_of_perm same one other name).symm
    exact sees.peers fun kept => (kept.resolve_right fun ⟨never, _⟩ => never).symm
  · intro c ss
    have sees : c.Sees True (c.tryingAll ss) := fun name => by
      cases known : c.get? name with
      | none => exact .inr ⟨trivial, rfl⟩
      | some t => exact .inl (extends_tryingAll c ss name t known)
    refine sees.peers fun kept a done => ?_
    rcases kept with same | ⟨-, fault, failed⟩
    · exact same.trans done
    · rw [failed] at done
      cases done

def spotSchema : Schema := ((Schema.streamable "Spot").extending "Mark").withField "place" .int

theorem peers_agree_spot :
    (∃ c c', initial.registerAll [.streamable "Mark", spotSchema, .streamable "Note"] = .ok c ∧
      initial.registerAll [.streamable "Note", .streamable "Mark", spotSchema] = .ok c' ∧
      c.resolve "Spot" = .ok ⟨"Spot", .streamable, ["Mark"], [⟨"place", .int⟩]⟩ ∧
      Peers (fun result result' => result = result') c c') ∧
    Value.decode markCatalog .record [255, 251, 0, 4, 77, 97, 114, 107] =
      .ok (.record "Mark" []) ∧
    Value.decode (markCatalog.tryingAll [.streamable "Mark", spotSchema]) .record
      [255, 251, 0, 4, 77, 97, 114, 107] = .ok (.record "Mark" []) := by
  obtain ⟨ordered, grown⟩ := peers_agree
  have one : ∃ c, initial.registerAll [.streamable "Mark", spotSchema, .streamable "Note"] = .ok c ∧
      c.resolve "Spot" = .ok ⟨"Spot", .streamable, ["Mark"], [⟨"place", .int⟩]⟩ := by
    simp [registerAll, register, resolution, inherited, resolve, get?, contains, initial, rootName,
      spotSchema, Schema.streamable, Schema.extending, Schema.withField, firstRepeat, maxFields,
      Except.map, Bind.bind, Except.bind, Pure.pure, Except.pure, Std.HashMap.getElem_insert]
  have other : ∃ c', initial.registerAll [.streamable "Note", .streamable "Mark", spotSchema] =
      .ok c' := by
    simp [registerAll, register, resolution, inherited, get?, contains, initial, rootName,
      spotSchema, Schema.streamable, Schema.extending, Schema.withField, firstRepeat, maxFields,
      Except.map, Bind.bind, Except.bind, Pure.pure, Except.pure]
  obtain ⟨c, one, known⟩ := one
  obtain ⟨c', other⟩ := other
  have same : [Schema.streamable "Mark", spotSchema, .streamable "Note"].Perm
      [.streamable "Note", .streamable "Mark", spotSchema] := by decide
  exact ⟨⟨c, c', one, other, known, ordered _ _ c c' same one other⟩, decode_mark,
    (grown _ _).decodeValue _ _ _ decode_mark⟩

end Catalog

end SharedObjects
