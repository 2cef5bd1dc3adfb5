import SharedObjects.Proofs.Hub.Outcomes
/-!
Two hubs as one endpoint sees them. They are alike to it when they host the same objects, with the
same numbers, and have it as a subscriber alike; who else subscribes is left open. An operation that
is about no other endpoint is answered alike by both and leaves them alike, so it is followed on the
two hubs side by side, step by step.
-/
set_option autoImplicit false

namespace SharedObjects

variable {τ σ : Type}

/-- States of two carriers that agree on one endpoint: what they are offered for it they answer the
same way, and what either is offered for others makes no difference. -/
structure Carrier.Agree [Carrier τ] [Carrier σ] (a : EndpointId) (same : τ → σ → Prop) : Prop where
  answers : ∀ {t s} m, same t s → (send a m t).1 = (send a m s).1
  asked : ∀ {t s} m, same t s → same (send a m t).2 (send a m s).2
  left : ∀ {t s} e m, e ≠ a → same t s → same (send e m t).2 s
  right : ∀ {t s} e m, e ≠ a → same t s → same t (send e m s).2

/-- What an endpoint notices of a hosted object: how often it is told of an event is among it. -/
structure Sight where
  handle : Handle
  last : Seq
  hears : Nat

def Hosted.sight (a : EndpointId) (h : Hosted) : Sight :=
  ⟨h.handle, h.last, h.subscribers.endpoints.count a⟩

theorem Hosted.sight_eq_iff {a : EndpointId} {h k : Hosted} : h.sight a = k.sight a ↔
    h.handle = k.handle ∧ h.last = k.last ∧
      h.subscribers.endpoints.count a = k.subscribers.endpoints.count a := by
  simp [sight]

def Report.outline (r : Report) : Report := ⟨r.object, r.seq, 0, []⟩

def HubAnswer.outline : HubAnswer → HubAnswer
  | .published report => .published report.outline
  | .unregistered report => .unregistered report.outline
  | answer => answer

/-- The operation is not about another endpoint's subscriptions. -/
def HubOperation.concerns (op : HubOperation) (a : EndpointId) : Bool :=
  match op with
  | .subscribe _ e | .unsubscribe _ e | .disconnect e => e = a
  | _ => true

namespace Subscribers

variable {s t : Subscribers} {a e : EndpointId}

theorem contains_eq_of_count (same : s.endpoints.count a = t.endpoints.count a) :
    s.contains a = t.contains a := by
  rw [Bool.eq_iff_iff, contains, contains, List.contains_iff_mem, List.contains_iff_mem,
    ← List.count_pos_iff, same, List.count_pos_iff]

theorem count_add_self (same : s.endpoints.count a = t.endpoints.count a) :
    (s.add a).2.endpoints.count a = (t.add a).2.endpoints.count a := by
  have there := contains_eq_of_count same
  cases has : t.contains a <;> simp [add, there, has, endpoints] at same ⊢ <;> exact same

theorem count_add_of_ne (other : e ≠ a) :
    (s.add e).2.endpoints.count a = s.endpoints.count a := by
  unfold add
  split
  · rfl
  · simp [endpoints, other]

theorem count_remove_self : (s.remove a).2.endpoints.count a = 0 :=
  List.count_eq_zero.mpr fun mem => (mem_endpoints_remove.mp mem).2 rfl

theorem count_remove_of_ne (other : e ≠ a) :
    (s.remove e).2.endpoints.count a = s.endpoints.count a := by
  have kept : (s.remove e).2.endpoints = s.endpoints.filter (· ≠ e) := by
    simp [remove, cancel, endpoints, List.filter_map, Function.comp_def]
  rw [kept, List.count_filter (by simpa using other.symm)]

end Subscribers

def Hosted.AllTidy (entries : Entries ObjectId Hosted) : Prop :=
  ∀ id hosted, entries.get? id = some hosted → hosted.subscribers.Tidy

namespace Hosted.AllTidy

variable {entries : Entries ObjectId Hosted}

theorem put (tidy : AllTidy entries) (id : ObjectId) {hosted : Hosted}
    (here : hosted.subscribers.Tidy) : AllTidy (entries.put id hosted) := by
  intro other entry held
  by_cases same : other = id
  · subst same
    rw [Entries.get?_put_self] at held
    exact Option.some.inj held ▸ here
  · rw [Entries.get?_put_ne same] at held
    exact tidy other entry held

theorem erase (tidy : AllTidy entries) (id : ObjectId) : AllTidy (entries.erase id) := by
  intro other entry held
  rw [Entries.get?_erase] at held
  split at held
  · cases held
  · exact tidy other entry held

theorem remove (tidy : AllTidy entries) (e : EndpointId) : AllTidy (entries.map fun (id, h) =>
    (id, { h with subscribers := (h.subscribers.remove e).2 })) := by
  intro id entry held
  rw [Hub.get?_hosted_without] at held
  obtain ⟨hosted, there, rfl⟩ := Option.map_eq_some_iff.mp held
  exact (tidy id hosted there).remove e

end Hosted.AllTidy

/-- One endpoint sees the same in both tables, and is seen alike by either. -/
structure Hosted.Alike (a : EndpointId) (one other : Entries ObjectId Hosted) : Prop where
  seen : one.map (fun e => (e.1, e.2.sight a)) = other.map (fun e => (e.1, e.2.sight a))
  left : AllTidy one
  right : AllTidy other

namespace Hosted.Alike

variable {a : EndpointId} {one other : Entries ObjectId Hosted}

theorem symm (alike : Hosted.Alike a one other) : Hosted.Alike a other one :=
  ⟨alike.seen.symm, alike.right, alike.left⟩

theorem put (alike : Hosted.Alike a one other) (id : ObjectId) {hosted hosted' : Hosted}
    (sight : hosted.sight a = hosted'.sight a) (tidy : hosted.subscribers.Tidy)
    (tidy' : hosted'.subscribers.Tidy) :
    Hosted.Alike a (one.put id hosted) (other.put id hosted') := by
  refine ⟨?_, alike.left.put id tidy, alike.right.put id tidy'⟩
  rw [Entries.map_put (Hosted.sight a), Entries.map_put (Hosted.sight a), sight, alike.seen]

theorem erase (alike : Hosted.Alike a one other) (id : ObjectId) :
    Hosted.Alike a (one.erase id) (other.erase id) := by
  refine ⟨?_, alike.left.erase id, alike.right.erase id⟩
  rw [Entries.map_erase (Hosted.sight a), Entries.map_erase (Hosted.sight a), alike.seen]

end Hosted.Alike

theorem Hosted.sight_remove_self {a : EndpointId} {h k : Hosted} (sight : h.sight a = k.sight a) :
    Hosted.sight a { h with subscribers := (h.subscribers.remove a).2 } =
      Hosted.sight a { k with subscribers := (k.subscribers.remove a).2 } := by
  obtain ⟨handle, last, -⟩ := sight_eq_iff.mp sight
  refine sight_eq_iff.mpr ⟨handle, last, ?_⟩
  rw [Subscribers.count_remove_self, Subscribers.count_remove_self]

theorem Hosted.sight_remove_of_ne {a e : EndpointId} (stranger : e ≠ a) (h : Hosted) :
    Hosted.sight a { h with subscribers := (h.subscribers.remove e).2 } = h.sight a :=
  sight_eq_iff.mpr ⟨rfl, rfl, Subscribers.count_remove_of_ne stranger⟩

theorem Hosted.sight_add_of_ne {a e : EndpointId} (stranger : e ≠ a) (h : Hosted) :
    Hosted.sight a { h with subscribers := (h.subscribers.add e).2 } = h.sight a :=
  sight_eq_iff.mpr ⟨rfl, rfl, Subscribers.count_add_of_ne stranger⟩

namespace Carrier.Agree

variable [Carrier τ] [Carrier σ] {a : EndpointId} {same : τ → σ → Prop} {t : τ} {s : σ}

theorem symm (agree : Carrier.Agree a same) : Carrier.Agree a (flip same) where
  answers := fun m alike => (agree.answers m alike).symm
  asked := agree.asked
  left := agree.right
  right := agree.left

theorem sendAll_left (agree : Carrier.Agree a same) (m : Octets) {es : List EndpointId}
    (absent : a ∉ es) (alike : same t s) : same (sendAll m es t) s := by
  induction es generalizing t with
  | nil => exact alike
  | cons e es ih =>
    have others : e ≠ a := fun is => absent (is ▸ .head _)
    exact ih (fun mem => absent (.tail _ mem)) (agree.left e m others alike)

theorem sendAll (agree : Carrier.Agree a same) (m : Octets) {es es' : List EndpointId}
    (hears : es.count a = es'.count a) (alike : same t s) :
    same (sendAll m es t) (sendAll m es' s) := by
  induction es generalizing es' t s with
  | nil => exact agree.symm.sendAll_left m (List.count_eq_zero.mp hears.symm) alike
  | cons e es ih =>
    by_cases is : e = a
    · subst is
      rw [List.count_cons_self] at hears
      have mem : e ∈ es' := List.count_pos_iff.mp (by omega)
      obtain ⟨before, after, rfl, absent⟩ := List.eq_append_cons_of_mem mem
      rw [List.count_append, List.count_eq_zero.mpr absent, List.count_cons_self] at hears
      have reached := agree.symm.sendAll_left m absent alike
      simpa [Carrier.sendAll] using ih (by omega) (agree.asked m reached)
    · exact ih (by rwa [List.count_cons_of_ne is] at hears) (agree.left e m is alike)

end Carrier.Agree

namespace Hub

/-- Two hubs that one endpoint cannot tell apart. -/
structure Alike (a : EndpointId) (same : τ → σ → Prop) (one : Hub τ) (other : Hub σ) : Prop where
  catalog : one.catalog = other.catalog
  identifiers : one.identifiers = other.identifiers
  objects : one.objects = other.objects
  hosted : Hosted.Alike a one.hosted other.hosted
  carriers : same one.carrier other.carrier

/-- Two hubs have come alike out of the same action: both with a result, or both with the same
fault. -/
inductive Meet (a : EndpointId) (same : τ → σ → Prop) {α β : Type} (rel : α → β → Prop) :
    EStateM.Result Fault (Hub τ) α → EStateM.Result Fault (Hub σ) β → Prop
  | ok {x : α} {y : β} {one : Hub τ} {other : Hub σ} (related : rel x y)
    (alike : Alike a same one other) : Meet a same rel (.ok x one) (.ok y other)
  | error {fault : Fault} {one : Hub τ} {other : Hub σ} (alike : Alike a same one other) :
    Meet a same rel (.error fault one) (.error fault other)

variable {a : EndpointId} {same : τ → σ → Prop}

theorem Meet.bind {α β γ δ : Type} {rel : α → β → Prop} {rel' : γ → δ → Prop}
    {x : HubAction τ α} {y : HubAction σ β} {f : α → HubAction τ γ} {g : β → HubAction σ δ}
    {one : Hub τ} {other : Hub σ} (first : Meet a same rel (x one) (y other))
    (rest : ∀ {v w one other}, rel v w → Alike a same one other →
      Meet a same rel' (f v one) (g w other)) :
    Meet a same rel' ((x >>= f) one) ((y >>= g) other) := by
  simp only [Bind.bind, EStateM.bind]
  generalize x one = ran at first
  generalize y other = ran' at first
  cases first with
  | ok related alike => exact rest related alike
  | error alike => exact .error alike

theorem Meet.outcome {x : HubAction τ HubAnswer} {y : HubAction σ HubAnswer} {one : Hub τ}
    {other : Hub σ} (met : Meet a same (fun v w => v.outline = w.outline) (x one) (y other)) :
    (x.outcome one).1.map HubAnswer.outline = (y.outcome other).1.map HubAnswer.outline ∧
      Alike a same (x.outcome one).2 (y.outcome other).2 := by
  unfold Attempt.outcome
  generalize x one = ran at met
  generalize y other = ran' at met
  cases met with
  | ok related alike => exact ⟨congrArg Except.ok related, alike⟩
  | error alike => exact ⟨rfl, alike⟩

theorem Meet.get {α β : Type} {rel : α → β → Prop} {one : Hub τ} {other : Hub σ}
    {x : Hub τ → HubAction τ α} {y : Hub σ → HubAction σ β}
    (rest : Meet a same rel (x one one) (y other other)) :
    Meet a same rel ((get >>= x) one) ((get >>= y) other) := rest

theorem Meet.guard {α β : Type} {rel : α → β → Prop} {one : Hub τ} {other : Hub σ}
    (alike : Alike a same one other) {p : Prop} [Decidable p] {fault : Fault}
    {x : PUnit → HubAction τ α} {y : PUnit → HubAction σ β}
    (rest : ¬p → Meet a same rel (x ⟨⟩ one) (y ⟨⟩ other)) :
    Meet a same rel ((if p then throw fault >>= x else x ⟨⟩) one)
      ((if p then throw fault >>= y else y ⟨⟩) other) := by
  by_cases stops : p
  · rw [if_pos stops, if_pos stops]
    exact .error alike
  · rw [if_neg stops, if_neg stops]
    exact rest stops

section Pieces

variable {one : Hub τ} {other : Hub σ} (alike : Alike a same one other)

include alike

theorem Alike.symm : Alike a (flip same) other one :=
  ⟨alike.catalog.symm, alike.identifiers.symm, alike.objects.symm, alike.hosted.symm,
    alike.carriers⟩

theorem Meet.demand {α β γ : Type} {rel : β → γ → Prop} {x : α → HubAction τ β}
    {y : α → HubAction σ γ} (result : Except Fault α)
    (rest : ∀ v, Meet a same rel (x v one) (y v other)) :
    Meet a same rel ((Attempt.demand result >>= x) one) ((Attempt.demand result >>= y) other) := by
  cases result with
  | ok v => exact rest v
  | error fault => exact .error alike

theorem Alike.get? (id : ObjectId) :
    (one.hosted.get? id).map (Hosted.sight a) = (other.hosted.get? id).map (Hosted.sight a) := by
  rw [← Entries.get?_map, ← Entries.get?_map, alike.hosted.seen]

theorem Alike.objectAt? (h : Handle) : one.objectAt? h = other.objectAt? h := by
  rw [Hub.objectAt?, Hub.objectAt?, alike.objects]

theorem Meet.sharedAt {α β : Type} {rel : α → β → Prop} {x : SharedObject → HubAction τ α}
    {y : SharedObject → HubAction σ β} (h : Handle)
    (rest : ∀ o, Meet a same rel (x o one) (y o other)) :
    Meet a same rel ((sharedAt h >>= x) one) ((sharedAt h >>= y) other) := by
  cases shared : one.objectAt? h with
  | some o =>
    rw [Attempt.bind_ok (sharedAt_ok shared),
      Attempt.bind_ok (sharedAt_ok (alike.objectAt? h ▸ shared))]
    exact rest o
  | none =>
    rw [Attempt.bind_error (sharedAt_error shared),
      Attempt.bind_error (sharedAt_error (alike.objectAt? h ▸ shared))]
    exact .error alike

theorem Alike.held {id : ObjectId} {hosted : Hosted} (held : one.hosted.get? id = some hosted) :
    ∃ hosted', other.hosted.get? id = some hosted' ∧ hosted.sight a = hosted'.sight a := by
  have seen := alike.get? id
  rw [held] at seen
  obtain ⟨hosted', held', sight⟩ := Option.map_eq_some_iff.mp seen.symm
  exact ⟨hosted', held', sight.symm⟩

theorem Alike.object? (id : ObjectId) : one.object? id = other.object? id := by
  have seen := alike.get? id
  simp only [Hub.object?, Hub.objectAt?, alike.objects]
  cases held : one.hosted.get? id with
  | none =>
    rw [held] at seen
    rw [Option.map_eq_none_iff.mp seen.symm]
  | some hosted =>
    obtain ⟨hosted', held', sight⟩ := alike.held held
    have handle : hosted.handle = hosted'.handle := congrArg Sight.handle sight
    simp [held', handle]

theorem Alike.keys_eq : one.hosted.keys = other.hosted.keys := by
  have seen := congrArg (List.map Prod.fst) alike.hosted.seen
  rwa [List.map_map, List.map_map] at seen

theorem Alike.lastSeq? (id : ObjectId) : one.lastSeq? id = other.lastSeq? id := by
  have seen := congrArg (Option.map Sight.last) (alike.get? id)
  rwa [Option.map_map, Option.map_map] at seen

theorem Meet.hostedAt {α β : Type} {rel : α → β → Prop} {x : Hosted × SharedObject → HubAction τ α}
    {y : Hosted × SharedObject → HubAction σ β} (id : ObjectId)
    (rest : ∀ hosted hosted' o, hosted.sight a = hosted'.sight a → hosted.subscribers.Tidy →
      hosted'.subscribers.Tidy → Meet a same rel (x (hosted, o) one) (y (hosted', o) other)) :
    Meet a same rel ((hostedAt id >>= x) one) ((hostedAt id >>= y) other) := by
  rcases one.hosted_cases id with missing | ⟨hosted, o, held, shared⟩
  · rw [Attempt.bind_error (hostedAt_error missing),
      Attempt.bind_error (hostedAt_error (alike.object? id ▸ missing))]
    exact .error alike
  · obtain ⟨hosted', held', sight⟩ := alike.held held
    have handle : hosted.handle = hosted'.handle := congrArg Sight.handle sight
    have shared' : other.objectAt? hosted'.handle = some o := by
      rw [← handle, ← alike.objectAt?, shared]
    rw [Attempt.bind_ok (hostedAt_ok held shared), Attempt.bind_ok (hostedAt_ok held' shared')]
    exact rest hosted hosted' o sight (alike.hosted.left id hosted held)
      (alike.hosted.right id hosted' held')

theorem Alike.count (change change' : HubTally → HubTally) :
    Meet a same Eq (count change one) (count change' other) :=
  .ok rfl ⟨alike.catalog, alike.identifiers, alike.objects, alike.hosted, alike.carriers⟩

theorem Alike.putObject (h : Handle) (o : SharedObject) :
    Meet a same Eq (putObject h o one) (putObject h o other) :=
  .ok rfl ⟨alike.catalog, alike.identifiers, congrArg (·.set h.place o) alike.objects,
    alike.hosted, alike.carriers⟩

theorem Alike.putHosted (id : ObjectId) {hosted hosted' : Hosted}
    (sight : hosted.sight a = hosted'.sight a) (tidy : hosted.subscribers.Tidy)
    (tidy' : hosted'.subscribers.Tidy) :
    Meet a same Eq (putHosted id hosted one) (putHosted id hosted' other) :=
  .ok rfl ⟨alike.catalog, alike.identifiers, alike.objects,
    alike.hosted.put id sight tidy tidy', alike.carriers⟩

theorem Alike.retire (now : Instant) (id : ObjectId) : Meet a same Eq
    ((modify fun hub => { hub with
      hosted := hub.hosted.erase id
      identifiers := hub.identifiers.retire now id } : HubAction τ PUnit) one)
    ((modify fun hub => { hub with
      hosted := hub.hosted.erase id
      identifiers := hub.identifiers.retire now id } : HubAction σ PUnit) other) :=
  .ok rfl ⟨alike.catalog, congrArg (·.retire now id) alike.identifiers, alike.objects,
    alike.hosted.erase id, alike.carriers⟩

theorem Alike.applyAt (h : Handle) (e : Event) :
    Meet a same Eq (applyAt h e one) (applyAt h e other) := by
  refine .sharedAt alike h fun o => ?_
  refine .demand alike _ fun after => ?_
  refine (alike.putObject h after).bind fun _ alike => ?_
  exact .ok rfl ⟨alike.catalog, alike.identifiers, alike.objects, alike.hosted, alike.carriers⟩

theorem Alike.register (now : Instant) (h : Handle) :
    Meet a same Eq (register now h one) (register now h other) := by
  refine .sharedAt alike h fun o => ?_
  refine .guard alike fun _ => .get ?_
  rw [alike.identifiers]
  cases other.identifiers.allocate now with
  | none => exact .error alike
  | some found =>
    refine .demand alike _ fun live => ?_
    refine (alike.putObject h live).bind fun {_ _ one other} _ alike => ?_
    have moved : Alike a same { one with identifiers := found.2 }
        { other with identifiers := found.2 } :=
      ⟨alike.catalog, rfl, alike.objects, alike.hosted, alike.carriers⟩
    have modified : Meet a same Eq
        ((modify fun hub => { hub with identifiers := found.2 } : HubAction τ PUnit) one)
        ((modify fun hub => { hub with identifiers := found.2 } : HubAction σ PUnit) other) :=
      .ok rfl moved
    refine modified.bind fun _ alike => ?_
    have tidy := Subscribers.tidy_none
    refine (alike.putHosted found.1 rfl tidy tidy).bind fun _ alike => ?_
    refine (alike.count _ _).bind fun _ alike => ?_
    exact .ok rfl alike

theorem Alike.unsubscribe_self (id : ObjectId) :
    Meet a same Eq (unsubscribe id a one) (unsubscribe id a other) := by
  refine .get ?_
  cases held : one.hosted.get? id with
  | none =>
    have missing := alike.get? id
    rw [held] at missing
    rw [Option.map_eq_none_iff.mp missing.symm]
    exact .ok rfl alike
  | some hosted =>
    obtain ⟨hosted', held', sight⟩ := alike.held held
    rw [held']
    have was := Subscribers.contains_eq_of_count (Hosted.sight_eq_iff.mp sight).2.2
    have tidy := (alike.hosted.left id hosted held).remove a
    have tidy' := (alike.hosted.right id hosted' held').remove a
    exact (alike.putHosted id (Hosted.sight_remove_self sight) tidy tidy').bind fun _ alike =>
      .ok was alike

theorem Alike.disconnected_self :
    Meet a same Eq (endpointDisconnected a one) (endpointDisconnected a other) := by
  have held {υ : Type} (hub : Hub υ) :
      (hub.hosted.filter fun h => h.2.subscribers.contains a).length =
        (hub.hosted.map fun e => (e.1, e.2.sight a)).countP fun e => decide (0 < e.2.hears) := by
    rw [List.countP_map, ← List.countP_eq_length_filter]
    refine List.countP_congr fun e _ => ?_
    simp [Hosted.sight, Subscribers.contains, List.count_pos_iff]
  have cleared {υ : Type} (hub : Hub υ) :
      (hub.without a).hosted.map (fun e => (e.1, e.2.sight a)) =
        (hub.hosted.map fun e => (e.1, e.2.sight a)).map fun e =>
          (e.1, { e.2 with hears := 0 }) := by
    simp [without, Hosted.sight, Subscribers.count_remove_self]
  refine .ok ?_ ⟨alike.catalog, alike.identifiers, alike.objects,
    ⟨?_, alike.hosted.left.remove a, alike.hosted.right.remove a⟩, alike.carriers⟩
  · exact (held one).trans ((congrArg _ alike.hosted.seen).trans (held other).symm)
  · exact (cleared one).trans ((congrArg _ alike.hosted.seen).trans (cleared other).symm)

theorem Alike.unnoticed {id : ObjectId} {hosted now : Hosted}
    (held : one.hosted.get? id = some hosted) (sight : now.sight a = hosted.sight a)
    (tidy : now.subscribers.Tidy) :
    Alike a same { one with hosted := one.hosted.put id now } other := by
  refine ⟨alike.catalog, alike.identifiers, alike.objects,
    ⟨?_, alike.hosted.left.put id tidy, alike.hosted.right⟩, alike.carriers⟩
  have there : Entries.get? id (one.hosted.map fun e => (e.1, e.2.sight a)) =
      some (hosted.sight a) := by
    rw [Entries.get?_map, held]
    rfl
  rw [Entries.map_put (Hosted.sight a), sight, Entries.put_of_get? there, alike.hosted.seen]

end Pieces

section Sending

variable [Carrier τ] [Carrier σ] {one : Hub τ} {other : Hub σ} (agree : Carrier.Agree a same)
  (alike : Alike a same one other)

include agree alike

theorem Alike.offer (message : Octets) :
    Meet a same Eq (offer a message one) (offer a message other) := by
  rw [offer_eq, offer_eq]
  exact .ok (agree.answers message alike.carriers) ⟨alike.catalog, alike.identifiers,
    alike.objects, alike.hosted, agree.asked message alike.carriers⟩

theorem Alike.offerAll (message : Octets) {es es' : List EndpointId}
    (hears : es.count a = es'.count a) :
    Meet a same (fun _ _ => True) (offerAll message es one) (offerAll message es' other) := by
  rw [offerAll_ok, offerAll_ok]
  exact .ok trivial ⟨alike.catalog, alike.identifiers, alike.objects, alike.hosted,
    agree.sendAll message hears alike.carriers⟩

theorem Alike.fanOut (id : ObjectId) (body : Octets) :
    Meet a same (fun x y => x.outline = y.outline) (fanOut id body one) (fanOut id body other) := by
  refine .hostedAt alike id fun hosted hosted' o sight tidy tidy' => ?_
  obtain ⟨handle, last, hears⟩ := Hosted.sight_eq_iff.mp sight
  dsimp only
  rw [last, tidy.active_eq, tidy'.active_eq]
  refine .demand alike _ fun message => ?_
  have numbered (seq : Seq) :
      Hosted.sight a { hosted with last := seq } = Hosted.sight a { hosted' with last := seq } :=
    Hosted.sight_eq_iff.mpr ⟨handle, rfl, hears⟩
  refine (alike.putHosted id (numbered hosted'.last.next) tidy tidy').bind fun _ alike => ?_
  refine (alike.offerAll agree message hears).bind fun _ alike => ?_
  refine (alike.count _ _).bind fun _ alike => ?_
  exact .ok rfl alike

theorem Alike.publish (id : ObjectId) (e : Event) :
    Meet a same (fun x y => x.outline = y.outline) (publish id e one) (publish id e other) := by
  refine .hostedAt alike id fun hosted hosted' o sight _ _ => ?_
  refine .guard alike fun _ => .guard alike fun _ => .get ?_
  rw [alike.catalog]
  refine .demand alike _ fun body => ?_
  exact alike.fanOut agree id body

theorem Alike.post (id : ObjectId) (e : Event) :
    Meet a same (fun x y => x.outline = y.outline) (post id e one) (post id e other) := by
  refine .hostedAt alike id fun hosted hosted' o sight _ _ => ?_
  obtain ⟨handle, -, -⟩ := Hosted.sight_eq_iff.mp sight
  refine .guard alike fun _ => .get ?_
  rw [alike.catalog, handle]
  refine .demand alike _ fun body => ?_
  refine (alike.applyAt hosted'.handle e).bind fun _ alike => ?_
  exact alike.fanOut agree id body

theorem Alike.handleForward (message : Octets) :
    Meet a same (fun x y => x.outline = y.outline)
      (handleForward message one) (handleForward message other) := by
  refine .demand alike _ fun m => ?_
  cases m with
  | forwardEvent body =>
    refine .get ?_
    rw [alike.catalog]
    refine .demand alike _ fun e => ?_
    exact alike.post agree e.object e
  | snapshot _ _ _ | event _ _ | removed _ | subscribeFailed _ _ => exact .error alike

theorem Alike.unregister (now : Instant) (id : ObjectId) :
    Meet a same (fun x y => x.outline = y.outline) (unregister now id one)
      (unregister now id other) := by
  refine .hostedAt alike id fun hosted hosted' o sight _ _ => ?_
  obtain ⟨handle, last, hears⟩ := Hosted.sight_eq_iff.mp sight
  refine .guard alike fun _ => ?_
  dsimp only
  rw [handle, last]
  refine .demand alike _ fun message => ?_
  refine .demand alike _ fun leaving => ?_
  refine (alike.offerAll agree message hears).bind fun _ alike => ?_
  refine .demand alike _ fun removed => ?_
  refine (alike.putObject hosted'.handle removed).bind fun _ alike => ?_
  refine (alike.retire now id).bind fun _ alike => ?_
  refine (alike.count _ _).bind fun _ alike => ?_
  exact .ok rfl alike

theorem Alike.trySubscribe_self (id : ObjectId) :
    Meet a same Eq (trySubscribe id a one) (trySubscribe id a other) := by
  refine .hostedAt alike id fun hosted hosted' o sight tidy tidy' => ?_
  obtain ⟨handle, last, hears⟩ := Hosted.sight_eq_iff.mp sight
  refine .guard alike fun _ => .get ?_
  dsimp only
  rw [alike.catalog, last]
  refine .demand alike _ fun body => ?_
  refine .demand alike _ fun message => ?_
  refine (alike.offer agree message).bind ?_
  rintro answer _ one other rfl alike
  cases answer with
  | error fault => exact (alike.count _ _).bind fun _ alike => .error alike
  | ok _ =>
    have joined (seq : Seq) :
        Hosted.sight a ⟨hosted.handle, (hosted.subscribers.add a).2, seq⟩ =
          Hosted.sight a ⟨hosted'.handle, (hosted'.subscribers.add a).2, seq⟩ :=
      Hosted.sight_eq_iff.mpr ⟨handle, rfl, Subscribers.count_add_self hears⟩
    exact (alike.putHosted id (joined _) (tidy.add a) (tidy'.add a)).bind fun _ alike =>
      alike.count _ _

theorem Alike.refuse_self (id : ObjectId) (fault : Fault) :
    Meet a same Eq (refuseSubscription id a fault one) (refuseSubscription id a fault other) := by
  unfold refuseSubscription
  cases (Message.subscribeFailed id fault.text).encode with
  | ok message => exact (alike.offer agree message).bind fun _ alike => .ok rfl alike
  | error _ => exact .ok rfl alike

theorem Alike.subscribe_self (id : ObjectId) :
    Meet a same Eq (subscribe id a one) (subscribe id a other) := by
  have tried := alike.trySubscribe_self agree id
  unfold Hub.subscribe
  generalize trySubscribe id a one = ran at tried
  generalize trySubscribe id a other = ran' at tried
  cases tried with
  | ok related alike => exact .ok related alike
  | @error fault one other alike =>
    cases fault with
    | unknownObject missing =>
      exact (alike.refuse_self agree id _).bind fun _ alike => .error alike
    | _ => exact .error alike

theorem Alike.perform {op : HubOperation} (concerns : op.concerns a) :
    Meet a same (fun x y => x.outline = y.outline) (perform op one) (perform op other) := by
  cases op with
  | place o =>
    have placed : Meet a same Eq (place o one) (place o other) :=
      .ok (by rw [alike.objects]) ⟨alike.catalog, alike.identifiers,
        congrArg (· ++ [o]) alike.objects, alike.hosted, alike.carriers⟩
    exact placed.bind fun same alike => .ok (by rw [same]) alike
  | register now h => exact (alike.register now h).bind fun same alike => .ok (by rw [same]) alike
  | subscribe id e =>
    obtain rfl : e = a := by simpa [HubOperation.concerns] using concerns
    exact (alike.subscribe_self agree id).bind fun _ alike => .ok rfl alike
  | unsubscribe id e =>
    obtain rfl : e = a := by simpa [HubOperation.concerns] using concerns
    exact (alike.unsubscribe_self id).bind fun same alike => .ok (by rw [same]) alike
  | publish id event =>
    exact (alike.publish agree id event).bind fun same alike =>
      .ok (congrArg HubAnswer.published same) alike
  | post id event =>
    exact (alike.post agree id event).bind fun same alike =>
      .ok (congrArg HubAnswer.published same) alike
  | forward message =>
    exact (alike.handleForward agree message).bind fun same alike =>
      .ok (congrArg HubAnswer.published same) alike
  | unregister now id =>
    exact (alike.unregister agree now id).bind fun same alike =>
      .ok (congrArg HubAnswer.unregistered same) alike
  | disconnect e =>
    obtain rfl : e = a := by simpa [HubOperation.concerns] using concerns
    exact alike.disconnected_self.bind fun same alike => .ok (by rw [same]) alike

/-- What is about another endpoint makes no difference. -/
theorem Alike.stranger {op : HubOperation} {result : Except Fault HubAnswer}
    {sent : List (EndpointId × Message)} {after : Hub τ}
    (outcome : Outcome one op result sent after) (stranger : op.concerns a = false) :
    Alike a same after other := by
  have carried {e : EndpointId} {m : Octets} {carrier : τ} (apart : e ≠ a) (tally : HubTally)
      (sent : (Carrier.send e m one.carrier).2 = carrier) :
      Alike a same { one with carrier := carrier, tally := tally } other := by
    refine ⟨alike.catalog, alike.identifiers, alike.objects, alike.hosted, ?_⟩
    exact sent ▸ agree.left e m apart alike.carriers
  cases outcome with
  | failed => exact alike
  | missing e => exact carried (of_decide_eq_false stranger) one.tally rfl
  | refused _ refused =>
    exact carried (of_decide_eq_false stranger) _ (congrArg Prod.snd refused)
  | @subscribed id e hosted _ _ _ shows taken =>
    have reached := carried (of_decide_eq_false stranger)
      (one.tally.subscribe (hosted.subscribers.add e).1) (congrArg Prod.snd taken)
    have tidy := alike.hosted.left _ _ shows.held
    exact reached.unnoticed shows.held
      (Hosted.sight_add_of_ne (of_decide_eq_false stranger) hosted) (tidy.add e)
  | stranger => exact alike
  | @unsubscribed id e hosted held =>
    have tidy := alike.hosted.left _ _ held
    exact alike.unnoticed held
      (Hosted.sight_remove_of_ne (of_decide_eq_false stranger) hosted) (tidy.remove e)
  | disconnected e =>
    refine ⟨alike.catalog, alike.identifiers, alike.objects,
      ⟨?_, alike.hosted.left.remove e, alike.hosted.right⟩, alike.carriers⟩
    have kept : (one.without e).hosted.map (fun e => (e.1, e.2.sight a)) =
        one.hosted.map fun e => (e.1, e.2.sight a) := by
      simp [without, Hosted.sight_remove_of_ne (of_decide_eq_false stranger)]
    exact kept.trans alike.hosted.seen
  | _ => cases stranger

end Sending

end Hub

end SharedObjects
