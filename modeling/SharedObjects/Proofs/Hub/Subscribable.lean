import SharedObjects.Proofs.Hub.Operations
/-!
Whether an object can still be subscribed to. An accepted event fits the wire alone, where its value
stands outside every container; the object as a whole may have outgrown the wire since. Limits on
nesting, on distinct types and on the size of sets are all that has to be watched: whatever else a
snapshot asks for was settled when its values came in.
-/
set_option autoImplicit false

namespace SharedObjects

variable {c : Catalog}

/-- The wire has room for all that a value holds; how many members a set has is left aside. -/
structure Value.Storable (c : Catalog) (v : Value) : Prop where
  contents : ∀ w ∈ v.contents, w.Streamable c
  fits : v.Fits c ∨ ∃ members : Members, v = .set members ∧ ∀ e ∈ members, e.1.Fits

theorem Value.streamable_iff {v : Value} : v.Streamable c ↔
    v.Storable c ∧ ∀ members : Members, v = .set members → members.length ≤ maxLength := by
  constructor
  · intro streamable
    obtain ⟨fits, contents⟩ := forall_parts_iff.mp streamable
    refine ⟨⟨contents, .inl fits⟩, ?_⟩
    rintro members rfl
    exact fits.1
  · rintro ⟨⟨contents, fits⟩, small⟩
    refine forall_parts_iff.mpr ⟨fits.elim id ?_, contents⟩
    rintro ⟨members, rfl, keys⟩
    exact ⟨small members rfl, keys⟩

theorem Value.Streamable.storable {v : Value} (streamable : v.Streamable c) : v.Storable c :=
  (streamable_iff.mp streamable).1

theorem Revises.storable {declared : FieldType} {held v : Value} {action : Action}
    (revises : Revises declared held action v) (before : held.Storable c)
    (fits : action.Fits c) : v.Storable c := by
  have carried := fits.room.streamable
  by_cases came : v ∈ action.values
  · exact (carried v came).storable
  · refine ⟨fun w mem => ?_, ?_⟩
    · rcases revises.mem_contents mem with old | new | whole
      · exact before.contents w old
      · exact carried w new
      · exact absurd whole came
    · cases revises with
      | replaced _ => exact absurd (by simp [Action.values]) came
      | @changed change members after _ applied =>
        refine .inr ⟨after, rfl, fun e mem => ?_⟩
        rcases Members.mem_of_apply applied mem with old | new
        · rcases before.fits with fits | ⟨_, same, keys⟩
          · exact fits.2 e old
          · cases same
            exact keys e old
        · exact fits.keys e.1 new.1
      | placed _ =>
        rcases before.fits with fits | ⟨_, same, _⟩
        · exact .inl (by simpa [Value.Fits] using fits)
        · cases same
      | heard => exact before.fits

namespace SharedObject

variable {o after : SharedObject} {e : Event}

/-- An object is of a known type, and its fields hold what they accept and the wire can store. -/
structure Sound (c : Catalog) (o : SharedObject) : Prop where
  named : o.type.name.utf8ByteSize ≤ maxTextSize
  known : ∃ type, c.get? o.type.name = some type
  accepted : Value.Accepted o.values o.type.fields
  storable : ∀ v ∈ o.values, v.Storable c

/-- No field is nested too deep for a snapshot, its own type and the types its fields name can all
be given codes, and no set has too many members. -/
structure WithinLimits (o : SharedObject) : Prop where
  shallow : ∀ v ∈ o.values, v.nesting ≤ maxNesting
  coded : (Codes.useAll ∅ (o.type.name :: o.values.flatMap Value.typeNames)).size ≤ maxTypeCode
  small : ∀ members : Members, .set members ∈ o.values → members.length ≤ maxLength

theorem Sound.sendable_iff (sound : o.Sound c) : o.Sendable c ↔ o.WithinLimits := by
  constructor
  · intro ⟨_, _, room⟩
    refine ⟨fun v mem => by simpa using room.shallow v mem, room.coded, fun members mem => ?_⟩
    exact (Value.streamable_iff.mp (room.streamable _ mem)).2 members rfl
  · intro limits
    refine ⟨sound.named, sound.accepted, ?_, fun v mem => ?_, limits.coded⟩
    · intro v mem
      exact Value.streamable_iff.mpr ⟨sound.storable v mem, fun members same =>
        limits.small members (same ▸ mem)⟩
    · simpa using limits.shallow v mem

theorem Sound.snapshot_iff (sound : o.Sound c) :
    (∃ body, o.snapshot c = .ok body) ↔ o.WithinLimits := by
  obtain ⟨type, known⟩ := sound.known
  rw [← sound.sendable_iff]
  constructor
  · exact fun ⟨_, written⟩ => ((snapshot_eq_ok_iff known).mp written).1
  · exact fun sendable => ⟨_, (snapshot_eq_ok_iff known).mpr ⟨sendable, rfl⟩⟩

theorem Sound.of_snapshot {body : Octets} (written : o.snapshot c = .ok body) : o.Sound c := by
  obtain ⟨type, known⟩ := known_of_snapshot written
  obtain ⟨named, accepted, room⟩ := ((snapshot_eq_ok_iff known).mp written).1
  exact ⟨named, ⟨type, known⟩, accepted, fun v mem => (room.streamable v mem).storable⟩

theorem Sound.apply (sound : o.Sound c) (fits : e.action.Fits c) (applied : o.apply e = .ok after) :
    after.Sound c := by
  have type := type_of_apply applied
  refine ⟨type ▸ sound.named, type ▸ sound.known, accepted_of_apply applied sound.accepted, ?_⟩
  exact forall_values_of_apply applied sound.storable fun _ _ _ held revises =>
    revises.storable held fits

end SharedObject

inductive Request
  | post (id : ObjectId) (e : Event)
  | forward (message : Octets)

namespace Hub

open Attempt

variable {τ : Type} [Carrier τ] {hub after : Hub τ} {id : ObjectId}

def serve : Request → HubAction τ Report
  | .post id e => post id e
  | .forward message => handleForward message

def serveAll : List Request → HubAction τ Unit
  | [] => return
  | r :: rest => do
    let _ ← serve r
    serveAll rest

theorem serve_ok {r : Request} {report : Report} (served : serve r hub = .ok report after) :
    ∃ id e hosted o next body tally, hub.Takes id e hosted o next body ∧
      after = hub.published id hosted next e body tally := by
  have posted (id : ObjectId) (e : Event) (posted : post id e hub = .ok report after) :
      ∃ id e hosted o next body tally, hub.Takes id e hosted o next body ∧
        after = hub.published id hosted next e body tally := by
    obtain ⟨fault, refused⟩ | ⟨hosted, o, next, body, _, tally, takes, step⟩ := post_cases id e hub
    · rw [refused] at posted
      cases posted
    · rw [step] at posted
      cases posted
      exact ⟨id, e, hosted, o, next, body, tally, takes, rfl⟩
  cases r with
  | post id e => exact posted id e served
  | forward message =>
    rcases handleForward_cases message hub with ⟨fault, refused⟩ | ⟨_, e, _, _, step⟩
    · rw [serve, refused] at served
      cases served
    · rw [serve, step] at served
      exact posted _ e served

def HostsSound (hub : Hub τ) (id : ObjectId) : Prop :=
  ∃ hosted o, hub.hosted.get? id = some hosted ∧ hub.objectAt? hosted.handle = some o ∧
    o.stage = .live ∧ o.Sound hub.catalog

theorem HostsSound.serve {r : Request} {report : Report} (hosts : hub.HostsSound id)
    (served : Hub.serve r hub = .ok report after) : after.HostsSound id := by
  obtain ⟨hosted, o, held, shared, live, sound⟩ := hosts
  obtain ⟨id', e, hosted', o', next, body, tally, takes, rfl⟩ := serve_ok served
  have shared' := published_objectAt takes tally hosted.handle
  have handle : ∃ hosted'', (hub.published id' hosted' next e body tally).hosted.get? id =
      some hosted'' ∧ hosted''.handle = hosted.handle := by
    rw [published_hosted]
    split
    · subst id'
      obtain rfl : hosted' = hosted := by simpa [takes.held] using held
      exact ⟨_, rfl, rfl⟩
    · exact ⟨hosted, held, rfl⟩
  obtain ⟨hosted'', held'', handle⟩ := handle
  -- Whether this is the object that changed is a matter of handles: identifiers might share one.
  refine ⟨hosted'', if hosted.handle = hosted'.handle then next else o, held'', ?_⟩
  rw [handle, shared']
  by_cases same : hosted.handle = hosted'.handle
  · obtain rfl : o' = o := by simpa [same, takes.shared] using shared
    have fits := (Event.encode_eq_ok_iff.mp takes.encoded).1
    simp only [same, if_true, true_and]
    exact ⟨(SharedObject.stage_of_apply takes.applied).trans live, sound.apply fits takes.applied⟩
  · simp only [same, if_false]
    exact ⟨shared, live, sound⟩

theorem HostsSound.serveAll {requests : List Request} (hosts : hub.HostsSound id)
    (served : Hub.serveAll requests hub = .ok () after) : after.HostsSound id := by
  induction requests generalizing hub with
  | nil =>
    cases served
    exact hosts
  | cons r rest ih =>
    rw [Hub.serveAll] at served
    cases first : Hub.serve r hub with
    | error fault between =>
      rw [bind_error first] at served
      cases served
    | ok report between =>
      rw [bind_ok first] at served
      exact ih (hosts.serve first) served

theorem subscribe_ok_iff {hosted : Hosted} {o : SharedObject}
    (held : hub.hosted.get? id = some hosted) (shared : hub.objectAt? hosted.handle = some o)
    (live : o.stage = .live) {e : EndpointId}
    (takes : ∀ message, (Carrier.send e message hub.carrier).1 = .ok ()) :
    (∃ joined, subscribe id e hub = .ok () joined) ↔ ∃ body, o.snapshot hub.catalog = .ok body := by
  cases written : o.snapshot hub.catalog with
  | error fault => simp [subscribe_unwritten held shared live written]
  | ok body =>
    have sent : Carrier.send e (Message.snapshot id hosted.last body).wire hub.carrier =
        (.ok (), (Carrier.send e (Message.snapshot id hosted.last body).wire hub.carrier).2) :=
      Prod.ext (takes _) rfl
    obtain ⟨tally, step⟩ := subscribe_ok ⟨held, shared, live, written⟩ sent
    exact ⟨fun _ => ⟨body, rfl⟩, fun _ => ⟨_, step⟩⟩

/-- After accepted requests an object that could be subscribed to is hosted still, and can be
subscribed to exactly if it is within the limits of a snapshot. -/
theorem subscribable_iff {hosted : Hosted} {o : SharedObject} {body : Octets}
    (shows : hub.Shows id hosted o body) {requests : List Request}
    (served : Hub.serveAll requests hub = .ok () after) :
    ∃ hosted o, after.hosted.get? id = some hosted ∧ after.objectAt? hosted.handle = some o ∧
      ((∃ body, o.snapshot after.catalog = .ok body) ↔ o.WithinLimits) ∧
      ∀ e, (∀ message, (Carrier.send e message after.carrier).1 = .ok ()) →
        ((∃ joined, subscribe id e after = .ok () joined) ↔ o.WithinLimits) := by
  have hosts : hub.HostsSound id :=
    ⟨hosted, o, shows.held, shows.shared, shows.live, .of_snapshot shows.written⟩
  obtain ⟨hosted, o, held, shared, live, sound⟩ := hosts.serveAll served
  exact ⟨hosted, o, held, shared, sound.snapshot_iff, fun e takes =>
    (subscribe_ok_iff held shared live takes).trans sound.snapshot_iff⟩

end Hub

/-- A list in a list, and so on, around null. -/
def Value.tower : Nat → Value
  | 0 => .null
  | levels + 1 => .list [tower levels]

namespace Value

theorem nesting_tower (levels : Nat) : (tower levels).nesting = levels := by
  induction levels with
  | zero => rfl
  | succ levels ih =>
    rw [nesting_of_contents rfl]
    simp [tower, contents, deepest, ih]

theorem typeNames_tower (levels : Nat) : (tower levels).typeNames = [] := by
  induction levels with
  | zero => rfl
  | succ levels ih =>
    rw [typeNames_eq]
    simp [tower, contents, recordType?, ih]

theorem streamable_tower (levels : Nat) : (tower levels).Streamable c := by
  induction levels with
  | zero => exact forall_parts_iff.mpr ⟨trivial, by simp [tower, contents]⟩
  | succ levels ih =>
    refine forall_parts_iff.mpr ⟨by simp [tower, Fits, maxLength], fun w mem => ?_⟩
    obtain rfl : w = tower levels := by simpa [tower, contents] using mem
    exact ih

end Value

def logType : ResolvedType := ⟨"Log", .distributed, [rootName], [⟨"entries", .list⟩]⟩

def logCatalog : Catalog := ⟨Catalog.initial.types.insert "Log" logType⟩

def logOf (v : Value) : SharedObject := ⟨⟨1⟩, .live, logType, [.list [v]], []⟩

theorem get?_log : logCatalog.get? "Log" = some logType := by simp [logCatalog, Catalog.get?]

theorem register_log :
    Catalog.initial.register ((Schema.distributed "Log").withField "entries" .list) =
      .ok (logCatalog, logType) := by
  simp [Catalog.register, Catalog.resolution, Catalog.inherited, Schema.withField,
    Schema.distributed, Catalog.contains, Catalog.get?, logCatalog, logType, Catalog.initial,
    rootName, ResolvedType.root, firstRepeat, maxFields]

theorem sound_logOf {v : Value} (streamable : v.Streamable logCatalog) :
    (logOf v).Sound logCatalog := by
  have short : "Log".utf8ByteSize ≤ maxTextSize := by decide
  refine ⟨short, ⟨logType, get?_log⟩, .cons rfl .nil, fun w mem => ?_⟩
  obtain rfl : w = .list [v] := by simpa [logOf] using mem
  exact ⟨by simpa [Value.contents] using streamable, .inl (by simp [Value.Fits, maxLength])⟩

theorem withinLimits_logOf_iff {v : Value} (plain : v.typeNames = []) :
    (logOf v).WithinLimits ↔ v.nesting < maxNesting := by
  have nesting : (Value.list [v]).nesting = v.nesting + 1 := by simp [Value.nesting, Value.deepest]
  have names : (Value.list [v]).typeNames = [] := by
    rw [Value.typeNames_eq]
    simp [Value.recordType?, Value.contents, plain]
  constructor
  · intro limits
    have := limits.shallow (.list [v]) (by simp [logOf])
    omega
  · intro shallow
    refine ⟨fun w mem => ?_, ?_, by simp [logOf]⟩
    · obtain rfl : w = .list [v] := by simpa [logOf] using mem
      omega
    · simp [logOf, names, Codes.size_use_empty, maxTypeCode]

def logHub : Hub Tape :=
  Hub.hosting (.new logCatalog .blank .testing) ⟨1⟩
    { logOf .null with id := .none, stage := .unregistered } ⟨2, [], 0⟩ ⟨1, 0, 0, 0, 0, 0⟩

theorem make_logOf (v : Value) : SharedObject.make logCatalog "Log" [(0, .list [v])] =
    .ok { logOf v with id := .none, stage := .unregistered } := by
  simp [SharedObject.make, SharedObject.new, Catalog.resolve, get?_log, SharedObject.ofType]
  rfl

theorem make_log : SharedObject.make logCatalog "Log" [(0, .list [.null])] =
    .ok { logOf .null with id := .none, stage := .unregistered } := make_logOf .null

theorem host_log : Hub.host ⟨0⟩ { logOf .null with id := .none, stage := .unregistered }
    (.new logCatalog .blank .testing) = .ok ⟨1⟩ logHub := rfl

theorem shows_log : ∃ body, logHub.Shows ⟨1⟩ ⟨⟨0⟩, .none, .zero⟩ (logOf .null) body := by
  have limits := (withinLimits_logOf_iff (Value.typeNames_tower 0)).mpr (by decide)
  obtain ⟨body, written⟩ := (sound_logOf (Value.streamable_tower 0)).snapshot_iff.mpr limits
  exact ⟨body, rfl, rfl, rfl, written⟩

theorem takes_tower {levels : Nat} (shallow : levels ≤ maxNesting) :
    ∃ body, logHub.Takes ⟨1⟩ ⟨⟨1⟩, 0, .listSet 0 (.tower levels)⟩ ⟨⟨0⟩, .none, .zero⟩
      (logOf .null) (logOf (.tower levels)) body := by
  have fits : (Action.listSet 0 (.tower levels)).Fits logCatalog := by
    refine ⟨⟨?_, ?_, ?_⟩, by simp [Action.keys], nofun⟩
    · simpa [Action.values] using Value.streamable_tower levels
    · simpa [Action.values, Value.nesting_tower] using shallow
    · simp [Action.values, Value.typeNames_tower]
  exact ⟨_, rfl, rfl, rfl, Event.encode_eq_ok_iff.mpr ⟨fits, rfl⟩, rfl⟩

/-- A value can be written alone but not inside the list it is put in, so an accepted event may end
all subscriptions to its object. -/
theorem Hub.post_ends_subscriptions :
    Catalog.initial.register ((Schema.distributed "Log").withField "entries" .list) =
      .ok (logCatalog, logType) ∧
    ∃ (o : SharedObject) (after : Hub Tape),
      SharedObject.make logCatalog "Log" [(0, .list [.null])] = .ok o ∧
      Hub.host ⟨0⟩ o (.new logCatalog .blank .testing) = .ok ⟨1⟩ logHub ∧
      (∃ hosted o body, logHub.Shows ⟨1⟩ hosted o body) ∧
      (∃ report, Hub.post ⟨1⟩ ⟨⟨1⟩, 0, .listSet 0 (.tower 64)⟩ logHub = .ok report after) ∧
      ∀ e, ∃ cause, Hub.subscribe ⟨1⟩ e after = .error (.encoding cause) after := by
  obtain ⟨body, takes⟩ := takes_tower (Nat.le_refl 64)
  obtain ⟨report, tally, posted⟩ := Hub.post_ok takes
  have limits : ¬(logOf (.tower 64)).WithinLimits := by
    rw [withinLimits_logOf_iff (Value.typeNames_tower 64), Value.nesting_tower]
    decide
  refine ⟨register_log, _, _, make_log, host_log, ⟨_, _, shows_log⟩, ⟨report, posted⟩, ?_⟩
  intro endpoint
  cases unwritten : (logOf (.tower 64)).snapshot logCatalog with
  | ok body =>
    have sound := sound_logOf (Value.streamable_tower 64)
    exact absurd (sound.snapshot_iff.mp ⟨body, unwritten⟩) limits
  | error fault =>
    obtain ⟨cause, rfl⟩ := SharedObject.snapshot_error unwritten
    exact ⟨cause, Hub.subscribe_unwritten rfl rfl rfl unwritten endpoint⟩

theorem Hub.subscribable_iff_log : ∃ after : Hub Tape,
    Hub.serveAll [.post ⟨1⟩ ⟨⟨1⟩, 0, .listSet 0 (.tower 2)⟩] logHub = .ok () after ∧
    ∃ hosted o, after.hosted.get? ⟨1⟩ = some hosted ∧ after.objectAt? hosted.handle = some o ∧
      ((∃ body, o.snapshot after.catalog = .ok body) ↔ o.WithinLimits) ∧
      ∀ e, (∀ message, (Carrier.send e message after.carrier).1 = .ok ()) →
        ((∃ joined, Hub.subscribe ⟨1⟩ e after = .ok () joined) ↔ o.WithinLimits) := by
  obtain ⟨body, shows⟩ := shows_log
  obtain ⟨_, takes⟩ := @takes_tower 2 (by decide)
  obtain ⟨report, tally, posted⟩ := Hub.post_ok takes
  have served : ∃ after,
      Hub.serveAll [.post ⟨1⟩ ⟨⟨1⟩, 0, .listSet 0 (.tower 2)⟩] logHub = .ok () after := by
    rw [Hub.serveAll, Hub.serve, Attempt.bind_ok posted]
    exact ⟨_, rfl⟩
  obtain ⟨after, served⟩ := served
  exact ⟨after, served, Hub.subscribable_iff shows served⟩

end SharedObjects
