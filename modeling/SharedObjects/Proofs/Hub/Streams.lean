import SharedObjects.Proofs.Hub.Telling
/-!
What each endpoint is offered about an object, over a whole run. A snapshot comes with the number of
events published so far; from then on every event comes once and in its turn, for as long as the
endpoint is a subscriber; the end of the hosting is the last that anyone hears.
-/
set_option autoImplicit false

namespace SharedObjects

variable {τ : Type}

namespace Hub

/-- What a hub is in after the turns of a run. -/
structure Recalls (past : List (Turn τ)) (hub : Hub (Recorded τ)) : Prop where
  order : hub.InOrder
  hearers_eq : ∀ h, hub.audience h = hearers past h
  counted : Turn.Counted past hub
  /-- Of an object that has not been hosted yet no event was published. -/
  unpublished : ∀ h, (∀ o, hub.objectAt? h = some o → o.stage = .unregistered) →
    publications past h = 0
  /-- An object that was hosted once is not hosted again. -/
  gone : ∀ t ∈ past, ∀ h, t.unregisters h → ∃ o, hub.objectAt? h = some o ∧ o.stage = .removed

theorem recalls_new (c : Catalog) (carrier : τ) (config : HubConfig) :
    (Hub.new c ⟨carrier, []⟩ config).Recalls [] where
  order := inOrder_new c _ config
  hearers_eq := fun _ => rfl
  counted := fun _ _ held => by cases held
  unpublished := fun _ _ => List.countP_nil
  gone := fun _ mem => by cases mem

section Recalling

variable [Carrier τ] {past : List (Turn τ)} {t : Turn τ} {sent : List (EndpointId × Message)}
  {h : Handle}

theorem removed_of_unregisters (sends : t.Sends sent) (ends : t.unregisters h) :
    ∃ o, t.after.objectAt? h = some o ∧ o.stage = .removed := by
  obtain ⟨id, removed, named⟩ := Turn.unregisters_iff.mp ends
  obtain ⟨hosted, o, held, there⟩ := Outcome.unregisters sends removed
  have same : hosted.handle = h := by simpa [handle?, held] using named
  exact ⟨_, same ▸ there, rfl⟩

theorem Recalls.counted_next (recalls : t.before.Recalls past) (sends : t.Sends sent) :
    Turn.Counted (past ++ [t]) t.after := by
  intro id now held
  obtain ⟨before, entry, fate⟩ := Outcome.origin sends recalls.order held
  rw [publications_snoc]
  cases fate with
  | @arrives now h asked given =>
    have quiet : ¬t.publishes h := Turn.not_publishes (by rw [given]; rfl)
    have outcome : Outcome t.before (.register now h) (.ok (.registered id)) sent t.after :=
      asked ▸ given ▸ sends
    obtain ⟨o, shared, unregistered, -⟩ := outcome.registers
    have none : publications past h = 0 := recalls.unpublished h fun p there => by
      rw [shared] at there
      cases there
      exact unregistered
    rw [none, if_neg quiet]
    rfl
  | @stays hosted _ kept handle last tidy members =>
    have named : t.before.handle? id = some hosted.handle := by simp [handle?, entry]
    have published : t.publishes hosted.handle ↔ publication? t.answer = some id := by
      rw [Turn.publishes_iff]
      constructor
      · rintro ⟨other, published, there⟩
        obtain rfl := recalls.order.handle?_inj named there
        exact published
      · exact fun published => ⟨id, published, named⟩
    rw [last, handle, recalls.counted id hosted entry]
    by_cases here : publication? t.answer = some id
    · rw [if_pos here, if_pos (published.mpr here), Seq.next_ofNat]
    · rw [if_neg here, if_neg fun publishes => here (published.mp publishes), Nat.add_zero]

theorem Recalls.next (recalls : t.before.Recalls past) (sends : t.Sends sent) :
    t.after.Recalls (past ++ [t]) where
  order := Outcome.inOrder sends recalls.order
  hearers_eq := fun h => (hearers_snoc past t h).symm
  counted := recalls.counted_next sends
  unpublished := fun h still => by
    -- What is unregistered after the turn was so before it.
    have before (o : SharedObject) (shared : t.before.objectAt? h = some o) :
        o.stage = .unregistered := by
      obtain ⟨now, there, ages⟩ := Outcome.ages sends shared
      have stage := still now there
      cases ages with
      | stays _ same => exact same.symm.trans stage
      | starts => cases stage
      | ends => cases stage
    have quiet : ¬t.publishes h := fun publishes => by
      obtain ⟨id, -, named⟩ := Turn.publishes_iff.mp publishes
      obtain ⟨hosted, held, rfl⟩ := handle?_eq_some_iff.mp named
      obtain ⟨o, shared, -, live⟩ := (recalls.order.serves id hosted held).shared
      cases live.symm.trans (before o shared)
    rw [publications_snoc, recalls.unpublished h before, if_neg quiet]
  gone := fun u mem h ends => by
    rcases List.mem_append.mp mem with old | new
    · obtain ⟨o, shared, removed⟩ := recalls.gone u old h ends
      obtain ⟨now, there, ages⟩ := Outcome.ages sends shared
      refine ⟨now, there, ?_⟩
      cases ages with
      | stays _ same => exact same.trans removed
      | starts _ _ unregistered => cases unregistered.symm.trans removed
      | ends => rfl
    · obtain rfl := List.mem_singleton.mp new
      exact removed_of_unregisters sends ends

theorem Recalls.unregisters (recalls : t.before.Recalls past)
    (answered : t.answer = ((perform t.operation).outcome t.before).1) {now : Instant}
    {id : ObjectId} (asked : t.operation = .unregister now id)
    (named : t.before.handle? id = some h) : t.unregisters h := by
  obtain ⟨hosted, held, rfl⟩ := handle?_eq_some_iff.mp named
  obtain ⟨o, shared, -, live⟩ := (recalls.order.serves id hosted held).shared
  have granted : (perform (.unregister now id)).outcome t.before = (.ok (.unregistered _), _) :=
    outcome_answer (unregister_ok held shared live now)
  rw [asked, granted] at answered
  exact Turn.unregisters_iff.mpr ⟨id, by rw [answered]; rfl, named⟩

theorem Recalls.lawful (recalls : t.before.Recalls past) (sends : t.Sends sent)
    (answered : t.answer = ((perform t.operation).outcome t.before).1) : t.Lawful past where
  follows := recalls.hearers_eq
  legible := fun _ _ => sends.legible recalls.order
  tells := sends.tells recalls.order recalls.counted
  ends := fun _ _ _ => recalls.unregisters answered
  members := sends.members recalls.order

theorem Recalls.silent {u : Turn τ} (recalls : t.before.Recalls past) (sends : t.Sends sent)
    (mem : u ∈ past) (ends : u.unregisters h) (e : EndpointId) :
    t.told h e = [] ∧ e ∉ t.before.audience h := by
  have unhosted (id : ObjectId) : t.before.handle? id ≠ some h := by
    intro named
    obtain ⟨hosted, held, rfl⟩ := handle?_eq_some_iff.mp named
    obtain ⟨o, shared, -, live⟩ := (recalls.order.serves id hosted held).shared
    obtain ⟨p, there, removed⟩ := recalls.gone u mem _ ends
    obtain rfl : o = p := Option.some.inj (shared.symm.trans there)
    cases live.symm.trans removed
  have nobody := audience_eq_nil unhosted recalls.order
  refine ⟨?_, by simp [nobody]⟩
  have tells := sends.tells recalls.order recalls.counted h
  generalize t.told h = told at tells
  cases tells with
  | silence => rfl
  | snapshot _ _ _ named => exact absurd named (unhosted _)
  | event => simp [nobody]
  | removal => simp [nobody]

end Recalling

section Runs

variable {past during later : List (Turn τ)} {t : Turn τ} {h : Handle} {e : EndpointId}

theorem positions_told (lawful : t.Lawful past) (hears : e ∈ hearers past h) :
    (t.told h e).filterMap Message.position? =
      if t.publishes h then [.ofNat (publications past h + 1)] else [] := by
  have tells := lawful.tells h
  generalize t.told h = told at tells
  cases tells with
  | silence unpublished => simp [unpublished]
  | @snapshot id asker o body unpublished =>
    by_cases asks : e = asker <;> simp [asks, unpublished, Message.position?]
  | event published => simp [published, lawful.follows, hears, Message.position?]
  | removal ended =>
    have unpublished : ¬t.publishes h := Turn.not_publishes_of_unregisters ended
    simp [unpublished, lawful.follows, hears, Message.position?]

variable [Carrier τ]

theorem recalls_turn (past : List (Turn τ)) (hub : Hub (Recorded τ)) (s : HubStep τ)
    (recalls : hub.Recalls past) : (hub.turn s).before.Recalls past where
  order := recalls.order.carry _
  hearers_eq := recalls.hearers_eq
  counted := recalls.counted
  unpublished := recalls.unpublished
  gone := recalls.gone

theorem exists_recalls {c : Catalog} {config : HubConfig} {carrier : τ} {steps : List (HubStep τ)}
    (split : history c config carrier steps = past ++ t :: later) :
    t.before.Recalls past ∧ t.answer = ((perform t.operation).outcome t.before).1 ∧
      ∃ sent, t.Sends sent := by
  have step (past : List (Turn τ)) (hub : Hub (Recorded τ)) (s : HubStep τ)
      (recalls : hub.Recalls past) : (hub.turn s).after.Recalls (past ++ [hub.turn s]) := by
    obtain ⟨sent, sends⟩ := Turn.exists_sends hub s
    exact (recalls_turn past hub s recalls).next sends
  obtain ⟨now, s, rest, recalls, rfl, -⟩ :=
    play_induction step (recalls_new c carrier config) split
  exact ⟨recalls_turn past now s recalls, rfl, Turn.exists_sends now s⟩

/-- An endpoint that hears of an object and stays is offered every event in its turn. -/
theorem positions_eq {c : Catalog} {config : HubConfig} {carrier : τ} {steps : List (HubStep τ)}
    (split : history c config carrier steps = past ++ (during ++ later))
    (hears : e ∈ hearers past h) (stays : ∀ t ∈ during, ¬t.Leaves h e) :
    (during.flatMap fun t => t.told h e).filterMap Message.position? =
      (List.range' (publications past h + 1) (publications during h)).map .ofNat := by
  induction during generalizing past with
  | nil => rfl
  | cons t rest ih =>
    obtain ⟨recalls, answered, sent, sends⟩ := exists_recalls split
    have lawful := recalls.lawful sends answered
    have hears' : e ∈ hearers (past ++ [t]) h := by
      rw [hearers_snoc]
      exact (lawful.members h e).mpr (.inr ⟨lawful.follows h ▸ hears, stays t (.head _)⟩)
    have rest_eq := ih (by simpa using split) hears' fun u mem => stays u (.tail _ mem)
    rw [List.flatMap_cons, List.filterMap_append, rest_eq, positions_told lawful hears,
      publications_snoc, publications_cons]
    by_cases publishes : t.publishes h
    · simp [publishes, Nat.add_comm 1, List.range'_succ]
    · simp [publishes]

theorem kind_of_told {c : Catalog} {config : HubConfig} {carrier : τ} {steps : List (HubStep τ)}
    (split : history c config carrier steps = past ++ (during ++ later))
    (hears : e ∉ hearers past h) (stays : ∀ t ∈ during, ¬t.Joins h e) :
    ∀ t ∈ during, ∀ m ∈ t.told h e, m.kind = .snapshot := by
  induction during generalizing past with
  | nil => exact fun _ mem => (List.not_mem_nil mem).elim
  | cons t rest ih =>
    obtain ⟨recalls, answered, sent, sends⟩ := exists_recalls split
    have lawful := recalls.lawful sends answered
    have hears' : e ∉ hearers (past ++ [t]) h := by
      rw [hearers_snoc, lawful.members, lawful.follows]
      exact fun either => either.elim (stays t (.head _)) fun heard => hears heard.1
    have rest_eq := ih (by simpa using split) hears' fun u mem => stays u (.tail _ mem)
    refine List.forall_mem_cons.mpr ⟨fun m mem => ?_, rest_eq⟩
    have tells := lawful.tells h
    generalize t.told h = told at tells mem
    cases tells with
    | silence => cases mem
    | @snapshot id asker o body =>
      by_cases asks : e = asker
      · obtain rfl : m = _ := by simpa [asks] using mem
        rfl
      · simp [asks] at mem
    | event => simp [lawful.follows, hears] at mem
    | removal => simp [lawful.follows, hears] at mem

/-- What every endpoint is offered about every object, over any run of a new hub. Each turn is
lawful: a snapshot holds the object as it is and the number of its events so far, a published event
reaches every subscriber once, and nothing else is told but the end of the hosting, which is brought
about by whoever asks for it. After that end nobody is told anything more. An endpoint that joined
is offered all events from there on, each with the number after the one before, until it leaves; one
that left or never joined is offered none. -/
theorem streams_contiguous (c : Catalog) (config : HubConfig) (carrier : τ)
    (steps : List (HubStep τ)) :
    (∀ past t later, history c config carrier steps = past ++ t :: later → t.Lawful past) ∧
    (∀ past t between u later,
      history c config carrier steps = past ++ t :: (between ++ u :: later) →
      ∀ h, t.unregisters h → ∀ e, u.told h e = [] ∧ e ∉ u.before.audience h) ∧
    ∀ past during later, history c config carrier steps = past ++ (during ++ later) → ∀ h e,
      (e ∈ hearers past h → (∀ t ∈ during, ¬t.Leaves h e) →
        (during.flatMap fun t => t.told h e).filterMap Message.position? =
          (List.range' (publications past h + 1) (publications during h)).map .ofNat) ∧
      (e ∉ hearers past h → (∀ t ∈ during, ¬t.Joins h e) →
        ∀ t ∈ during, ∀ m ∈ t.told h e, m.kind = .snapshot) := by
  refine ⟨fun past t later split => ?_, fun past t between u later split h ends e => ?_,
    fun past during later split h e => ⟨positions_eq split, kind_of_told split⟩⟩
  · obtain ⟨recalls, answered, sent, sends⟩ := exists_recalls split
    exact recalls.lawful sends answered
  · have split : history c config carrier steps = (past ++ t :: between) ++ u :: later := by
      simpa using split
    obtain ⟨recalls, -, sent, sends⟩ := exists_recalls split
    exact recalls.silent sends (by simp) ends e

end Runs

end Hub

end SharedObjects
