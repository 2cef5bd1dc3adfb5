import SharedObjects.Proofs.Hub.Alike
import SharedObjects.Proofs.Hub.Runs
import SharedObjects.Proofs.Hub.Subscribable
/-!
Endpoints do not disturb each other. In two runs that differ in nothing but the subscriptions of
other endpoints, and in how the carrier answers those, an endpoint is offered the same messages, all
that is about no other endpoint is answered the same way, and the same is hosted in the end.
-/
set_option autoImplicit false

namespace SharedObjects

variable {τ σ : Type}

def offeredTo (a : EndpointId) (offers : List (EndpointId × Octets)) : List Octets :=
  (offers.filter fun s => s.1 = a).map Prod.snd

/-- The operations that are about no other endpoint, in order, and what was answered. -/
def answersTo (a : EndpointId) (turns : List (Turn τ)) :
    List (HubOperation × Except Fault HubAnswer) :=
  (turns.filter fun t => t.operation.concerns a).map fun t =>
    (t.operation, t.answer.map HubAnswer.outline)

/-- Throughout a run, what the carrier says to a message for one endpoint hangs on nothing but the
messages it was offered for that endpoint before: in a state `t` with `after t ms`, on `ms`. -/
structure Carrier.Heeds [Carrier τ] (a : EndpointId)
    (verdict : List Octets → Octets → Except DeliveryFault Unit) (after : τ → List Octets → Prop)
    (carrier : τ) (steps : List (HubStep τ)) : Prop where
  start : after carrier []
  answers : ∀ t ms m, after t ms → (send a m t).1 = verdict ms m
  offered : ∀ t ms m, after t ms → after (send a m t).2 (ms ++ [m])
  others : ∀ t ms e m, e ≠ a → after t ms → after (send e m t).2 ms
  idle : ∀ s ∈ steps, ∀ t ms, after t ms → after (s.meanwhile t) ms

inductive Aligned (a : EndpointId) : List (HubStep τ) → List (HubStep σ) → Prop
  | nil : Aligned a [] []
  | both {s : HubStep τ} {s' : HubStep σ} {steps : List (HubStep τ)} {steps' : List (HubStep σ)}
    (concerns : s.operation.concerns a) (same : s.operation = s'.operation)
    (rest : Aligned a steps steps') : Aligned a (s :: steps) (s' :: steps')
  | left {s : HubStep τ} {steps : List (HubStep τ)} {steps' : List (HubStep σ)}
    (stranger : s.operation.concerns a = false) (rest : Aligned a steps steps') :
    Aligned a (s :: steps) steps'
  | right {s' : HubStep σ} {steps : List (HubStep τ)} {steps' : List (HubStep σ)}
    (stranger : s'.operation.concerns a = false) (rest : Aligned a steps steps') :
    Aligned a steps (s' :: steps')

theorem Aligned.of_filter_eq {a : EndpointId} {steps : List (HubStep τ)} :
    ∀ {steps' : List (HubStep σ)}, (steps.map HubStep.operation).filter (·.concerns a) =
      (steps'.map HubStep.operation).filter (·.concerns a) → Aligned a steps steps' := by
  induction steps with
  | nil =>
    intro steps' same
    induction steps' with
    | nil => exact .nil
    | cons s' rest' ih =>
      cases about : s'.operation.concerns a with
      | true => simp [about] at same
      | false => exact .right about (ih (by simpa [about] using same))
  | cons s rest ih =>
    intro steps' same
    cases about : s.operation.concerns a with
    | false => exact .left about (ih (by simpa [about] using same))
    | true =>
      induction steps' with
      | nil => simp [about] at same
      | cons s' rest' ih' =>
        cases about' : s'.operation.concerns a with
        | false => exact .right about' (ih' (by simpa [about'] using same))
        | true =>
          obtain ⟨first, later⟩ : s.operation = s'.operation ∧ _ := by
            simpa [about, about'] using same
          exact .both about first (ih (by simpa using later))

def Recorded.Level (a : EndpointId) (after : τ → List Octets → Prop)
    (after' : σ → List Octets → Prop) (r : Recorded τ) (s : Recorded σ) : Prop :=
  ∃ ms, after r.carrier ms ∧ after' s.carrier ms ∧
    offeredTo a r.offers = ms ∧ offeredTo a s.offers = ms

theorem offeredTo_self (a : EndpointId) (offers : List (EndpointId × Octets)) (m : Octets) :
    offeredTo a (offers ++ [(a, m)]) = offeredTo a offers ++ [m] := by
  simp [offeredTo]

theorem offeredTo_of_ne {a e : EndpointId} (stranger : e ≠ a)
    (offers : List (EndpointId × Octets)) (m : Octets) :
    offeredTo a (offers ++ [(e, m)]) = offeredTo a offers := by
  simp [offeredTo, stranger]

section Carrying

variable [Carrier τ] [Carrier σ] {a : EndpointId}
  {verdict : List Octets → Octets → Except DeliveryFault Unit} {after : τ → List Octets → Prop}
  {after' : σ → List Octets → Prop} {carrier : τ} {carrier' : σ} {steps : List (HubStep τ)}
  {steps' : List (HubStep σ)}

theorem Carrier.Heeds.agree (heeds : Carrier.Heeds a verdict after carrier steps)
    (heeds' : Carrier.Heeds a verdict after' carrier' steps') :
    Carrier.Agree a (Recorded.Level a after after') where
  answers := by
    rintro r s m ⟨ms, here, there, -, -⟩
    exact (heeds.answers _ ms m here).trans (heeds'.answers _ ms m there).symm
  asked := by
    rintro r s m ⟨ms, here, there, offers, offers'⟩
    refine ⟨ms ++ [m], heeds.offered _ ms m here, heeds'.offered _ ms m there, ?_, ?_⟩
    · exact (offeredTo_self a r.offers m).trans (by rw [offers])
    · exact (offeredTo_self a s.offers m).trans (by rw [offers'])
  left := by
    rintro r s e m stranger ⟨ms, here, there, offers, offers'⟩
    exact ⟨ms, heeds.others _ ms e m stranger here, there,
      (offeredTo_of_ne stranger r.offers m).trans offers, offers'⟩
  right := by
    rintro r s e m stranger ⟨ms, here, there, offers, offers'⟩
    exact ⟨ms, here, heeds'.others _ ms e m stranger there, offers,
      (offeredTo_of_ne stranger s.offers m).trans offers'⟩

namespace Hub

def finish (hub : Hub (Recorded τ)) (steps : List (HubStep τ)) : Hub (Recorded τ) :=
  steps.foldl (fun hub s => (hub.turn s).after) hub

theorem answersTo_play (a : EndpointId) (hub : Hub (Recorded τ)) (s : HubStep τ)
    (rest : List (HubStep τ)) : answersTo a (hub.play (s :: rest)) =
      if s.operation.concerns a then
        (s.operation, (hub.turn s).answer.map HubAnswer.outline) ::
          answersTo a ((hub.turn s).after.play rest)
      else answersTo a ((hub.turn s).after.play rest) := by
  have asked : (hub.turn s).operation = s.operation := rfl
  simp only [answersTo, play, List.filter_cons, asked]
  split <;> rfl

variable {same : Recorded τ → Recorded σ → Prop} {one : Hub (Recorded τ)}
  {other : Hub (Recorded σ)}

/-- What happens to the carrier meanwhile is nothing that the endpoint notices. -/
def Quiet (same : Recorded τ → Recorded σ → Prop) (s : HubStep τ) : Prop :=
  ∀ r r', same r r' → same { r with carrier := s.meanwhile r.carrier } r'

omit [Carrier σ] in
theorem Alike.before (alike : Alike a same one other) {s : HubStep τ} (quiet : Quiet same s) :
    Alike a same (one.turn s).before other :=
  ⟨alike.catalog, alike.identifiers, alike.objects, alike.hosted, quiet _ _ alike.carriers⟩

theorem Alike.left (alike : Alike a same one other) (agree : Carrier.Agree a same) {s : HubStep τ}
    (quiet : Quiet same s) (stranger : s.operation.concerns a = false) :
    Alike a same (one.turn s).after other := by
  obtain ⟨sent, outcome⟩ := comes s.operation (one.turn s).before
  exact (alike.before quiet).stranger agree outcome stranger

theorem Alike.both (alike : Alike a same one other) (agree : Carrier.Agree a same) {s : HubStep τ}
    {s' : HubStep σ} (quiet : Quiet same s) (quiet' : Quiet (flip same) s')
    (concerns : s.operation.concerns a) (asked : s.operation = s'.operation) :
    (one.turn s).answer.map HubAnswer.outline = (other.turn s').answer.map HubAnswer.outline ∧
      Alike a same (one.turn s).after (other.turn s').after := by
  have before := ((alike.before quiet).symm.before quiet').symm
  obtain ⟨meanwhile, operation⟩ := s'
  subst asked
  exact (before.perform agree concerns).outcome

theorem Alike.play (alike : Alike a same one other) (agree : Carrier.Agree a same)
    (aligned : Aligned a steps steps') (quiet : ∀ s ∈ steps, Quiet same s)
    (quiet' : ∀ s ∈ steps', Quiet (flip same) s) :
    answersTo a (one.play steps) = answersTo a (other.play steps') ∧
      Alike a same (one.finish steps) (other.finish steps') := by
  induction aligned generalizing one other with
  | nil => exact ⟨rfl, alike⟩
  | both concerns asked rest ih =>
    obtain ⟨quiet, later⟩ := List.forall_mem_cons.mp quiet
    obtain ⟨quiet', later'⟩ := List.forall_mem_cons.mp quiet'
    obtain ⟨answer, next⟩ := alike.both agree quiet quiet' concerns asked
    obtain ⟨answers, final⟩ := ih next later later'
    refine ⟨?_, final⟩
    rw [answersTo_play, answersTo_play, if_pos concerns, if_pos (asked ▸ concerns), asked, answer,
      answers]
  | left stranger rest ih =>
    obtain ⟨quiet, later⟩ := List.forall_mem_cons.mp quiet
    obtain ⟨answers, final⟩ := ih (alike.left agree quiet stranger) later quiet'
    refine ⟨?_, final⟩
    rw [answersTo_play, if_neg (Bool.eq_false_iff.mp stranger), answers]
  | right stranger rest ih =>
    obtain ⟨quiet', later'⟩ := List.forall_mem_cons.mp quiet'
    obtain ⟨answers, final⟩ := ih (alike.symm.left agree.symm quiet' stranger).symm quiet later'
    refine ⟨?_, final⟩
    rw [answersTo_play, if_neg (Bool.eq_false_iff.mp stranger), answers]

/-- Other endpoints come and go, or are out of reach, and it makes no difference to this one. The
two runs may differ in what is asked about subscriptions of others and in what the carrier says to
messages for others. This endpoint is offered the same messages in the same order, and whatever is
asked that is about no other endpoint has the same result or the same fault, reports agreeing on the
object and the number. The same identifiers are in use in the end, with the same objects and
numbers. -/
theorem isolated (c : Catalog) (config : HubConfig)
    (heeds : Carrier.Heeds a verdict after carrier steps)
    (heeds' : Carrier.Heeds a verdict after' carrier' steps')
    (asked : (steps.map HubStep.operation).filter (·.concerns a) =
      (steps'.map HubStep.operation).filter (·.concerns a)) :
    let one := (Hub.new c ⟨carrier, []⟩ config).finish steps
    let other := (Hub.new c ⟨carrier', []⟩ config).finish steps'
    offeredTo a one.carrier.offers = offeredTo a other.carrier.offers ∧
    answersTo a (history c config carrier steps) =
      answersTo a (history c config carrier' steps') ∧
    one.objects = other.objects ∧ one.hosted.keys = other.hosted.keys ∧
    ∀ id, one.lastSeq? id = other.lastSeq? id ∧ one.object? id = other.object? id := by
  intro one other
  have start : Alike a (Recorded.Level a after after') (Hub.new c ⟨carrier, []⟩ config)
      (Hub.new c ⟨carrier', []⟩ config) :=
    ⟨rfl, rfl, rfl, ⟨rfl, nofun, nofun⟩, [], heeds.start, heeds'.start, rfl, rfl⟩
  have quiet (s : HubStep τ) (mem : s ∈ steps) : Quiet (Recorded.Level a after after') s := by
    rintro r r' ⟨ms, here, there, offers⟩
    exact ⟨ms, heeds.idle s mem _ ms here, there, offers⟩
  have quiet' (s : HubStep σ) (mem : s ∈ steps') :
      Quiet (flip (Recorded.Level a after after')) s := by
    rintro r r' ⟨ms, here, there, offers⟩
    exact ⟨ms, here, heeds'.idle s mem _ ms there, offers⟩
  obtain ⟨answers, final⟩ := start.play (heeds.agree heeds') (.of_filter_eq asked) quiet quiet'
  obtain ⟨ms, -, -, offers, offers'⟩ := final.carriers
  exact ⟨offers.trans offers'.symm, answers, final.objects, final.keys_eq, fun id =>
    ⟨final.lastSeq? id, final.object? id⟩⟩

end Hub

end Carrying

theorem Tape.heeds {a : EndpointId} {carrier : Tape} {steps : List (HubStep Tape)}
    (works : carrier.failing.get? a = none)
    (still : ∀ s ∈ steps, ∀ t : Tape, t.failing.get? a = none →
      (s.meanwhile t).failing.get? a = none) :
    Carrier.Heeds a (fun _ _ => .ok ()) (fun t _ => t.failing.get? a = none) carrier steps where
  start := works
  answers := fun t _ m works => by simp [Carrier.send, Tape.send, works]
  offered := fun t _ m works => by simp [Carrier.send, Tape.send, works]
  others := fun t _ e m _ works => by
    simp only [Carrier.send, Tape.send]
    split <;> exact works
  idle := fun s mem t _ works => still s mem t works

def quietRun : List (HubStep Tape) :=
  [⟨id, .place { logOf .null with id := .none, stage := .unregistered }⟩, ⟨id, .register ⟨0⟩ ⟨0⟩⟩,
    ⟨id, .subscribe ⟨1⟩ ⟨1⟩⟩, ⟨id, .post ⟨1⟩ ⟨⟨1⟩, 0, .listSet 0 (.tower 2)⟩⟩,
    ⟨id, .unregister ⟨0⟩ ⟨1⟩⟩]

/-- A second endpoint hears of the log as well, and can be reached no more after a while. -/
def busyRun : List (HubStep Tape) :=
  [⟨id, .place { logOf .null with id := .none, stage := .unregistered }⟩, ⟨id, .register ⟨0⟩ ⟨0⟩⟩,
    ⟨id, .subscribe ⟨1⟩ ⟨2⟩⟩, ⟨id, .subscribe ⟨1⟩ ⟨1⟩⟩,
    ⟨fun t => t.setFailing ⟨2⟩ (some .disconnected),
      .post ⟨1⟩ ⟨⟨1⟩, 0, .listSet 0 (.tower 2)⟩⟩,
    ⟨id, .disconnect ⟨2⟩⟩, ⟨id, .unregister ⟨0⟩ ⟨1⟩⟩]

namespace Hub

theorem isolated_log :
    let one := (Hub.new logCatalog ⟨Tape.blank, []⟩ .testing).finish quietRun
    let other := (Hub.new logCatalog ⟨Tape.blank, []⟩ .testing).finish busyRun
    (quietRun.map HubStep.operation).filter (·.concerns ⟨1⟩) =
      (busyRun.map HubStep.operation).filter (·.concerns ⟨1⟩) ∧
    offeredTo ⟨1⟩ one.carrier.offers = offeredTo ⟨1⟩ other.carrier.offers ∧
    answersTo ⟨1⟩ (history logCatalog .testing .blank quietRun) =
      answersTo ⟨1⟩ (history logCatalog .testing .blank busyRun) ∧
    one.objects = other.objects ∧ one.hosted.keys = other.hosted.keys ∧
    ∀ id, one.lastSeq? id = other.lastSeq? id ∧ one.object? id = other.object? id := by
  have quiet : ∀ s ∈ quietRun, ∀ t : Tape, t.failing.get? ⟨1⟩ = none →
      (s.meanwhile t).failing.get? ⟨1⟩ = none := by
    simp [quietRun]
  have busy : ∀ s ∈ busyRun, ∀ t : Tape, t.failing.get? ⟨1⟩ = none →
      (s.meanwhile t).failing.get? ⟨1⟩ = none := by
    simp [busyRun, Tape.setFailing, Entries.get?_put_ne]
  exact ⟨rfl, isolated logCatalog .testing (Tape.heeds rfl quiet) (Tape.heeds rfl busy) rfl⟩

end Hub

end SharedObjects
