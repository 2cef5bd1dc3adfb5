import Mathlib.Data.List.Induction
import SharedObjects.Hub.Channels
import SharedObjects.Proofs.Steps
/-!
Channels told by what was done with them. Every connection opens a receiver, and what is sent to the
endpoint from then on goes to that receiver, until the endpoint is connected again or disconnected.
These turns are the tenure of the receiver; what it has not taken out by then it may take out later.
-/
set_option autoImplicit false

namespace SharedObjects

/-- What can be done with channels. Receivers are numbered as they were opened. -/
inductive ChannelStep
  | connect (e : EndpointId)
  | disconnect (e : EndpointId)
  | send (e : EndpointId) (message : Octets)
  | receive (n : Nat)
  | dropReceiver (n : Nat)
  deriving DecidableEq

inductive ChannelAnswer
  | connected (n : Nat)
  | disconnected (was : Bool)
  | sent (answer : Except DeliveryFault Unit)
  | found (reception : Reception)
  | dropped

structure ChannelTurn where
  step : ChannelStep
  answer : ChannelAnswer

/-- From here on messages for this endpoint go somewhere else. -/
def ChannelStep.Reroutes (s : ChannelStep) (e : EndpointId) : Prop :=
  s = .connect e ∨ s = .disconnect e

def ChannelStep.caller? : ChannelStep → Option EndpointId
  | .connect e => some e
  | _ => none

theorem ChannelStep.caller?_eq_some_iff {s : ChannelStep} {e : EndpointId} :
    s.caller? = some e ↔ s = .connect e := by
  cases s <;> simp [caller?]

namespace ChannelTurn

def accepted? (e : EndpointId) : ChannelTurn → Option Octets
  | ⟨.send e' message, .sent (.ok ())⟩ => if e' = e then some message else none
  | _ => none

def received? (n : Nat) : ChannelTurn → Option Octets
  | ⟨.receive n', .found (.message bytes)⟩ => if n' = n then some bytes else none
  | _ => none

def drops (n : Nat) (t : ChannelTurn) : Bool := t.step = .dropReceiver n

theorem received?_found (n m : Nat) (fed : Bool) (found : Option Octets) :
    received? n ⟨.receive m, .found (.of fed found)⟩ = if m = n then found else none := by
  cases found with
  | some bytes => rfl
  | none => cases fed <;> simp [Reception.of, received?]

end ChannelTurn

def callers (turns : List ChannelTurn) : List EndpointId := turns.filterMap fun t => t.step.caller?

def accepted (e : EndpointId) (turns : List ChannelTurn) : List Octets :=
  turns.filterMap (ChannelTurn.accepted? e)

def received (n : Nat) (turns : List ChannelTurn) : List Octets :=
  turns.filterMap (ChannelTurn.received? n)

def dropped (n : Nat) (turns : List ChannelTurn) : Bool := turns.any (ChannelTurn.drops n)

section Snoc

variable (turns : List ChannelTurn) (t : ChannelTurn) (e : EndpointId) (n : Nat)

theorem callers_snoc : callers (turns ++ [t]) = callers turns ++ t.step.caller?.toList := by
  cases called : t.step.caller? <;> simp [callers, called]

theorem accepted_snoc :
    accepted e (turns ++ [t]) = accepted e turns ++ (t.accepted? e).toList := by
  cases taken : t.accepted? e <;> simp [accepted, taken]

theorem received_snoc :
    received n (turns ++ [t]) = received n turns ++ (t.received? n).toList := by
  cases got : t.received? n <;> simp [received, got]

theorem dropped_snoc : dropped n (turns ++ [t]) = (dropped n turns || t.drops n) := by
  simp [dropped]

end Snoc

/-- A receiver is opened for an endpoint; `during` are the turns in which the endpoint's messages
go to it, and `later` all turns since then. -/
structure Tenure (past : List ChannelTurn) (n : Nat) (e : EndpointId)
    (during later : List ChannelTurn) : Prop where
  opens : ∃ before opening, past = before ++ opening :: (during ++ later) ∧
    opening.step = .connect e ∧ (callers before).length = n
  stays : ∀ t ∈ during, ¬t.step.Reroutes e
  leaves : ∀ t ∈ later.head?, t.step.Reroutes e

def Serves (past : List ChannelTurn) (n : Nat) (e : EndpointId) : Prop :=
  ∃ during, Tenure past n e during []

/-- The endpoint was never connected, or was disconnected since it was connected last. -/
def Unserved (past : List ChannelTurn) (e : EndpointId) : Prop :=
  (∀ t ∈ past, t.step ≠ .connect e) ∨
  ∃ before t after, past = before ++ t :: after ∧ t.step = .disconnect e ∧
    ∀ u ∈ after, u.step ≠ .connect e

namespace Tenure

variable {past during later : List ChannelTurn} {t : ChannelTurn} {n : Nat} {e : EndpointId}

theorem cases_snoc (tenure : Tenure (past ++ [t]) n e during later) :
    (t.step = .connect e ∧ n = (callers past).length ∧ during = [] ∧ later = []) ∨
    (∃ during', during = during' ++ [t] ∧ later = [] ∧ ¬t.step.Reroutes e ∧
      Tenure past n e during' []) ∨
    (∃ later', later = later' ++ [t] ∧ (later' = [] → t.step.Reroutes e) ∧
      Tenure past n e during later') := by
  obtain ⟨⟨before, opening, split, opens, count⟩, stays, leaves⟩ := tenure
  rcases List.eq_nil_or_concat later with rfl | ⟨later', u, rfl⟩
  · rw [List.append_nil] at split
    rcases snoc_eq_split_iff.mp split with ⟨rfl, rfl, rfl⟩ | ⟨during', rfl, rfl⟩
    · exact .inl ⟨opens, count.symm, rfl, rfl⟩
    · refine .inr (.inl ⟨during', rfl, rfl, stays t (by simp), ?_⟩)
      exact ⟨⟨before, opening, by simp, opens, count⟩,
        fun v mem => stays v (by simp [mem]), by simp⟩
  · obtain ⟨rfl, rfl⟩ : past = before ++ opening :: (during ++ later') ∧ t = u := by
      have split : past ++ [t] = (before ++ opening :: (during ++ later')) ++ [u] := by
        simpa using split
      simpa using List.append_inj' split rfl
    refine .inr (.inr ⟨later', by simp, fun none => leaves t (by simp [none]), ?_⟩)
    refine ⟨⟨before, opening, rfl, opens, count⟩, stays, fun v first => leaves v ?_⟩
    cases later' with
    | nil => cases first
    | cons => simpa using first

theorem open_snoc (opens : t.step = .connect e) :
    Tenure (past ++ [t]) (callers past).length e [] [] :=
  ⟨⟨past, t, rfl, opens, rfl⟩, by simp, by simp⟩

theorem stay_snoc (tenure : Tenure past n e during []) (stays : ¬t.step.Reroutes e) :
    Tenure (past ++ [t]) n e (during ++ [t]) [] := by
  obtain ⟨⟨before, opening, rfl, opens, count⟩, before_stays, -⟩ := tenure
  refine ⟨⟨before, opening, by simp, opens, count⟩, fun u mem => ?_, by simp⟩
  rcases List.mem_append.mp mem with old | new
  · exact before_stays u old
  · rwa [List.mem_singleton.mp new]

theorem later_snoc (tenure : Tenure past n e during later)
    (ended : later = [] → t.step.Reroutes e) :
    Tenure (past ++ [t]) n e during (later ++ [t]) := by
  obtain ⟨⟨before, opening, rfl, opens, count⟩, stays, leaves⟩ := tenure
  refine ⟨⟨before, opening, by simp, opens, count⟩, stays, fun u first => ?_⟩
  cases later with
  | nil =>
    obtain rfl : t = u := by simpa using first
    exact ended rfl
  | cons => exact leaves u (by simpa using first)

theorem caller (tenure : Tenure past n e during later) : (callers past)[n]? = some e := by
  obtain ⟨⟨before, opening, rfl, opens, rfl⟩, -, -⟩ := tenure
  simp [callers, opens, ChannelStep.caller?]

theorem lt_callers (tenure : Tenure past n e during later) : n < (callers past).length :=
  (List.getElem?_eq_some_iff.mp tenure.caller).1

theorem exists_of_caller (opened : (callers past)[n]? = some e) :
    ∃ during later, Tenure past n e during later := by
  induction past using List.reverseRecOn with
  | nil => simp [callers] at opened
  | append_singleton past t ih =>
    rw [callers_snoc] at opened
    by_cases within : n < (callers past).length
    · rw [List.getElem?_append_left within] at opened
      obtain ⟨during, later, inner⟩ := ih opened
      cases later with
      | nil =>
        by_cases stays : t.step.Reroutes e
        · exact ⟨during, [t], inner.later_snoc fun _ => stays⟩
        · exact ⟨during ++ [t], [], inner.stay_snoc stays⟩
      | cons u later => exact ⟨during, u :: later ++ [t], inner.later_snoc nofun⟩
    · cases called : t.step.caller? with
      | none => simp [called, List.getElem?_eq_none (Nat.not_lt.mp within)] at opened
      | some e' =>
        have last : n = (callers past).length ∧ e' = e := by
          rw [List.getElem?_append_right (Nat.not_lt.mp within), called] at opened
          obtain ⟨at_, same⟩ := List.getElem?_eq_some_iff.mp opened
          simp only [Option.toList_some, List.length_singleton, List.getElem_singleton] at at_ same
          exact ⟨by omega, same⟩
        obtain ⟨rfl, rfl⟩ := last
        exact ⟨[], [], .open_snoc (ChannelStep.caller?_eq_some_iff.mp called)⟩

theorem unique {e' : EndpointId} {during' later' : List ChannelTurn}
    (tenure : Tenure past n e during later) (other : Tenure past n e' during' later') :
    e' = e ∧ during' = during ∧ later' = later := by
  induction past using List.reverseRecOn generalizing during later during' later' with
  | nil =>
    obtain ⟨⟨before, opening, split, -⟩, -, -⟩ := tenure
    simp at split
  | append_singleton past t ih =>
    have same : e' = e := Option.some.inj (other.caller.symm.trans tenure.caller)
    subst same
    refine ⟨rfl, ?_⟩
    rcases tenure.cases_snoc with ⟨opens, count, rfl, rfl⟩ | ⟨d, rfl, rfl, stays, inner⟩ |
      ⟨l, rfl, leaves, inner⟩ <;>
    rcases other.cases_snoc with ⟨opens', count', rfl, rfl⟩ | ⟨d', rfl, rfl, stays', inner'⟩ |
      ⟨l', rfl, leaves', inner'⟩
    · exact ⟨rfl, rfl⟩
    · exact absurd inner'.lt_callers (by omega)
    · exact absurd inner'.lt_callers (by omega)
    · exact absurd inner.lt_callers (by omega)
    · obtain ⟨-, rfl, -⟩ := ih inner inner'
      exact ⟨rfl, rfl⟩
    · obtain ⟨-, -, rfl⟩ := ih inner inner'
      exact absurd (leaves' rfl) stays
    · exact absurd inner.lt_callers (by omega)
    · obtain ⟨-, -, rfl⟩ := ih inner inner'
      exact absurd (leaves rfl) stays'
    · obtain ⟨-, rfl, rfl⟩ := ih inner inner'
      exact ⟨rfl, rfl⟩

end Tenure

section Routing

variable {past : List ChannelTurn} {t : ChannelTurn} {n : Nat} {e : EndpointId}

theorem serves_snoc : Serves (past ++ [t]) n e ↔
    (t.step = .connect e ∧ n = (callers past).length) ∨
      (¬t.step.Reroutes e ∧ Serves past n e) := by
  constructor
  · rintro ⟨during, tenure⟩
    rcases tenure.cases_snoc with ⟨opens, count, -, -⟩ | ⟨before, -, -, stays, inner⟩ |
      ⟨later, ended, -, -⟩
    · exact .inl ⟨opens, count⟩
    · exact .inr ⟨stays, before, inner⟩
    · simp at ended
  · rintro (⟨opens, rfl⟩ | ⟨stays, during, inner⟩)
    · exact ⟨[], .open_snoc opens⟩
    · exact ⟨during ++ [t], inner.stay_snoc stays⟩

theorem unserved_snoc : Unserved (past ++ [t]) e ↔
    t.step = .disconnect e ∨ (t.step ≠ .connect e ∧ Unserved past e) := by
  constructor
  · rintro (never | ⟨before, u, after, split, ended, never⟩)
    · exact .inr ⟨never t (by simp), .inl fun u mem => never u (by simp [mem])⟩
    · rcases snoc_eq_split_iff.mp split with ⟨rfl, rfl, rfl⟩ | ⟨rest, rfl, rfl⟩
      · exact .inl ended
      · exact .inr ⟨never t (by simp),
          .inr ⟨before, u, rest, rfl, ended, fun w mem => never w (by simp [mem])⟩⟩
  · rintro (ended | ⟨unconnected, never | ⟨before, u, after, rfl, ended, never⟩⟩)
    · exact .inr ⟨past, t, [], rfl, ended, by simp⟩
    · refine .inl fun u mem => ?_
      rcases List.mem_append.mp mem with old | new
      · exact never u old
      · rwa [List.mem_singleton.mp new]
    · refine .inr ⟨before, u, after ++ [t], by simp, ended, fun w mem => ?_⟩
      rcases List.mem_append.mp mem with old | new
      · exact never w old
      · rwa [List.mem_singleton.mp new]

theorem unserved_iff : Unserved past e ↔ ¬∃ n, Serves past n e := by
  induction past using List.reverseRecOn with
  | nil =>
    have nobody : ¬∃ n, Serves [] n e := by
      rintro ⟨n, during, ⟨before, opening, split, -⟩, -, -⟩
      simp at split
    simp [Unserved, nobody]
  | append_singleton past t ih =>
    rw [unserved_snoc, ih]
    simp only [serves_snoc, ChannelStep.Reroutes, not_exists, not_or, not_and]
    by_cases connects : t.step = .connect e
    · simp [connects]
    · by_cases disconnects : t.step = .disconnect e <;> simp [connects, disconnects]

end Routing

end SharedObjects
