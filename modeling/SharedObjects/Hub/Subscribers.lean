import SharedObjects.Identifier
/-!
Who hears of an object. Every subscription has a flag of its own, which is up until the subscription
ends and never goes up again, so one that was taken note of earlier shows whether it still stands:
an endpoint that leaves and comes back has another one.
-/
set_option autoImplicit false

namespace SharedObjects

structure Subscription where
  endpoint : EndpointId
  flag : Nat
  deriving DecidableEq, Repr

/-- The subscriptions that stand, oldest first, and the flags of all there have been. -/
structure Subscribers where
  standing : List Subscription
  flags : Array Bool
  deriving DecidableEq, Repr

namespace Subscribers

def none : Subscribers := ⟨[], #[]⟩

def endpoints (s : Subscribers) : List EndpointId := s.standing.map Subscription.endpoint

def contains (s : Subscribers) (e : EndpointId) : Bool := s.endpoints.contains e

def add (s : Subscribers) (e : EndpointId) : Bool × Subscribers :=
  if s.contains e then (false, s)
  else (true, ⟨s.standing ++ [⟨e, s.flags.size⟩], s.flags.push true⟩)

def lowered (flags : Array Bool) (subs : List Subscription) : Array Bool :=
  subs.foldl (fun flags sub => flags.setIfInBounds sub.flag false) flags

/-- Ends the subscriptions that are to leave. -/
def cancel (s : Subscribers) (leaves : Subscription → Bool) : Subscribers :=
  ⟨s.standing.filter (fun sub => !leaves sub), lowered s.flags (s.standing.filter leaves)⟩

def remove (s : Subscribers) (e : EndpointId) : Bool × Subscribers :=
  (s.contains e, s.cancel (fun sub => sub.endpoint = e))

def clear (s : Subscribers) : List EndpointId × Subscribers :=
  (s.endpoints, s.cancel (fun _ => true))

def snapshot (s : Subscribers) : List Subscription := s.standing

def isActive (s : Subscribers) (sub : Subscription) : Bool := s.flags.getD sub.flag false

/-- The endpoints to send to: a round goes through the subscriptions and skips the inactive. -/
def active (s : Subscribers) : List EndpointId :=
  (s.snapshot.filter s.isActive).map Subscription.endpoint

end Subscribers

end SharedObjects
