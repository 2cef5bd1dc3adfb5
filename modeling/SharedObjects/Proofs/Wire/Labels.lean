import SharedObjects.Proofs.Wire.Framing
set_option autoImplicit false

namespace SharedObjects.Framer

variable {f : Framer} {message frame : Octets}

theorem next_fresh (framed : f.frame message = .ok frame) :
    ((withLimit f.limit).push frame).next = (.ok (some (message.take (label message))),
      (withLimit f.limit).push (message.drop (label message))) := by
  have step := next_labelled framed []
  rwa [List.append_nil, List.append_nil] at step

theorem drain_fresh_iff (framed : f.frame message = .ok frame) :
    ((withLimit f.limit).push frame).drain = ([.ok message], withLimit f.limit) ↔
      message.length ≤ maxLength := by
  rw [drain_of_some (next_fresh framed), ← label_eq_iff]
  constructor
  · intro same
    have front : message.take (label message) = message :=
      Except.ok.inj (List.cons.inj (Prod.mk.inj same).1).1
    have size := congrArg List.length front
    have short := label_le message
    rw [List.length_take] at size
    omega
  · intro whole
    have idle : ((withLimit f.limit).push []).Idle := idle_of_empty rfl
    rw [whole, List.take_length, List.drop_length, drain_of_idle idle]
    rfl

/-- A message beyond the limit is not framed. Any other is, and a fresh framer with the same limit
takes out of the frame just as much of its front as the frame tells of; so the message comes out
and nothing else does exactly if its length fits the four bytes in front. -/
theorem frame_faithful_iff (f : Framer) (message : Octets) :
    (f.limit < message.length ∧
      f.frame message = .error (.encoding (.frameTooLong message.length f.limit))) ∨
    ∃ frame, message.length ≤ f.limit ∧ f.frame message = .ok frame ∧
      ((withLimit f.limit).push frame).next = (.ok (some (message.take (label message))),
        (withLimit f.limit).push (message.drop (label message))) ∧
      (((withLimit f.limit).push frame).drain = ([.ok message], withLimit f.limit) ↔
        message.length ≤ maxLength) := by
  by_cases allowed : message.length ≤ f.limit
  · have framed := frame_eq_ok_iff.mpr ⟨allowed, rfl⟩
    exact .inr ⟨_, allowed, framed, next_fresh framed, drain_fresh_iff framed⟩
  · refine .inl ⟨by omega, ?_⟩
    rw [Framer.frame, if_pos (by omega)]

theorem label_eq_zero (size : message.length = 4294967296) : label message = 0 := by
  rw [label, size]
  decide

theorem mislabelled (size : message.length = 4294967296) :
    ∃ frame, (withLimit 4294967296).frame message = .ok frame ∧
      ((withLimit 4294967296).push frame).next =
        (.ok (some []), (withLimit 4294967296).push message) ∧
      ((withLimit 4294967296).push frame).drain ≠ ([.ok message], withLimit 4294967296) := by
  have allowed : message.length ≤ (withLimit 4294967296).limit := Nat.le_of_eq size
  have framed := frame_eq_ok_iff.mpr ⟨allowed, rfl⟩
  have front := next_fresh framed
  rw [label_eq_zero size, List.take_zero, List.drop_zero] at front
  refine ⟨_, framed, front, fun same => ?_⟩
  have fits := (drain_fresh_iff framed).mp same
  rw [size] at fits
  exact absurd fits (by decide)

/-- So many zeros, allowed by the limit, are framed, and the frame is read as an empty message with
more frames behind it. -/
theorem frame_mislabels : ∃ frame,
    (withLimit 4294967296).frame (List.replicate 4294967296 0) = .ok frame ∧
    ((withLimit 4294967296).push frame).next =
      (.ok (some []), (withLimit 4294967296).push (List.replicate 4294967296 0)) ∧
    ((withLimit 4294967296).push frame).drain ≠
      ([.ok (List.replicate 4294967296 0)], withLimit 4294967296) :=
  mislabelled List.length_replicate

end SharedObjects.Framer
