import Mathlib.Data.List.Forall2
import SharedObjects.Wire.Frame
/-!
Frames put together again. Taking messages out of what has arrived until no more is ready gives the
same whether the stream came in one piece or in many, as long as no length is beyond the limit; and
a stream of frames gives the messages that were framed.
-/
set_option autoImplicit false

namespace SharedObjects.Framer

variable {f after : Framer} {message frame : Octets} {fault : Fault}

def announced (f : Framer) : Nat := Octets.toNat (f.buffer.take lengthSize)

/-- No whole message waits to be taken out. -/
def Idle (f : Framer) : Prop := f.next = (.ok none, f)

theorem next_eq (f : Framer) : f.next =
    if f.buffered < lengthSize then (.ok none, f)
    else if f.announced > f.limit then
      (.error (.format (.frameTooLong f.announced f.limit)), { f with buffer := [] })
    else if f.buffered < lengthSize + f.announced then (.ok none, f)
    else (.ok (some ((f.buffer.drop lengthSize).take f.announced)),
      { f with buffer := f.buffer.drop (lengthSize + f.announced) }) := by
  have lacks (n : Nat) (bytes : Octets) :
      (!Octets.atLeast n bytes) = true ↔ bytes.length < n := by
    rw [Bool.not_eq_true', ← Bool.not_eq_true, Octets.atLeast_iff, Nat.not_le]
  have missing (enough : ¬f.buffered < lengthSize) :
      (f.buffer.drop lengthSize).length < f.announced ↔ f.buffered < lengthSize + f.announced := by
    simp only [buffered, List.length_drop] at enough ⊢
    omega
  have announces : Octets.toNat (f.buffer.take lengthSize) = f.announced := rfl
  have arrived : f.buffer.length = f.buffered := rfl
  simp only [next, lacks, arrived, announces, List.drop_drop]
  split
  · rfl
  · rename_i enough
    simp only [missing enough]

theorem buffered_push (f : Framer) (more : Octets) :
    (f.push more).buffered = f.buffered + more.length := by
  simp [buffered, push]

theorem announced_push (enough : ¬f.buffered < lengthSize) (more : Octets) :
    (f.push more).announced = f.announced := by
  have front : lengthSize ≤ f.buffer.length := by
    simpa [buffered] using enough
  simp only [announced, push, List.take_append_of_le_length front]

theorem idle_of_empty (empty : f.buffer = []) : f.Idle := by
  simp [Idle, next_eq, buffered, empty, lengthSize]

theorem eq_of_waits (waits : f.next = (.ok none, after)) : after = f := by
  rw [next_eq] at waits
  split at waits
  · cases waits
    rfl
  split at waits
  · cases waits
  split at waits <;> cases waits
  rfl

theorem next_push_of_some (ready : f.next = (.ok (some message), after)) (more : Octets) :
    (f.push more).next = (.ok (some message), after.push more) := by
  rw [next_eq] at ready
  split at ready
  · cases ready
  rename_i enough
  split at ready
  · cases ready
  rename_i allowed
  split at ready
  · cases ready
  rename_i whole
  cases ready
  have enough' : ¬(f.push more).buffered < lengthSize := by rw [buffered_push]; omega
  have whole' : ¬(f.push more).buffered < lengthSize + f.announced := by
    rw [buffered_push]
    omega
  have long : f.announced ≤ (f.buffer.drop lengthSize).length := by
    simp only [buffered, List.length_drop] at whole ⊢
    omega
  have long' : lengthSize + f.announced ≤ f.buffer.length := by simpa [buffered] using whole
  have header : lengthSize ≤ f.buffer.length := by omega
  have allowed' : ¬f.announced > (f.push more).limit := allowed
  rw [next_eq, if_neg enough', announced_push enough, if_neg allowed', if_neg whole']
  simp only [push, List.drop_append_of_le_length header, List.drop_append_of_le_length long',
    List.take_append_of_le_length long]

theorem next_push_of_error (lost : f.next = (.error fault, after)) (more : Octets) :
    (f.push more).next = (.error fault, after) := by
  rw [next_eq] at lost
  split at lost
  · cases lost
  rename_i enough
  split at lost
  · rename_i beyond
    cases lost
    have enough' : ¬(f.push more).buffered < lengthSize := by rw [buffered_push]; omega
    rw [next_eq, if_neg enough', announced_push enough]
    exact if_pos beyond
  split at lost <;> cases lost

theorem of_error (lost : f.next = (.error fault, after)) :
    (∃ size > f.limit, fault = .format (.frameTooLong size f.limit)) ∧
      after = { f with buffer := [] } ∧ after.buffered < f.buffered := by
  rw [next_eq] at lost
  split at lost
  · cases lost
  rename_i enough
  split at lost
  · rename_i beyond
    cases lost
    refine ⟨⟨f.announced, beyond, rfl⟩, rfl, ?_⟩
    simp only [buffered, lengthSize, List.length_nil] at enough ⊢
    omega
  split at lost <;> cases lost

theorem of_some (ready : f.next = (.ok (some message), after)) :
    after.limit = f.limit ∧ after.buffered < f.buffered := by
  rw [next_eq] at ready
  split at ready
  · cases ready
  rename_i enough
  split at ready
  · cases ready
  split at ready <;> cases ready
  refine ⟨rfl, ?_⟩
  simp only [buffered, lengthSize, List.length_drop] at enough ⊢
  omega

def drain (f : Framer) : List (Except Fault Octets) × Framer :=
  match _step : f.next with
  | (.ok none, after) => ([], after)
  | (.ok (some message), after) => (.ok message :: after.drain.1, after.drain.2)
  | (.error fault, after) => (.error fault :: after.drain.1, after.drain.2)
termination_by f.buffered
decreasing_by
  · exact (of_some _step).2
  · exact (of_error _step).2.2

def receive (f : Framer) : List Octets → List (Except Fault Octets) × Framer
  | [] => ([], f)
  | chunk :: rest =>
    let (results, f) := (f.push chunk).drain
    let (more, f) := f.receive rest
    (results ++ more, f)

def Unbroken (results : List (Except Fault Octets)) : Prop := ∀ fault, .error fault ∉ results

/-- The results up to the first fault, and that fault. -/
def untilLost : List (Except Fault Octets) → List (Except Fault Octets)
  | [] => []
  | .ok message :: rest => .ok message :: untilLost rest
  | .error fault :: _ => [.error fault]

theorem drain_of_idle (idle : f.Idle) : f.drain = ([], f) := by
  rw [drain]
  split <;> rename_i step <;> rw [idle] at step <;> cases step
  rfl

theorem drain_of_some (ready : f.next = (.ok (some message), after)) :
    f.drain = (.ok message :: after.drain.1, after.drain.2) := by
  rw [drain]
  split <;> rename_i step <;> rw [ready] at step <;> cases step
  rfl

theorem drain_of_error (lost : f.next = (.error fault, after)) :
    f.drain = ([.error fault], after) := by
  have idle : after.Idle := idle_of_empty (by rw [(of_error lost).2.1])
  rw [drain]
  split <;> rename_i step <;> rw [lost] at step <;> cases step
  rw [drain_of_idle idle]

theorem drain_induction {motive : Framer → Prop} (idle : ∀ f, f.Idle → motive f)
    (lost : ∀ f fault after, f.next = (.error fault, after) → motive f)
    (ready : ∀ f message after, f.next = (.ok (some message), after) → motive after → motive f)
    (f : Framer) : motive f := by
  induction f using drain.induct with
  | case1 f after step =>
    obtain rfl := eq_of_waits step
    exact idle _ step
  | case2 f message after step ih => exact ready f message after step ih
  | case3 f fault after step _ => exact lost f fault after step

theorem idle_drain (f : Framer) : f.drain.2.Idle := by
  induction f using drain_induction with
  | idle f idle => rwa [drain_of_idle idle]
  | lost f fault after step =>
    rw [drain_of_error step]
    exact idle_of_empty (by rw [(of_error step).2.1])
  | ready f message after step ih => rwa [drain_of_some step]

theorem limit_drain (f : Framer) : f.drain.2.limit = f.limit := by
  induction f using drain_induction with
  | idle f idle => rw [drain_of_idle idle]
  | lost f fault after step => rw [drain_of_error step, (of_error step).2.1]
  | ready f message after step ih => rw [drain_of_some step, ih, (of_some step).1]

theorem error_mem_drain (lost : .error fault ∈ f.drain.1) :
    ∃ size > f.limit, fault = .format (.frameTooLong size f.limit) := by
  induction f using drain_induction with
  | idle f idle => simp [drain_of_idle idle] at lost
  | lost f fault after step =>
    obtain rfl := by simpa [drain_of_error step] using lost
    exact (of_error step).1
  | ready f message after step ih =>
    rw [← (of_some step).1]
    exact ih (by simpa [drain_of_some step] using lost)

theorem unbroken_cons {results : List (Except Fault Octets)} :
    Unbroken (.ok message :: results) ↔ Unbroken results := by simp [Unbroken]

theorem not_unbroken_cons {results : List (Except Fault Octets)} :
    ¬Unbroken (.error fault :: results) := fun whole => whole fault List.mem_cons_self

theorem unbroken_append {results more : List (Except Fault Octets)} :
    Unbroken (results ++ more) ↔ Unbroken results ∧ Unbroken more := by
  simp [Unbroken, forall_and]

theorem untilLost_append (results more : List (Except Fault Octets)) :
    (Unbroken results → untilLost (results ++ more) = results ++ untilLost more) ∧
      (¬Unbroken results → untilLost (results ++ more) = untilLost results) := by
  induction results with
  | nil => simp [Unbroken]
  | cons result rest ih =>
    cases result with
    | ok message =>
      simp only [List.cons_append, untilLost, unbroken_cons]
      exact ⟨fun whole => by rw [ih.1 whole], fun broken => by rw [ih.2 broken]⟩
    | error fault => exact ⟨fun whole => absurd whole not_unbroken_cons, fun _ => rfl⟩

theorem unbroken_untilLost {results : List (Except Fault Octets)} :
    Unbroken (untilLost results) ↔ Unbroken results := by
  induction results with
  | nil => simp [untilLost]
  | cons result rest ih =>
    cases result with
    | ok message => simpa only [untilLost, unbroken_cons] using ih
    | error fault => exact ⟨(absurd · not_unbroken_cons), (absurd · not_unbroken_cons)⟩

/-- What comes behind is drained behind, unless the place in the stream was lost before. -/
theorem drain_push (f : Framer) (more : Octets) :
    (Unbroken f.drain.1 → (f.push more).drain =
      (f.drain.1 ++ (f.drain.2.push more).drain.1, (f.drain.2.push more).drain.2)) ∧
    (¬Unbroken f.drain.1 → (f.push more).drain = f.drain) := by
  induction f using drain_induction with
  | idle f idle => simp [drain_of_idle idle, Unbroken]
  | lost f fault after step =>
    rw [drain_of_error step, drain_of_error (next_push_of_error step more)]
    exact ⟨(absurd · not_unbroken_cons), fun _ => rfl⟩
  | ready f message after step ih =>
    rw [drain_of_some step, drain_of_some (next_push_of_some step more)]
    simp only [unbroken_cons, List.cons_append]
    exact ⟨fun whole => by rw [ih.1 whole], fun broken => by rw [ih.2 broken]⟩

/-- Two outcomes of one stream: the same up to the first fault, and altogether if there is none. -/
structure Accord (first second : List (Except Fault Octets) × Framer) : Prop where
  until_lost : untilLost first.1 = untilLost second.1
  whole : Unbroken first.1 → first = second

theorem Accord.symm {first second : List (Except Fault Octets) × Framer}
    (accord : Accord first second) : Accord second first := by
  refine ⟨accord.until_lost.symm, fun whole => (accord.whole ?_).symm⟩
  rwa [← unbroken_untilLost, accord.until_lost, unbroken_untilLost]

theorem Accord.trans {first second third : List (Except Fault Octets) × Framer}
    (accord : Accord first second) (next : Accord second third) : Accord first third := by
  refine ⟨accord.until_lost.trans next.until_lost, fun whole => ?_⟩
  have same := accord.whole whole
  exact same.trans (next.whole (same ▸ whole))

theorem accord_receive (f : Framer) (chunks : List Octets) (start : f.Idle ∨ chunks ≠ []) :
    Accord (f.receive chunks) (f.push chunks.flatten).drain := by
  induction chunks generalizing f with
  | nil =>
    -- Nothing is drained where nothing is pushed, so nothing may wait from before.
    have idle : f.Idle := start.resolve_right (by simp)
    have same : f.push [] = f := by simp [push]
    rw [List.flatten_nil, same, drain_of_idle idle, receive]
    exact ⟨rfl, fun _ => rfl⟩
  | cons chunk rest ih =>
    have joined : f.push (chunk :: rest).flatten = (f.push chunk).push rest.flatten := by
      simp [push]
    obtain ⟨behind, gone⟩ := drain_push (f.push chunk) rest.flatten
    have step := ih (f.push chunk).drain.2 (.inl (idle_drain _))
    rw [joined, receive]
    by_cases whole : Unbroken (f.push chunk).drain.1
    · rw [behind whole]
      refine ⟨?_, fun all => ?_⟩
      · rw [(untilLost_append _ _).1 whole, (untilLost_append _ _).1 whole, step.until_lost]
      · have same := step.whole (unbroken_append.mp all).2
        simp only [same]
    · -- In one piece the bytes behind the fault are gone with it; in pieces they are read on.
      rw [gone whole]
      refine ⟨(untilLost_append _ _).2 whole, fun all => ?_⟩
      exact absurd (unbroken_append.mp all).1 whole

theorem error_mem_receive {chunks : List Octets} (lost : .error fault ∈ (f.receive chunks).1) :
    ∃ size > f.limit, fault = .format (.frameTooLong size f.limit) := by
  induction chunks generalizing f with
  | nil => simp [receive] at lost
  | cons chunk rest ih =>
    rw [receive, List.mem_append] at lost
    rcases lost with here | later
    · exact error_mem_drain (f := f.push chunk) here
    · have beyond := ih later
      rwa [limit_drain] at beyond

/-- The length that a frame gives its message; four bytes hold no more of it. -/
def label (message : Octets) : Nat := message.length % Octets.capacity lengthSize

theorem label_le (message : Octets) : label message ≤ message.length := Nat.mod_le _ _

theorem label_eq_iff : label message = message.length ↔ message.length ≤ maxLength := by
  have capacity : Octets.capacity lengthSize = maxLength + 1 := by decide
  rw [label, capacity, Nat.mod_eq_iff_lt (by omega), Nat.lt_succ_iff]

theorem frame_eq_ok_iff : f.frame message = .ok frame ↔
    message.length ≤ f.limit ∧ frame = Octets.ofNat lengthSize message.length ++ message := by
  rw [Framer.frame]
  split
  · simp only [reduceCtorEq, false_iff, not_and]
    omega
  · simp only [Except.ok.injEq, eq_comm (b := frame)]
    exact ⟨fun same => ⟨by omega, same⟩, And.right⟩

theorem next_labelled (framed : f.frame message = .ok frame) (rest : Octets) :
    ({ f with buffer := frame ++ rest } : Framer).next =
      (.ok (some (message.take (label message))),
        { f with buffer := message.drop (label message) ++ rest }) := by
  obtain ⟨allowed, rfl⟩ := frame_eq_ok_iff.mp framed
  have short := label_le message
  have told : Octets.toNat (Octets.ofNat lengthSize message.length) = label message :=
    Octets.toNat_ofNat _ _
  rw [next_eq]
  simp only [announced, buffered, List.append_assoc, List.take_left', List.drop_left',
    Octets.length_ofNat, told, List.length_append, ← List.drop_drop,
    List.take_append_of_le_length short, List.drop_append_of_le_length short]
  rw [if_neg (by omega), if_neg (by omega), if_neg (by omega)]

theorem next_frame (allowed : f.limit ≤ maxLength) (framed : f.frame message = .ok frame)
    (rest : Octets) : ({ f with buffer := frame ++ rest } : Framer).next =
      (.ok (some message), { f with buffer := rest }) := by
  obtain ⟨short, -⟩ := frame_eq_ok_iff.mp framed
  have whole := label_eq_iff.mpr (Nat.le_trans short allowed)
  rw [next_labelled framed, whole, List.take_length, List.drop_length, List.nil_append]

theorem drain_frames {messages frames : List Octets} (allowed : f.limit ≤ maxLength)
    (framed : List.Forall₂ (fun message frame => f.frame message = .ok frame) messages frames) :
    ({ f with buffer := frames.flatten } : Framer).drain =
      (messages.map .ok, { f with buffer := [] }) := by
  induction framed with
  | nil => exact drain_of_idle (idle_of_empty rfl)
  | cons here _ ih =>
    rw [List.flatten_cons, drain_of_some (next_frame allowed here _), ih, List.map_cons]

theorem receive_frames {messages frames chunks : List Octets} (allowed : f.limit ≤ maxLength)
    (empty : f.buffer = [])
    (framed : List.Forall₂ (fun message frame => f.frame message = .ok frame) messages frames)
    (cut : chunks.flatten = frames.flatten) : f.receive chunks = (messages.map .ok, f) := by
  have accord := accord_receive f chunks (.inl (idle_of_empty empty))
  have pushed : f.push chunks.flatten = { f with buffer := frames.flatten } := by
    rw [push, empty, cut, List.nil_append]
  have emptied : { f with buffer := [] } = f := by rw [← empty]
  rw [pushed, drain_frames allowed framed, emptied] at accord
  exact (accord.symm.whole (by simp [Unbroken])).symm

theorem accord_of_flatten_eq {chunks chunks' : List Octets}
    (start : f.Idle ∨ chunks ≠ [] ∧ chunks' ≠ []) (same : chunks.flatten = chunks'.flatten) :
    Accord (f.receive chunks) (f.receive chunks') := by
  have first := accord_receive f chunks (start.imp_right And.left)
  have second := accord_receive f chunks' (start.imp_right And.right)
  rw [← same] at second
  exact first.trans second.symm

theorem exists_of_unbroken {results : List (Except Fault Octets)} (whole : Unbroken results) :
    ∃ messages : List Octets, results = messages.map .ok := by
  induction results with
  | nil => exact ⟨[], rfl⟩
  | cons result rest ih =>
    cases result with
    | error fault => exact absurd whole not_unbroken_cons
    | ok message =>
      obtain ⟨messages, rfl⟩ := ih (unbroken_cons.mp whole)
      exact ⟨message :: messages, rfl⟩

end SharedObjects.Framer
