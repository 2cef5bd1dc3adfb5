import SharedObjects.Proofs.Wire.Steadiness
/-!
Where a message ends is up to its own bytes. A decoder that accepts a message asks for more bytes if
any are cut off its end, wherever the cut falls, and complains of all bytes put behind it; so no
message is the beginning of another.
-/
set_option autoImplicit false

namespace SharedObjects

variable {α : Type} {c : Catalog}

namespace Read

variable {r : Read α} {bytes more : Octets} {a : α}

namespace Steady

theorem whole_cut (steady : Steady r) (accepted : whole r (bytes ++ more) = .ok a)
    (missing : more ≠ []) :
    ∃ needed remaining, whole r bytes = .error (.truncated needed remaining) := by
  obtain ⟨last, read, ended⟩ := whole_eq_ok_iff.mp accepted
  rcases steady.settled (.ofOctets bytes) with ⟨needed, remaining, after, short⟩ | same
  · exact ⟨needed, remaining, by simp only [whole_eq, short]⟩
  · -- Otherwise the bytes cut off would be left over by the reading of the whole message.
    have step : r (.ofOctets (bytes ++ more)) = leaving more (r (.ofOctets bytes)) := same more
    rw [read] at step
    cases outcome : r (.ofOctets bytes) with
    | error fault after => rw [outcome] at step; cases step
    | ok b after =>
      rw [outcome] at step
      cases step
      have both : after.rest = [] ∧ more = [] := List.append_eq_nil_iff.mp ended
      exact absurd both.2 missing

theorem whole_append (steady : Steady r) (accepted : whole r bytes = .ok a) (added : more ≠ []) :
    whole r (bytes ++ more) = .error (.format (.trailing more.length)) := by
  obtain ⟨after, read, ended⟩ := whole_eq_ok_iff.mp accepted
  rcases steady.settled (.ofOctets bytes) with ⟨_, _, _, short⟩ | same
  · rw [read] at short
    cases short
  · have step : r (.ofOctets (bytes ++ more)) = leaving more (r (.ofOctets bytes)) := same more
    rw [read] at step
    have rest : (after.followedBy more).rest = more := by simp [Input.followedBy, ended]
    simp only [whole_eq, step, leaving, rest, added, if_false]

end Steady

end Read

/-- What a decoder accepts it does not accept with bytes missing at the end or with bytes behind it,
and it says which of the two is wrong; so nothing it accepts is the beginning of another. -/
structure SelfDelimiting (decode : Octets → Except Fault α) : Prop where
  cut : ∀ {bytes missing a}, decode (bytes ++ missing) = .ok a → missing ≠ [] →
    ∃ needed remaining, decode bytes = .error (.truncated needed remaining)
  append : ∀ {bytes more a}, decode bytes = .ok a → more ≠ [] →
    decode (bytes ++ more) = .error (.format (.trailing more.length))
  eq_of_isPrefix : ∀ {bytes longer a b}, decode bytes = .ok a → decode longer = .ok b →
    bytes <+: longer → bytes = longer

theorem Read.Steady.selfDelimiting {r : Read α} (steady : Steady r) :
    SelfDelimiting (Read.whole r) where
  cut := steady.whole_cut
  append := steady.whole_append
  eq_of_isPrefix := by
    rintro bytes _ a b accepted longer ⟨more, rfl⟩
    by_cases none : more = []
    · simp [none]
    · rw [steady.whole_append accepted none] at longer
      cases longer

/-- Values of any declared type, sets, events and snapshots all show where they end. -/
theorem Catalog.self_delimiting (c : Catalog) :
    (∀ type, SelfDelimiting (Value.decode c type)) ∧ SelfDelimiting (Members.decode c) ∧
      SelfDelimiting (Event.decode c) ∧ ∀ id, SelfDelimiting (SharedObject.ofSnapshot c id) :=
  ⟨fun type => (Read.Steady.value type).selfDelimiting, Read.Steady.members.selfDelimiting,
    Read.Steady.event.selfDelimiting, fun id => (Read.Steady.readSnapshot id).selfDelimiting⟩

theorem Catalog.self_delimiting_text :
    Event.decode .initial ([0, 0, 0, 7, 0, 1, 1, 8, 0, 2, 0xC3] ++ [0xA9]) =
      .ok ⟨⟨7⟩, 1, .fieldSet (.text "é")⟩ ∧
    (∃ needed remaining, Event.decode .initial [0, 0, 0, 7, 0, 1, 1, 8, 0, 2, 0xC3] =
      .error (.truncated needed remaining)) ∧
    Event.decode .initial ([0, 0, 0, 7, 0, 1, 1, 8, 0, 2, 0xC3, 0xA9] ++ [0]) =
      .error (.format (.trailing 1)) := by
  have accepted : Event.decode .initial ([0, 0, 0, 7, 0, 1, 1, 8, 0, 2, 0xC3] ++ [0xA9]) =
      .ok ⟨⟨7⟩, 1, .fieldSet (.text "é")⟩ := by rfl
  obtain ⟨-, -, events, -⟩ := Catalog.self_delimiting .initial
  exact ⟨accepted, events.cut accepted (by simp), events.append accepted (by simp)⟩

end SharedObjects
