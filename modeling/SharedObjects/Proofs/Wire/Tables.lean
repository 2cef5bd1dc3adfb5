import SharedObjects.Proofs.Wire.Soundness
import SharedObjects.Proofs.Wire.Laying
import SharedObjects.Proofs.Wire.Traffic
/-!
Type codes at both ends. Whatever is written to one output, well or not, the depth is none between
the writings, and the types named so far are numbered in the order in which they came up. When all
went well, each type is declared once in the bytes, where it comes up first; and an input that is
read as the output was written knows the types behind the codes that the output had given out.
-/
set_option autoImplicit false

namespace SharedObjects

variable {c : Catalog}

/-- Behind the code of every name the reader knows its registered type, and it knows no other. -/
structure Mirrored (c : Catalog) (codes : Codes) (types : Std.HashMap Nat ResolvedType) : Prop where
  inverse : ∀ (code : Nat) (name : String),
    types[code]?.map ResolvedType.name = some name ↔ codes[name]? = some code
  registered : ∀ (code : Nat) (type : ResolvedType), types[code]? = some type →
    c.get? type.name = some type

theorem Learns.mirrored (reachable : c.Reachable) {names : List String}
    {known : Std.HashMap Nat ResolvedType} (learns : Learns c ∅ names ∅ known) :
    Mirrored c (Codes.useAll ∅ names) known := by
  have behind (code : Nat) (type : ResolvedType) (held : known[code]? = some type) :
      c.get? type.name = some type ∧ (Codes.useAll ∅ names)[type.name]? = some code := by
    obtain ⟨name, coded⟩ := learns.coded (coded_empty ∅) code type held
    obtain ⟨-, -, type', registered, held'⟩ := learns.agree name code coded
    obtain rfl : type = type' := by simpa [held] using held'
    rw [reachable.name_eq registered]
    exact ⟨registered, coded⟩
  refine ⟨fun code name => ⟨fun found => ?_, fun coded => ?_⟩, fun code type held =>
    (behind code type held).1⟩
  · obtain ⟨type, held, rfl⟩ := Option.map_eq_some_iff.mp found
    exact (behind code type held).2
  · obtain ⟨-, -, type, registered, held⟩ := learns.agree name code coded
    rw [held, Option.map_some, reachable.name_eq registered]

/-- What can be written to an output between other things. -/
inductive WriteCall where
  | typeTag (name : String)
  | value (type : FieldType) (v : Value)
  | any (v : Value)
  | record (name : String) (values : List Value)
  | fields (type : ResolvedType) (values : List Value)
  | members (es : Members)
  | member (k : Key) (v : Value)
  | key (k : Key)

namespace WriteCall

def perform (c : Catalog) : WriteCall → Write Unit
  | typeTag name => discard (Write.typeTag c name)
  | value type v => Write.value c type v
  | any v => Write.any c v
  | record name values => Write.record c name values
  | fields type values => Write.fields c type values
  | members es => Write.members c es
  | member k v => Write.member c k v
  | key k => Write.key k

def reread (c : Catalog) : WriteCall → Read Unit
  | typeTag _ => discard (Read.typeTag c)
  | value type _ => discard (Read.value c type)
  | any _ => discard (Read.any c)
  | record _ _ => discard (Read.record c)
  | fields type _ => discard (Read.fields c type)
  | members _ => discard (Read.members c)
  | member _ _ => discard (Read.member c)
  | key _ => discard Read.key

def pieces (c : Catalog) : WriteCall → List Piece
  | typeTag name => [.tag name]
  | value type v => .plain (v.declaredWire type []) :: v.pieces c
  | any v => .plain (v.taggedWire []) :: v.pieces c
  | record name values => (Value.record name values).pieces c
  | fields type values => Value.fieldPieces c values type.fields
  | members es => (Value.set es).pieces c
  | member k v => .plain k.wire :: .plain (v.taggedWire []) :: v.pieces c
  | key k => [.plain k.wire]

def uses (c : Catalog) (call : WriteCall) : List String := Piece.uses (call.pieces c)

def values : WriteCall → List Value
  | value _ v | any v | member _ v => [v]
  | record _ values | fields _ values => values
  | members es => [.set es]
  | typeTag _ | key _ => []

def WellKeyed (call : WriteCall) : Prop := ∀ v ∈ call.values, v.WellKeyed

theorem lays (c : Catalog) (call : WriteCall) :
    Lays (call.perform c) () (call.pieces c) := by
  cases call with
  | typeTag name =>
    cases known : c.get? name with
    | none =>
      rw [perform, Write.typeTag_of_none known]
      exact fun _ => .refused rfl
    | some type => exact (Lays.typeTag known).bind (.pure ())
  | value type v => exact (Value.laid c v).value type
  | any v => exact (Value.laid c v).any
  | record name values => exact Value.laid c (.record name values)
  | fields type values =>
    exact (Lays.expectFields type _).bind
      (Value.Laid.fields (fun v _ => Value.laid c v) type.name type.fields)
  | members es => exact Value.laid c (.set es)
  | member k v => exact (Lays.key k).bind (Value.laid c v).any
  | key k => exact .key k

end WriteCall

namespace Reads

variable {depth : Nat} {codes : Codes} {bytes : Octets} {names : List String}

theorem recordWith {name : String} {values : List Value}
    (reads : Reads c depth codes (Read.payloadAt c depth .record) bytes (.record name values)
      names) :
    Reads c depth codes (Read.recordWith c (Read.below c (maxNesting - depth))) bytes
      (some (name, values)) names := by
  intro tail types agree
  obtain ⟨known, learns, step⟩ := reads tail types agree
  refine ⟨known, learns, ?_⟩
  simp only [Read.payloadAt, Read.payloadWith, Bind.bind, EStateM.bind] at step
  split at step
  · rename_i found after inner
    cases found with
    | some found =>
      cases step
      exact inner
    | none => cases step
  · cases step

end Reads

namespace Restores

theorem record (reachable : c.Reachable) (name : String) {values : List Value}
    (keyed : ∀ v ∈ values, v.WellKeyed) :
    Restores c (Write.record c name values) (Read.record c) (some (name, values)) := by
  intro out x after sane written
  have writes := Value.written c (.record name values) out sane (by simp)
  obtain ⟨room, -, rfl⟩ := writes.of_ok written
  have whole : (Value.record name values).WellKeyed := Value.wellKeyed_iff.mpr ⟨trivial, keyed⟩
  exact ⟨_, _, rfl, room.sane sane,
    ((Value.record name values).readBack reachable _ _ _ room whole rfl).recordWith⟩

variable {α γ : Type} {w : Write γ} {r : Read α} {a : α}

theorem discard (restores : Restores c w r a) : Restores c w (discard r) () :=
  restores.map fun _ => ()

end Restores

namespace WriteCall

theorem restores (reachable : c.Reachable) (call : WriteCall) (keyed : call.WellKeyed) :
    Restores c (call.perform c) (call.reread c) () := by
  cases call with
  | typeTag name =>
    cases known : c.get? name with
    | none =>
      rw [perform, Write.typeTag_of_none known]
      rintro _ _ _ _ ⟨⟩
    | some type => exact (Restores.typeTag known).bind fun _ => .pure ()
  | value type v => exact (Restores.value reachable type (keyed v (by simp [values]))).discard
  | any v => exact (Restores.any reachable (keyed v (by simp [values]))).discard
  | record name vs => exact (Restores.record reachable name keyed).discard
  | fields type vs => exact (Restores.fieldsOf reachable type keyed).discard
  | members es => exact (Restores.members reachable (keyed _ (by simp [values]))).discard
  | member k v => exact (Restores.member reachable k (keyed v (by simp [values]))).discard
  | key k => exact (Restores.key k).discard

open Attempt (inTurn)

variable {calls : List WriteCall}

theorem lays_all (c : Catalog) (calls : List WriteCall) :
    Lays (forM calls (perform c)) () (calls.flatMap (pieces c)) := by
  induction calls with
  | nil => exact .pure ()
  | cons call calls ih =>
    rw [List.forM_cons, List.flatMap_cons]
    exact (lays c call).bind ih

theorem restores_all (reachable : c.Reachable) (keyed : ∀ call ∈ calls, call.WellKeyed) :
    Restores c (forM calls (perform c)) (forM calls (reread c)) () := by
  induction calls with
  | nil => exact .pure ()
  | cons call calls ih =>
    rw [List.forM_cons, List.forM_cons]
    exact (restores reachable call (keyed call (by simp))).bind fun _ =>
      ih fun other mem => keyed other (by simp [mem])

/-- These are the first of the types that a call names, and all of them if it succeeded. -/
structure Reaches (c : Catalog) (names : List String) (made : WriteCall × Except Fault Unit) :
    Prop where
  here : names <+: made.1.uses c
  all : made.2 = .ok () → names = made.1.uses c

theorem reaches (c : Catalog) (call : WriteCall) (out : Output) :
    ∃ names, Reaches c names (call, ((call.perform c).outcome out).1) ∧
      ((call.perform c).outcome out).2.depth = out.depth ∧
      ((call.perform c).outcome out).2.codes = Codes.useAll out.codes names ∧
      Codes.Enough out.codes names := by
  have ends := lays c call out
  cases step : call.perform c out with
  | ok x after =>
    obtain ⟨-, rfl, enough⟩ := ends.done x after step
    rw [Attempt.outcome_ok step]
    exact ⟨call.uses c, ⟨List.prefix_rfl, fun _ => rfl⟩, rfl, rfl, enough⟩
  | error fault after =>
    obtain ⟨depth, names, here, codes, enough⟩ := ends.stopped fault after step
    rw [Attempt.outcome_error step]
    exact ⟨names, ⟨here, by rintro ⟨⟩⟩, depth, codes, enough⟩

theorem reached_all (c : Catalog) (calls : List WriteCall) (out : Output) :
    ∃ reached : List (List String),
      List.Forall₂ (Reaches c) reached (calls.zip (inTurn (perform c) calls out).1) ∧
      ∀ i, (inTurn (perform c) (calls.take i) out).2.depth = out.depth ∧
        (inTurn (perform c) (calls.take i) out).2.codes =
          Codes.useAll out.codes (reached.take i).flatten ∧
        Codes.Enough out.codes (reached.take i).flatten := by
  induction calls generalizing out with
  | nil => exact ⟨[], .nil, fun i => by simp [inTurn, Codes.Enough]⟩
  | cons call calls ih =>
    obtain ⟨names, first, depth, codes, enough⟩ := reaches c call out
    obtain ⟨reached, rest, later⟩ := ih ((call.perform c).outcome out).2
    refine ⟨names :: reached, .cons first rest, fun i => ?_⟩
    cases i with
    | zero => simp [inTurn, Codes.Enough]
    | succ i =>
      obtain ⟨depth', codes', enough'⟩ := later i
      rw [codes] at codes' enough'
      simp only [List.take_succ_cons, inTurn, List.flatten_cons]
      refine ⟨depth'.trans depth, by rw [codes', Codes.useAll_append], fun few => ?_⟩
      rw [Codes.useAll_append]
      exact enough' (enough few)

def results (c : Catalog) (calls : List WriteCall) : List (Except Fault Unit) :=
  (inTurn (perform c) calls .empty).1

def output (c : Catalog) (calls : List WriteCall) : Output := (inTurn (perform c) calls .empty).2

theorem output_eq_adding (succeeded : ∀ result ∈ results c calls, result = .ok ()) :
    output c calls = Output.empty.adding (Piece.spelled ∅ (calls.flatMap (pieces c)))
      (Piece.uses (calls.flatMap (pieces c))) :=
  ((lays_all c calls .empty).done _ _ (Attempt.forM_of_inTurn succeeded)).2.1

theorem mirrored_after (reachable : c.Reachable) (keyed : ∀ call ∈ calls, call.WellKeyed)
    (succeeded : ∀ result ∈ results c calls, result = .ok ()) (i : Nat) :
    ∃ types, forM (calls.take i) (reread c) (.ofOctets (output c calls).bytes.toList) =
        .ok () ⟨(output c calls).bytes.toList.drop (output c (calls.take i)).bytes.size, 0, types⟩ ∧
      Mirrored c (output c (calls.take i)).codes types := by
  have split := Attempt.inTurn_append (perform c) (calls.take i) (calls.drop i) .empty
  rw [List.take_append_drop] at split
  rw [results, split, List.forall_mem_append] at succeeded
  have first : forM (calls.take i) (perform c) .empty = .ok () (output c (calls.take i)) :=
    Attempt.forM_of_inTurn succeeded.1
  have last : output c calls =
      (inTurn (perform c) (calls.drop i) (output c (calls.take i))).2 := by
    rw [output, split]
    rfl
  have rest : forM (calls.drop i) (perform c) (output c (calls.take i)) =
      .ok () (output c calls) := last ▸ Attempt.forM_of_inTurn succeeded.2
  obtain ⟨bytes, names, written, -, reads⟩ := restores_all reachable
    (fun call mem => keyed call (List.mem_of_mem_take mem)) _ _ _ sane_empty first
  -- What the later calls add is left over by the readings.
  obtain ⟨more, others, whole⟩ : ∃ more others,
      output c calls = (output c (calls.take i)).adding more others :=
    ⟨_, _, ((lays_all c (calls.drop i) _).done _ _ rest).2.1⟩
  obtain ⟨types, learns, step⟩ := reads more ∅ (agree_empty c)
  have before : (output c (calls.take i)).bytes.toList = bytes := by
    simp [written, Output.adding, Output.empty]
  have all : (output c calls).bytes.toList = bytes ++ more := by
    simp [whole, Output.adding, before]
  refine ⟨types, ?_, ?_⟩
  · rw [all, ← Array.length_toList, before, List.drop_left]
    exact step
  · rw [written]
    exact learns.mirrored reachable

/-- After each of some calls to one output, whether they succeeded or not, the depth is none, and
the types named so far, each call's up to where it ended, are numbered in the order in which they
came up. If all succeeded, the bytes are pieces that depend on no codes, with tags between them that
declare each type where it comes up first; and an input that is read as the output was written knows
the types behind the codes of the output after each of the readings, at no depth. -/
theorem tables_in_step (c : Catalog) (calls : List WriteCall) :
    (∃ reached : List (List String),
      List.Forall₂ (Reaches c) reached (calls.zip (results c calls)) ∧
      ∀ i, (output c (calls.take i)).depth = 0 ∧
        Codes.Number (output c (calls.take i)).codes (reached.take i).flatten.eraseDups ∧
        (reached.take i).flatten.eraseDups.length ≤ maxTypeCode) ∧
    ((∀ result ∈ results c calls, result = .ok ()) →
      (∃ tags, tags.map Tag.name = calls.flatMap (uses c) ∧ Interned tags ∧
        (output c calls).bytes.toList = Piece.fill (calls.flatMap (pieces c)) tags) ∧
      (c.Reachable → (∀ call ∈ calls, call.WellKeyed) → ∀ i, ∃ types,
        forM (calls.take i) (reread c) (.ofOctets (output c calls).bytes.toList) =
          .ok () ⟨(output c calls).bytes.toList.drop (output c (calls.take i)).bytes.size, 0,
            types⟩ ∧
        Mirrored c (output c (calls.take i)).codes types)) := by
  constructor
  · obtain ⟨reached, each, after⟩ := reached_all c calls .empty
    refine ⟨reached, each, fun i => ?_⟩
    obtain ⟨depth, codes, enough⟩ := after i
    have number := Codes.number_useAll (reached.take i).flatten
    have few : (Codes.useAll ∅ (reached.take i).flatten).size ≤ maxTypeCode :=
      enough (by simp [Output.empty])
    exact ⟨depth, codes ▸ number, number.size_eq ▸ few⟩
  · intro succeeded
    refine ⟨⟨Codes.tags ∅ (calls.flatMap (uses c)), Codes.map_name_tags _ _,
      Codes.interned_tags _, ?_⟩, fun reachable keyed => mirrored_after reachable keyed succeeded⟩
    have used : Piece.uses (calls.flatMap (pieces c)) = calls.flatMap (uses c) :=
      List.filterMap_flatMap
    rw [output_eq_adding succeeded, ← used]
    simp [Output.adding, Output.empty, Piece.spelled]

def markCalls : List WriteCall := [.typeTag "Mark", .record "Mark" []]

theorem results_markCalls : results markCatalog markCalls = [.ok (), .ok ()] := by
  have one : (Codes.use ∅ "Mark").size = 1 := Codes.size_use_empty "Mark"
  have coded : (Codes.use ∅ "Mark")["Mark"]? = some 1 := by simp [Codes.use]
  have sane : Sane 0 (Codes.use ∅ "Mark") := by
    refine ⟨by simp, by simp [one, maxTypeCode], fun name mem => ?_⟩
    obtain rfl : name = "Mark" := by simpa [Codes.mem_use] using mem
    decide
  have room : Room markCatalog 0 (Codes.use ∅ "Mark") [.record "Mark" []] :=
    (Room.container_iff rfl).mpr ⟨by decide, ⟨markType, get?_mark, rfl, by decide, .nil⟩,
      .nil (by simpa [Codes.use_of_some coded, Value.recordType?] using sane.deeper (by decide))⟩
  have tag : Writes (Write.typeTag markCatalog "Mark") .empty _ markType _ _ :=
    .typeTag sane_empty get?_mark
  have mark : Writes (Write.record markCatalog "Mark" [])
      (Output.empty.adding (Codes.tag ∅ "Mark") ["Mark"]) _ () _ _ :=
    Value.written markCatalog (.record "Mark" []) _ sane (by simp)
  have first : perform markCatalog (.typeTag "Mark") .empty =
      .ok () (Output.empty.adding (Codes.tag ∅ "Mark") ["Mark"]) :=
    Attempt.bind_ok (tag.succeeds ⟨by decide, by simp [Output.empty, one, maxTypeCode]⟩)
  have second : perform markCatalog (.record "Mark" [])
      (Output.empty.adding (Codes.tag ∅ "Mark") ["Mark"]) = .ok () _ := mark.succeeds room
  simp only [results, markCalls, inTurn, Attempt.outcome_ok first, Attempt.outcome_ok second]

theorem tables_in_step_marks : markCatalog.Reachable ∧
    (∀ result ∈ results markCatalog markCalls, result = .ok ()) ∧
    (∃ tags, tags.map Tag.name = ["Mark", "Mark"] ∧ Interned tags ∧
      (output markCatalog markCalls).bytes.toList =
        Piece.fill [.tag "Mark", .tag "Mark"] tags) ∧
    (output markCatalog markCalls).bytes.toList = [255, 255, 0, 4, 77, 97, 114, 107, 0, 1] ∧
    ∃ types, forM markCalls (reread markCatalog)
        (.ofOctets [255, 255, 0, 4, 77, 97, 114, 107, 0, 1]) = .ok () ⟨[], 0, types⟩ ∧
      Mirrored markCatalog (output markCatalog markCalls).codes types := by
  have reachable : markCatalog.Reachable := .register .initial register_mark
  have succeeded : ∀ result ∈ results markCatalog markCalls, result = .ok () := by
    simp [results_markCalls]
  have keyed : ∀ call ∈ markCalls, call.WellKeyed := by
    simp [markCalls, WellKeyed, values]
  have bytes : (output markCatalog markCalls).bytes.toList =
      [255, 255, 0, 4, 77, 97, 114, 107, 0, 1] := by
    rw [output_eq_adding succeeded]
    have again : (Codes.use ∅ "Mark").tag "Mark" = [0, 1] := by
      simp [Codes.tag, Codes.use]
      decide
    have new : Codes.tag ∅ "Mark" = [255, 255, 0, 4, 77, 97, 114, 107] := by
      simp [Codes.tag]
      rfl
    simp [Output.adding, Output.empty, markCalls, pieces, Value.pieces, Value.fieldPieces, again,
      new]
  obtain ⟨tags, after⟩ := (tables_in_step markCatalog markCalls).2 succeeded
  obtain ⟨types, read, mirrored⟩ := after reachable keyed 2
  refine ⟨reachable, succeeded, tags, bytes, types, ?_, mirrored⟩
  have whole : (output markCatalog (markCalls.take 2)).bytes.size = 10 := by
    rw [← Array.length_toList]
    exact congrArg List.length bytes
  rw [bytes, whole] at read
  exact read

end WriteCall

end SharedObjects
