import SharedObjects.Proofs.Wire.Interning
import SharedObjects.Proofs.Wire.Writing
/-!
What writing leaves behind, whether it succeeds or not. The depth comes back to what it was, and the
types that have been named have their codes, all of them or those before the fault. Writing that
succeeds has put down pieces that the codes in use make no difference to, with the tags of its types
between them.
-/
set_option autoImplicit false

namespace SharedObjects

variable {α β : Type} {c : Catalog}

/-- Bytes that stand as they are in every message, or the place of a type's tag. -/
inductive Piece where
  | plain (bytes : Octets)
  | tag (name : String)

namespace Piece

def name? : Piece → Option String
  | plain _ => none
  | tag name => some name

def uses (pieces : List Piece) : List String := pieces.filterMap name?

def fill : List Piece → List Tag → Octets
  | [], _ => []
  | plain bytes :: pieces, tags => bytes ++ fill pieces tags
  | tag _ :: pieces, t :: tags => t.wire ++ fill pieces tags
  | tag _ :: pieces, [] => fill pieces []

def spelled (codes : Codes) (pieces : List Piece) : Octets := fill pieces (codes.tags (uses pieces))

variable {codes : Codes}

@[simp] theorem uses_nil : uses [] = [] := rfl

@[simp] theorem uses_plain (bytes : Octets) (pieces : List Piece) :
    uses (plain bytes :: pieces) = uses pieces := rfl

@[simp] theorem uses_tag (name : String) (pieces : List Piece) :
    uses (tag name :: pieces) = name :: uses pieces := rfl

@[simp] theorem uses_append (pieces more : List Piece) :
    uses (pieces ++ more) = uses pieces ++ uses more := List.filterMap_append

@[simp] theorem spelled_nil : spelled codes [] = [] := rfl

@[simp] theorem spelled_plain (bytes : Octets) (pieces : List Piece) :
    spelled codes (plain bytes :: pieces) = bytes ++ spelled codes pieces := rfl

@[simp] theorem spelled_tag (name : String) (pieces : List Piece) :
    spelled codes (tag name :: pieces) = codes.tag name ++ spelled (codes.use name) pieces := by
  rw [spelled, uses_tag, Codes.tags, fill, Codes.wire_tagOf, spelled]

@[simp] theorem spelled_append (pieces more : List Piece) : spelled codes (pieces ++ more) =
    spelled codes pieces ++ spelled (codes.useAll (uses pieces)) more := by
  induction pieces generalizing codes with
  | nil => rfl
  | cons piece pieces ih => cases piece <;> simp [ih]

end Piece

namespace Value

mutual

def pieces (c : Catalog) : Value → List Piece
  | null => []
  | bool b => [.plain (wire c ∅ (bool b))]
  | byte n => [.plain (wire c ∅ (byte n))]
  | short n => [.plain (wire c ∅ (short n))]
  | int n => [.plain (wire c ∅ (int n))]
  | long n => [.plain (wire c ∅ (long n))]
  | float bits => [.plain (wire c ∅ (float bits))]
  | double bits => [.plain (wire c ∅ (double bits))]
  | text s => [.plain (wire c ∅ (text s))]
  | bytes bs => [.plain (wire c ∅ (bytes bs))]
  | list items => .plain (Octets.ofNat 4 items.length) :: itemPieces c items
  | set members => .plain (Octets.ofNat 4 members.length) :: memberPieces c members
  | record name values => .tag name :: fieldPieces c values (c.fieldsOf name)
  termination_by structural v => v

def itemPieces (c : Catalog) : List Value → List Piece
  | [] => []
  | v :: vs => .plain (v.taggedWire []) :: (pieces c v ++ itemPieces c vs)
  termination_by structural vs => vs

def memberPieces (c : Catalog) : List (Key × Value) → List Piece
  | [] => []
  | (k, v) :: es => .plain k.wire :: .plain (v.taggedWire []) :: (pieces c v ++ memberPieces c es)
  termination_by structural es => es

def fieldPieces (c : Catalog) : List Value → List Field → List Piece
  | [], _ => []
  | v :: vs, fields =>
    match fields with
    | [] => []
    | f :: fs => .plain (v.declaredWire f.type []) :: (pieces c v ++ fieldPieces c vs fs)
  termination_by structural vs => vs

end

end Value

def Codes.Enough (codes : Codes) (names : List String) : Prop :=
  codes.size ≤ maxTypeCode → (codes.useAll names).size ≤ maxTypeCode

/-- From this output the writing, if it succeeds, gives this result, adds these bytes and uses these
names. If it fails, the depth is the same as before, and it has used some of the names, those before
the fault. -/
structure Ends (w : Write α) (out : Output) (a : α) (bytes : Octets) (names : List String) :
    Prop where
  done : ∀ x after, w out = .ok x after →
    x = a ∧ after = out.adding bytes names ∧ Codes.Enough out.codes names
  stopped : ∀ fault after, w out = .error fault after → after.depth = out.depth ∧
    ∃ part, part <+: names ∧ after.codes = Codes.useAll out.codes part ∧
      Codes.Enough out.codes part

namespace Ends

variable {w : Write α} {out : Output} {a : α} {b : β} {bytes more : Octets}
  {names others : List String}

theorem cast (ends : Ends w out a bytes names)
    (spelled : bytes = more := by simp) (used : names = others := by simp) :
    Ends w out a more others := by
  subst spelled used
  exact ends

theorem of_ok (step : w out = .ok a (out.adding bytes names))
    (enough : Codes.Enough out.codes names) : Ends w out a bytes names where
  done x after written := by
    rw [step] at written
    cases written
    exact ⟨rfl, rfl, enough⟩
  stopped fault after failed := by
    rw [step] at failed
    cases failed

theorem refused {fault : Fault} (step : w out = .error fault out) : Ends w out a bytes names where
  done x after written := by
    rw [step] at written
    cases written
  stopped fault' after failed := by
    rw [step] at failed
    cases failed
    exact ⟨rfl, [], List.nil_prefix, rfl, id⟩

theorem pure (a : α) : Ends (Pure.pure a : Write α) out a [] [] :=
  of_ok (by rw [Output.adding_nil]; rfl) id

theorem fail (cause : EncodingFault) : Ends (Write.fail cause : Write α) out a bytes names :=
  refused rfl

theorem fail_bind (cause : EncodingFault) {k : α → Write β} :
    Ends (Write.fail cause >>= k) out b bytes names := refused rfl

theorem bind {k : α → Write β} (first : Ends w out a bytes names)
    (second : Ends (k a) (out.adding bytes names) b more others) :
    Ends (w >>= k) out b (bytes ++ more) (names ++ others) where
  done y after written := by
    obtain ⟨x, between, step, step'⟩ := Attempt.of_bind_ok written
    obtain ⟨rfl, rfl, few⟩ := first.done x between step
    obtain ⟨rfl, rfl, few'⟩ := second.done y after step'
    exact ⟨rfl, Output.adding_adding .., fun start => Codes.useAll_append .. ▸ few' (few start)⟩
  stopped fault after failed := by
    cases step : w out with
    | error fault' between =>
      rw [Attempt.bind_error step] at failed
      cases failed
      obtain ⟨depth, part, here, codes⟩ := first.stopped _ _ step
      exact ⟨depth, part, here.trans (List.prefix_append _ _), codes⟩
    | ok x between =>
      obtain ⟨rfl, rfl, few⟩ := first.done x between step
      rw [Attempt.bind_ok step] at failed
      obtain ⟨depth, part, here, codes, few'⟩ := second.stopped _ _ failed
      have used : Codes.useAll out.codes (names ++ part) =
          (Codes.useAll out.codes names).useAll part := Codes.useAll_append ..
      exact ⟨depth, names ++ part, (List.prefix_append_right_inj names).mpr here, used ▸ codes,
        fun start => used ▸ few' (few start)⟩

theorem get {k : Output → Write β} (next : Ends (k out) out b bytes names) :
    Ends (MonadState.get >>= k) out b bytes names := ⟨next.done, next.stopped⟩

theorem octets (bytes : Octets) : Ends (Write.octets bytes) out () bytes [] := of_ok rfl id

theorem int16 (n : Int16) : Ends (Write.int16 n) out () (Octets.ofInt16 n) [] := octets _

theorem text (s : String) : Ends (Write.text s) out () (Octets.ofText s) [] := by
  unfold Write.text
  by_cases long : (Utf8.encode s).length > maxTextSize
  · simp only [long, if_true]
    exact fail_bind _
  · simp only [long, if_false]
    exact (octets _).bind (octets _)

theorem byteString (bs : Octets) :
    Ends (Write.byteString bs) out () (Octets.ofByteString bs) [] := by
  unfold Write.byteString
  by_cases long : bs.length > maxLength
  · simp only [long, if_true]
    exact fail_bind _
  · simp only [long, if_false]
    exact (octets _).bind (octets _)

theorem length (n : Nat) : Ends (Write.length n) out () (Octets.ofNat 4 n) [] := by
  unfold Write.length
  split
  · exact fail _
  · exact octets _

theorem key (k : Key) : Ends (Write.key k) out () k.wire [] := by
  cases k with
  | number n => exact (octets [1]).bind (octets _)
  | text s => exact (octets [2]).bind (text s)

theorem declare {name : String} {code : Nat} (new : out.codes[name]? = none)
    (next : code = out.codes.size + 1) (room : code ≤ maxTypeCode) :
    Ends (modify fun out => { out with codes := out.codes.insert name code }) out () []
      [name] := by
  have used : Codes.use out.codes name = out.codes.insert name code :=
    next ▸ Codes.use_of_none new
  refine of_ok (by simp [Output.adding, used]) fun _ => ?_
  rw [Codes.useAll_cons, Codes.useAll_nil, Codes.size_use_of_none new, ← next]
  exact room

theorem again {name : String} {code : Nat} (coded : out.codes[name]? = some code)
    (ends : Ends w out a bytes []) : Ends w out a bytes [name] := by
  have used : Codes.useAll out.codes [name] = out.codes := Codes.use_of_some coded
  refine ⟨fun x after written => ?_, fun fault after failed => ?_⟩
  · obtain ⟨same, rfl, -⟩ := ends.done x after written
    exact ⟨same, by simp only [Output.adding, used, Codes.useAll_nil], fun few => used.symm ▸ few⟩
  · obtain ⟨depth, part, here, stopped⟩ := ends.stopped fault after failed
    exact ⟨depth, part, here.trans List.nil_prefix, stopped⟩

end Ends

/-- Wherever it is done, the writing gives this result and puts down these pieces. -/
def Lays (w : Write α) (a : α) (pieces : List Piece) : Prop :=
  ∀ out, Ends w out a (Piece.spelled out.codes pieces) (Piece.uses pieces)

namespace Lays

variable {w : Write α} {a : α} {b : β} {pieces more : List Piece}

theorem pure (a : α) : Lays (Pure.pure a : Write α) a [] := fun _ => .pure a

theorem fail (cause : EncodingFault) : Lays (Write.fail cause : Write α) a pieces :=
  fun _ => .fail cause

theorem bind {k : α → Write β} (first : Lays w a pieces) (second : Lays (k a) b more) :
    Lays (w >>= k) b (pieces ++ more) :=
  fun out => ((first out).bind (second _)).cast

theorem plain {bytes : Octets} (ends : ∀ out, Ends w out a bytes []) :
    Lays w a [.plain bytes] := fun out => (ends out).cast

theorem octets (bytes : Octets) : Lays (Write.octets bytes) () [.plain bytes] :=
  plain fun _ => .octets bytes

theorem key (k : Key) : Lays (Write.key k) () [.plain k.wire] := plain fun _ => .key k

theorem nested (lays : Lays w a pieces) : Lays (Write.nested w) a pieces := by
  intro out
  have inner := lays { out with depth := out.depth + 1 }
  by_cases deep : out.depth ≥ maxNesting
  · have failed : Write.nested w out = .error (.encoding .nestingTooDeep) out := by
      simp only [Write.nested, deep, if_true]
    exact .refused failed
  refine ⟨fun x after written => ?_, fun fault after failed => ?_⟩
  · simp only [Write.nested, deep, if_false] at written
    split at written
    · rename_i step
      cases written
      obtain ⟨same, rfl, enough⟩ := inner.done _ _ step
      exact ⟨same, by simp [Output.adding], enough⟩
    · cases written
  · simp only [Write.nested, deep, if_false] at failed
    split at failed
    · cases failed
    · rename_i step
      cases failed
      obtain ⟨depth, stopped⟩ := inner.stopped _ _ step
      exact ⟨by simp [depth], stopped⟩

theorem within (type field : String) (lays : Lays w a pieces) :
    Lays (Write.within type field w) a pieces := by
  refine fun out => ⟨fun x after written => ?_, fun fault after failed => ?_⟩
  · unfold Write.within at written
    split at written
    · cases written
    · exact (lays out).done x after written
  · unfold Write.within at failed
    split at failed
    · rename_i step
      cases failed
      exact (lays out).stopped _ _ step
    · exact (lays out).stopped fault after failed

theorem typeTag {name : String} {type : ResolvedType} (known : c.get? name = some type) :
    Lays (Write.typeTag c name) type [.tag name] := by
  intro out
  unfold Write.typeTag
  simp only [known]
  apply Ends.get
  cases coded : out.codes[name]? with
  | some code =>
    exact .again coded (((Ends.int16 _).bind (.pure type)).cast (by simp [Codes.tag, coded]))
  | none =>
    apply Ends.get
    by_cases many : out.codes.size + 1 > maxTypeCode
    · simp only [many, if_true]
      exact .fail_bind _
    · simp only [many, if_false]
      exact ((Ends.int16 _).bind ((Ends.text name).bind
        ((Ends.declare (by simpa using coded) (by simp) (by omega)).bind (.pure type)))).cast
          (by simp [Codes.tag, coded])

theorem expectFields (type : ResolvedType) (given : Nat) :
    Lays (Write.expectFields type given) () [] := by
  unfold Write.expectFields
  split
  · exact pure ()
  · exact fail _

theorem expectStreamable (c : Catalog) (name : String) :
    Lays (Write.expectStreamable c name) () [] := by
  unfold Write.expectStreamable
  split
  · split
    · exact fail _
    · exact pure ()
  · exact pure ()

variable {v : Value} {payload : Write Unit}

theorem tagged (lays : Lays payload () (v.pieces c)) :
    Lays (Write.tagged v payload) () (.plain (v.taggedWire []) :: v.pieces c) := by
  unfold Write.tagged Value.taggedWire
  cases held : v.type? with
  | none =>
    obtain rfl : v = .null := Value.eq_null_of_type? held
    exact octets [0]
  | some type => exact (octets [type.code]).bind lays

theorem declared (type : FieldType) (lays : Lays payload () (v.pieces c)) :
    Lays (Write.declared type v payload) () (.plain (v.declaredWire type []) :: v.pieces c) := by
  have marked (absent lead : Octets) :
      Lays (if v.isNull then Write.octets absent else (do Write.octets lead; payload)) ()
        (.plain (if v.isNull then absent else lead) :: v.pieces c) := by
    by_cases null : v = .null
    · subst null
      exact octets absent
    · have present : v.isNull = false := Value.isNull_of_ne_null null
      simp only [present, Bool.false_eq_true, if_false]
      exact (octets lead).bind lays
  have bare : Lays payload () (.plain [] :: v.pieces c) := fun out => (lays out).cast
  unfold Write.declared Value.declaredWire
  cases accepted : type.accepts v with
  | false => exact fail _
  | true =>
    cases type with
    | any => exact tagged lays
    | record => exact marked (Octets.ofInt16 0) []
    | text | bytes | list | set => exact marked [0] [1]
    | _ => exact bare

end Lays

def Value.Laid (c : Catalog) (v : Value) : Prop := Lays (Write.payload c v) () (v.pieces c)

namespace Value.Laid

variable {v : Value} {vs : List Value}

theorem any (laid : v.Laid c) :
    Lays (Write.any c v) () (.plain (v.taggedWire []) :: v.pieces c) := .tagged laid

theorem value (laid : v.Laid c) (type : FieldType) :
    Lays (Write.value c type v) () (.plain (v.declaredWire type []) :: v.pieces c) :=
  .declared type laid

theorem items (laid : ∀ v ∈ vs, v.Laid c) :
    Lays (Write.itemPayloads c vs) () (itemPieces c vs) := by
  induction vs with
  | nil => exact .pure ()
  | cons v vs ih =>
    exact (laid v (by simp)).any.bind (ih fun w mem => laid w (by simp [mem]))

theorem members {es : Members} (laid : ∀ e ∈ es, e.2.Laid c) :
    Lays (Write.memberPayloads c es) () (memberPieces c es) := by
  induction es with
  | nil => exact .pure ()
  | cons e es ih =>
    obtain ⟨k, v⟩ := e
    have first : v.Laid c := laid (k, v) (by simp)
    exact (Lays.key k).bind (first.any.bind (ih fun w mem => laid w (by simp [mem])))

theorem fields (laid : ∀ v ∈ vs, v.Laid c) (type : String) (fs : List Field) :
    Lays (Write.fieldPayloads c type vs fs) () (fieldPieces c vs fs) := by
  induction vs generalizing fs with
  | nil => exact .pure ()
  | cons v vs ih =>
    cases fs with
    | nil => exact .pure ()
    | cons f fs =>
      have first : v.Laid c := laid v (by simp)
      exact ((first.value f.type).within type f.name).bind
        (ih (fun w mem => laid w (by simp [mem])) fs)

theorem flat (flat : v.isFlat = true) : v.Laid c := by
  cases v with
  | null => exact .fail _
  | bool b => exact .octets _
  | byte n => exact .octets _
  | short n => exact .octets _
  | int n => exact .octets _
  | long n => exact .octets _
  | float bits => exact .octets _
  | double bits => exact .octets _
  | text s => exact .plain fun _ => .text s
  | bytes bs => exact .plain fun _ => .byteString bs
  | list items | set members | record type fields => simp [isFlat] at flat

theorem list (laid : ∀ v ∈ vs, v.Laid c) : (Value.list vs).Laid c :=
  .nested ((Lays.plain fun _ => .length _).bind (items laid))

theorem set {es : Members} (laid : ∀ e ∈ es, e.2.Laid c) : (Value.set es).Laid c :=
  .nested ((Lays.plain fun _ => .length _).bind (members laid))

theorem record {name : String} (laid : ∀ v ∈ vs, v.Laid c) :
    (Value.record name vs).Laid c := by
  refine (Lays.expectStreamable c name).bind (.nested ?_)
  rw [Catalog.fieldsOf]
  -- A type that is not registered passes the first check, and has no tag.
  cases known : c.get? name with
  | none =>
    rw [Write.typeTag_of_none known]
    exact fun _ => .fail_bind _
  | some type =>
    exact (Lays.typeTag known).bind
      ((Lays.expectFields type vs.length).bind (fields laid type.name type.fields))

end Value.Laid

theorem Value.laid (c : Catalog) (v : Value) : v.Laid c := by
  induction v using Value.induction with
  | flat v flat => exact .flat flat
  | list items ih => exact .list ih
  | set members ih => exact .set ih
  | record name fields ih => exact .record ih

end SharedObjects
