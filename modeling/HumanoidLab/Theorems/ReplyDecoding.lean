import HumanoidLab.Bridge.Reply

/-! The texts that `decode_response` answers with a reply or with a `Psi0ClientError`, and what becomes of a stream that flushes the
    others: their exceptions are not caught. -/

namespace HumanoidLab
open Fallible
open Psi0Dex3 (FloatEntry float64)

section
variable {K D A : Type} (i : Interpreter) (np : Numpy K D A)

/-- The array that numpy makes of a buffer in the shape of an envelope: the first entry where the shape is missing or empty. -/
inductive Shaped (members : List (Json.Text × JsonValue)) (buffer : A) : A → Prop
  | shape {shape : JsonValue} {dims : List Int} {a : A} (get : Json.Value.get members "shape" = some shape)
      (some : JsonValue.truth shape = true) (ints : JsonValue.toInts i.unicode shape = .ok dims)
      (fits : np.reshape buffer dims = .ok a) : Shaped members buffer a
  | first {a : A} (none : ∀ shape, Json.Value.get members "shape" = some shape → JsonValue.truth shape = false)
      (nonempty : np.first buffer = .ok a) : Shaped members buffer a

/-- An envelope holds an array: its payload is base64, its dtype is one of numpy, and the buffer has its shape. -/
def Envelope (members : List (Json.Text × JsonValue)) (a : A) : Prop :=
  ∃ payload bytes descr dtype buffer, Json.Value.get members "__numpy__" = some (.str payload) ∧ (∀ c ∈ payload, c < 128) ∧
    Bytes.decodeBase64 0 0 0 payload = some bytes ∧ Json.Value.get members "dtype" = some descr ∧ np.dtype descr = .ok dtype ∧
    np.frombuffer bytes dtype = .ok buffer ∧ Shaped i np members buffer a

/-- What a JSON value stands for, with its envelopes opened, where it nests at most so deep. -/
def Denotes : Nat → JsonValue → Decoded A → Prop
  | 0, _, _ => False
  | depth + 1, .arr items, d => ∃ vs, d = .list vs ∧ List.Forall₂ (Denotes depth) items vs
  | depth + 1, .obj members, d =>
    (Json.Value.get members "__numpy__" = none ∧
      ∃ vs, d = .dict vs ∧ List.Forall₂ (fun m v => m.1 = v.1 ∧ Denotes depth m.2 v.2) members vs) ∨
    ∃ a, d = .array a ∧ Envelope i np members a
  | _ + 1, v, d => d = .plain v

/-- A value that `int` reads. -/
def Integral (unicode : Unicode) : JsonValue → Prop
  | .bool _ | .int _ => True
  | .float x => x.isFinite = true
  | .str s => (JsonValue.readInt unicode s).isSome = true
  | _ => False

/-- An error that is not an integer beyond the floats. -/
def Floatable : JsonValue → Prop
  | .int n => |float64 n| < (2 : ℚ) ^ 1024
  | _ => True

structure Readable (members : List (Json.Text × JsonValue)) (action : JsonValue) : Prop where
  action : ∃ decoded array, Denotes i np i.convertDepth action decoded ∧ np.asarray decoded = .ok array
  version : Integral i.unicode ((Json.Value.get members "version").getD (.int 0))
  err : Floatable ((Json.Value.get members "err").getD (.float (.finite 0)))

/-- The texts that are answered: what is not JSON, what is not an object with an action, and what is readable. -/
def Answerable (payload : List Char) : Prop :=
  Json.loads i.limits pythonFloats payload = .error .decode ∨
    ∃ data, Json.loads i.limits pythonFloats payload = .ok data ∧
      ∀ members action, data = .obj members → Json.Value.get members "action" = some action → Readable i np members action

variable {i np}

theorem toInt_ok {unicode : Unicode} {v : JsonValue} : (∃ n, JsonValue.toInt unicode v = .ok n) ↔ Integral unicode v := by
  cases v with
  | bool b => exact ⟨fun _ => trivial, fun _ => ⟨_, rfl⟩⟩
  | int n => exact ⟨fun _ => trivial, fun _ => ⟨_, rfl⟩⟩
  | float x =>
    cases x with
    | finite x => exact ⟨fun _ => rfl, fun _ => ⟨_, rfl⟩⟩
    | nan => exact ⟨fun ⟨_, h⟩ => (by cases h), fun h => (by cases h)⟩
    | infinite negative => exact ⟨fun ⟨_, h⟩ => (by cases h), fun h => (by cases h)⟩
  | str s =>
    dsimp only [Integral, JsonValue.toInt]
    cases JsonValue.readInt unicode s with
    | none => exact ⟨fun ⟨_, h⟩ => (by cases h), fun h => (by cases h)⟩
    | some n => exact ⟨fun _ => rfl, fun _ => ⟨n, rfl⟩⟩
  | null => exact ⟨fun ⟨_, h⟩ => (by cases h), fun h => h.elim⟩
  | arr items => exact ⟨fun ⟨_, h⟩ => (by cases h), fun h => h.elim⟩
  | obj members => exact ⟨fun ⟨_, h⟩ => (by cases h), fun h => h.elim⟩

theorem checkErr_ok {v : JsonValue} : checkErr v = .ok () ↔ Floatable v := by
  cases v with
  | int n =>
    dsimp only [checkErr, Floatable]
    rw [guard_ok, not_le]
    exact and_iff_left rfl
  | _ => exact ⟨fun _ => trivial, fun _ => rfl⟩

theorem member_ok {members : List (Json.Text × JsonValue)} {key : String} {v : JsonValue} :
    member members key = .ok v ↔ Json.Value.get members key = some v := by
  unfold member
  cases Json.Value.get members key with
  | none => exact ⟨fun h => (by cases h), fun h => (by cases h)⟩
  | some w => exact ⟨fun h => congrArg some (Except.ok.inj h), fun h => congrArg Except.ok (Option.some.inj h)⟩

theorem b64decode_ok {v : JsonValue} {bytes : List UInt8} :
    b64decode v = .ok bytes ↔ ∃ s, v = .str s ∧ (∀ c ∈ s, c < 128) ∧ Bytes.decodeBase64 0 0 0 s = some bytes := by
  cases v with
  | str s =>
    dsimp only [b64decode]
    by_cases hascii : s.all (· < 128) = true
    · rw [if_pos hascii]
      have hall : ∀ c ∈ s, c < 128 := by simpa using hascii
      cases hdecode : Bytes.decodeBase64 0 0 0 s with
      | none =>
        constructor
        · intro h
          cases h
        · rintro ⟨_, heq, -, h⟩
          cases heq
          rw [hdecode] at h
          cases h
      | some b =>
        constructor
        · intro h
          obtain rfl : b = bytes := Except.ok.inj h
          exact ⟨s, rfl, hall, hdecode⟩
        · rintro ⟨_, heq, -, h⟩
          cases heq
          exact congrArg Except.ok (Option.some.inj (hdecode.symm.trans h))
    · rw [if_neg hascii]
      constructor
      · intro h
        cases h
      · rintro ⟨_, heq, hall, -⟩
        cases heq
        exact absurd (by simpa using hall) hascii
  | _ =>
    constructor
    · intro h
      cases h
    · rintro ⟨_, heq, -⟩
      cases heq

theorem numpyDeserialize_ok {members : List (Json.Text × JsonValue)} {a : A} :
    numpyDeserialize i np members = .ok a ↔ Envelope i np members a := by
  unfold numpyDeserialize
  constructor
  · intro h
    obtain ⟨payload, hpayload, h₁⟩ := bind_ok h
    obtain ⟨bytes, hbytes, h₂⟩ := bind_ok h₁
    obtain ⟨descr, hdescr, h₃⟩ := bind_ok h₂
    obtain ⟨dtype, hdtype, h₄⟩ := bind_ok h₃
    obtain ⟨buffer, hbuffer, h⟩ := bind_ok h₄
    clear h₁ h₂ h₃ h₄
    obtain ⟨s, rfl, hascii, hdecode⟩ := b64decode_ok.mp hbytes
    refine ⟨s, bytes, descr, dtype, buffer, member_ok.mp hpayload, hascii, hdecode, member_ok.mp hdescr, hdtype, hbuffer, ?_⟩
    dsimp only at h
    cases hshape : Json.Value.get members "shape" with
    | none =>
      rw [hshape] at h
      exact .first (fun shape hget => by rw [hshape] at hget; cases hget) h
    | some shape =>
      rw [hshape, Option.getD_some] at h
      split at h
      · rename_i htruth
        obtain ⟨dims, hdims, h⟩ := bind_ok h
        exact .shape hshape htruth hdims h
      · rename_i htruth
        refine .first (fun shape' hget => ?_) h
        obtain rfl : shape = shape' := Option.some.inj (hshape.symm.trans hget)
        exact Bool.eq_false_iff.mpr htruth
  · rintro ⟨s, bytes, descr, dtype, buffer, hpayload, hascii, hdecode, hdescr, hdtype, hbuffer, hshaped⟩
    rw [member_ok.mpr hpayload, member_ok.mpr hdescr]
    simp only [bind, Except.bind, b64decode_ok.mpr ⟨s, rfl, hascii, hdecode⟩, hdtype, hbuffer]
    cases hshaped with
    | shape hget htruth hints hfits => simp only [hget, Option.getD_some, htruth, if_true, hints, hfits]
    | first hnone hfirst =>
      have hfalse : JsonValue.truth ((Json.Value.get members "shape").getD .null) = false := by
        cases hget : Json.Value.get members "shape" with
        | none => rfl
        | some shape => exact hnone shape hget
      simp only [hfalse, Bool.false_eq_true, if_false, hfirst]

/-- `_convert` returns what a value stands for. -/
theorem convert_ok {depth : Nat} {v : JsonValue} {d : Decoded A} : convert i np depth v = .ok d ↔ Denotes i np depth v d := by
  induction depth generalizing v d with
  | zero => exact ⟨fun h => (by cases h), fun h => h.elim⟩
  | succ depth ih =>
    cases v with
    | arr items =>
      dsimp only [convert, Denotes]
      rw [map_ok_iff]
      constructor
      · rintro ⟨vs, hvs, rfl⟩
        exact ⟨vs, rfl, (mapM_ok_iff.mp hvs).imp fun _ _ h => ih.mp h⟩
      · rintro ⟨vs, rfl, hall⟩
        exact ⟨vs, mapM_ok_iff.mpr (hall.imp fun _ _ h => ih.mpr h), rfl⟩
    | obj members =>
      dsimp only [convert, Denotes]
      have hmember : ∀ (m : Json.Text × JsonValue) (v : Json.Text × Decoded A),
          (convert i np depth m.2).map (m.1, ·) = .ok v ↔ m.1 = v.1 ∧ Denotes i np depth m.2 v.2 := by
        intro m v
        rw [map_ok_iff]
        constructor
        · rintro ⟨d, hd, rfl⟩
          exact ⟨rfl, ih.mp hd⟩
        · rintro ⟨hkey, hd⟩
          exact ⟨v.2, ih.mpr hd, Prod.ext hkey rfl⟩
      cases hnumpy : Json.Value.get members "__numpy__" with
      | none =>
        rw [if_neg (by simp), map_ok_iff]
        constructor
        · rintro ⟨vs, hvs, rfl⟩
          exact .inl ⟨rfl, vs, rfl, (mapM_ok_iff.mp hvs).imp fun m v h => (hmember m v).mp h⟩
        · rintro (⟨-, vs, rfl, hall⟩ | ⟨a, rfl, payload, _, _, _, _, hpayload, -⟩)
          · exact ⟨vs, mapM_ok_iff.mpr (hall.imp fun m v h => (hmember m v).mpr h), rfl⟩
          · rw [hnumpy] at hpayload
            cases hpayload
      | some payload =>
        rw [Option.isSome_some, if_pos rfl, map_ok_iff]
        constructor
        · rintro ⟨a, ha, rfl⟩
          exact .inr ⟨a, rfl, numpyDeserialize_ok.mp ha⟩
        · rintro (⟨hnone, -⟩ | ⟨a, rfl, henvelope⟩)
          · cases hnone
          · exact ⟨a, numpyDeserialize_ok.mpr henvelope, rfl⟩
    | _ => exact ⟨fun h => (Except.ok.inj h).symm, fun h => congrArg Except.ok h.symm⟩

theorem readReply_ok {members : List (Json.Text × JsonValue)} {action : JsonValue} :
    (∃ reply, readReply i np members action = .ok reply) ↔ Readable i np members action := by
  unfold readReply
  constructor
  · rintro ⟨reply, h⟩
    obtain ⟨decoded, hdecoded, h⟩ := bind_ok h
    obtain ⟨array, harray, h⟩ := bind_ok h
    obtain ⟨version, hversion, h⟩ := bind_ok h
    obtain ⟨_, herr, -⟩ := bind_ok h
    exact ⟨⟨decoded, array, convert_ok.mp hdecoded, harray⟩, toInt_ok.mp ⟨version, hversion⟩, checkErr_ok.mp herr⟩
  · rintro ⟨⟨decoded, array, hstands, harray⟩, hversion, herr⟩
    obtain ⟨version, hversion⟩ := toInt_ok.mpr hversion
    rw [convert_ok.mpr hstands]
    simp only [bind, Except.bind, harray, hversion, checkErr_ok.mpr herr]
    exact ⟨_, rfl⟩

theorem decodeResponse_answers {payload : List Char} :
    (∃ reply, decodeResponse i np payload = .ok reply) ∨ decodeResponse i np payload = .error .client ↔ Answerable i np payload := by
  unfold decodeResponse Answerable
  cases hloads : Json.loads i.limits pythonFloats payload with
  | error e =>
    cases e with
    | decode => exact ⟨fun _ => .inl rfl, fun _ => .inr rfl⟩
    | _ =>
      constructor
      · rintro (⟨reply, h⟩ | h) <;> cases h
      · rintro (h | ⟨data, h, -⟩) <;> cases h
  | ok data =>
    have hobject : (∃ members, data = .obj members) ∨ ∀ members, data ≠ .obj members := by
      cases data with
      | obj members => exact .inl ⟨members, rfl⟩
      | _ => exact .inr nofun
    rcases hobject with ⟨members, rfl⟩ | hother
    · dsimp only
      cases haction : Json.Value.get members "action" with
      | none =>
        refine ⟨fun _ => .inr ⟨_, rfl, fun members' action hdata hget => ?_⟩, fun _ => .inr rfl⟩
        obtain rfl := Json.Value.obj.inj hdata
        rw [haction] at hget
        cases hget
      | some action =>
        dsimp only
        have herror : (readReply i np members action).mapError ReplyError.python ≠ .error .client := by
          cases readReply i np members action <;> nofun
        constructor
        · rintro (⟨reply, h⟩ | h)
          · refine .inr ⟨_, rfl, fun members' action' hdata hget => ?_⟩
            obtain rfl := Json.Value.obj.inj hdata
            obtain rfl : action = action' := Option.some.inj (haction.symm.trans hget)
            exact readReply_ok.mp ⟨reply, mapError_ok.mp h⟩
          · exact absurd h herror
        · rintro (h | ⟨data, hdata, hall⟩)
          · cases h
          · obtain rfl := Except.ok.inj hdata
            obtain ⟨reply, hreply⟩ := readReply_ok.mpr (hall members action rfl haction)
            exact .inl ⟨reply, mapError_ok.mpr hreply⟩
    · refine ⟨fun _ => .inr ⟨_, rfl, fun members action hdata _ => absurd hdata (hother members)⟩, fun _ => .inr ?_⟩
      split
      · rename_i heq
        cases heq
      · rename_i heq
        cases heq
      · rename_i heq
        cases heq
      · rename_i members heq
        exact absurd (Except.ok.inj heq) (hother members)
      · rfl

/-- `decode_response` gives a reply or a `Psi0ClientError` on the answerable texts alone, and on the others the exception leaves
    `_flush_stale` and ends the stream. -/
theorem reply_decoding (i : Interpreter) (np : Numpy K D A) (payload : List Char) :
    ((∃ reply, decodeResponse i np payload = .ok reply) ∨ decodeResponse i np payload = .error .client ↔ Answerable i np payload) ∧
    ∀ s : StreamState K, s.pc = .flushing → ∃ t, s.receive (streamDecode i np) payload = some t ∧
      (t.pc = .flushing ↔ Answerable i np payload) ∧ (t.pc = .ended ↔ ¬Answerable i np payload) := by
  refine ⟨decodeResponse_answers, fun s hs => ?_⟩
  rw [← decodeResponse_answers]
  unfold StreamState.receive streamDecode
  rw [hs]
  refine ⟨_, rfl, ?_⟩
  cases decodeResponse i np payload with
  | ok reply =>
    refine ⟨⟨fun _ => .inl ⟨reply, rfl⟩, fun _ => hs⟩, fun h => ?_, fun h => absurd (.inl ⟨reply, rfl⟩) h⟩
    exact absurd (hs.symm.trans h) nofun
  | error e =>
    cases e with
    | client =>
      refine ⟨⟨fun _ => .inr rfl, fun _ => hs⟩, fun h => ?_, fun h => absurd (.inr rfl) h⟩
      exact absurd (hs.symm.trans h) nofun
    | python e =>
      have hnot : ¬((∃ reply, (.error (.python e) : Except ReplyError (ActionReply K)) = .ok reply) ∨
          (.error (.python e) : Except ReplyError (ActionReply K)) = .error .client) := by
        rintro (⟨reply, h⟩ | h) <;> cases h
      exact ⟨⟨nofun, fun h => absurd h hnot⟩, fun _ => hnot, fun _ => rfl⟩

end

/-- What a text ends with. -/
def failure {K : Type} (r : Except ReplyError (ActionReply K)) : Option ReplyError :=
  match r with
  | .ok _ => none
  | .error e => some e

/-- ASCII alone, and Python's recursion limit. -/
def asciiInterpreter : Interpreter := ⟨⟨fun _ => none, fun _ => false⟩, 1000, 1000⟩

/-- A numpy without dtypes: it converts an integer to an array without axes. -/
def integerNumpy : Numpy ℚ Empty Empty where
  dtype _ := .error .type
  frombuffer _ _ := .error .value
  reshape _ _ := .error .value
  first _ := .error .index
  asarray
    | .plain (.int n) => .ok ⟨[], [.fin n], rfl⟩
    | _ => .error .type

/-- A version that is not a number and an envelope without a dtype: neither is a `Psi0ClientError`. -/
theorem reply_malformed :
    failure (decodeResponse asciiInterpreter integerNumpy "\x7b\"action\": 0, \"version\": \"x\"\x7d".toList) = some (.python .value) ∧
    failure (decodeResponse asciiInterpreter integerNumpy "\x7b\"action\": \x7b\"__numpy__\": \"AAAA\"\x7d\x7d".toList) =
      some (.python .key) := by
  constructor <;> decide +kernel

end HumanoidLab
