import HumanoidLab.Bridge.Stream
import HumanoidLab.Lib.Record
import Mathlib.Data.Rat.Floor

/-! The order of a stream: the versions that it publishes increase, an action of the wall-clock loop is newer than
    everything that was received before its observation was sent, and the messages are numbered from 0 on. -/

namespace HumanoidLab
open Fallible Concurrency Std.Do

set_option mvcgen.warning false

variable {K T : Type}

/-! ### The adapter -/

section
variable {n : Nat}

theorem index_next {s : AdapterState K} {i : Nat} (h : s.index none = .ok i) : i = s.nextIndex := by
  obtain ⟨j, hj, h⟩ := bind_ok h
  cases hj
  dsimp only at h
  split at h
  · cases h
  · split at h
    · cases h
    · cases h
      rfl

theorem packLatentActionMessage_index {token leftHand rightHand : List K} {m : PoseMessage K}
    (h : packLatentActionMessage token n leftHand rightHand = .ok m) : m.frameIndex = n := by
  unfold packLatentActionMessage at h
  repeat' split at h
  all_goals cases h
  rfl

variable [Field K] [LinearOrder K] {config : AdapterConfig K}

theorem neck_numbered (values : List K) :
    ⦃fun s => ⌜s.nextIndex = n⌝⦄ config.neck values ⦃post⟨fun _ s => ⌜s.nextIndex = n⌝, fun _ s => ⌜s.nextIndex = n⌝⟩⦄ := by
  mvcgen [AdapterConfig.neck]

variable [FloorRing K]

theorem adapt_numbered (action : NdArray K) :
    ⦃fun s => ⌜s.nextIndex = n⌝⦄ config.adapt action none
    ⦃post⟨fun a s => ⌜a.frameIndex = n ∧ s.nextIndex = n⌝, fun _ s => ⌜s.nextIndex = n⌝⟩⦄ := by
  mvcgen [AdapterConfig.adapt, neck_numbered]
  case vc2 hs _ _ _ _ _ _ _ _ _ hkeep _ hi => exact ⟨(index_next hi).trans (hkeep.trans hs), hkeep.trans hs⟩
  case vc3 hs _ _ _ _ _ _ _ _ _ hkeep _ _ => exact hkeep.trans hs
  case vc4 hs _ _ _ _ _ _ _ _ _ => exact fun hkeep => hkeep.trans hs

theorem pack_numbered (action : NdArray K) :
    ⦃fun s => ⌜s.nextIndex = n⌝⦄ config.pack action none
    ⦃post⟨fun m s => ⌜m.frameIndex = n ∧ s.nextIndex = n + 1⌝, fun _ s => ⌜s.nextIndex = n⌝⟩⦄ := by
  mvcgen [AdapterConfig.pack, adapt_numbered]
  case vc1 hs _ _ h _ hm _ =>
    have hindex := h.1.trans hs
    exact ⟨(packLatentActionMessage_index hm).trans hindex, congrArg (· + 1) hindex⟩
  case vc2 hs _ _ h _ _ => exact h.2.trans hs
  case vc3 hs _ _ => exact fun h => h.trans hs

end

/-! ### The law -/

/-- The messages that a record has packed, newest first. -/
def packs : List (StreamEvent K) → List (PoseMessage K)
  | [] => []
  | .packed m :: es => m :: packs es
  | _ :: es => packs es

/-- The versions that were received before the last observation was sent meet `P`. -/
def SentAfter (P : Int → Prop) (es : List (StreamEvent K)) : Prop :=
  ∃ later before, es = later ++ .sent :: before ∧ .sent ∉ later ∧ ∀ w, .received w ∈ before → P w

/-- What holds of an event, by the events before it. -/
def StreamLaw (mode : ClockMode) : StreamEvent K → List (StreamEvent K) → Prop
  | .published v m, earlier => (∀ w m', .published w m' ∈ earlier → w < v) ∧ (mode = .wall → SentAfter (· < v) earlier) ∧
    earlier.head? = some (.packed m)
  | .packed m, earlier => m.frameIndex = (packs earlier).length
  | _, _ => True

section
variable {P Q : Int → Prop} {es : List (StreamEvent K)} {e : StreamEvent K}

theorem SentAfter.cons (h : SentAfter P es) (he : e ≠ .sent) : SentAfter P (e :: es) := by
  obtain ⟨later, before, rfl, hnot, hall⟩ := h
  refine ⟨e :: later, before, rfl, ?_, hall⟩
  intro hmem
  rcases List.mem_cons.mp hmem with h | h
  · exact he h.symm
  · exact hnot h

theorem SentAfter.mono (h : SentAfter P es) (hPQ : ∀ w, P w → Q w) : SentAfter Q es := by
  obtain ⟨later, before, hes, hnot, hall⟩ := h
  exact ⟨later, before, hes, hnot, fun w hw => hPQ w (hall w hw)⟩

end

/-- A stream knows the newest version that it received, has asked for the action that it waits for, and has packed
    as many messages as its adapter has counted. -/
structure Ordered (mode : ClockMode) (s : StreamState K) : Prop where
  each : Each (StreamLaw mode) s.record
  received : ∀ w, .received w ∈ s.record → w ≤ s.lastVersion
  published : ∀ w m, .published w m ∈ s.record → w ≤ s.lastVersion
  waiting : mode = .wall → s.pc = .waiting → SentAfter (· ≤ s.lastVersion) s.record
  acting : ∀ r, s.pc = .acting r → r.version = s.lastVersion ∧ (∀ w m, .published w m ∈ s.record → w < r.version) ∧
    (mode = .wall → SentAfter (· < r.version) s.record)
  numbered : s.adapter.nextIndex = (packs s.record).length

section
variable {mode : ClockMode} {s t : StreamState K}

theorem Ordered.ended (h : Ordered mode s) : Ordered mode { s with pc := .ended } :=
  ⟨h.each, h.received, h.published, nofun, nofun, h.numbered⟩

theorem Ordered.observe {fresh : Bool} (h : Ordered mode s) (hs : s.observe fresh = some t) : Ordered mode t := by
  unfold StreamState.observe at hs
  split at hs
  · cases hs
    split
    · exact ⟨h.each, h.received, h.published, nofun, nofun, h.numbered⟩
    · exact h
  · cases hs

theorem Ordered.learn {w v : Int} (h : Ordered mode s) (hw : w ≤ v) (hv : s.lastVersion ≤ v) :
    (∀ u, .received u ∈ (s.log (.received w)).record → u ≤ v) ∧ ∀ u m, .published u m ∈ (s.log (.received w)).record → u ≤ v := by
  refine ⟨fun u hu => ?_, fun u m hu => ?_⟩
  · rcases List.mem_cons.mp hu with hu | hu
    · cases hu
      exact hw
    · exact Int.le_trans (h.received u hu) hv
  · exact Int.le_trans (h.published u m (List.mem_of_ne_of_mem (by simp) hu)) hv

theorem Ordered.receive {decode : T → Except DecodeError (ActionReply K)} {text : T} (h : Ordered mode s)
    (hs : s.receive decode text = some t) : Ordered mode t := by
  unfold StreamState.receive at hs
  split at hs
  · cases hs
    split
    · rename_i hpc _ reply _
      obtain ⟨hr, hp⟩ := h.learn (Int.le_max_right s.lastVersion reply.version) (Int.le_max_left _ _)
      refine ⟨⟨trivial, h.each⟩, hr, hp, fun _ hw => ?_, fun r hr => ?_, h.numbered⟩
      · exact absurd (hpc.symm.trans hw) nofun
      · exact absurd (hpc.symm.trans hr) nofun
    · exact h
    · exact h.ended
  · cases hs
    split
    · rename_i hpc _ reply _
      split
      · rename_i hnew
        obtain ⟨hr, hp⟩ := h.learn (Int.le_refl reply.version) (Int.le_of_lt hnew)
        refine ⟨⟨trivial, h.each⟩, hr, hp, nofun, fun r hr => ?_, h.numbered⟩
        cases hr
        refine ⟨rfl, fun w m hw => ?_, fun hm => ?_⟩
        · exact Int.lt_of_le_of_lt (h.published w m (List.mem_of_ne_of_mem (by simp) hw)) hnew
        · exact ((h.waiting hm hpc).mono fun w hw => Int.lt_of_le_of_lt hw hnew).cons nofun
      · rename_i hold
        obtain ⟨hr, hp⟩ := h.learn (Int.not_lt.mp hold) (Int.le_refl _)
        refine ⟨⟨trivial, h.each⟩, hr, hp, fun hm hw => (h.waiting hm hw).cons nofun, fun r hr => ?_, h.numbered⟩
        exact absurd (hpc.symm.trans hr) nofun
    · exact h.ended
  · cases hs

theorem Ordered.versions_sent (h : Ordered mode s) :
    (∀ w, .received w ∈ (s.log .sent).record → w ≤ s.lastVersion) ∧
    ∀ w m, .published w m ∈ (s.log .sent).record → .published w m ∈ s.record :=
  ⟨fun w hw => h.received w (List.mem_of_ne_of_mem (by simp) hw), fun _ _ => List.mem_of_ne_of_mem (by simp)⟩

theorem Ordered.send (h : Ordered mode s) (hs : s.send mode = some t) : Ordered mode t := by
  obtain ⟨hreceived, hpublished⟩ := h.versions_sent
  have hkept : ∀ w m, .published w m ∈ (s.log .sent).record → w ≤ s.lastVersion :=
    fun w m hw => h.published w m (hpublished w m hw)
  unfold StreamState.send at hs
  split at hs
  · -- The wait in the wall-clock loop starts with all that was received before.
    cases hs
    exact ⟨⟨trivial, h.each⟩, hreceived, hkept, fun _ _ => ⟨[], s.record, rfl, nofun, h.received⟩, nofun, h.numbered⟩
  · cases hs
  · cases hs
    refine ⟨⟨trivial, h.each⟩, hreceived, hkept, nofun, fun r hr => ?_, h.numbered⟩
    obtain ⟨hv, hp, -⟩ := h.acting r hr
    exact ⟨hv, fun w m hw => hp w m (hpublished w m hw), nofun⟩
  · cases hs

theorem head_ne_acting (r : ActionReply K) : StreamPc.head mode ≠ .acting r := by
  cases mode <;> nofun

theorem Ordered.packed {m : PoseMessage K} {adapter : AdapterState K} (h : Ordered mode s)
    (hm : m.frameIndex = s.adapter.nextIndex) (ha : adapter.nextIndex = s.adapter.nextIndex + 1) :
    Ordered mode { s.log (.packed m) with adapter, pc := .head mode } := by
  refine ⟨⟨hm.trans h.numbered, h.each⟩, fun w hw => ?_, fun w m' hw => ?_, ?_, ?_, ?_⟩
  · exact h.received w (List.mem_of_ne_of_mem (by simp) hw)
  · exact h.published w m' (List.mem_of_ne_of_mem (by simp) hw)
  · intro hwall hwait
    subst hwall
    cases hwait
  · exact fun r hr => absurd hr (head_ne_acting r)
  · rw [ha, h.numbered]
    rfl

theorem Ordered.publish {v : Int} {m : PoseMessage K} (h : Ordered mode s) (hpc : s.pc = .head mode) (hv : v = s.lastVersion)
    (hp : ∀ w m', .published w m' ∈ s.record → w < v) (hsent : mode = .wall → SentAfter (· < v) s.record)
    (hhead : s.record.head? = some (.packed m)) : Ordered mode (s.log (.published v m)) := by
  refine ⟨⟨⟨hp, hsent, hhead⟩, h.each⟩, fun w hw => ?_, fun w m' hw => ?_, ?_, ?_, h.numbered⟩
  · exact h.received w (List.mem_of_ne_of_mem (by simp) hw)
  · rcases List.mem_cons.mp hw with hw | hw
    · cases hw
      exact Int.le_of_eq hv
    · exact h.published w m' hw
  · exact fun hwall hwait => (h.waiting hwall hwait).cons nofun
  · exact fun r hr => absurd (hpc.symm.trans hr) (head_ne_acting r)

section
variable [Field K] [LinearOrder K] [FloorRing K] {config : AdapterConfig K}

theorem Ordered.act {gate : Bool} {answer : Option Bool} (h : Ordered mode s) (hs : s.act mode config gate answer = some t) :
    Ordered mode t := by
  unfold StreamState.act at hs
  split at hs
  · rename_i reply hpc
    obtain ⟨hv, hp, hsent⟩ := h.acting reply hpc
    cases hs
    split
    · rename_i e adapter hrun
      have ha := error_of_triple (pack_numbered reply.action) rfl hrun
      exact ⟨h.each, h.received, h.published, nofun, nofun, ha.trans h.numbered⟩
    · rename_i m adapter hrun
      obtain ⟨hm, ha⟩ := ok_of_triple (pack_numbered reply.action) rfl hrun
      have hpacked := h.packed hm ha
      split
      · split
        · refine hpacked.publish rfl hv (fun w m' hw => ?_) (fun hwall => (hsent hwall).cons nofun) rfl
          exact hp w m' (List.mem_of_ne_of_mem (by simp) hw)
        · exact hpacked
        · exact hpacked.ended
      · exact hpacked
  · cases hs

theorem ordered_reach {decode : T → Except DecodeError (ActionReply K)} (hs : (streamMachine mode decode config).Reach Machine.Free s) :
    Ordered mode s := by
  refine hs.invariant (fun s hs => ?_) fun s a t _ h _ hstep => ?_
  · subst hs
    exact ⟨trivial, nofun, nofun, by cases mode <;> nofun, fun r hr => absurd hr (head_ne_acting r), rfl⟩
  · cases a with
    | observe fresh => exact h.observe hstep
    | receive text => exact h.receive hstep
    | send => exact h.send hstep
    | act gate answer => exact h.act hstep
    | stop =>
      cases hstep
      exact h.ended

end

theorem packs_numbered {es : List (StreamEvent K)} (h : Each (StreamLaw mode) es) :
    (packs es).reverse.map (·.frameIndex) = List.range (packs es).length := by
  induction es with
  | nil => rfl
  | cons e es ih =>
    obtain ⟨he, hes⟩ := h
    cases e with
    | packed m =>
      rw [packs, List.reverse_cons, List.map_append, ih hes, List.length_cons, List.range_succ]
      exact congrArg _ (congrArg (fun i => [i]) he)
    | received _ => exact ih hes
    | sent => exact ih hes
    | published _ _ => exact ih hes

end

/-- In every run of either loop, for each way to decode texts: a published action is newer than those that were
    published before, in the wall-clock loop it is newer than all that was received before its observation was sent,
    it carries the message that was just packed, and the messages are numbered 0, 1, 2, … -/
theorem stream_order [Field K] [LinearOrder K] [FloorRing K] {config : AdapterConfig K} {mode : ClockMode}
    {decode : T → Except DecodeError (ActionReply K)} {s : StreamState K}
    (hs : (streamMachine mode decode config).Reach Machine.Free s) :
    (∀ later v m earlier, s.record = later ++ .published v m :: earlier →
      (∀ w m', .published w m' ∈ earlier → w < v) ∧ (mode = .wall → SentAfter (· < v) earlier) ∧
      earlier.head? = some (.packed m)) ∧
    (packs s.record).reverse.map (·.frameIndex) = List.range (packs s.record).length := by
  have h := (ordered_reach hs).each
  exact ⟨fun later v m earlier hes => h.law hes, packs_numbered h⟩

/-! ### Two actions -/

def zeroAction : NdArray ℚ := ⟨[78], List.replicate 78 (.fin 0), rfl⟩

/-- A server that answers with the version that a text stands for, and with one text that does not decode. -/
def zeroServer : Option Int → Except DecodeError (ActionReply ℚ)
  | some version => .ok ⟨version, zeroAction⟩
  | none => .error .client

def zeroAdapter : AdapterConfig ℚ := { neckTolerance := 1 / 20, expectedDim := some 78, known := by simp [actionDims] }

/-- Two passes of the wall-clock loop. Version 9 is flushed, and comes again while the second action is awaited. -/
def twoActions : List (StreamInput (Option Int)) :=
  [.observe true, .send, .receive (some 5), .act true (some true), .observe true, .receive none, .receive (some 9), .send,
    .receive (some 9), .receive (some 10), .act true (some true)]

/-- The versions that a record has published, with the numbers of their messages. -/
def publications (es : List (StreamEvent ℚ)) : List (Int × Nat) :=
  es.filterMap fun
    | .published v m => some (v, m.frameIndex)
    | _ => none

theorem stream_order_two : ∃ s, (streamMachine .wall zeroServer zeroAdapter).run { pc := .head .wall } twoActions = some s ∧
    publications s.record = [(10, 1), (5, 0)] ∧
    (packs s.record).reverse.map (·.frameIndex) = List.range (packs s.record).length := by
  have hrun : ((streamMachine .wall zeroServer zeroAdapter).run { pc := .head .wall } twoActions).map
      (fun s => publications s.record) = some [(10, 1), (5, 0)] := by
    decide +kernel
  obtain ⟨s, hs, hp⟩ := Option.map_eq_some_iff.mp hrun
  exact ⟨s, hs, hp, (stream_order ⟨_, rfl, Machine.path_of_run hs (Machine.meets_free _ _)⟩).2⟩

end HumanoidLab
