import HumanoidLab.Lib.Record
import HumanoidLab.Theorems.ControlTick
import HumanoidLab.Theorems.Layouts
import Mathlib.Tactic.NormNum

/-! The start-up support over an episode. Once the band is released it stays released, and a motion releases it
    only after the setpoint was held for the arming time. The timeout is looked at only on a tick that has a
    command, so the band is off in time exactly when a command comes at the first tick past the deadline, or a
    motion released it before. -/

namespace HumanoidLab
open Fallible Std.Do Concurrency

set_option mvcgen.warning false

variable {K : Type}

/-! ### An episode -/

/-- The setpoints of the commands that were applied, newest first. -/
def accepted (es : List (TickRecord K)) : List (List K) := es.filterMap (·.setpoint)

/-- The tick of the first command that was applied. -/
def firstCommand : List (TickRecord K) → Option Nat
  | [] => none
  | x :: es => (firstCommand es).or (x.setpoint.map fun _ => x.tick)

variable {es : List (TickRecord K)} {s : Support K} {tick : Nat} {q : List K}

/-- What is recorded of a tick that leaves the support as `s`. -/
def record (tick : Nat) (setpoint : Option (List K)) (s : Support K) : TickRecord K :=
  ⟨tick, setpoint, s.engaged, s.releaseReason⟩

@[simp] theorem firstCommand_record : firstCommand (record tick (some q) s :: es) = some ((firstCommand es).getD tick) := by
  cases h : firstCommand es <;> simp [firstCommand, record, h]

theorem firstCommand_append (later : List (TickRecord K)) {t : Nat} (h : firstCommand es = some t) :
    firstCommand (later ++ es) = some t := by
  induction later with
  | nil => exact h
  | cons y later ih => simp [firstCommand, ih]

section
variable [Field K] [LinearOrder K]

/-- For how many commands the setpoint has stayed within the static epsilon. -/
def holdLength : List (List K) → Nat
  | q :: p :: qs => if setpointDelta q p ≤ supportStaticEpsilonRad then holdLength (p :: qs) + 1 else 0
  | _ => 0

/-- The setpoint was held for the arming time. -/
def Armed (dt : K) (qs : List (List K)) : Prop := supportArmSeconds ≤ holdLength qs * dt

/-- A setpoint moves after the ones before it were held for the arming time. -/
def MovesAfterHold (dt : K) (q : List K) (qs : List (List K)) : Prop :=
  ∃ p ∈ qs.head?, supportStaticEpsilonRad < setpointDelta q p ∧ Armed dt qs

/-- A setpoint moved after a hold. -/
def MovedAfterHold (dt : K) : List (List K) → Prop
  | [] => False
  | q :: qs => MovesAfterHold dt q qs ∨ MovedAfterHold dt qs

/-- The deadline of the support has passed at a tick, counted from the first command. -/
def Due (C : Control K) (maxSeconds : K) (first : Option Nat) (tick : Nat) : Prop :=
  ∃ t ∈ first, maxSeconds ≤ (tick - t : K) * C.physicsDt

/-- The band is released: by a command past the deadline, or by a motion after a hold. -/
def Released (C : Control K) (maxSeconds : K) : List (TickRecord K) → Prop
  | [] => False
  | x :: es => Released C maxSeconds es ∨ ∃ q ∈ x.setpoint,
      Due C maxSeconds (firstCommand es) x.tick ∨ MovesAfterHold C.physicsDt q (accepted es)

/-- A command comes at the first tick of an episode that is past the deadline, or a motion released the band before. -/
def CommandAtDeadline (C : Control K) (maxSeconds : K) (es : List (TickRecord K)) : Prop :=
  ∀ later x earlier, es = later ++ x :: earlier → Due C maxSeconds (firstCommand es) x.tick →
    (∀ y ∈ earlier, ¬Due C maxSeconds (firstCommand es) y.tick) →
    x.setpoint.isSome = true ∨ MovedAfterHold C.physicsDt (accepted earlier)

/-! ### What the support follows -/

/-- The state of an active support after the ticks of an episode. -/
structure Follows (C : Control K) (maxSeconds : K) (es : List (TickRecord K)) (s : Support K) : Prop where
  active : s.active = true
  released : s.releaseTick.isSome = true ↔ Released C maxSeconds es
  reason : s.releaseReason = es.head?.bind (·.reason)
  reasoned : s.releaseReason.isSome = s.releaseTick.isSome
  started : s.releaseTick = none → s.startedTick = firstCommand es
  previous : s.releaseTick = none → s.previousQ = (accepted es).head?
  static : s.releaseTick = none → s.staticTicks = holdLength (accepted es)
  armed : s.releaseTick = none → (s.armed = true ↔ Armed C.physicsDt (accepted es))

variable {C : Control K} {spec : SupportSpec K}

theorem Follows.silent (h : Follows C spec.maxSeconds es s) : Follows C spec.maxSeconds (record tick none s :: es) s := by
  refine ⟨h.active, ?_, rfl, h.reasoned, ?_, h.previous, h.static, h.armed⟩
  · rw [h.released, Released]
    simp [record]
  · intro hs
    rw [h.started hs]
    simp [firstCommand, record]

/-- What is recorded of a tick, with the ticks before it. -/
structure TickLaw (C : Control K) (maxSeconds : K) (x : TickRecord K) (earlier : List (TickRecord K)) : Prop where
  tick : x.tick = earlier.length
  engaged : x.engaged = false ↔ Released C maxSeconds (x :: earlier)
  motion : x.reason = some "controller_motion_after_hold" → (∀ y ∈ earlier, y.reason = none) →
    ∃ q ∈ x.setpoint, MovesAfterHold C.physicsDt q (accepted earlier)

theorem Follows.engaged {x : TickRecord K} (h : Follows C spec.maxSeconds (x :: es) s) (hx : x.engaged = s.engaged) :
    x.engaged = false ↔ Released C spec.maxSeconds (x :: es) := by
  rw [hx, ← h.released, Support.engaged, h.active]
  cases s.releaseTick <;> simp

section
variable {maxSeconds : K} {later : List (TickRecord K)} {t : Nat}

theorem Released.append (later : List (TickRecord K)) (h : Released C maxSeconds es) : Released C maxSeconds (later ++ es) := by
  induction later with
  | nil => exact h
  | cons y later ih => exact Or.inl ih

theorem Due.append (later : List (TickRecord K)) (h : Due C maxSeconds (firstCommand es) tick) :
    Due C maxSeconds (firstCommand (later ++ es)) tick := by
  obtain ⟨t, ht, hdue⟩ := h
  exact ⟨t, firstCommand_append later ht, hdue⟩

theorem firstCommand_ge (hes : Each (TickLaw C maxSeconds) (later ++ es)) (hn : firstCommand es = none)
    (h : firstCommand (later ++ es) = some t) : es.length ≤ t := by
  induction later with
  | nil => cases hn.symm.trans h
  | cons z later ih =>
    simp only [List.cons_append, firstCommand, Option.or_eq_some_iff, Option.map_eq_some_iff] at h
    rcases h with h | ⟨-, _, -, rfl⟩
    · exact ih hes.2 h
    · have hz : z.tick = (later ++ es).length := hes.1.tick
      rw [hz, List.length_append]
      exact Nat.le_add_left _ _

theorem MovedAfterHold.released (h : MovedAfterHold C.physicsDt (accepted es)) : Released C maxSeconds es := by
  induction es with
  | nil => exact h.elim
  | cons x es ih =>
    cases hx : x.setpoint with
    | none =>
      rw [accepted, List.filterMap_cons_none hx] at h
      exact Or.inl (ih h)
    | some q =>
      rw [accepted, List.filterMap_cons_some hx] at h
      rcases h with h | h
      · exact Or.inr ⟨q, hx, Or.inr h⟩
      · exact Or.inl (ih h)

theorem Released.cases (h : Released C maxSeconds es) : (∃ y ∈ es, Due C maxSeconds (firstCommand es) y.tick) ∨
    MovedAfterHold C.physicsDt (accepted es) := by
  induction es with
  | nil => exact h.elim
  | cons x es ih =>
    rcases h with h | ⟨q, hq, h | h⟩
    · rcases ih h with ⟨y, hy, hdue⟩ | h
      · exact Or.inl ⟨y, List.mem_cons_of_mem _ hy, hdue.append [x]⟩
      · refine Or.inr ?_
        cases hx : x.setpoint with
        | none => rwa [accepted, List.filterMap_cons_none hx]
        | some q =>
          rw [accepted, List.filterMap_cons_some hx]
          exact Or.inr h
    · exact Or.inl ⟨x, List.mem_cons_self, h.append [x]⟩
    · refine Or.inr ?_
      rw [accepted, List.filterMap_cons_some hq]
      exact Or.inl h

end

theorem Follows.closed (h : Follows C spec.maxSeconds es s) (hs : s.releaseTick.isSome = true) (setpoint : Option (List K)) :
    Follows C spec.maxSeconds (record tick setpoint s :: es) s := by
  have hne : s.releaseTick ≠ none := fun h => by rw [h] at hs; cases hs
  refine ⟨h.active, ⟨fun _ => Or.inl (h.released.mp hs), fun _ => hs⟩, rfl, h.reasoned, ?_, ?_, ?_, ?_⟩ <;>
    exact fun h => absurd h hne

theorem update_open (ha : s.active = true) (hs : s.releaseTick = none) (c : JointCommand K) :
    s.update (some spec) C.physicsDt tick (some c) =
      if spec.maxSeconds ≤ (tick - s.startedTick.getD tick : K) * C.physicsDt then
        ({ s with startedTick := some (s.startedTick.getD tick) } : Support K).release tick "timeout"
      else { (s.previousQ.elim { s with startedTick := some (s.startedTick.getD tick) } fun previous =>
        ({ s with startedTick := some (s.startedTick.getD tick) } : Support K).follow C.physicsDt tick c.q previous) with
          previousQ := some c.q } := by
  simp [Support.update, ha, hs]

theorem due_iff (tick : Nat) : Due C spec.maxSeconds (firstCommand es) tick ↔
    spec.maxSeconds ≤ (tick - (firstCommand es).getD tick : K) * C.physicsDt := by
  cases hf : firstCommand es with
  | none => simp [Due, spec.positive]
  | some t => simp [Due]

theorem Follows.goOn (h : Follows C spec.maxSeconds es s) (hs : s.releaseTick = none) {q : List K} {s' : Support K}
    (ha : s'.active = true) (hs' : s'.releaseTick = none) (hr : s'.releaseReason = none)
    (hnot : ¬(Due C spec.maxSeconds (firstCommand es) tick ∨ MovesAfterHold C.physicsDt q (accepted es)))
    (hstart : s'.startedTick = some ((firstCommand es).getD tick)) (hprev : s'.previousQ = some q)
    (hstatic : s'.staticTicks = holdLength (q :: accepted es))
    (harmed : s'.armed = true ↔ Armed C.physicsDt (q :: accepted es)) :
    Follows C spec.maxSeconds (record tick (some q) s' :: es) s' := by
  have hnr : ¬Released C spec.maxSeconds es := fun hc => by simpa [hs] using h.released.mpr hc
  refine ⟨ha, ?_, rfl, by rw [hr, hs']; rfl, ?_, fun _ => hprev, fun _ => hstatic, fun _ => harmed⟩
  · rw [hs', Released]
    simp only [Option.isSome_none, Bool.false_eq_true, false_iff, not_or]
    exact ⟨hnr, fun ⟨q', hq, hc⟩ => hnot (by cases hq; exact hc)⟩
  · intro _
    rw [hstart, firstCommand_record]

theorem follows_released {s' : Support K} {q : List K} (ha : s'.active = true) (ht : s'.releaseTick.isSome = true)
    (hr : s'.releaseReason.isSome = true)
    (hc : Due C spec.maxSeconds (firstCommand es) tick ∨ MovesAfterHold C.physicsDt q (accepted es)) :
    Follows C spec.maxSeconds (record tick (some q) s' :: es) s' := by
  have hne : s'.releaseTick ≠ none := fun h => by rw [h] at ht; cases ht
  refine ⟨ha, ⟨fun _ => Or.inr ⟨q, rfl, hc⟩, fun _ => ht⟩, rfl, hr.trans ht.symm, ?_, ?_, ?_, ?_⟩ <;>
    exact fun h => absurd h hne

/-- The first setpoint is compared with none. -/
theorem Follows.first (h : Follows C spec.maxSeconds es s) (hs : s.releaseTick = none) (hreason : s.releaseReason = none)
    (hdue : ¬Due C spec.maxSeconds (firstCommand es) tick) (hp : s.previousQ = none) {s' : Support K}
    (hs' : s' = { s with startedTick := some ((firstCommand es).getD tick), previousQ := some q }) :
    Follows C spec.maxSeconds (record tick (some q) s' :: es) s' := by
  subst hs'
  have hnil : accepted es = [] := List.head?_eq_none_iff.mp ((h.previous hs).symm.trans hp)
  have hnot : ¬MovesAfterHold C.physicsDt q (accepted es) := by
    rintro ⟨p, hm, -⟩
    rw [hnil] at hm
    cases hm
  refine h.goOn hs h.active hs hreason (not_or.mpr ⟨hdue, hnot⟩) rfl rfl ?_ ?_
  · rw [hnil]
    exact (h.static hs).trans (by rw [hnil]; rfl)
  · rw [hnil]
    exact (h.armed hs).trans (by rw [hnil]; rfl)

variable [IsStrictOrderedRing K]

theorem support_arm_positive : 0 < (supportArmSeconds : K) := by norm_num [supportArmSeconds]

section
variable {p : List K} {qs : List (List K)} {s' : Support K}

/-- A setpoint that moves releases an armed support, and ends the hold of another one. -/
theorem Follows.moves (h : Follows C spec.maxSeconds es s) (hs : s.releaseTick = none) (hreason : s.releaseReason = none)
    (hdue : ¬Due C spec.maxSeconds (firstCommand es) tick) (hqs : accepted es = p :: qs)
    (hd : supportStaticEpsilonRad < setpointDelta q p)
    (hs' : s' = { ({ s with startedTick := some ((firstCommand es).getD tick) } : Support K).follow C.physicsDt tick q p with
      previousQ := some q }) :
    Follows C spec.maxSeconds (record tick (some q) s' :: es) s' := by
  have harm : s.armed = true ↔ Armed C.physicsDt (accepted es) := h.armed hs
  simp only [Support.follow, hd, if_true] at hs'
  by_cases ha : s.armed = true
  · have hmoves : MovesAfterHold C.physicsDt q (accepted es) := ⟨p, by rw [hqs]; rfl, hd, harm.mp ha⟩
    rw [if_pos ha] at hs'
    subst hs'
    exact follows_released h.active rfl rfl (Or.inr hmoves)
  · have hnot : ¬MovesAfterHold C.physicsDt q (accepted es) := fun ⟨_, _, _, hc⟩ => ha (harm.mpr hc)
    have hlen : holdLength (q :: accepted es) = 0 := by rw [hqs, holdLength, if_neg (not_le.mpr hd)]
    rw [if_neg ha] at hs'
    subst hs'
    refine h.goOn hs h.active hs hreason (not_or.mpr ⟨hdue, hnot⟩) rfl rfl hlen.symm ?_
    have hunarmed : s.armed = false := by simpa using ha
    simp [Armed, hlen, support_arm_positive, hunarmed]

/-- A setpoint that stays goes on with the hold, and arms the support once that was long enough. -/
theorem Follows.holds (h : Follows C spec.maxSeconds es s) (hs : s.releaseTick = none) (hreason : s.releaseReason = none)
    (hdue : ¬Due C spec.maxSeconds (firstCommand es) tick) (hqs : accepted es = p :: qs)
    (hd : ¬supportStaticEpsilonRad < setpointDelta q p)
    (hs' : s' = { ({ s with startedTick := some ((firstCommand es).getD tick) } : Support K).follow C.physicsDt tick q p with
      previousQ := some q }) :
    Follows C spec.maxSeconds (record tick (some q) s' :: es) s' := by
  have harm : s.armed = true ↔ Armed C.physicsDt (accepted es) := h.armed hs
  have hlen : holdLength (q :: accepted es) = holdLength (accepted es) + 1 := by
    rw [hqs, holdLength, if_pos (not_lt.mp hd)]
  have hnot : ¬(Due C spec.maxSeconds (firstCommand es) tick ∨ MovesAfterHold C.physicsDt q (accepted es)) := by
    rintro (hc | ⟨p', hp', hd', -⟩)
    · exact hdue hc
    · rw [hqs] at hp'
      cases hp'
      exact hd hd'
  simp only [Support.follow, hd, if_false, h.static hs] at hs'
  split at hs'
  · rename_i harmed
    subst hs'
    refine h.goOn hs h.active hs hreason hnot rfl rfl hlen.symm ?_
    rw [Armed, hlen]
    exact ⟨fun _ => harmed, fun _ => rfl⟩
  · rename_i harmed
    subst hs'
    refine h.goOn hs h.active hs hreason hnot rfl rfl hlen.symm ?_
    rw [Armed, hlen]
    refine ⟨fun ha => absurd ((harm.mp ha).trans ?_) harmed, fun hc => absurd hc harmed⟩
    exact mul_le_mul_of_nonneg_right (Nat.cast_le.mpr (Nat.le_succ _)) C.dt_positive.le

end

theorem Follows.command (h : Follows C spec.maxSeconds es s) (tick : Nat) (c : JointCommand K) :
    Follows C spec.maxSeconds (record tick (some c.q) (s.update (some spec) C.physicsDt tick (some c)) :: es)
      (s.update (some spec) C.physicsDt tick (some c)) := by
  cases hs : s.releaseTick with
  | some t =>
    have hu : s.update (Option.some spec) C.physicsDt tick (Option.some c) = s := by simp [Support.update, hs]
    rw [hu]
    exact h.closed (by rw [hs]; rfl) _
  | none =>
    have hreason : s.releaseReason = none := by simpa [hs] using h.reasoned
    rw [update_open h.active hs, h.started hs]
    split
    · rename_i hdue
      exact follows_released h.active rfl rfl (Or.inl ((due_iff tick).mpr hdue))
    · rename_i hdue
      rw [← due_iff] at hdue
      cases hp : s.previousQ with
      | none => exact h.first hs hreason hdue hp rfl
      | some p =>
        obtain ⟨qs, hqs⟩ : ∃ qs, accepted es = p :: qs := List.head?_eq_some_iff.mp ((h.previous hs).symm.trans hp)
        by_cases hd : supportStaticEpsilonRad < setpointDelta c.q p
        · exact h.moves hs hreason hdue hqs hd (by rw [hp]; rfl)
        · exact h.holds hs hreason hdue hqs hd (by rw [hp]; rfl)

theorem follows_start : Follows C spec.maxSeconds [] (Support.start (some spec) s) := by
  refine ⟨rfl, ?_, rfl, rfl, fun _ => rfl, fun _ => rfl, fun _ => rfl, fun _ => ?_⟩
  · simp [Support.start, Released]
  · simp [Support.start, Armed, accepted, holdLength, support_arm_positive]

/-! ### Every run -/

theorem Follows.motion (h : Follows C spec.maxSeconds es s) {c : JointCommand K}
    (hr : (s.update (some spec) C.physicsDt tick (some c)).releaseReason = some "controller_motion_after_hold")
    (hn : ∀ y ∈ es, y.reason = none) : MovesAfterHold C.physicsDt c.q (accepted es) := by
  have hopen : s.releaseTick = none := by
    have hreason : s.releaseReason = none := by
      rw [h.reason]
      cases es with
      | nil => rfl
      | cons y es => exact hn y List.mem_cons_self
    simpa [hreason] using h.reasoned.symm
  have hnr : ¬Released C spec.maxSeconds es := fun hc => by simpa [hopen] using h.released.mpr hc
  have hnew := h.command tick c
  have hrel := hnew.reasoned
  rw [hr] at hrel
  rcases hnew.released.mp hrel.symm with hc | ⟨q, hq, hc | hc⟩
  · exact absurd hc hnr
  · -- Past the deadline the reason is another one.
    rw [update_open h.active hopen, h.started hopen, if_pos ((due_iff tick).mp hc)] at hr
    simp [Support.release] at hr
  · cases hq
    exact hc

/-- An episode of a run, with the support after it. -/
theorem episode_reach {r : ControlRun K} (hr : (controlMachine C).Reach Machine.Free r) (hspec : C.support = some spec) :
    Follows C spec.maxSeconds r.episode r.state.support ∧ r.state.tick = r.episode.length ∧
      Each (TickLaw C spec.maxSeconds) r.episode := by
  refine Machine.Reach.invariant (I := fun r => Follows C spec.maxSeconds r.episode r.state.support ∧
    r.state.tick = r.episode.length ∧ Each (TickLaw C spec.maxSeconds) r.episode) hr ?_ ?_
  · rintro _ rfl
    refine ⟨?_, rfl, trivial⟩
    rw [Control.started, hspec]
    exact follows_start (s := {})
  · rintro r a r' - ⟨hf, ht, he⟩ - hstep
    cases a with
    | tick plant polled =>
      simp only [controlMachine] at hstep
      split at hstep
      · rename_i command t hrun
        cases hstep
        have htick := (applyControl_tick hrun).1
        have hsupport := applyControl_support hrun
        rw [hspec] at hsupport
        have hnext : Follows C spec.maxSeconds (record t.tick (command.map (·.body.q)) t.support :: r.episode) t.support := by
          cases command with
          | none =>
            rw [show t.support = r.state.support from hsupport]
            exact hf.silent
          | some c =>
            rw [show t.support = _ from hsupport, htick]
            exact hf.command _ c.body
        refine ⟨hnext, congrArg (· + 1) (htick.trans ht), ⟨htick.trans ht, hnext.engaged rfl, fun hreason hn => ?_⟩, he⟩
        cases command with
        | none =>
          rw [show t.support = r.state.support from hsupport, hf.reason] at hreason
          cases hes : r.episode with
          | nil => simp [hes] at hreason
          | cons y es => simp [hes, hn y (hes ▸ List.mem_cons_self)] at hreason
        | some c =>
          rw [show t.support = _ from hsupport] at hreason
          exact ⟨_, rfl, hf.motion hreason hn⟩
      · cases hstep
    | reset =>
      cases hstep
      refine ⟨?_, rfl, trivial⟩
      simp only [Control.resetEpisode, hf.active, if_true, hspec]
      exact follows_start

/-! ### The laws of an episode -/

section
variable {maxSeconds : K} {later before : List (TickRecord K)} {y : TickRecord K} {t : Nat}

theorem Due.since (hm : 0 < maxSeconds) (hes : Each (TickLaw C maxSeconds) (later ++ y :: before))
    (h : Due C maxSeconds (firstCommand (later ++ y :: before)) y.tick) : Due C maxSeconds (firstCommand before) y.tick := by
  obtain ⟨t, ht, hdue⟩ := h
  have hlt : t < y.tick := by
    by_contra hle
    have hle : (y.tick - t : K) ≤ 0 := sub_nonpos.mpr (Nat.cast_le.mpr (Nat.not_lt.mp hle))
    have hzero : (y.tick - t : K) * C.physicsDt ≤ 0 := mul_nonpos_of_nonpos_of_nonneg hle C.dt_positive.le
    exact absurd (hm.trans_le (hdue.trans hzero)) (lt_irrefl 0)
  refine ⟨t, ?_, hdue⟩
  rw [show later ++ y :: before = (later ++ [y]) ++ before by simp] at ht hes
  cases he : firstCommand before with
  | some t' => rwa [← firstCommand_append (later ++ [y]) he]
  | none =>
    have hge := firstCommand_ge hes he ht
    rw [(hes.law (List.append_assoc later [y] before)).tick] at hlt
    exact absurd hge (Nat.not_le.mpr hlt)

/-- In every episode of every run: the band that is released stays released; a motion releases it only after the
    setpoint was held for the arming time; and it is off at every tick past the deadline exactly when a command
    comes at the first such tick, or a motion released the band before. -/
theorem support_band {r : ControlRun K} (hr : (controlMachine C).Reach Machine.Free r) (hspec : C.support = some spec) :
    (∀ later x earlier, r.episode = later ++ x :: earlier → x.engaged = false → ∀ y ∈ later, y.engaged = false) ∧
    (∀ later x earlier, r.episode = later ++ x :: earlier → x.reason = some "controller_motion_after_hold" →
      (∀ y ∈ earlier, y.reason = none) → ∃ q ∈ x.setpoint, MovesAfterHold C.physicsDt q (accepted earlier)) ∧
    ((∀ x ∈ r.episode, Due C spec.maxSeconds (firstCommand r.episode) x.tick → x.engaged = false) ↔
      CommandAtDeadline C spec.maxSeconds r.episode) := by
  obtain ⟨-, -, he⟩ := episode_reach hr hspec
  have stays : ∀ later x earlier, r.episode = later ++ x :: earlier → x.engaged = false → ∀ y ∈ later, y.engaged = false := by
    intro later x earlier hes hx y hy
    obtain ⟨l, k, rfl⟩ := List.append_of_mem hy
    have hrel := (he.law hes).engaged.mp hx
    rw [List.append_assoc, List.cons_append] at hes
    exact (he.law hes).engaged.mpr (Released.append (y :: k) hrel)
  refine ⟨stays, fun later x earlier hes => (he.law hes).motion, fun h => ?_, fun h => ?_⟩
  · intro later x earlier hes hdue hfirst
    have hx := (he.law hes).engaged.mp (h x (by rw [hes]; simp) hdue)
    rcases hx with hrel | ⟨q, hq, -⟩
    · rcases hrel.cases with ⟨y, hy, hdue'⟩ | hmoved
      · refine absurd ?_ (hfirst y hy)
        rw [hes, show later ++ x :: earlier = (later ++ [x]) ++ earlier by simp]
        exact hdue'.append _
      · exact Or.inr hmoved
    · exact Or.inl (by rw [hq]; rfl)
  · intro x hx hdue
    obtain ⟨later, e, earlier, hes, hedue, hfirst⟩ :=
      exists_oldest (P := fun x => Due C spec.maxSeconds (firstCommand r.episode) x.tick) ⟨x, hx, hdue⟩
    have hoff : e.engaged = false := by
      rw [(he.law hes).engaged]
      rcases h later e earlier hes hedue hfirst with hset | hmoved
      · obtain ⟨q, hq⟩ := Option.isSome_iff_exists.mp hset
        refine Or.inr ⟨q, hq, Or.inl (Due.since spec.positive (hes ▸ he) ?_)⟩
        rw [← hes]
        exact hedue
      · exact Or.inl hmoved.released
    rw [hes] at hx
    rcases List.mem_append.mp hx with hx | hx
    · exact stays later e earlier hes hoff x hx
    · rcases List.mem_cons.mp hx with rfl | hx
      · exact hoff
      · exact absurd hdue (hfirst x hx)

end

end

/-- The band of the small robot, for a hundredth of a second: two ticks. -/
def shortSupport : SupportSpec ℚ := ⟨1 / 100, by norm_num⟩

def shortControl : Control ℚ := { smallControl with support := some shortSupport }

/-- A command at tick 0, and none at tick 1. -/
def silentController : List (ControlInput ℚ) :=
  [.tick smallPlant (.ok (some (smallCommand 1 0 10))), .tick smallPlant (.ok none)]

/-- Without a command at tick 2, the band still pulls when its time is over. -/
theorem band_outlives_deadline : ∃ r x, (controlMachine shortControl).run ⟨shortControl.started, []⟩
      (silentController ++ [.tick smallPlant (.ok none)]) = some r ∧ x ∈ r.episode ∧
    Due shortControl shortSupport.maxSeconds (firstCommand r.episode) x.tick ∧ x.engaged = true := by
  have hrun : ((controlMachine shortControl).run ⟨shortControl.started, []⟩
      (silentController ++ [.tick smallPlant (.ok none)])).map (·.episode) =
        some [⟨2, none, true, none⟩, ⟨1, none, true, none⟩, ⟨0, some [0], true, none⟩] := by decide +kernel
  obtain ⟨r, hr, he⟩ := Option.map_eq_some_iff.mp hrun
  refine ⟨r, ⟨2, none, true, none⟩, hr, by rw [he]; exact List.mem_cons_self, ⟨0, by rw [he]; rfl, ?_⟩, rfl⟩
  norm_num [shortSupport, shortControl, smallControl]

/-- A command at tick 2 releases it. -/
theorem support_band_command : ∃ r, (controlMachine shortControl).run ⟨shortControl.started, []⟩
      (silentController ++ [.tick smallPlant (.ok (some (smallCommand 2 0 10)))]) = some r ∧
    r.state.tick = 3 ∧ ∀ x ∈ r.episode, Due shortControl shortSupport.maxSeconds (firstCommand r.episode) x.tick →
      x.engaged = false := by
  have hrun : ((controlMachine shortControl).run ⟨shortControl.started, []⟩
      (silentController ++ [.tick smallPlant (.ok (some (smallCommand 2 0 10)))])).map (fun r => (r.episode, r.state.tick)) =
        some ([⟨2, some [0], false, some "timeout"⟩, ⟨1, none, true, none⟩, ⟨0, some [0], true, none⟩], 3) := by
    decide +kernel
  obtain ⟨r, hr, he⟩ := Option.map_eq_some_iff.mp hrun
  obtain ⟨he, ht⟩ := Prod.mk.inj he
  have hreach : (controlMachine shortControl).Reach Machine.Free r := ⟨_, rfl, Machine.path_of_run hr (Machine.meets_free _ _)⟩
  have hspec : shortControl.support = some shortSupport := rfl
  refine ⟨r, hr, ht, (support_band hreach hspec).2.2.mpr fun later x earlier hes hdue _ => Or.inl ?_⟩
  have hx : x ∈ r.episode := by
    rw [hes]
    simp
  rw [he] at hx hdue
  simp only [List.mem_cons, List.not_mem_nil, or_false] at hx
  rcases hx with rfl | rfl | rfl
  · rfl
  · -- Tick 1 is not past the deadline.
    obtain ⟨t, ht, hdue⟩ := hdue
    cases ht
    norm_num [shortSupport, shortControl, smallControl] at hdue
  · rfl

end HumanoidLab
