import HumanoidLab.Simulators.Kinematic
import Mathlib.Algebra.GroupWithZero.Nat
import Mathlib.Data.Nat.Basic
import Mathlib.Tactic.Common

/-! The rows of a kinematic replay. Each row holds the pose of the frame that it is labelled with, but the tick
    counts from one before the frame is chosen: the first row is frame 1, frame 0 has none, and the last frame
    has a row for every boundary up to the end of the loop. -/

namespace HumanoidLab
open Concurrency

variable {K : Type}

/-- The labels of the rows of the first `n` boundaries, newest first. -/
def boundaryLabels (k : Kinematic K) : Nat → List Nat
  | 0 => []
  | n + 1 => min (n + 1) (k.frames - 1) :: boundaryLabels k n

theorem boundaryLabels_reverse_head (k : Kinematic K) (n : Nat) : (boundaryLabels k n).reverse.head? ≠ some 0 := by
  induction n with
  | zero => simp [boundaryLabels]
  | succ n ih =>
    rw [boundaryLabels, List.reverse_cons, List.head?_append]
    cases h : (boundaryLabels k n).reverse.head? with
    | none =>
      have := k.two_le_frames
      simp only [Option.none_or, List.head?_cons, ne_eq, Option.some.injEq]
      omega
    | some x =>
      rw [h] at ih
      simpa using ih

variable [Zero K] [One K] {k : Kinematic K} {s t : Replay K}

/-- No reset falls into the replay. -/
def WithoutReset (_ : Replay K) : ReplayInput K → Prop
  | .reset _ => False
  | _ => True

instance (s : Replay K) (a : ReplayInput K) : Decidable (WithoutReset s a) := by
  cases a <;> unfold WithoutReset <;> infer_instance

/-- A row holds the pose of the frame that it is labelled with. -/
def KinematicRow.Faithful (k : Kinematic K) (r : KinematicRow K) : Prop :=
  r.target = k.target r.frameIndex ∧ r.measured = k.written r.frameIndex

/-- The rows, newest first, are one for each frame of the reference, in order. -/
def FrameExact (k : Kinematic K) (rows : List (KinematicRow K)) : Prop :=
  rows.reverse.map (·.frameIndex) = List.range k.frames ∧ ∀ r ∈ rows, r.Faithful k

/-- What a replay without a reset has recorded. -/
structure Recording (k : Kinematic K) (s : Replay K) : Prop where
  labels : s.rows.map (·.frameIndex) = boundaryLabels k (s.tick / k.ticksPerFrame)
  faithful : ∀ r ∈ s.rows, r.Faithful k

theorem Recording.stepKinematic (h : Recording k s) (moved : Pose K) : Recording k (k.stepKinematic moved s) := by
  have hdiv : (s.tick + 1) / k.ticksPerFrame = s.tick / k.ticksPerFrame + if k.ticksPerFrame ∣ s.tick + 1 then 1 else 0 :=
    Nat.succ_div ..
  by_cases hb : k.ticksPerFrame ∣ s.tick + 1
  · have hmod : (s.tick + 1) % k.ticksPerFrame = 0 := Nat.mod_eq_zero_of_dvd hb
    rw [if_pos hb] at hdiv
    constructor
    · simp [Kinematic.stepKinematic, Kinematic.applyKinematic, Kinematic.recordRow, hmod, hdiv, boundaryLabels, h.labels]
    · simp only [Kinematic.stepKinematic, Kinematic.applyKinematic, Kinematic.recordRow, hmod, if_true, List.mem_cons]
      rintro r (rfl | hr)
      · exact ⟨rfl, rfl⟩
      · exact h.faithful r hr
  · have hmod : (s.tick + 1) % k.ticksPerFrame ≠ 0 := fun h0 => hb (Nat.dvd_of_mod_eq_zero h0)
    rw [if_neg hb, Nat.add_zero] at hdiv
    constructor
    · simp [Kinematic.stepKinematic, Kinematic.applyKinematic, hmod, hdiv, h.labels]
    · simpa [Kinematic.stepKinematic, Kinematic.applyKinematic, hmod] using h.faithful

theorem recording_reach (h : (replayMachine k).Reach WithoutReset s) : Recording k s := by
  refine Machine.Reach.invariant h ?_ ?_
  · rintro s ⟨htick, hrows⟩
    exact ⟨by simp [htick, hrows, boundaryLabels], by simp [hrows]⟩
  · intro s a t _ hs hc hstep
    simp only [replayMachine, Option.ite_none_left_eq_some] at hstep
    obtain ⟨-, hstep⟩ := hstep
    cases a with
    | step moved =>
      cases hstep
      exact hs.stepKinematic moved
    | paused =>
      cases hstep
      exact hs
    | reset moved => exact absurd hc id

/-- A replay without a reset never records exactly one row for each frame. -/
theorem never_frame_exact (h : (replayMachine k).Reach WithoutReset s) : ¬FrameExact k s.rows := by
  rintro ⟨hlabels, -⟩
  rw [List.map_reverse, (recording_reach h).labels] at hlabels
  apply boundaryLabels_reverse_head k (s.tick / k.ticksPerFrame)
  have hframes := k.two_le_frames
  rw [hlabels, List.head?_range, if_neg (by omega)]

/-- A reference of two frames, two ticks a frame. -/
def twoFrames : Kinematic Nat where
  frames := 2
  two_le_frames := Nat.le_refl 2
  ticksPerFrame := 2
  ticks_positive := Nat.two_pos
  reference i := ⟨[i], [i], [i], [i, i, i], [1, 0, 0, 0]⟩
  timestamps i := i
  handsApplied := true
  hasRoot := true
  rootZ := 0

def restingPose : Pose Nat := ⟨[0], [0], [0], [0, 0, 0], [1, 0, 0, 0]⟩

/-- The replay of two frames up to the end of its loop. -/
def twoFramesReplay : Option (Replay Nat) :=
  (replayMachine twoFrames).run { robot := restingPose } (List.replicate 5 (.step restingPose))

/-- The replay of two frames ends without a row for frame 0, and with two rows for frame 1. -/
theorem first_frame_missing : ∃ s, twoFramesReplay = some s ∧ twoFrames.finished s = true ∧
    s.rows.reverse.map (·.frameIndex) = [1, 1] ∧ ¬FrameExact twoFrames s.rows := by
  refine ⟨_, rfl, by decide, by decide, fun h => ?_⟩
  exact absurd h.1 (by decide)

theorem never_frame_exact_two : ∃ s, twoFramesReplay = some s ∧ ¬FrameExact twoFrames s.rows := by
  obtain ⟨s, hs⟩ : ∃ s, twoFramesReplay = some s := ⟨_, rfl⟩
  exact ⟨s, hs, never_frame_exact ⟨_, ⟨rfl, rfl⟩, Machine.path_of_run hs (by decide)⟩⟩

end HumanoidLab
