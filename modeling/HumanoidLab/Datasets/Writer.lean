import HumanoidLab.Lib.Machine
import Mathlib.Logic.Function.Basic

/-! The split writer (`datasets/psi0_dex3/writer.py`), as far as it writes videos: `add` submits the clip of an episode
    to a pool, whose tasks run beside the adds, in any order, and `finalize` waits for them. -/

namespace HumanoidLab

/-- `CHUNK_SIZE`, and the most tasks that the pool runs at once. -/
def chunkSize : Nat := 1000
def videoWorkers : Nat := 4

/-- The chunk and the name of the video of an episode. -/
def videoPath (index : Nat) : Nat × Nat := (index / chunkSize, index)

theorem videoPath_inj {i j : Nat} (h : videoPath i = videoPath j) : i = j := congrArg Prod.snd h

/-- Video files of content `γ`, cut from segments `σ`: what ffmpeg cuts, the size of a file, and the frames that it
    decodes to, where it does. -/
structure VideoTools (σ γ : Type) where
  cut : σ → Nat → γ
  size : γ → Nat
  frameCount : γ → Option Nat

/-- The clip of an episode: the index that it is written under, its segment and its frames. -/
structure VideoJob (σ : Type) where
  index : Nat
  source : σ
  frames : Nat
  deriving DecidableEq, Repr

inductive VideoPhase
  | queued
  | examining
  | cutting
  | verifying
  | done
  | failed
  deriving DecidableEq, Repr

def VideoPhase.running : VideoPhase → Bool
  | .examining | .cutting | .verifying => true
  | _ => false

/-- A task of the pool. -/
structure VideoTask (σ : Type) where
  job : VideoJob σ
  phase : VideoPhase := .queued
  deriving DecidableEq, Repr

/-- The writer: the video files, the recorded episodes in order, the submitted tasks in order, and whether `finalize`
    has returned. -/
structure SplitWriter (σ γ : Type) where
  files : Nat × Nat → Option γ
  episodes : List (VideoJob σ) := []
  tasks : List (VideoTask σ) := []
  finalized : Bool := false

/-- The steps of the writer; a task is told by its place in the submission order. -/
inductive WriterStep (σ γ : Type)
  | add (source : σ) (frames : Nat)
  | addRaises (source : σ) (frames : Nat)
  | start (task : Nat)
  | examine (task : Nat)
  | torn (task : Nat) (c : Option γ)
  | ffmpeg (task : Nat)
  | ffmpegFails (task : Nat) (c : Option γ)
  | verify (task : Nat)
  | finalize

namespace SplitWriter

variable {σ γ : Type}

/-- A task is now at `phase`, and its file is `file`. -/
def move (s : SplitWriter σ γ) (i : Nat) (job : VideoJob σ) (phase : VideoPhase) (file : Option γ) : SplitWriter σ γ :=
  { s with
    files := Function.update s.files (videoPath job.index) file
    tasks := s.tasks.set i ⟨job, phase⟩ }

/-- The task at a place, when it is at a phase. -/
def at? (s : SplitWriter σ γ) (i : Nat) (phase : VideoPhase) : Option (VideoJob σ) :=
  (s.tasks[i]?).bind fun t => if t.phase = phase then some t.job else none

/-- A clip that the next task would write under the index of the next episode. -/
def submit (s : SplitWriter σ γ) (source : σ) (frames : Nat) : VideoJob σ := ⟨s.episodes.length, source, frames⟩

section
variable (V : VideoTools σ γ)

/-- The file is one that `_write_video` leaves as it is. -/
def adopts (job : VideoJob σ) (c : γ) : Bool := V.size c > 0 && V.frameCount c = some job.frames

def step (force : Bool) (s : SplitWriter σ γ) : WriterStep σ γ → Option (SplitWriter σ γ)
  | .add source frames =>
    if s.finalized then none
    else some { s with
      episodes := s.episodes ++ [s.submit source frames]
      tasks := s.tasks ++ [⟨s.submit source frames, .queued⟩] }
  -- The clip is submitted before the table of the episode is written.
  | .addRaises source frames =>
    if s.finalized then none else some { s with tasks := s.tasks ++ [⟨s.submit source frames, .queued⟩] }
  | .start i =>
    if (s.tasks.filter (·.phase.running)).length < videoWorkers then
      (s.at? i .queued).map fun job => s.move i job .examining (s.files (videoPath job.index))
    else none
  | .examine i => (s.at? i .examining).map fun job =>
    match s.files (videoPath job.index) with
    | none => s.move i job .cutting none
    | some c =>
      if force then s.move i job .cutting (some c)
      else if adopts V job c then s.move i job .done (some c)
      else s.move i job .cutting (if V.size c > 0 then none else some c)
  | .torn i c => (s.at? i .cutting).map fun job => s.move i job .cutting c
  | .ffmpeg i => (s.at? i .cutting).map fun job => s.move i job .verifying (some (V.cut job.source job.frames))
  | .ffmpegFails i c => (s.at? i .cutting).map fun job => s.move i job .failed c
  | .verify i => (s.at? i .verifying).map fun job =>
    if (s.files (videoPath job.index)).bind V.frameCount = some job.frames then
      s.move i job .done (s.files (videoPath job.index))
    else s.move i job .failed none
  | .finalize =>
    if s.episodes ≠ [] ∧ ∀ t ∈ s.tasks, t.phase = .done then some { s with finalized := true } else none

end
end SplitWriter

/-- A writer over an output directory with any files. -/
def writerMachine {σ γ : Type} (V : VideoTools σ γ) (force : Bool) :
    Concurrency.Machine (SplitWriter σ γ) (WriterStep σ γ) where
  init s := s.episodes = [] ∧ s.tasks = [] ∧ s.finalized = false
  step := SplitWriter.step V force

end HumanoidLab
