import HumanoidLab.Datasets.Heading
import HumanoidLab.Datasets.Timeline
import HumanoidLab.Datasets.Tracking

/-! The fidelity of a replay (`datasets/sonic/fidelity.py`): the lag at which the response follows the reference, the windows in which
    it is far off, and which row of the trace is compared with which token of the stream. -/

namespace HumanoidLab.Sonic

/-! ### The lag -/

/-- `xs[:stop]`. -/
def sliceTo {α : Type} (xs : List α) (stop : Int) : List α :=
  if 0 ≤ stop then xs.take stop.toNat else xs.take (xs.length + stop).toNat

section
variable {K : Type} [Arithmetic K]
open Arithmetic

/-- The frames that a lag brings together. -/
def overlap (reference response : List (List K)) (lag : Int) : List (List K) × List (List K) :=
  if 0 ≤ lag then
    let stop := reference.length - lag
    (if stop = 0 then reference else sliceTo reference stop, response.drop lag.toNat)
  else (reference.drop (-lag).toNat, sliceTo response (response.length + lag))

def total (xs : List K) : K := xs.foldl (· + ·) (ofRat 0)

def average (xs : List K) : K := total xs / ofRat xs.length

/-- `np.ptp`. -/
def peakToPeak (xs : List K) : K :=
  let first := xs.headD (ofRat 0)
  xs.foldl (fun a b => if lt a b then b else a) first - xs.foldl (fun a b => if lt b a then b else a) first

def norm (xs : List K) : K := sqrt (total (xs.map fun x => x * x))

/-- The positions of a joint. -/
def joint (frames : List (List K)) (j : Nat) : List K := frames.map (·.getD j (ofRat 0))

def centred (xs : List K) : List K := xs.map (· - average xs)

/-- The correlation of a joint, where it is valid. -/
def jointCorrelation (first second : List K) : Option K :=
  let a := centred first
  let b := centred second
  let denom := norm a * norm b
  if lt (ofRat 1e-9) denom then some (total (List.zipWith (· * ·) a b) / denom) else none

/-- The joints that move in an overlap. -/
def moving (first : List (List K)) : List Nat :=
  (List.range (width first)).filter fun j => lt (ofRat 0.05) (peakToPeak (joint first j))

/-- The mean correlation at a lag, where it is scored. -/
def lagScore (reference response : List (List K)) (lag : Int) : Option K :=
  let (first, second) := overlap reference response lag
  if first.length < 3 ∨ second.length ≠ first.length then none
  else if (moving first).isEmpty then none
  else
    let valid := (moving first).filterMap fun j => jointCorrelation (joint first j) (joint second j)
    some (if valid.isEmpty then ofRat 0 else average valid)

/-- `a < b` of two scores with their lags. -/
def scoreLess (a b : K × Int) : Bool := lt a.1 b.1 || (!lt b.1 a.1 && a.2 < b.2)

/-- `max` of the scores, which keeps the first of the greatest. -/
def greatestScore : List (K × Int) → Option (K × Int)
  | [] => none
  | score :: scores => some (scores.foldl (fun best s => if scoreLess best s then s else best) score)

/-- The scores in the order of their lags. -/
def lagScores (reference response : List (List K)) (maxLagFrames : Nat) : List (K × Int) :=
  ((List.range (2 * maxLagFrames + 1)).map fun i : Nat => (i : Int) - maxLagFrames).filterMap fun lag =>
    (lagScore reference response lag).map (·, lag)

structure TemporalAlignment (K : Type) where
  bestLagFrames : Int
  bestLagS : K
  meanCorrelation : Option K

/-- `_temporal_alignment`. -/
def temporalAlignment (reference response : List (List K)) (maxLagFrames : Nat := 15) : TemporalAlignment K :=
  match greatestScore (lagScores reference response maxLagFrames) with
  | none => ⟨0, ofRat 0, none⟩
  | some (correlation, lag) => ⟨lag, ofRat lag / ofRat 50, some correlation⟩

/-! ### Catastrophic windows -/

/-- A run of bad frames, from its first to its last one. -/
structure BadWindow (K : Type) where
  startFrame : Nat
  endFrame : Nat
  frames : Nat
  durationS : K
  deriving DecidableEq, Repr

/-- The window of a run that ends before a frame. -/
def BadWindow.closed (start index : Nat) : BadWindow K := ⟨start, index - 1, index - start, ofRat ((index - start : Nat) : ℚ) / ofRat 50⟩

/-- The loop over the mask from a frame on, with the start of the run that is open. -/
def scanWindows : Nat → Option Nat → List Bool → List (BadWindow K)
  | _, _, [] => []
  | index, none, true :: rest => scanWindows (index + 1) (some index) rest
  | index, some start, false :: rest => .closed start index :: scanWindows (index + 1) none rest
  | index, start, _ :: rest => scanWindows (index + 1) start rest

/-- The windows of a mask. -/
def badWindows (bad : List Bool) : List (BadWindow K) := scanWindows 0 none (bad ++ [false])

/-- The frames with a joint that is further off than a threshold, among numbers: `np.max` hands a NaN on, and a frame with one is not
    bad. -/
def badFrames (reference response : List (List K)) (thresholdRad : K) : List Bool :=
  List.zipWith (fun wanted found =>
    (List.zipWith (fun x y => if lt (x - y) (ofRat 0) then -(x - y) else x - y) wanted found).any (lt thresholdRad)) reference response

structure CatastrophicWindows (K : Type) where
  thresholdRad : K
  frameFraction : K
  windows : List (BadWindow K)

/-- `_catastrophic_windows`. -/
def catastrophicWindows (reference response : List (List K)) (thresholdRad : K) : CatastrophicWindows K :=
  let bad := badFrames reference response thresholdRad
  ⟨thresholdRad, ofRat (bad.count true) / ofRat bad.length, badWindows bad⟩

end

/-! ### The alignment -/

inductive FidelityError
  | timeline
  | frameIndices
  | jointWidth
  | frameCount
  | simulationTimes
  | untimed
  | wallTimes
  | noOverlap
  deriving DecidableEq, Repr

/-- The timeline of a publisher; a simulated time that is not a number is `none`, and an older file has none. -/
structure PublishedTimeline (K : Type) where
  frameIndex : List Int
  sentWallTimeNs : List Int
  sentSimS : Option (List (Option K))

/-- `np.searchsorted(xs, x, side="right")` of sorted times. -/
def searchsortedRight {T : Type} [LinearOrder T] (xs : List T) (x : T) : Nat := xs.findIdx (x < ·)

/-- The tokens of the rows, and the rows that lie in the stream. -/
structure RowAlignment where
  index : List Int
  inStream : List Bool
  /-- `trace_time[-1] >= send_time[-1]`. -/
  reachesEnd : Bool
  deriving DecidableEq, Repr

def alignTimes {T : Type} [LinearOrder T] [Add T] (sendTime traceTime : List T) (tailTolerance : T) : RowAlignment where
  index := traceTime.map fun t => (searchsortedRight sendTime t : Int) - 1
  inStream := traceTime.map fun t =>
    0 ≤ (searchsortedRight sendTime t : Int) - 1 && sendTime.getLast?.any (t ≤ · + tailTolerance)
  reachesEnd := traceTime.getLast?.any fun t => sendTime.getLast?.any (· ≤ t)

/-- `permutation`, of names without duplicates. -/
def permutation (sourceNames targetNames : List String) : List Nat := targetNames.map sourceNames.idxOf

/-- `reorder` of the reference joints into the order of the body. -/
def reorderBody {K : Type} (values : List (List K)) : Except FidelityError (List (List K)) :=
  if width values ≠ sonicReferenceJointOrder.length then .error .jointWidth
  else .ok (values.map fun row => (permutation sonicReferenceJointOrder bodyJointOrder).filterMap (row[·]?))

structure Coverage (K : Type) where
  expectedFrames : Nat
  firstObservedFrame : Int
  lastObservedFrame : Int
  observedUniqueFrames : Nat
  observedFraction : K
  traceExtendsPastFinalSend : Bool
  clipStartSimS : K
  clipEndSimS : K
  fullMotion : Bool
  simClock : Bool
  deriving DecidableEq, Repr

/-- What is compared: the rows that are scored with the token of each, and the joints of the reference, the commands and the robot. -/
structure Comparison (K : Type) where
  coverage : Coverage K
  scored : List (Nat × Int)
  desired : List (List K)
  command : List (List K)
  measured : List (List K)
  deriving DecidableEq, Repr

section
variable {K : Type} [Field K] [LinearOrder K]

namespace PublishedTimeline

/-- The simulated send times, where each token has one. -/
def simTimes (timeline : PublishedTimeline K) : List K := (timeline.sentSimS.getD []).filterMap id

def useSimClock (timeline : PublishedTimeline K) : Bool :=
  (timeline.sentSimS.getD []).length = timeline.sentWallTimeNs.length && (timeline.sentSimS.getD []).all (·.isSome)

end PublishedTimeline

/-- The timeline that the publisher saves. -/
def savedTimeline (s : TokenReplay K) (frameIndex : List Int) : PublishedTimeline K :=
  ⟨frameIndex, s.tokens.map (·.wallTimeNs), some (s.tokens.map fun token => token.reading.map (·.simS))⟩

/-- The alignment of a trace with a timeline, on the clock that both have. -/
def alignRows (t : Tracking K) (timeline : PublishedTimeline K) : Except FidelityError RowAlignment :=
  if timeline.useSimClock then
    if ¬timeline.simTimes.IsChain (· < ·) then .error .simulationTimes
    else .ok (alignTimes timeline.simTimes t.simS 0.1)
  else if t.wallTimeNs.length ≠ t.simS.length then .error .untimed
  else if ¬t.wallTimeNs.IsChain (· < ·) then .error .wallTimes
  else .ok (alignTimes timeline.sentWallTimeNs t.wallTimeNs 100000000)

/-- `np.unique`. -/
def unique (xs : List Int) : List Int := xs.dedup.insertionSort (· ≤ ·)

/-- `compare_reference_command_response`, up to what it measures of the samples. -/
def compareReferenceCommandResponse (jointPos : List (List K)) (t : Tracking K) (timeline : PublishedTimeline K) :
    Except FidelityError (Comparison K) := do
  let sent := timeline.sentWallTimeNs
  let frames := timeline.frameIndex
  if sent.length < 2 ∨ sent.length ≠ frames.length ∨ ¬sent.IsChain (· < ·) then throw .timeline
  if frames ≠ (List.range frames.length).map Nat.cast then throw .frameIndices
  let body ← reorderBody jointPos
  if body.length ≠ frames.length then throw .frameCount
  let alignment ← alignRows t timeline
  let mask := List.zipWith (fun inStream active => inStream && !active) alignment.inStream t.supportActive
  let indices := select mask alignment.index
  let seen := unique indices
  match seen.head?, seen.getLast?, (select mask t.simS).head?, (select mask t.simS).getLast? with
  | some first, some last, some clipStart, some clipEnd =>
    let fraction : K := seen.length / frames.length
    return {
      coverage := {
        expectedFrames := frames.length
        firstObservedFrame := first
        lastObservedFrame := last
        observedUniqueFrames := seen.length
        observedFraction := fraction
        traceExtendsPastFinalSend := alignment.reachesEnd
        clipStartSimS := clipStart
        clipEndSimS := clipEnd
        fullMotion := first ≤ 1 && frames.length - 2 ≤ last && 0.95 ≤ fraction && alignment.reachesEnd
        simClock := timeline.useSimClock }
      scored := select mask (List.range t.simS.length |>.zip alignment.index)
      desired := indices.filterMap fun index => body[index.toNat]?
      command := select mask t.bodyTarget
      measured := select mask t.bodyMeasured }
  | _, _, _, _ => throw .noOverlap

end
end HumanoidLab.Sonic
