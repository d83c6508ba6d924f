import HumanoidLab.Datasets.Convert
import HumanoidLab.Lib.Dict
import HumanoidLab.Lib.Fallible

/-! The windows of the original Dex3 dataset (`evaluation/datasets.py`). A manifest gives each episode its rows in one array and its
    frames in a shared video, whose frames are told apart by their timestamps. The decoder is a parameter. -/

namespace HumanoidLab.Dex3
open Fallible Psi0Dex3 Rounding

inductive DatasetError
  | layout
  | rowShape
  | rowRange
  | videoRange
  | noEpisode
  | frameRange
  | invalidFrame
  | videoWindow
  | videoFile
  | clock
  | noTimestamp
  | missingOrDuplicate
  | endedEarly
  | nonfinite
  deriving DecidableEq, Repr

/-! ### The manifest -/

/-- An episode of the manifest; `episodeIndex` is its index as a text. -/
structure Episode where
  episodeIndex : String
  fromIndex : Int
  nFrames : Int
  headFile : String
  headFirstFrame : Int
  validRanges : List (Int × Int)
  deriving DecidableEq, Repr

structure Manifest where
  stateDim : Int
  actionDim : Int
  stateNames : List String
  actionNames : List String
  totalFrames : Int
  fps : FloatEntry
  episodes : List Episode

/-- A row of the dataset: the measured state, and behind it the action. -/
def rowWidth : Nat := 56
def stateWidth : Nat := 28

structure Dex3Dataset where
  jointNames : List String
  rows : List (List FloatEntry)
  episodes : List (String × Episode)
  fps : FloatEntry

def Episode.check (rows : Nat) (e : Episode) : Except DatasetError Unit :=
  if e.fromIndex < 0 ∨ e.nFrames < 1 ∨ rows < e.fromIndex + e.nFrames then .error .rowRange
  else if e.headFirstFrame < 0 ∨ e.validRanges.any (fun (lo, hi) => !(0 ≤ lo && lo < hi && hi ≤ e.nFrames)) then
    .error .videoRange
  else .ok ()

/-- `Dex3Dataset.__init__`, from the manifest and the array of rows. -/
def Dex3Dataset.load (m : Manifest) (rows : List (List FloatEntry)) : Except DatasetError Dex3Dataset :=
  if m.stateDim ≠ 28 ∨ m.actionDim ≠ 28 ∨ m.stateNames ≠ m.actionNames then .error .layout
  else if rows.length ≠ m.totalFrames ∨ rows.any (·.length ≠ rowWidth) then .error .rowShape
  else do
    let episodes := m.episodes.foldl (fun episodes e => Dict.set episodes e.episodeIndex e) []
    let _ ← episodes.mapM fun entry => entry.2.check rows.length
    return ⟨m.stateNames, rows, episodes, m.fps⟩

/-! ### The video -/

/-- A decoded frame, with its timestamp in units of the stream's time base. -/
structure DecodedFrame (ι : Type) where
  pts : Option Int
  picture : ι
  deriving DecidableEq, Repr

/-- An open video: its time base, and the frames that are decoded after a seek, whatever they are. -/
structure VideoStream (ι : Type) where
  timeBase : ℚ
  decode : Int → List (DecodedFrame ι)

/-- `int(x)` of a float. -/
def truncate (x : ℚ) : Int := if 0 ≤ x then ⌊x⌋ else ⌈x⌉

/-- The timestamp that is sought. -/
def seekOffset (fps timeBase : ℚ) (first : Int) : Except DatasetError Int :=
  if fps = 0 ∨ float64 timeBase = 0 then .error .clock
  else .ok (truncate (float64 (float64 (float64 first / fps) / float64 timeBase)))

/-- The index of the frame of a timestamp. -/
def frameIndex (fps timeBase : ℚ) (pts : Int) : Int := roundHalfEven (float64 (float64 (pts * timeBase) * fps))

/-- The loop over the decoded frames: those before the first are skipped, and the others have to follow it one by one. -/
def collect {ι ι' : Type} (reformat : ι → ι') (fps timeBase : ℚ) (first : Int) (count : Nat) :
    List (DecodedFrame ι) → List ι' → Except DatasetError (List ι')
  | [], images => if images.length ≠ count then .error .endedEarly else .ok images
  | f :: rest, images =>
    match f.pts with
    | none => .error .noTimestamp
    | some pts =>
      let index := frameIndex fps timeBase pts
      if index < first then collect reformat fps timeBase first count rest images
      else if index ≠ first + images.length then .error .missingOrDuplicate
      else
        let images := images ++ [reformat f.picture]
        if images.length = count then .ok images else collect reformat fps timeBase first count rest images

namespace Dex3Dataset

def episode (ds : Dex3Dataset) (episodeId : String) : Except DatasetError Episode :=
  match ds.episodes.lookup episodeId with
  | some e => .ok e
  | none => .error .noEpisode

/-- A frame number as it is passed: an integer, or something else, such as a boolean. -/
inductive FrameArgument
  | int (value : Int)
  | other
  deriving DecidableEq, Repr

def inRange (frame : Int) (range : Int × Int) : Bool := range.1 ≤ frame && frame < range.2

def validateFrame (ds : Dex3Dataset) (episodeId : String) (frame : FrameArgument) : Except DatasetError (Episode × Int) := do
  let e ← ds.episode episodeId
  match frame with
  | .other => .error .frameRange
  | .int frame =>
    if !(0 ≤ frame && frame < e.nFrames) then .error .frameRange
    else if !e.validRanges.any (inRange frame) then .error .invalidFrame
    else return (e, frame)

def referenceLength (ds : Dex3Dataset) (episodeId : String) (frame : FrameArgument) (steps : Int) : Except DatasetError Int := do
  let (e, frame) ← ds.validateFrame episodeId frame
  match e.validRanges.find? (inRange frame) with
  | none => .error .invalidFrame
  | some (_, hi) => return max 0 (min steps (min (hi - frame - 1) (e.nFrames - frame - 1)))

section
variable {ι ι' : Type} (videos : String → Except DatasetError (VideoStream ι)) (reformat : ι → ι')

/-- `read_frames`, where `videos` opens a file of the dataset and `reformat` is what is done to a frame. -/
def readFrames (ds : Dex3Dataset) (episodeId : String) (start count : Int) : Except DatasetError (List ι') := do
  let e ← ds.episode episodeId
  if start < 0 ∨ count < 1 ∨ e.nFrames < start + count then .error .videoWindow
  else
    let video ← videos e.headFile
    let first := e.headFirstFrame + start
    match ds.fps with
    | .finite fps =>
      let offset ← seekOffset fps video.timeBase first
      collect reformat fps video.timeBase first count.toNat (video.decode offset) []
    -- A frame number that is not finite cannot be rounded.
    | _ => .error .clock

structure Reference (ι' : Type) where
  frames : List ι'
  actions : List (List FloatEntry)
  steps : Int
  deriving DecidableEq, Repr

def reference (ds : Dex3Dataset) (episodeId : String) (frame : FrameArgument) (steps : Int) :
    Except DatasetError (Reference ι') := do
  let count ← ds.referenceLength episodeId frame steps
  -- The frame is valid by now; this reads its number.
  let (e, frame) ← ds.validateFrame episodeId frame
  let row := e.fromIndex + frame
  let actions := ((ds.rows.drop row.toNat).take count.toNat).map (·.drop stateWidth)
  if !actions.all (·.all FloatEntry.isFinite) then .error .nonfinite
  else
    let frames ← (if count = 0 then .ok [] else ds.readFrames videos reformat episodeId (frame + 1) count)
    return ⟨frames, actions, count⟩

end
end Dex3Dataset
end HumanoidLab.Dex3
