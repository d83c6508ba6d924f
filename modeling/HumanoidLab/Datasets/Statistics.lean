import HumanoidLab.Datasets.Convert
import HumanoidLab.Datasets.Timeline
import HumanoidLab.Lib.Fallible

/-! The two guards on measured samples: what a repair puts in the place of a sample and writes down, and the bound on the
    statistics that a split gathers (`datasets/psi0_dex3/writer.py`), which `_RunningStats` merges block by block. An array
    `[T, d]` is a list of rows; its entries may be floats or exact numbers. -/

namespace HumanoidLab.Psi0Dex3
open Fallible

/-! ### The repair -/

/-- `np.interp` at a frame, over the samples of some frames. It is exact, and next to a sample that is not a number it gives
    none. -/
def interpEntry (t : Nat) (frames : List Nat) (values : List FloatEntry) : FloatEntry :=
  let k := frames.findIdx (t < ·)
  if ((values.take (k + 1)).drop (k - 1)).all FloatEntry.isFinite then
    .finite (interp (frames.map fun n : Nat => (n : ℚ)) (values.map FloatEntry.value) t)
  else .nan

/-- `channels[name]` of a repair, of which a name that is assigned twice keeps the last count. -/
def HandRepair.countOf (r : HandRepair) (name : String) : Nat := (r.channels.reverse.lookup name).getD 0

/-! ### Minima and maxima of floats -/

namespace FloatEntry

/-- `a <= b`. -/
def le : FloatEntry → FloatEntry → Bool
  | nan, _ | _, nan => false
  | infinite true, _ | _, infinite false => true
  | finite a, finite b => a ≤ b
  | _, _ => false

/-- `np.minimum` and `np.maximum`, which give a NaN where either argument is one. -/
def minimum (a b : FloatEntry) : FloatEntry := if a.isNan || a.le b then a else b
def maximum (a b : FloatEntry) : FloatEntry := if a.isNan || b.le a then a else b

instance : Min FloatEntry := ⟨minimum⟩
instance : Max FloatEntry := ⟨maximum⟩

def abs : FloatEntry → FloatEntry
  | nan => nan
  | infinite _ => infinite false
  | finite x => finite |x|

end FloatEntry

/-! ### Running statistics -/

inductive StatsError
  | emptyBlock
  | noFrames
  | noBlock
  | shape
  | nonPhysical (worst : FloatEntry) (offenders : List String)
  deriving DecidableEq, Repr

/-- `_RunningStats` once a block has been added. -/
structure Summary (K : Type) (d : Nat) where
  count : Nat
  min : Fin d → K
  max : Fin d → K
  mean : Fin d → K
  m2 : Fin d → K

/-- `_RunningStats`. The one that nothing was added to has count zero and no arrays. -/
abbrev RunningStats (K : Type) (d : Nat) := Option (Summary K d)

/-- What `resolve` returns. -/
structure StatBlock (K : Type) where
  min : List K
  max : List K
  mean : List K
  std : List K
  count : Nat

/-- `array[:, c]`. -/
def channel {K : Type} {d : Nat} (array : List (Fin d → K)) (c : Fin d) : List K := array.map (· c)

section
variable {K : Type} [Min K] [Max K] [Zero K] [Add K] [Sub K] [Mul K] [Div K] [NatCast K] {d : Nat}

/-- `array.mean(axis=0)`. -/
def blockMean (array : List (Fin d → K)) (c : Fin d) : K := (channel array c).sum / (array.length : K)

/-- `((array - block_mean) ** 2).sum(axis=0)`. -/
def blockM2 (array : List (Fin d → K)) (c : Fin d) : K :=
  ((channel array c).map fun x => (x - blockMean array c) * (x - blockMean array c)).sum

/-- The statistics of one block. -/
def Summary.block (first : Fin d → K) (rest : List (Fin d → K)) : Summary K d where
  count := rest.length + 1
  min c := (channel rest c).foldl Min.min (first c)
  max c := (channel rest c).foldl Max.max (first c)
  mean := blockMean (first :: rest)
  m2 := blockM2 (first :: rest)

/-- The statistics of what was added so far and of a block. -/
def Summary.merge (s b : Summary K d) : Summary K d :=
  let total := s.count + b.count
  let delta c := b.mean c - s.mean c
  { count := total
    min := fun c => Min.min (s.min c) (b.min c)
    max := fun c => Max.max (s.max c) (b.max c)
    mean := fun c => s.mean c + delta c * ((b.count : K) / (total : K))
    m2 := fun c => s.m2 c + b.m2 c + delta c * delta c * (((s.count * b.count : Nat) : K) / (total : K)) }

namespace RunningStats

def update (s : RunningStats K d) : List (Fin d → K) → Except StatsError (RunningStats K d)
  -- The minimum of an axis without entries is an error.
  | [] => .error .emptyBlock
  | first :: rest =>
    match s with
    | none => .ok (some (.block first rest))
    | some s => .ok (some (s.merge (.block first rest)))

def resolve (sqrt : K → K) : RunningStats K d → Except StatsError (StatBlock K)
  | none => .error .noFrames
  | some s => .ok
    { min := List.ofFn s.min
      max := List.ofFn s.max
      mean := List.ofFn s.mean
      std := List.ofFn fun c => sqrt (s.m2 c / (s.count : K))
      count := s.count }

end RunningStats

end

theorem channel_append {K : Type} {d : Nat} {frames others : List (Fin d → K)} (c : Fin d) :
    channel (frames ++ others) c = channel frames c ++ channel others c := List.map_append

theorem channel_ne_nil {K : Type} {d : Nat} {frames : List (Fin d → K)} (h : frames ≠ []) (c : Fin d) :
    channel frames c ≠ [] := by
  rwa [channel, ne_eq, List.map_eq_nil_iff]

/-! ### Runs of updates -/

section
variable {K : Type} [Min K] [Max K] [Zero K] [Add K] [Sub K] [Mul K] [Div K] [NatCast K] {d : Nat}
variable {P : List (Fin d → K) → Summary K d → Prop} {s s' : RunningStats K d} {frames others : List (Fin d → K)}

/-- What is said of the statistics of the frames added so far, if there are any. -/
def Gathers (P : List (Fin d → K) → Summary K d → Prop) (frames : List (Fin d → K)) : RunningStats K d → Prop
  | none => frames = []
  | some s => P frames s

section
variable (hblock : ∀ first rest, P (first :: rest) (Summary.block first rest))
  (hmerge : ∀ {frames others s b}, P frames s → P others b → P (frames ++ others) (s.merge b))
include hblock hmerge

theorem update_gathers (hs : Gathers P frames s) (h : s.update others = .ok s') : Gathers P (frames ++ others) s' := by
  cases others with
  | nil => cases h
  | cons first rest =>
    cases s with
    | none =>
      cases h
      rw [show frames = [] from hs]
      exact hblock first rest
    | some s =>
      cases h
      exact hmerge hs (hblock first rest)

/-- What holds of a block and is kept by a merge holds of the statistics of all the frames. -/
theorem updates_gather {episodes : List (List (Fin d → K))} (hs : Gathers P frames s)
    (h : episodes.foldlM RunningStats.update s = .ok s') : Gathers P (frames ++ episodes.flatten) s' := by
  induction episodes generalizing s frames with
  | nil =>
    cases h
    rwa [List.flatten_nil, List.append_nil]
  | cons e es ih =>
    rw [List.foldlM_cons] at h
    obtain ⟨mid, hmid, hrest⟩ := bind_ok h
    rw [List.flatten_cons, ← List.append_assoc]
    exact ih (update_gathers hblock hmerge hs hmid) hrest

end

theorem updates_ok {episodes : List (List (Fin d → K))} (s : RunningStats K d) (hne : ∀ e ∈ episodes, e ≠ []) :
    ∃ s', episodes.foldlM RunningStats.update s = .ok s' := by
  induction episodes generalizing s with
  | nil => exact ⟨s, rfl⟩
  | cons e es ih =>
    obtain ⟨first, rest, rfl⟩ := List.exists_cons_of_ne_nil (hne e List.mem_cons_self)
    rw [List.foldlM_cons]
    cases s with
    | none => exact ih _ fun x hx => hne x (List.mem_cons_of_mem _ hx)
    | some s => exact ih _ fun x hx => hne x (List.mem_cons_of_mem _ hx)

end

/-! ### The statistics of a split -/

section
variable {K : Type} [Min K] [Max K] [Zero K] [Add K] [Sub K] [Mul K] [Div K] [NatCast K]

/-- `STAT_FEATURES`, with the widths of their vectors. -/
def stateField : String := "observation.state"
def actionField : String := "action"
def bodyTokenField : String := "action.body_token_v1_1"
def stateDim : Nat := 43

/-- The vectors of an episode that carry statistics (`enumerate_stats`). -/
structure StatVectors (K : Type) where
  state : List (Fin stateDim → K)
  handAction : List (Fin handDim → K)
  bodyToken : List (Fin bodyTokenDim → K)

/-- `SplitWriter.running`. -/
structure SplitStats (K : Type) where
  state : RunningStats K stateDim
  handAction : RunningStats K handDim
  bodyToken : RunningStats K bodyTokenDim

namespace SplitStats

def empty : SplitStats K := ⟨none, none, none⟩

def add (s : SplitStats K) (e : StatVectors K) : Except StatsError (SplitStats K) := do
  let state ← s.state.update e.state
  let handAction ← s.handAction.update e.handAction
  let bodyToken ← s.bodyToken.update e.bodyToken
  return ⟨state, handAction, bodyToken⟩

/-- `stats_psi0.json`. -/
def resolve (sqrt : K → K) (s : SplitStats K) : Except StatsError (List (String × StatBlock K)) := do
  let state ← s.state.resolve sqrt
  let handAction ← s.handAction.resolve sqrt
  let bodyToken ← s.bodyToken.resolve sqrt
  return [(stateField, state), (actionField, handAction), (bodyTokenField, bodyToken)]

end SplitStats

/-- The statistics of a split to which episodes are added in turn. -/
def splitStatistics (sqrt : K → K) (episodes : List (StatVectors K)) : Except StatsError (List (String × StatBlock K)) := do
  let running ← episodes.foldlM SplitStats.add SplitStats.empty
  running.resolve sqrt

end

/-! ### The bound on the state -/

structure PhysicalReport where
  stateAbsMaxRad : FloatEntry
  boundRad : ℚ
  deriving DecidableEq, Repr

/-- The first of the measured channels, `LEGS_WAIST_SLICE.stop`. -/
def measuredOffset : Nat := 15

/-- `np.abs(values).max()`. -/
def absMax : List FloatEntry → FloatEntry
  | [] => .nan
  | x :: xs => (xs.map FloatEntry.abs).foldl max x.abs

def offenders (bound : ℚ) (half : Nat) (values : List FloatEntry) : List String :=
  (((List.range values.length).filter fun i => (values.getD i .nan).beyond bound).map fun i =>
    canonicalStateNames.getD (measuredOffset + i % half) "").dedup.mergeSort (· ≤ ·)

def verifyStatsArePhysical (stats : List (String × StatBlock FloatEntry)) (bound : ℚ) : Except StatsError PhysicalReport :=
  match stats.lookup stateField with
  | none => .error .noBlock
  | some block =>
    if block.min.length ≠ canonicalStateNames.length ∨ block.max.length ≠ block.min.length then .error .shape
    else
      let lowMeasured := block.min.drop measuredOffset
      let highMeasured := block.max.drop measuredOffset
      let values := lowMeasured ++ highMeasured
      let worst := absMax values
      if worst.beyond bound then .error (.nonPhysical worst (offenders bound lowMeasured.length values))
      else .ok ⟨worst, bound⟩

end HumanoidLab.Psi0Dex3
