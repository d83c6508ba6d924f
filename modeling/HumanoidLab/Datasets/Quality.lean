import HumanoidLab.Datasets.Convert
import Mathlib.Data.List.Perm.Basic

/-! The verdict on a pilot episode (`evaluate_episode_qc` of `datasets/sonic/pilot.py`, with the decisions of
    `datasets/sonic/quality.py`): a decision for each declared threshold and for the range of the hands, and a round trip for each
    part whose joint names are mapped. What the reports measure is taken as given. -/

namespace HumanoidLab
open Psi0Dex3 (FloatEntry float64)

/-- `float(value) <= float(limit)`. -/
def atMost : FloatEntry → FloatEntry → Bool
  | .finite a, .finite b => a ≤ b
  | .infinite a, .infinite b => a || !b
  | .infinite negative, .finite _ => negative
  | .finite _, .infinite negative => !negative
  | _, _ => false

inductive CheckResult
  | pass
  | fail
  | unverified
  deriving DecidableEq, Repr

/-- A decision; that on the hands also has the largest excess and the tolerance for it. -/
structure QcDecision where
  metric : String
  value : Option FloatEntry
  limit : FloatEntry
  result : CheckResult
  excess : Option (FloatEntry × FloatEntry) := none
  deriving DecidableEq, Repr

def evaluateThresholds (values thresholds : List (String × FloatEntry)) : List QcDecision :=
  thresholds.map fun (name, limit) =>
    match values.lookup name with
    | none => { metric := name, value := none, limit, result := .unverified }
    | some value => { metric := name, value := some value, limit, result := if atMost value limit then .pass else .fail }

def overallResult (decisions : List QcDecision) : CheckResult :=
  if decisions.any (·.result = .fail) then .fail
  else if decisions.any (·.result = .unverified) then .unverified
  else .pass

/-! ### The order of the joints -/

/-- The report on the names of a part: refused, compared with the marker, or given by its construction. -/
inductive RoundTrip
  | refused (reason : String) (missing : List String)
  | compared (same : Bool) (joints : Nat) (identity : Bool)
  | constructed (mode : String)
  deriving DecidableEq, Repr

def RoundTrip.ok : RoundTrip → Bool
  | refused _ _ => false
  | compared same _ _ => same
  | constructed _ => true

/-- `np.argsort`. -/
def argsort (keys : List Nat) : List Nat := (List.range keys.length).mergeSort fun i j => keys.getD i 0 ≤ keys.getD j 0

def permutationRoundTrip (sourceNames targetNames : List String) : RoundTrip :=
  let missing := targetNames.filter (· ∉ sourceNames)
  let permutation := targetNames.map sourceNames.idxOf
  let marker := List.range sourceNames.length
  let forward := permutation.map (marker.getD · 0)
  if ¬sourceNames.Nodup then .refused "duplicate source names" []
  else if missing ≠ [] then .refused "missing target names" missing
  else if ¬permutation.Nodup then .refused "permutation is not injective" []
  else .compared ((argsort permutation).map (forward.getD · 0) = marker) targetNames.length
    (permutation = List.range permutation.length)

/-- An entry of `provenance["name_check"]`: a mapping with a mode, or a text. -/
inductive NameCheck
  | names (mode : String) (source target : List String)
  | text (mode : String)
  deriving DecidableEq, Repr

def NameCheck.report : NameCheck → RoundTrip
  | names mode source target =>
    if mode = "name_round_trip" then permutationRoundTrip source target else .constructed "identity_by_construction"
  | text mode => .constructed mode

/-! ### The verdict -/

/-- What the verdict reads of a `CanonicalEpisodeBuild`. -/
structure EpisodeBuild where
  handSchemaStatus : String
  nameCheck : List (String × NameCheck)

def EpisodeBuild.finalActionAllowed (b : EpisodeBuild) : Bool := b.handSchemaStatus = "verified"

/-- What `hand_range_report` counts. -/
structure HandRange where
  maxExcessRad : FloatEntry
  violatingChannels : Nat

/-- What the reports on an episode measure. -/
structure Measurements where
  nonFiniteCount : Nat
  violationCount : Nat
  velocityAbsP99 : FloatEntry
  accelerationAbsP99 : FloatEntry
  jerkAbsP99 : FloatEntry
  clampMeanFraction : FloatEntry
  sourceEcho : Option FloatEntry
  synthetic : Option FloatEntry
  hands : HandRange

def Measurements.values (m : Measurements) : List (String × FloatEntry) :=
  [("finite.non_finite_count", .finite m.nonFiniteCount), ("range.violation_count", .finite m.violationCount),
   ("velocity.abs_p99", m.velocityAbsP99), ("acceleration.abs_p99", m.accelerationAbsP99), ("jerk.abs_p99", m.jerkAbsP99),
   ("future_clamp.mean_fraction", m.clampMeanFraction)] ++
  (m.sourceEcho.map fun e => ("source_echo.max_abs_error_rad", e)).toList ++
  (m.synthetic.map fun e => ("synthetic.max_abs_error_rad", e)).toList

def defaultThresholds : List (String × FloatEntry) :=
  [("finite.non_finite_count", .finite 0), ("range.violation_count", .finite 0), ("velocity.abs_p99", .finite 25),
   ("acceleration.abs_p99", .finite 800), ("jerk.abs_p99", .finite 60000),
   ("source_echo.max_abs_error_rad", .finite (float64 1e-5)), ("synthetic.max_abs_error_rad", .finite (float64 1e-6)),
   ("future_clamp.mean_fraction", .finite (float64 0.6))]

/-- `HAND_RANGE_POLICY`: the channels that may be outside the range, and by how much. -/
def handRangePolicy (kind : String) : Nat × ℚ :=
  if kind = "unitree" then (14, float64 0.35) else if kind = "apple" then (2, float64 0.06) else (0, 0)

def handRangeDecision (hands : HandRange) (allowedChannels : Nat) (excessToleranceRad : ℚ) : QcDecision where
  metric := "hand_range.violating_channels"
  value := some (.finite hands.violatingChannels)
  limit := .finite allowedChannels
  result :=
    if hands.violatingChannels ≤ allowedChannels ∧
      atMost hands.maxExcessRad (.finite (float64 (excessToleranceRad + float64 1e-9))) then .pass else .fail
  excess := some (hands.maxExcessRad, .finite excessToleranceRad)

structure QcReport where
  decisions : List QcDecision
  thresholdResult : CheckResult
  finalActionResult : CheckResult
  episodeResult : CheckResult
  nameRoundTrip : List (String × RoundTrip)

/-- `evaluate_episode_qc`, over the declared thresholds. -/
def evaluateEpisodeQc (thresholds : List (String × FloatEntry)) (kind : String) (build : EpisodeBuild) (m : Measurements) :
    QcReport :=
  let policy := handRangePolicy kind
  let decisions := evaluateThresholds m.values thresholds ++
    if build.finalActionAllowed then [handRangeDecision m.hands policy.1 policy.2] else []
  { decisions
    thresholdResult := overallResult decisions
    finalActionResult := if build.finalActionAllowed then .pass else .unverified
    episodeResult :=
      if overallResult decisions = .fail then .fail else if build.finalActionAllowed then .pass else .unverified
    nameRoundTrip := build.nameCheck.map fun (part, check) => (part, check.report) }

end HumanoidLab
