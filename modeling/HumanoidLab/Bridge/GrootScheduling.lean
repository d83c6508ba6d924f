import HumanoidLab.Bridge.Clocks

/-! The rows that the GR00T runner selects: `advance_chunk_index` (`psi0_bridge/groot_clock_runtime.py`) on what the pacer makes due,
    where `scripts/run-groot-vla.py` puts the two into the loop of the runner. -/

namespace HumanoidLab
open Fallible

variable {K : Type} [Field K] [LinearOrder K] [FloorRing K]

/-- `advance_chunk_index`: the newest row that is due, and whether it is to be published. -/
def advanceChunkIndex (index rowsDue horizon : Int) : Except String (Int × Bool) :=
  if rowsDue < 0 ∨ horizon ≤ 0 then .error "invalid action scheduling state"
  else if rowsDue = 0 then .ok (index, false)
  else .ok (min (index + rowsDue - 1) (horizon - 1), true)

/-- What the loop keeps: the pacer, and the index in the chunk. -/
structure ChunkLoop (K : Type) where
  pacer : PacerState K
  actionChunkIndex : Int
  deriving DecidableEq, Repr

/-- A pass of the loop at a reading of the clock, with the row that it publishes. The loop goes on at the next row, and stays at the last
    one of the chunk. -/
def schedule (p : SimulationClockPacer K) (horizon : Int) (now : PolicyTime K) : EStateM String (ChunkLoop K) (Option Int) := do
  let update ← zoom ChunkLoop.pacer (fun pacer loop => { loop with pacer }) (p.update (.fin now.seconds) now.generation)
  let (index, shouldPublish) ← lift (advanceChunkIndex (← get).actionChunkIndex update.rowsDue horizon)
  if shouldPublish then
    modify fun loop => { loop with actionChunkIndex := min (index + 1) (horizon - 1) }
    return some index
  else
    modify fun loop => { loop with actionChunkIndex := index }
    return none

end HumanoidLab
