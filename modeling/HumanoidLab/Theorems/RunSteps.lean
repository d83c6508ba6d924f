import HumanoidLab.Evaluation.Runs
import Mathlib.Data.List.Nodup
import Mathlib.Tactic.Common

/-! What a step of the evaluation server does, to one run and to the store, and what every reachable server keeps. -/

namespace HumanoidLab
open Concurrency

variable {ι : Type} {s t : EvalServer ι} {i j : ι}

/-! ### The worker -/

/-- The status of the run that the worker is at. -/
def WorkerAt.Fits (u : RunStatus) : WorkerAt → Prop
  | .entered | .leaving | .starting => u = .queued
  | .announcing => u = .completed ∨ u = .cancelled
  | .raised _ => u ≠ .queued ∧ u ≠ .failed
  | .reporting => u = .failed
  | .closing => u.active = false
  | _ => u = .running

/-- The statuses that a run may have later. -/
def RunStatus.mayBecome (u v : RunStatus) : Prop := u = v ∨ u = .queued ∨ (u = .running ∧ v.active = false)

theorem RunStatus.mayBecome.refl (u : RunStatus) : u.mayBecome u := .inl rfl

theorem RunStatus.mayBecome.trans {u v w : RunStatus} (h : u.mayBecome v) (h' : v.mayBecome w) : u.mayBecome w := by
  rcases h with rfl | rfl | ⟨rfl, hv⟩
  · exact h'
  · exact .inr (.inl rfl)
  · rcases h' with rfl | rfl | ⟨rfl, -⟩
    · exact .inr (.inr ⟨rfl, hv⟩)
    · cases hv
    · cases hv

theorem RunStatus.mayBecome_of_active {u v : RunStatus} (hu : u.active = true) (hv : v.active = false) : u.mayBecome v := by
  cases u with
  | queued => exact .inr (.inl rfl)
  | running => exact .inr (.inr ⟨rfl, hv⟩)
  | completed | failed | cancelled => cases hu

theorem RunStatus.eq_of_mayBecome {u v : RunStatus} (hu : u.active = false) (h : u.mayBecome v) : v = u := by
  rcases h with rfl | rfl | ⟨rfl, -⟩
  · rfl
  · cases hu
  · cases hu

/-- The chunks that the worker still predicts when the run is cancelled. -/
def WorkerAt.ahead : WorkerAt → Nat
  | .sampling .. | .predicting .. => 1
  | _ => 0

def WorkerAct.chunks : WorkerAct → Nat
  | .predict => 1
  | _ => 0

namespace WorkerAt

variable {r : EvalRun} {c : Bool} {act : WorkerAct} {pc next : WorkerAt} {m : WorkerMove}

/-- What an act of the worker does. -/
structure Moved (r : EvalRun) (c : Bool) (act : WorkerAct) (pc : WorkerAt) (m : WorkerMove) : Prop where
  config : m.run.config = r.config
  cancelRequested : m.run.cancelRequested = r.cancelRequested
  fits : m.at'.Fits m.run.status
  status : m.run.status = r.status ∨ (r.status = .queued ∧ m.run.status ≠ .completed) ∨
    (pc = .finishing ∧ m.run.status = if r.config.policy && c then .cancelled else .completed) ∨
    (∃ error, pc = .raised error) ∧ m.run.status = .failed
  ahead : c = true ∨ r.status.active = false → m.at'.ahead + act.chunks ≤ pc.ahead
  saved : m.saved = true → m.run.status.active = false → m.at' = .closing

theorem running_open : RunStatus.running ≠ .queued ∧ RunStatus.running ≠ .failed := by decide

theorem body_fits {u : RunStatus} (hbody : pc.body = true) : pc.Fits u ↔ u = .running := by
  cases pc <;> first | rfl | cases hbody

theorem Moved.quiet (hnext : next.Fits r.status)
    (hahead : c = true ∨ r.status.active = false → next.ahead + act.chunks ≤ pc.ahead) :
    Moved r c act pc (.quiet r next) where
  config := rfl
  cancelRequested := rfl
  fits := hnext
  status := .inl rfl
  ahead := hahead
  saved hsaved := by cases hsaved

/-- The manifest is replaced by the run with a new stage, unless that raises. -/
theorem Moved.log (stage : String) (error : Option String) (hraise : r.status ≠ .queued ∧ r.status ≠ .failed)
    (hnext : next.Fits r.status) (hahead : c = true ∨ r.status.active = false → next.ahead + act.chunks ≤ pc.ahead)
    (hsaved : r.status.active = false → next = .closing) : Moved r c act pc (.log r stage next error) := by
  cases error with
  | none => exact ⟨rfl, rfl, hnext, .inl rfl, hahead, fun _ => hsaved⟩
  | some error =>
    refine ⟨rfl, rfl, hraise, .inl rfl, fun hc => ?_, fun hsave => ?_⟩
    · have := hahead hc
      show 0 + act.chunks ≤ pc.ahead
      omega
    · cases hsave

theorem Moved.logRunning (stage : String) (error : Option String) (hrun : r.status = .running)
    (hnext : next.Fits .running) (hahead : c = true ∨ r.status.active = false → next.ahead + act.chunks ≤ pc.ahead) :
    Moved r c act pc (.log r stage next error) := by
  refine .log stage error ?_ (hrun ▸ hnext) hahead fun h => ?_
  · rw [hrun]
    exact running_open
  · rw [hrun] at h
    cases h

/-- The next statement, where the worker fits its run. -/
theorem advance_moved {error : Option String} (hfits : pc.Fits r.status) (hm : pc.advance r c error = some m) :
    Moved r c (.advance error) pc m := by
  cases pc with
  | entered =>
    obtain rfl := Option.some.inj hm
    split
    · exact .quiet hfits fun _ => Nat.le_refl 0
    · exact .quiet hfits fun _ => Nat.le_refl 0
  | leaving =>
    obtain rfl := Option.some.inj hm
    exact ⟨rfl, rfl, .inr rfl, .inr (.inl ⟨hfits, fun h => by cases h⟩), fun _ => Nat.le_refl 0, fun h => by cases h⟩
  | starting =>
    obtain rfl := Option.some.inj hm
    have hnext : ∀ b : Bool, (if b then preparing else reconstructing).Fits .running := fun b => by cases b <;> rfl
    have hahead : ∀ b : Bool, (if b then preparing else reconstructing).ahead = 0 := fun b => by cases b <;> rfl
    cases error with
    | none => exact ⟨rfl, rfl, hnext _, .inr (.inl ⟨hfits, fun h => by cases h⟩), fun _ => (hahead _).le, fun _ h => by cases h⟩
    | some error =>
      exact ⟨rfl, rfl, running_open, .inr (.inl ⟨hfits, fun h => by cases h⟩), fun _ => Nat.le_refl 0, fun h => by cases h⟩
  | reconstructing | preparing =>
    obtain rfl := Option.some.inj hm
    exact .quiet hfits fun _ => Nat.le_refl 0
  | variant rest =>
    cases rest with
    | nil =>
      obtain rfl := Option.some.inj hm
      exact .quiet hfits fun _ => Nat.le_refl 0
    | cons model rest =>
      obtain rfl := Option.some.inj hm
      split
      · exact .quiet hfits fun _ => Nat.le_refl 0
      · exact .quiet hfits fun _ => Nat.le_refl 0
  | chunk model rest done =>
    simp only [advance] at hm
    split at hm
    · rename_i hgo
      obtain rfl := Option.some.inj hm
      -- The chunk is not begun when the run is cancelled.
      refine .quiet hfits fun hc => ?_
      rcases hc with hc | hc
      · simp [hc] at hgo
      · rw [show r.status = .running from hfits] at hc
        cases hc
    · obtain rfl := Option.some.inj hm
      split
      · exact .quiet hfits fun _ => Nat.le_refl 0
      · exact .quiet hfits fun _ => Nat.le_refl 0
  | sampling model rest done =>
    obtain rfl := Option.some.inj hm
    exact .logRunning _ error hfits rfl fun _ => Nat.le_refl 1
  | predicting model rest done => cases hm
  | predicted model rest done =>
    obtain rfl := Option.some.inj hm
    exact .logRunning _ error hfits rfl fun _ => Nat.le_refl 0
  | collecting rest =>
    obtain rfl := Option.some.inj hm
    exact .logRunning r.stage error hfits rfl fun _ => Nat.le_refl 0
  | finishing =>
    obtain rfl := Option.some.inj hm
    refine ⟨rfl, rfl, ?_, .inr (.inr (.inl ⟨rfl, rfl⟩)), fun _ => Nat.le_refl 0, fun h => by cases h⟩
    show _ = RunStatus.completed ∨ _ = RunStatus.cancelled
    split
    · exact .inr rfl
    · exact .inl rfl
  | announcing =>
    obtain rfl := Option.some.inj hm
    rcases hfits with h | h
    · exact .log _ error (by simp [h]) (by simp [Fits, h, RunStatus.active]) (fun _ => Nat.le_refl 0) fun _ => rfl
    · exact .log _ error (by simp [h]) (by simp [Fits, h, RunStatus.active]) (fun _ => Nat.le_refl 0) fun _ => rfl
  | raised error =>
    obtain rfl := Option.some.inj hm
    exact ⟨rfl, rfl, rfl, .inr (.inr (.inr ⟨⟨error, rfl⟩, rfl⟩)), fun _ => Nat.le_refl 0, fun h => by cases h⟩
  | reporting =>
    obtain rfl := Option.some.inj hm
    refine ⟨rfl, rfl, ?_, .inl rfl, fun _ => Nat.le_refl 0, fun _ _ => rfl⟩
    show r.status.active = false
    rw [show r.status = .failed from hfits]
    rfl
  | closing => cases hm

theorem move_moved (hfits : pc.Fits r.status) (hm : pc.move r c act = some m) : Moved r c act pc m := by
  cases act with
  | advance error => exact advance_moved hfits hm
  | predict =>
    cases pc with
    | predicting model rest done =>
      obtain rfl := Option.some.inj hm
      exact .quiet hfits fun _ => Nat.le_refl 1
    | _ => cases hm
  | note stage error =>
    obtain ⟨hbody, hm⟩ := Option.ite_none_right_eq_some.mp hm
    obtain rfl := Option.some.inj hm
    exact .logRunning stage error ((body_fits hbody).mp hfits) ((body_fits hbody).mpr rfl) fun _ => Nat.le_refl _
  | raises error =>
    obtain ⟨hbody, hm⟩ := Option.ite_none_right_eq_some.mp hm
    obtain rfl := Option.some.inj hm
    have hrun := (body_fits hbody).mp hfits
    refine .quiet ?_ fun _ => Nat.zero_le _
    rw [hrun]
    exact running_open

/-- Only an exception after the run has ended takes a status back. -/
theorem Moved.mayBecome (h : Moved r c act pc m) (hfits : pc.Fits r.status)
    (hraised : ∀ error, pc = .raised error → r.status.active = true) : r.status.mayBecome m.run.status := by
  rcases h.status with heq | ⟨hq, -⟩ | ⟨rfl, hend⟩ | ⟨⟨error, rfl⟩, hend⟩
  · exact .inl heq.symm
  · exact .inr (.inl hq)
  · refine .inr (.inr ⟨hfits, ?_⟩)
    rw [hend]
    split <;> rfl
  · refine RunStatus.mayBecome_of_active (hraised error rfl) ?_
    rw [hend]
    rfl

theorem Moved.active (h : Moved r c act pc m) (hfits : pc.Fits r.status) (hm : m.run.status.active = true) :
    r.status.active = true := by
  rcases h.status with heq | ⟨hq, -⟩ | ⟨rfl, -⟩ | ⟨-, hend⟩
  · exact heq ▸ hm
  · rw [hq]
    rfl
  · rw [show r.status = .running from hfits]
    rfl
  · rw [hend] at hm
    cases hm

end WorkerAt

/-! ### The store -/

namespace EvalServer

/-- A run that was registered: its directory exists, and no handler still takes its snapshot. -/
def Known (s : EvalServer ι) (i : ι) : Prop := i ∈ s.directories ∧ s.snapshots i = none

def Waiting (s : EvalServer ι) (i : ι) : Prop := i ∈ s.unsubmitted ∨ i ∈ s.queue

/-- The runs that have been or will be handed to the worker, and that it has not finished. -/
def tickets (s : EvalServer ι) : List ι := s.unsubmitted ++ s.queue ++ (s.worker.map Prod.fst).toList

structure Inv (s : EvalServer ι) : Prop where
  runs_known : ∀ i, (s.runs i).isSome → s.Known i
  disk_known : ∀ i, (s.disk i).isSome → s.Known i
  snapshots : ∀ i, (s.snapshots i).isSome → i ∈ s.directories
  ids : ∀ i, i ∈ s.ids ↔ (s.runs i).isSome
  nodup : s.ids.Nodup
  slots : s.activeCount ≤ maxActive
  idle : s.phase ≠ .up → s.tickets = [] ∧ ∀ i, s.snapshots i = none
  scanned : s.phase ≠ .up → ∀ i r, s.runs i = some r → r.status.active = false ∧ s.disk i = some r
  tickets : s.tickets.Nodup
  waiting : ∀ i, s.Waiting i → s.status i = some .queued
  working : ∀ i pc, s.worker = some (i, pc) → ∃ r, s.runs i = some r ∧ pc.Fits r.status

theorem isActive_iff {s : EvalServer ι} {i : ι} : s.isActive i = true ↔ ∃ r, s.runs i = some r ∧ r.status.active = true := by
  unfold isActive status
  cases s.runs i with
  | none => simp
  | some r => simp

theorem mem_tickets_of_waiting (h : s.Waiting i) : i ∈ s.tickets := by
  rcases h with h | h
  · exact List.mem_append_left _ (List.mem_append_left _ h)
  · exact List.mem_append_left _ (List.mem_append_right _ h)

theorem mem_tickets_of_worker {pc : WorkerAt} (h : s.worker = some (i, pc)) : i ∈ s.tickets := by
  refine List.mem_append_right _ ?_
  rw [h]
  exact List.mem_singleton_self i

/-- The worker is not at a run that still waits for it. -/
theorem Inv.not_waiting (h : Inv s) {pc : WorkerAt} (hw : s.worker = some (i, pc)) : ¬s.Waiting i := by
  intro hi
  have hmem : i ∈ s.unsubmitted ++ s.queue := by
    rcases hi with hi | hi
    · exact List.mem_append_left _ hi
    · exact List.mem_append_right _ hi
  have hnodup := h.tickets
  unfold EvalServer.tickets at hnodup
  rw [hw] at hnodup
  exact (List.nodup_append.mp hnodup).2.2 i hmem i (List.mem_singleton_self i) rfl

theorem Inv.up_of_ticket (h : Inv s) (hi : i ∈ s.tickets) : s.phase = .up := by
  by_contra hphase
  rw [(h.idle hphase).1] at hi
  cases hi

theorem Inv.runs_of_ticket (h : Inv s) (hi : i ∈ s.tickets) : (s.runs i).isSome := by
  rcases List.mem_append.mp hi with hi | hi
  · have hq := h.waiting i (List.mem_append.mp hi)
    unfold status at hq
    cases hr : s.runs i with
    | none =>
      rw [hr] at hq
      cases hq
    | some r => rfl
  · cases hw : s.worker with
    | none =>
      rw [hw] at hi
      cases hi
    | some w =>
      rw [hw] at hi
      obtain rfl : i = w.1 := List.mem_singleton.mp hi
      obtain ⟨r, hr, -⟩ := h.working w.1 w.2 hw
      rw [hr]
      rfl

section
variable (h : Inv s) (habsent : s.runs i = none)
include h

/-- The ids with a new run behind them are those of the runs. -/
theorem Inv.mem_ids_snoc {runs : ι → Option EvalRun} (hnew : (runs i).isSome) (hother : ∀ j, j ≠ i → runs j = s.runs j) (j : ι) :
    j ∈ s.ids ++ [i] ↔ (runs j).isSome := by
  rw [List.mem_append, List.mem_singleton]
  by_cases hji : j = i
  · exact ⟨fun _ => hji ▸ hnew, fun _ => .inr hji⟩
  · rw [hother j hji, h.ids j]
    exact or_iff_left hji

include habsent

theorem Inv.not_mem_ids : i ∉ s.ids := by
  intro hi
  simpa [habsent] using (h.ids i).mp hi

theorem Inv.nodup_snoc : (s.ids ++ [i]).Nodup := by
  rw [← List.concat_eq_append]
  exact h.nodup.concat (h.not_mem_ids habsent)

end

variable [DecidableEq ι]

/-- A new run takes one of the slots. -/
theorem Inv.register (h : Inv s) (hup : s.phase = .up) (hnew : ¬s.Known i) (hroom : s.activeCount < maxActive)
    (config : RunConfig) (error : Option String) {D : Finset ι} {S : ι → Option RunConfig} (hD : i ∈ D)
    (hsub : s.directories ⊆ D) (hS : S i = none) (hS' : ∀ j, (S j).isSome → S j = s.snapshots j) :
    Inv { s.register i config error with directories := D, snapshots := S } := by
  have habsent : s.runs i = none := by
    by_contra hne
    exact hnew (h.runs_known i (Option.isSome_iff_ne_none.mpr hne))
  have hknown : ∀ j, s.Known j → j ∈ D ∧ S j = none := by
    intro j ⟨hj, hsnap⟩
    refine ⟨hsub hj, ?_⟩
    by_contra hne
    exact hne ((hS' j (Option.isSome_iff_ne_none.mpr hne)).trans hsnap)
  have hother : ∀ j, j ≠ i → (s.register i config error).runs j = s.runs j := fun j hj => Function.update_of_ne hj _ _
  have hids := h.not_mem_ids habsent
  refine ⟨fun j hj => ?_, fun j hj => ?_, fun j hj => ?_, fun j => ?_, ?_, ?_, fun hphase => absurd hup hphase,
    fun hphase => absurd hup hphase, ?_, fun j hj => ?_, fun j pc hw => ?_⟩
  · by_cases hji : j = i
    · exact ⟨hji ▸ hD, hji ▸ hS⟩
    · exact hknown j (h.runs_known j (by simpa [EvalServer.register, setRun, hji] using hj))
  · by_cases hji : j = i
    · exact ⟨hji ▸ hD, hji ▸ hS⟩
    · refine hknown j (h.disk_known j ?_)
      cases error <;> simpa [EvalServer.register, setRun, hji] using hj
  · have hj : (S j).isSome := hj
    rw [hS' j hj] at hj
    exact hsub (h.snapshots j hj)
  · exact h.mem_ids_snoc (by simp [EvalServer.register, setRun]) hother j
  · exact h.nodup_snoc habsent
  · show (s.ids ++ [i]).countP _ ≤ maxActive
    have hle : s.ids.countP (isActive { s.register i config error with directories := D, snapshots := S }) ≤ s.activeCount := by
      refine List.countP_mono_left fun j hj hactive => ?_
      have hji : j ≠ i := fun heq => hids (heq ▸ hj)
      simpa [isActive, status, hother j hji] using hactive
    have hone : [i].countP (isActive { s.register i config error with directories := D, snapshots := S }) ≤ 1 := List.countP_le_length
    rw [List.countP_append]
    omega
  · have hticket : i ∉ s.tickets := fun hi => by simpa [habsent] using h.runs_of_ticket hi
    cases error with
    | none =>
      show (s.unsubmitted ++ [i] ++ s.queue ++ _).Nodup
      have hperm : (s.unsubmitted ++ [i] ++ s.queue ++ (s.worker.map Prod.fst).toList).Perm (i :: s.tickets) := by
        simp only [EvalServer.tickets, List.append_assoc, List.singleton_append]
        exact List.perm_middle
      exact hperm.nodup_iff.mpr (List.nodup_cons.mpr ⟨hticket, h.tickets⟩)
    | some error => exact h.tickets
  · show ((s.register i config error).runs j).map _ = _
    by_cases hji : j = i
    · simp [hji, EvalServer.register, setRun]
    · rw [hother j hji]
      refine h.waiting j (hj.imp_left fun hj => ?_)
      cases error with
      | none => exact (List.mem_append.mp hj).resolve_right fun hj => hji (List.mem_singleton.mp hj)
      | some error => exact hj
  · have hw : s.worker = some (j, pc) := hw
    obtain ⟨r, hr, hfits⟩ := h.working j pc hw
    refine ⟨r, ?_, hfits⟩
    have hji : j ≠ i := fun heq => by simp [← heq, hr] at habsent
    exact (hother j hji).trans hr

/-- A run that is in memory changes; it is not made active again. -/
theorem Inv.setRun (h : Inv s) (hup : s.phase = .up) {r r' : EvalRun} (hr : s.runs i = some r) (saved : Bool)
    (hactive : r'.status.active = true → r.status.active = true) {C : Finset ι} {W : Option (ι × WorkerAt)}
    (hW : W.map Prod.fst = s.worker.map Prod.fst) (hwaiting : s.Waiting i → r'.status = r.status)
    (hself : ∀ pc, W = some (i, pc) → pc.Fits r'.status)
    (hworker : ∀ j pc, j ≠ i → W = some (j, pc) → s.worker = some (j, pc)) :
    Inv { s.setRun i r' saved with cancelled := C, worker := W } := by
  have hsome : (s.runs i).isSome := by simp [hr]
  have hother : ∀ j, j ≠ i → (s.setRun i r' saved).runs j = s.runs j := fun j hj => Function.update_of_ne hj _ _
  have hown : (s.setRun i r' saved).runs i = some r' := Function.update_self ..
  have hruns : ∀ j, ((s.setRun i r' saved).runs j).isSome ↔ (s.runs j).isSome := by
    intro j
    by_cases hji : j = i
    · rw [hji, hown, hr]
      exact Iff.rfl
    · rw [hother j hji]
  have htickets : EvalServer.tickets { s.setRun i r' saved with cancelled := C, worker := W } = s.tickets := by
    show s.unsubmitted ++ s.queue ++ (W.map Prod.fst).toList = _
    rw [hW]
    rfl
  refine ⟨fun j hj => h.runs_known j ((hruns j).mp hj), fun j hj => ?_, h.snapshots, fun j => (h.ids j).trans (hruns j).symm,
    h.nodup, ?_, fun hphase => absurd hup hphase, fun hphase => absurd hup hphase, htickets ▸ h.tickets, fun j hj => ?_,
    fun j pc hw => ?_⟩
  · by_cases hji : j = i
    · exact h.runs_known j (hji ▸ hsome)
    · refine h.disk_known j ?_
      cases saved <;> simpa [EvalServer.setRun, hji] using hj
  · refine Nat.le_trans (List.countP_mono_left fun j _ hj => ?_) h.slots
    obtain ⟨r₀, hr₀, hact⟩ := isActive_iff.mp hj
    have hr₀ : (s.setRun i r' saved).runs j = some r₀ := hr₀
    by_cases hji : j = i
    · rw [hji, hown] at hr₀
      cases hr₀
      exact isActive_iff.mpr ⟨r, hji ▸ hr, hactive hact⟩
    · exact isActive_iff.mpr ⟨r₀, hother j hji ▸ hr₀, hact⟩
  · have hq := h.waiting j hj
    show ((s.setRun i r' saved).runs j).map _ = _
    by_cases hji : j = i
    · rw [hji] at hj hq ⊢
      rw [hown, Option.map_some, hwaiting hj]
      simpa [status, hr] using hq
    · rw [hother j hji]
      exact hq
  · have hw : W = some (j, pc) := hw
    by_cases hji : j = i
    · subst hji
      exact ⟨r', hown, hself pc hw⟩
    · obtain ⟨r₀, hr₀, hfits⟩ := h.working j pc (hworker j pc hji hw)
      exact ⟨r₀, (hother j hji).trans hr₀, hfits⟩

omit [DecidableEq ι] in
/-- Runs are handed on, towards the worker, or finished. -/
theorem Inv.handOn (h : Inv s) (hup : s.phase = .up) {C : Finset ι} {U Q : List ι} {W : Option (ι × WorkerAt)}
    (hwaiting : ∀ j, j ∈ U ∨ j ∈ Q → s.Waiting j) (htickets : (U ++ Q ++ (W.map Prod.fst).toList).Nodup)
    (hworking : ∀ j pc, W = some (j, pc) → s.worker = some (j, pc) ∨ (s.Waiting j ∧ pc = .entered)) :
    Inv { s with cancelled := C, unsubmitted := U, queue := Q, worker := W } := by
  refine ⟨h.runs_known, h.disk_known, h.snapshots, h.ids, h.nodup, h.slots, fun hphase => absurd hup hphase,
    fun hphase => absurd hup hphase, htickets, fun j hj => h.waiting j (hwaiting j hj), fun j pc hw => ?_⟩
  rcases hworking j pc hw with hw | ⟨hj, rfl⟩
  · exact h.working j pc hw
  · have hq := h.waiting j hj
    obtain ⟨r, hr, hstatus⟩ := Option.map_eq_some_iff.mp hq
    exact ⟨r, hr, hstatus⟩

/-- The directory of a run that is not registered comes or goes. -/
theorem Inv.snapshot (h : Inv s) (hup : s.phase = .up) (hnew : ¬s.Known i) {D : Finset ι} {S : ι → Option RunConfig}
    (hD : ∀ j, j ≠ i → (j ∈ D ↔ j ∈ s.directories)) (hS : ∀ j, j ≠ i → S j = s.snapshots j) (hi : (S i).isSome → i ∈ D) :
    Inv { s with directories := D, snapshots := S } := by
  have hknown : ∀ j, s.Known j → j ∈ D ∧ S j = none := by
    intro j hj
    have hji : j ≠ i := fun heq => hnew (heq ▸ hj)
    exact ⟨(hD j hji).mpr hj.1, (hS j hji).trans hj.2⟩
  refine ⟨fun j hj => hknown j (h.runs_known j hj), fun j hj => hknown j (h.disk_known j hj), fun j hj => ?_, h.ids, h.nodup,
    h.slots, fun hphase => absurd hup hphase, fun hphase => absurd hup hphase, h.tickets, h.waiting, h.working⟩
  have hj : (S j).isSome := hj
  by_cases hji : j = i
  · exact hji ▸ hi (hji ▸ hj)
  · rw [hS j hji] at hj
    exact (hD j hji).mpr (h.snapshots j hj)

omit [DecidableEq ι] in
/-- The worker leaves its run. -/
theorem Inv.finish (h : Inv s) {pc : WorkerAt} (hw : s.worker = some (i, pc)) {C : Finset ι} :
    Inv { s with cancelled := C, worker := none } := by
  refine h.handOn (h.up_of_ticket (mem_tickets_of_worker hw)) (fun j hj => hj) ?_ fun j pc hw => by cases hw
  rw [Option.map_none, Option.toList_none, List.append_nil]
  exact (List.nodup_append.mp h.tickets).1

omit [DecidableEq ι] in
theorem Inv.lost (h : Inv s) : Inv s.lost where
  runs_known i hi := by cases hi
  disk_known i hi := ⟨(h.disk_known i hi).1, rfl⟩
  snapshots i hi := by cases hi
  ids i := ⟨fun hi => (by cases hi), fun hi => (by cases hi)⟩
  nodup := List.nodup_nil
  slots := Nat.zero_le _
  idle _ := ⟨rfl, fun _ => rfl⟩
  scanned _ i r hr := by cases hr
  tickets := List.nodup_nil
  waiting i hi := by rcases hi with hi | hi <;> cases hi
  working i pc hw := by cases hw

end EvalServer

theorem EvalRun.settle_inactive (r : EvalRun) : r.settle.status.active = false := by
  unfold settle
  split
  · split <;> rfl
  · rename_i h
    simpa using h

theorem EvalRun.settle_of_inactive {r : EvalRun} (h : r.status.active = false) : r.settle = r := by
  unfold settle
  rw [if_neg (by simp [h])]

namespace EvalServer

variable [DecidableEq ι]

/-- The scan loads a settled manifest. -/
theorem Inv.scan (h : Inv s) (hphase : s.phase = .scanning) {m : EvalRun} (habsent : s.runs i = none) (hm : s.disk i = some m) :
    Inv { s.setRun i m.settle m.status.active with ids := s.ids ++ [i] } := by
  have hup : s.phase ≠ .up := by simp [hphase]
  obtain ⟨hidle, hsnap⟩ := h.idle hup
  have hother : ∀ j, j ≠ i → (s.setRun i m.settle m.status.active).runs j = s.runs j := fun j hj => Function.update_of_ne hj _ _
  have hown : (s.setRun i m.settle m.status.active).runs i = some m.settle := Function.update_self ..
  have hdisk : ∀ j, j ≠ i → (s.setRun i m.settle m.status.active).disk j = s.disk j := by
    intro j hj
    cases hactive : m.status.active <;> simp [EvalServer.setRun, hj]
  have hdisk' : (s.setRun i m.settle m.status.active).disk i = some m.settle := by
    cases hactive : m.status.active with
    | false =>
      rw [EvalRun.settle_of_inactive hactive]
      exact hm
    | true => exact Function.update_self ..
  have hknown : s.Known i := h.disk_known i (by simp [hm])
  have hscanned : ∀ j r, (s.setRun i m.settle m.status.active).runs j = some r →
      r.status.active = false ∧ (s.setRun i m.settle m.status.active).disk j = some r := by
    intro j r hr
    by_cases hji : j = i
    · subst hji
      rw [hown] at hr
      cases hr
      exact ⟨m.settle_inactive, hdisk'⟩
    · rw [hother j hji] at hr
      rw [hdisk j hji]
      exact h.scanned hup j r hr
  have hwaiting : ∀ j, ¬s.Waiting j := fun j hj => by simpa [hidle] using mem_tickets_of_waiting hj
  refine ⟨fun j hj => ?_, fun j hj => ?_, h.snapshots, fun j => ?_, ?_, ?_, fun _ => ⟨hidle, hsnap⟩, fun _ => hscanned,
    h.tickets, fun j hj => absurd hj (hwaiting j), fun j pc hw => ?_⟩
  · by_cases hji : j = i
    · exact hji ▸ hknown
    · exact h.runs_known j (hother j hji ▸ hj)
  · by_cases hji : j = i
    · exact hji ▸ hknown
    · exact h.disk_known j (hdisk j hji ▸ hj)
  · exact h.mem_ids_snoc (by simp [EvalServer.setRun]) hother j
  · exact h.nodup_snoc habsent
  · have hzero : activeCount { s.setRun i m.settle m.status.active with ids := s.ids ++ [i] } = 0 := by
      refine List.countP_eq_zero.mpr fun j _ hj => ?_
      obtain ⟨r, hr, hact⟩ := isActive_iff.mp hj
      cases (hscanned j r hr).1.symm.trans hact
    rw [hzero]
    exact Nat.zero_le _
  · exfalso
    have hmem := mem_tickets_of_worker (s := s) hw
    rw [hidle] at hmem
    cases hmem

omit [DecidableEq ι] in
theorem not_known_of_snapshot {config : RunConfig} (hs : s.snapshots i = some config) : ¬s.Known i := by
  intro hknown
  rw [hknown.2] at hs
  cases hs

omit [DecidableEq ι] in
theorem Inv.up_of_snapshot (h : Inv s) {config : RunConfig} (hs : s.snapshots i = some config) : s.phase = .up := by
  by_contra hphase
  rw [(h.idle hphase).2 i] at hs
  cases hs

/-- No more snapshot is taken for a run. -/
theorem snapshots_dropped : (Function.update s.snapshots i none i = none) ∧
    ∀ j, (Function.update s.snapshots i none j).isSome → Function.update s.snapshots i none j = s.snapshots j := by
  refine ⟨Function.update_self .., fun j hj => ?_⟩
  by_cases hji : j = i
  · simp [hji] at hj
  · exact Function.update_of_ne hji _ _

theorem Inv.dropped (h : Inv s) {config : RunConfig} (hs : s.snapshots i = some config) :
    Inv { s with directories := s.directories.erase i, snapshots := Function.update s.snapshots i none } := by
  refine h.snapshot (h.up_of_snapshot hs) (not_known_of_snapshot hs) (fun j hj => ?_) (fun j hj => Function.update_of_ne hj _ _)
    fun hi => ?_
  · exact Finset.mem_erase.trans (and_iff_right hj)
  · simp at hi

theorem Inv.step (h : Inv s) {a : EvalStep ι} (hs : s.step a = some t) : Inv t := by
  cases a with
  | createRun i error =>
    obtain ⟨⟨hup, hdir, hroom⟩, hs⟩ := Option.ite_none_right_eq_some.mp hs
    obtain rfl := Option.some.inj hs
    have hsnap : s.snapshots i = none := by
      by_contra hne
      exact hdir (h.snapshots i (Option.isSome_iff_ne_none.mpr hne))
    exact h.register hup (fun hknown => hdir hknown.1) hroom _ error (Finset.mem_insert_self i _) (Finset.subset_insert i _) hsnap
      fun j _ => rfl
  | createPolicyRun i config =>
    obtain ⟨⟨hup, hdir, -, -⟩, hs⟩ := Option.ite_none_right_eq_some.mp hs
    obtain rfl := Option.some.inj hs
    refine h.snapshot hup (fun hknown => hdir hknown.1) (fun j hj => ?_) (fun j hj => Function.update_of_ne hj _ _) fun _ => ?_
    · exact Finset.mem_insert.trans (or_iff_right hj)
    · exact Finset.mem_insert_self i _
  | snapshotRaises i =>
    obtain ⟨config, hconfig, rfl⟩ := Option.map_eq_some_iff.mp hs
    exact h.dropped hconfig
  | admitPolicyRun i error =>
    obtain ⟨config, hconfig, hs⟩ := Option.map_eq_some_iff.mp hs
    split at hs
    · rename_i hroom
      subst hs
      exact h.register (h.up_of_snapshot hconfig) (not_known_of_snapshot hconfig) hroom config error
        (h.snapshots i (by simp [hconfig])) (Finset.Subset.refl _) snapshots_dropped.1 snapshots_dropped.2
    · subst hs
      exact h.dropped hconfig
  | submit i =>
    obtain ⟨hi, hs⟩ := Option.ite_none_right_eq_some.mp hs
    obtain rfl := Option.some.inj hs
    have hperm : (s.unsubmitted.erase i ++ (s.queue ++ [i]) ++ (s.worker.map Prod.fst).toList).Perm s.tickets := by
      refine List.Perm.append_right _ ?_
      rw [← List.append_assoc]
      refine (List.perm_append_singleton i _).trans ?_
      exact (List.perm_cons_erase hi).symm.append_right s.queue
    refine h.handOn (h.up_of_ticket (mem_tickets_of_waiting (.inl hi))) (fun j hj => ?_) (hperm.nodup_iff.mpr h.tickets)
      fun j pc hw => .inl hw
    rcases hj with hj | hj
    · exact .inl (List.mem_of_mem_erase hj)
    · rcases List.mem_append.mp hj with hj | hj
      · exact .inr hj
      · exact .inl (List.mem_singleton.mp hj ▸ hi)
  | cancelRun i error =>
    obtain ⟨hup, hs⟩ := Option.ite_none_right_eq_some.mp hs
    obtain ⟨r, hr, hs⟩ := Option.map_eq_some_iff.mp hs
    split at hs
    · subst hs
      refine h.setRun hup hr _ ?_ rfl (fun _ => ?_) (fun pc hw => ?_) fun j pc _ hw => hw
      · exact id
      · rfl
      · obtain ⟨r₀, hr₀, hfits⟩ := h.working i pc hw
        cases hr.symm.trans hr₀
        exact hfits
    · exact hs ▸ h
  | listRuns | getRun i | artifact i =>
    obtain ⟨-, hs⟩ := Option.ite_none_right_eq_some.mp hs
    exact Option.some.inj hs ▸ h
  | take =>
    simp only [EvalServer.step] at hs
    split at hs
    · rename_i i rest hworker hqueue
      obtain rfl := Option.some.inj hs
      have hi : s.Waiting i := .inr (hqueue ▸ List.mem_cons_self)
      refine h.handOn (h.up_of_ticket (mem_tickets_of_waiting hi)) (fun j hj => ?_) ?_ fun j pc hw => ?_
      · exact hj.imp_right fun hj => hqueue ▸ List.mem_cons_of_mem i hj
      · have hnodup := h.tickets
        simp only [EvalServer.tickets, hworker, hqueue, Option.map_none, Option.toList_none, List.append_nil] at hnodup
        refine (List.Perm.nodup_iff ?_).mp hnodup
        rw [List.append_assoc]
        exact (List.perm_append_singleton i rest).symm.append_left s.unsubmitted
      · cases hw
        exact .inr ⟨hi, rfl⟩
    · cases hs
  | importRaises i =>
    obtain ⟨⟨hw, -⟩, hs⟩ := Option.ite_none_right_eq_some.mp hs
    obtain rfl := Option.some.inj hs
    exact h.finish hw
  | work i act =>
    simp only [EvalServer.step] at hs
    split at hs
    · rename_i j pc r hworker hr
      obtain ⟨rfl, hs⟩ := Option.ite_none_right_eq_some.mp hs
      obtain ⟨m, hm, rfl⟩ := Option.map_eq_some_iff.mp hs
      obtain ⟨r₀, hr₀, hfits⟩ := h.working j pc hworker
      cases hr.symm.trans hr₀
      have hmoved := WorkerAt.move_moved hfits hm
      refine h.setRun (h.up_of_ticket (mem_tickets_of_worker hworker)) hr _ (hmoved.active hfits) ?_ (fun hj => ?_) (fun pc' hw => ?_)
        fun k pc' hk hw => ?_
      · rw [hworker]
        rfl
      · exact absurd hj (h.not_waiting hworker)
      · cases hw
        exact hmoved.fits
      · cases hw
        exact absurd rfl hk
    · cases hs
  | close i =>
    obtain ⟨hw, hs⟩ := Option.ite_none_right_eq_some.mp hs
    obtain rfl := Option.some.inj hs
    exact h.finish hw
  | kill =>
    obtain rfl := Option.some.inj hs
    exact h.lost
  | boot =>
    obtain ⟨hphase, hs⟩ := Option.ite_none_right_eq_some.mp hs
    obtain rfl := Option.some.inj hs
    have hup : s.phase ≠ .up := by simp [hphase]
    exact ⟨h.runs_known, h.disk_known, h.snapshots, h.ids, h.nodup, h.slots, fun _ => h.idle hup, fun _ => h.scanned hup,
      h.tickets, h.waiting, h.working⟩
  | scan i error =>
    obtain ⟨⟨hphase, habsent⟩, hs⟩ := Option.ite_none_right_eq_some.mp hs
    obtain ⟨m, hm, hs⟩ := Option.map_eq_some_iff.mp hs
    split at hs
    · subst hs
      exact h.lost
    · subst hs
      exact h.scan hphase habsent hm
  | serve =>
    obtain ⟨-, hs⟩ := Option.ite_none_right_eq_some.mp hs
    obtain rfl := Option.some.inj hs
    exact ⟨h.runs_known, h.disk_known, h.snapshots, h.ids, h.nodup, h.slots, fun hphase => absurd rfl hphase,
      fun hphase => absurd rfl hphase, h.tickets, h.waiting, h.working⟩

omit [DecidableEq ι] in
theorem inv_init : Inv ({} : EvalServer ι) where
  runs_known i hi := by cases hi
  disk_known i hi := by cases hi
  snapshots i hi := by cases hi
  ids i := ⟨fun hi => (by cases hi), fun hi => (by cases hi)⟩
  nodup := List.nodup_nil
  slots := Nat.zero_le _
  idle _ := ⟨rfl, fun _ => rfl⟩
  scanned _ i r hr := by cases hr
  tickets := List.nodup_nil
  waiting i hi := by rcases hi with hi | hi <;> cases hi
  working i pc hw := by cases hw

theorem inv_reach {C : EvalServer ι → EvalStep ι → Prop} (h : (evalMachine ι).Reach C s) : Inv s :=
  h.invariant (fun _ hs => hs ▸ inv_init) fun _ _ _ _ hs _ hstep => hs.step hstep

end EvalServer
end HumanoidLab
