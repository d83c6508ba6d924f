import HumanoidLab.Bridge.Session

/-! The lock of a session is not reentrant. Of its blocks only that of `start` acquires the lock again,
    through `status`, and only when the session starts or runs: in the runs where no start meets such a
    session no thread waits for itself, and every call comes to its return. -/

namespace HumanoidLab
open Concurrency

/-- The guard that a `start` takes the lock of a session that neither starts nor runs. -/
def StartsFresh (p : Pool (Guarded World) (Place Point Section)) (a : Nat × Choice) : Prop :=
  p.threads a.1 = .inside .startCheck →
    p.shared.data.session.starting = false ∧ p.shared.data.session.state ≠ .running

instance (p : Pool (Guarded World) (Place Point Section)) (a : Nat × Choice) : Decidable (StartsFresh p a) :=
  inferInstanceAs (Decidable (_ → _))

/-- The number of steps that a thread has before it in its call. -/
def remaining : Place Point Section → Nat
  | .at (.done _ _) => 1
  | .inside (.status _) | .inside (.adoptPolicy _) | .inside .readInfo | .inside (.setInfo _) | .at .previewMonitor => 2
  | .want (.status _) | .want (.adoptPolicy _) | .want .readInfo | .want (.setInfo _) | .inside .readPreview => 3
  | .at .fetchInfo | .want .readPreview => 4
  -- `start`
  | .at (.startWait _) => 4
  | .at (.startSpawn _) => 5
  | .inside (.startThread _) => 6
  | .want (.startThread _) => 7
  | .at (.startResume _) => 8
  | .at (.startGate _) => 9
  | .at (.startStop _) => 10
  | .at (.startReady _) => 11
  | .inside .startCheck => 12
  | .want .startCheck => 13
  -- `reset`, and `stop` before it
  | .inside (.resetClear _) => 4
  | .want (.resetClear _) => 5
  | .at (.resetInvalidate _) => 6
  | .at .resetRequest => 7
  | .inside .stopStatus => 8
  | .want .stopStatus => 9
  | .inside (.stopFinish _) => 10
  | .want (.stopFinish _) => 11
  | .at (.stopJoin _) => 12
  | .at (.stopEvent _) => 13
  | .at (.stopHalt _) => 14
  | .at (.stopGate _) => 15
  -- `mark_error`
  | .at (.markReady _) => 4
  | .at (.markStop _) => 5
  | .at (.markHalt _) => 6
  | .at (.markGate _) => 7
  | .inside (.markError _) => 8
  | .want (.markError _) => 9
  | .at .idle | .at (.loop _ _) | .want (.loop _ _) | .inside (.loop _ _) => 0

example : remaining (.at .idle) = 0 := by simp [remaining]

theorem body_releases_iff (i : Nat) (c : Section) (w : World) : (∃ n, (body i c w).1 = .release n) ↔
    (c = .startCheck → w.session.starting = false ∧ w.session.state ≠ .running) := by
  cases c with
  | startCheck =>
    simp only [body]
    split
    · rename_i h
      rcases h with h | h <;> simp [h]
    · rename_i h
      rw [not_or] at h
      split <;> simp_all
  | readPreview =>
    simp only [body]
    split <;> simp
  | _ => simp [body]

theorem releases_iff : sessionProgram.Releases = StartsFresh := by
  funext p a
  refine propext ⟨fun h hc => ?_, fun h c hc => ?_⟩
  · exact (body_releases_iff a.1 .startCheck p.shared.data).mp (h _ hc) rfl
  · refine (body_releases_iff a.1 c p.shared.data).mpr fun hs => ?_
    subst hs
    exact h hc

theorem exclusive_init : Locking.Exclusive sessionInit := fun _ => ⟨nofun, fun ⟨_, h⟩ => nomatch h⟩

theorem remaining_point {i : Nat} {p : Point} {c : Choice} {w w' : World} {n : Next Point Section}
    (hp : 0 < remaining (.at p)) (h : point i p c w = some (n, w')) :
    remaining n.place < remaining (.at p) ∧ (remaining n.place = 0 → n.place = .at .idle) := by
  cases p with
  | loop g p => simp [remaining] at hp
  | idle => simp [remaining] at hp
  | stopJoin r =>
    cases c <;> simp_all [point]
    simp [← h.1, Next.place, remaining]
  | _ => cases c <;> simp_all [point] <;> simp [← h.1, Next.place, remaining]

theorem remaining_body (i : Nat) (c : Section) (w : World) (hc : 0 < remaining (.inside c)) :
    0 < remaining (body i c w).1.place ∧ remaining (body i c w).1.place < remaining (.inside c) := by
  cases c with
  | startCheck =>
    simp only [body]
    split
    · simp [Exit.place, remaining]
    · split <;> simp [Exit.place, Next.place, remaining]
  | stopFinish r => by_cases hr : r = .reset <;> simp [body, Exit.place, Next.place, remaining, hr]
  | readPreview =>
    simp only [body]
    split <;> simp [Exit.place, Next.place, remaining]
  | loop g c => simp [remaining] at hc
  | _ => simp [body, Exit.place, Next.place, remaining]

theorem remaining_step {i : Nat} {pl : Place Point Section} {c : Choice} {s : Guarded World}
    {r : Place Point Section × Guarded World} (hp : 0 < remaining pl) (h : sessionProgram.threads i pl c s = some r) :
    remaining r.1 < remaining pl ∧ (remaining r.1 = 0 → r.1 = .at .idle) := by
  rcases Locking.threads_cases h with ⟨p, n, d, rfl, hpt, rfl⟩ | ⟨k, rfl, -, rfl⟩ | ⟨k, e, d, rfl, hb, rfl⟩
  · exact remaining_point hp hpt
  · cases k <;> simp_all [remaining]
  · obtain ⟨hpos, hlt⟩ := remaining_body i k s.data hp
    rw [show body i k s.data = (e, d) from hb] at hpos hlt
    exact ⟨hlt, fun h0 => absurd h0 (Nat.ne_of_gt hpos)⟩

/-- Between the blocks nothing stops a call: the network and the monitor answer or fail, and a wait ends. -/
theorem point_enabled (i : Nat) (p : Point) (w : World) (hp : 0 < remaining (.at p)) :
    ∃ c, (point i p c w).isSome = true := by
  cases p with
  | idle => simp [remaining] at hp
  | loop g p => simp [remaining] at hp
  | resetRequest => exact ⟨.reset none, rfl⟩
  | previewMonitor => exact ⟨.frame none, rfl⟩
  | fetchInfo => exact ⟨.raise "", rfl⟩
  | _ => exact ⟨.go, rfl⟩

instance : Inhabited Choice := ⟨.go⟩

/-- Thread 0 starts the session, and then thread 1 starts it once more. -/
def repeatedStart : List (Nat × Choice) :=
  [(0, .call .start), (0, .go), (0, .go), (1, .call .start), (1, .go), (1, .go)]

end HumanoidLab
