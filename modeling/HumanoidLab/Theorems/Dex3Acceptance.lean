import HumanoidLab.Theorems.Dex3Provenance

/-! The prediction that the Dex3 node waits for is taken over: its number is new, its array is sound, and there is room for it. Only its
    age, and without an output its size, can speak against it. -/

namespace HumanoidLab.FluxDex3
open Concurrency Fallible

variable {S : Type} {config : NodeConfig} {timeout : ℚ} {policy : Policy S} {s t : System S} {j : Journal}

/-- The scheduler has a place for the prediction that is waited for. -/
structure Node.Ready (n : Node) : Prop where
  older : n.executor.lastSeq < n.nextSeq
  waits : n.inflight = true → n.executor.lastSeq + 1 < n.nextSeq ∧ n.executor.nextChunk = none

theorem ready_init : ({} : Node).Ready where
  older := by decide
  waits h := by cases h

theorem tick_lastSeq {executorConfig : ExecutorConfig} {now : ℚ} {e e' : Executor} {target : List ℚ}
    (h : e.tick executorConfig now = (some target, e')) : e'.lastSeq = e.lastSeq := by
  unfold Executor.tick at h
  split at h
  · split at h
    · cases h
      rfl
    · split at h <;>
      · cases h
        rfl
  · cases h

/-- A node that waits for nothing, and whose scheduler starts afresh. -/
theorem ready_afresh {n : Node} (hlast : n.executor.lastSeq = -1) (hinflight : n.inflight = false) : n.Ready where
  older := by
    rw [hlast]
    omega
  waits h := by
    rw [hinflight] at h
    cases h

theorem ready_move {x y : System S × Journal} (hmove : Move config policy x y) (h : x.1.node.Ready) : y.1.node.Ready := by
  cases hmove with
  | abort reason => exact ready_afresh rfl rfl
  | begins session prompt fresh known idle resumes => exact ready_afresh rfl rfl
  | @submit s j session stamp image state sent active free next =>
    have holder := h.older
    refine ⟨?_, fun _ => ⟨?_, next⟩⟩
    · show s.node.executor.lastSeq < ((s.node.nextSeq + 1 : Nat) : Int)
      push_cast
      exact holder.trans (lt_add_one _)
    · show s.node.executor.lastSeq + 1 < ((s.node.nextSeq + 1 : Nat) : Int)
      push_cast
      exact Int.add_lt_add_right holder 1
  | pause session action reason running active last => exact ready_afresh rfl rfl
  | @discard s j event rest hevents unawaited =>
    obtain ⟨pending, hsettled, -⟩ := settleEvent_eq event { s.node with events := rest }
    simp only [hsettled]
    exact ⟨h.older, h.waits⟩
  | fails event rest reason hevents => exact ready_afresh rfl rfl
  | @accept s j session seq stamp actions rest age chunk executor hevents awaited read accepted =>
    obtain ⟨-, -, -, -, -, chunk, -, -, -, rfl⟩ := accept_ok accepted
    have hseq : s.node.nextSeq = seq + 1 := awaited.2.2
    have hlast : (s.node.executor.install chunk seq s.clock).lastSeq = seq := rfl
    refine ⟨?_, fun hin => ?_⟩
    · show (s.node.executor.install chunk seq s.clock).lastSeq < s.node.nextSeq
      rw [hlast, hseq]
      push_cast
      omega
    · cases hin
  | @play s j target executor command running ticks =>
    have hlast := tick_lastSeq ticks
    obtain ⟨-, hnext⟩ := tick_chunks ticks
    refine ⟨?_, fun hin => ?_⟩
    · show executor.lastSeq < s.node.nextSeq
      rw [hlast]
      exact h.older
    · obtain ⟨hless, hnone⟩ := h.waits hin
      refine ⟨?_, ?_⟩
      · show executor.lastSeq + 1 < s.node.nextSeq
        rw [hlast]
        exact hless
      · refine Option.eq_none_iff_forall_ne_some.mpr fun chunk hchunk => ?_
        have hbefore := hnext chunk hchunk
        rw [hnone] at hbefore
        cases hbefore
  | _ => exact ⟨h.older, h.waits⟩

theorem finiteOr_ok (text : String) {values : List (Value ℚ)} (h : ∀ v ∈ values, v ≠ .nonFinite) :
    ∃ xs, finiteOr text values = .ok xs := by
  induction values with
  | nil => exact ⟨[], rfl⟩
  | cons v values ih =>
    obtain ⟨xs, hxs⟩ := ih fun v hv => h v (List.mem_cons_of_mem _ hv)
    cases v with
    | nonFinite => exact absurd rfl (h _ List.mem_cons_self)
    | fin x =>
      refine ⟨x :: xs, ?_⟩
      unfold finiteOr at hxs ⊢
      rw [List.mapM_cons, hxs]
      rfl

/-- What a server can encode, the scheduler can read. -/
theorem readChunk_ok {actions : NdArray ℚ} (h : Encodable actions) : ∃ c, readChunk actions = .ok c := by
  obtain ⟨xs, hxs⟩ := finiteOr_ok "invalid action chunk" h.2
  unfold readChunk
  rw [dif_pos h.1]
  split
  next e he =>
    rw [hxs] at he
    cases he
  next values hvalues => exact ⟨_, rfl⟩

/-- Within the limits of the hardware there is nothing to refuse. -/
theorem limitChunk_ok (config : NodeConfig) (c : Chunk) : (∃ c', limitChunk config.executor.limits c = .ok c') ∨
    config.output = none ∧ limitChunk config.executor.limits c = .error "action exceeds coarse dry-run bound" := by
  unfold limitChunk NodeConfig.executor
  cases config.output with
  | none =>
    simp only [Option.map_none]
    split
    · exact Or.inr ⟨trivial, rfl⟩
    · exact Or.inl ⟨_, rfl⟩
  | some motors =>
    simp only [Option.map_some]
    rw [dif_pos (by rw [MotorConfig.limits, List.length_map, motors.limits_length])]
    exact Or.inl ⟨_, rfl⟩

variable {clock : ℚ} {as : List (SystemStep S)}

theorem ready_run (hrun : (journaledDex3 config timeout policy).run ({ clock }, {}) as = some (s, j)) : s.node.Ready :=
  (moves_of_run hrun).keeps (I := fun x => x.1.node.Ready) (fun _ _ hmove h => ready_move hmove h) ready_init

/-- In every run, a prediction that the node waits for is refused by the scheduler only for its age, or without an output for a target
    beyond the coarse bound: never for its session, its number, its array, its limits, or a chunk that waits already. -/
theorem awaited_accepted (hrun : (journaledDex3 config timeout policy).run ({ clock }, {}) as = some (s, j)) {session : Session} {seq : Nat}
    {stamp : ℚ} {actions : NdArray ℚ} {rest : List Event} (hevents : s.node.events = .actions session seq stamp actions :: rest)
    (hawaits : s.node.awaits (session, seq)) (age now : ℚ) :
    (¬(0 ≤ age ∧ age ≤ config.maxChunkAge) ∧
        s.node.executor.accept config.executor session seq age actions now = .error "stale observation") ∨
      0 ≤ age ∧ age ≤ config.maxChunkAge ∧ ((∃ e, s.node.executor.accept config.executor session seq age actions now = .ok e) ∨
        config.output = none ∧
          s.node.executor.accept config.executor session seq age actions now = .error "action exceeds coarse dry-run bound") := by
  have hready := ready_run hrun
  obtain ⟨hinflight, hsession, hseq⟩ := hawaits
  obtain ⟨hless, hnone⟩ := hready.waits hinflight
  have hcurrent : ¬(s.node.executor.session ≠ some session ∨ (seq : Int) ≤ s.node.executor.lastSeq) := by
    rw [not_or, not_not, not_le]
    refine ⟨hsession, ?_⟩
    have hnext : s.node.nextSeq = seq + 1 := hseq
    rw [hnext] at hless
    push_cast at hless
    omega
  unfold Executor.accept
  rw [if_neg hcurrent]
  by_cases hage : 0 ≤ age ∧ age ≤ config.maxChunkAge
  · refine Or.inr ⟨hage.1, hage.2, ?_⟩
    rw [if_neg (by rw [not_or, not_lt, not_lt]; exact hage)]
    obtain ⟨r, ⟨-, -, hencodable⟩, -⟩ := (provenance_run hrun).1.events session seq stamp actions (hevents ▸ List.mem_cons_self)
    obtain ⟨c, hread⟩ := readChunk_ok hencodable
    rw [hread]
    show (∃ e, (limitChunk config.executor.limits c >>= _) = .ok e) ∨ config.output = none ∧
      (limitChunk config.executor.limits c >>= _) = .error "action exceeds coarse dry-run bound"
    rcases limitChunk_ok config c with ⟨c', hlimited⟩ | ⟨houtput, hexceeds⟩
    · rw [hlimited]
      refine Or.inl ⟨s.node.executor.install c' seq now, if_neg ?_⟩
      rw [hnone]
      simp
    · rw [hexceeds]
      exact Or.inr ⟨houtput, rfl⟩
  · refine Or.inl ⟨hage, if_pos ?_⟩
    rw [not_and_or, not_le, not_le] at hage
    exact hage

/-- The prediction that an event brings, but for its actions. -/
def Event.answer : Event → Option (Session × Nat × ℚ)
  | .actions session seq stamp _ => some (session, seq, stamp)
  | _ => none

/-- The answer to the request of the run. -/
theorem awaited_accepted_demo : ∃ s j session seq stamp actions rest,
    (journaledDex3 demoConfig 5 rampPolicy).run ({ clock := 0 }, {}) (.image blackMessage (demoReading 0) :: demoSteps.take 17) =
        some (s, j) ∧
      s.node.events = .actions session seq stamp actions :: rest ∧ s.node.awaits (session, seq) ∧
      ((∃ e, s.node.executor.accept demoConfig.executor session seq 0 actions 0 = .ok e) ∨ demoConfig.output = none ∧
        s.node.executor.accept demoConfig.executor session seq 0 actions 0 = .error "action exceeds coarse dry-run bound") := by
  have hdemo : (demoRun (demoSteps.take 17)).map (fun x => decide (x.1.node.events.map Event.answer = [some ("a", 0, 1)] ∧
      x.1.node.inflight = true ∧ x.1.node.executor.session = some "a" ∧ x.1.node.nextSeq = 1)) = some true := by
    decide +kernel
  obtain ⟨⟨s, j⟩, hrun, hs⟩ := Option.map_eq_some_iff.mp hdemo
  obtain ⟨hevents, hawaits⟩ := of_decide_eq_true hs
  have hrun := (demoRun_eq _).trans hrun
  obtain ⟨event, rest, hevent, hfirst, hrest⟩ := List.map_eq_cons_iff.mp hevents
  cases event with
  | actions session seq stamp actions =>
    obtain ⟨rfl, rfl, rfl⟩ : session = "a" ∧ seq = 0 ∧ stamp = 1 := by simpa [Event.answer] using hfirst
    refine ⟨s, j, "a", 0, 1, actions, rest, hrun, hevent, hawaits, ?_⟩
    rcases awaited_accepted hrun hevent hawaits 0 0 with ⟨hold, -⟩ | ⟨-, -, haccepted⟩
    · exact absurd ⟨le_rfl, by decide⟩ hold
    · exact haccepted
  | _ => cases hfirst

end HumanoidLab.FluxDex3
