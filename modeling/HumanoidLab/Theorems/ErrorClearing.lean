import HumanoidLab.Lib.Recording
import HumanoidLab.Theorems.BridgeCalls

/-! A reset of the model controller clears the controller's error and not the session's. A start is refused because of an error
    older than the resets before it only when a reset returns `IDLE` over a session in `ERROR`, or over a start that has still to
    adopt one. -/

namespace HumanoidLab
open Concurrency

/-! ### The record of errors -/

/-- A start that was refused for an error: how many resets had returned `IDLE` when the error was raised, and when the start began. -/
structure Refusal where
  raised : Nat
  begun : Nat
  deriving DecidableEq, Repr

/-- How many resets have returned `IDLE`, and how many had when the errors were raised that the session and the controller have
    and that the starts have read, and when the calls began. -/
structure Errors where
  clears : Nat := 0
  session : Nat := 0
  controller : Nat := 0
  copied : Nat → Nat := fun _ => 0
  begun : Nat → Nat := fun _ => 0
  refusals : List Refusal := []

namespace Bridge

variable (b : Bridge) (i : Nat)

/-- A reset reads the status that it returns, and it is `IDLE`. -/
def returnsIdle (b : Bridge) : BridgeStep → Bool
  | .go i _ => (b.caller i).call == some .reset && b.controller.state == .idle &&
    ((b.caller i).todo == [.report, .session .status] || (b.caller i).todo == [.report])
  | _ => false

/-- The session refuses a start because of its error. -/
def refuses : Bool := !b.psi.starting && b.psi.state == .error

/-- What the record keeps of a step: an error that the session or the controller raises, one that is read of the session, a reset
    that returns, a call that begins, and a start that is refused for an error of the controller or of the session. What
    `ModelController.start` refuses for another reason is not kept: a switch that runs, or a backend that does not. -/
def recordErrors (b : Bridge) (a : BridgeStep) (r : Errors) : Errors where
  clears := if b.returnsIdle a then r.clears + 1 else r.clears
  session :=
    match b.block a with
    | some (.loop g (.fail _)) => if g = b.psi.generation then r.clears else r.session
    | _ => r.session
  controller :=
    match b.taken a with
    | some (.fail _) => r.clears
    | some (.adopt _) => r.copied a.actor
    | _ => r.controller
  copied :=
    match b.block a with
    | some (.status _) => Function.update r.copied a.actor r.session
    | _ => r.copied
  begun :=
    match a with
    | .call i _ => Function.update r.begun i r.clears
    | _ => r.begun
  refusals :=
    match b.taken a, b.block a with
    | some .refuseError, _ => if b.controller.state = .error then ⟨r.controller, r.begun a.actor⟩ :: r.refusals else r.refusals
    | _, some .startCheck => if b.refuses then ⟨r.session, r.begun a.actor⟩ :: r.refusals else r.refusals
    | _, _ => r.refusals

/-- A start that has read `ERROR` of the session and not yet adopted it. -/
def holdsError : Bool :=
  match (b.caller i).todo, b.session.threads i with
  | .adopt s :: _, _ => s.state == .error
  | .session .start :: _, .at (.done _ (.status s)) => s.state == .error
  | _, _ => false

/-- A reset returns `IDLE` when neither the session nor a start has an error. -/
def ErrorsCleared (b : Bridge) (a : BridgeStep) : Prop :=
  b.returnsIdle a = true → b.psi.state ≠ .error ∧ ∀ j, b.holdsError j = false

/-- Every error was raised since the last reset that returned `IDLE`. -/
structure Fresh (b : Bridge) (r : Errors) : Prop where
  session : b.psi.state = .error → r.session = r.clears
  controller : b.controller.state = .error → r.controller = r.clears
  held : ∀ j, b.holdsError j = true → r.copied j = r.clears
  begun : ∀ j, r.begun j ≤ r.clears
  refusals : ∀ x ∈ r.refusals, x.begun ≤ x.raised

/-! ### The steps -/

variable {b b' : Bridge} {i j : Nat} {a : BridgeStep} {r : Errors}

theorem holdsError_adopt {s : SessionStatus} {rest : List Statement} (h : (b.caller i).todo = .adopt s :: rest) :
    b.holdsError i = (s.state == .error) := by simp [holdsError, h]

/-- A thread that is not about to adopt holds what a start that has returned holds. -/
theorem holdsError_cases (h : b.holdsError i = true) :
    (∃ s rest, (b.caller i).todo = .adopt s :: rest ∧ s.state = .error) ∨
    ∃ rest q s, (b.caller i).todo = .session .start :: rest ∧ b.session.threads i = .at (.done q (.status s)) ∧ s.state = .error := by
  unfold holdsError at h
  split at h
  · exact Or.inl ⟨_, _, ‹_›, by simpa using h⟩
  · exact Or.inr ⟨_, _, _, ‹_›, ‹_›, by simpa using h⟩
  · cases h

theorem change_error {pl : Place Point Section} {s s' : Session} (h : Change pl s s') (herror : s'.state = .error) :
    s.state = .error ∨ ∃ g m, pl = .inside (.loop g (.fail m)) ∧ g = s.generation := by
  cases h with
  | same same => exact Or.inl ((Session.lifecycle_eq same).1 ▸ herror)
  | accepted _ _ session =>
    subst session
    exact Or.inl herror
  | stopFinish _ _ session =>
    subst session
    simp only [Session.stopFinish] at herror
    split at herror
    · cases herror
    · exact Or.inl herror
  | adoptPolicy _ _ session =>
    subst session
    simp only [Session.adoptPolicy] at herror
    split at herror
    · cases herror
    · exact Or.inl herror
  | announce _ _ _ session =>
    subst session
    cases herror
  | fail g m at_ current _ => exact Or.inr ⟨g, m, at_, current⟩

/-- A statement of the controller sets `ERROR` where it fails or adopts it. -/
theorem own_error {s : Statement} {rest todo : List Statement} {m : Met} {k : Controller} (h : b.own s rest m = some (k, todo))
    (hk : k.state = .error) :
    (b.controller.state = .error ∧ ∀ st, s ≠ .adopt st) ∨ (∃ text, s = .fail text) ∨ ∃ st, s = .adopt st ∧ st.state = .error := by
  cases own_writes h with
  | adopt st => exact Or.inr (Or.inr ⟨st, rfl, hk⟩)
  | run | ready => cases hk
  | halt =>
    simp only [Controller.halt] at hk
    split at hk
    · exact Or.inl ⟨hk, by simp⟩
    · cases hk
  | fail text => exact Or.inr (Or.inl ⟨text, rfl⟩)
  | select e => exact Or.inl ⟨hk, by simp⟩
  | reads state _ _ adopt => exact Or.inl ⟨state ▸ hk, adopt⟩

/-- What a start holds it held before, or it has just read it of the session. -/
theorem Moves.holdsError (hb : Sound b) (h : Moves b a b') (hj : b'.holdsError j = true) :
    b.holdsError j = true ∨ b.psi.state = .error ∧ ∃ c q, a = .session j c ∧ b.session.threads j = .inside (.status q) := by
  by_cases hactor : j = a.actor
  · rcases holdsError_cases hj with ⟨s, rest, htodo, hs⟩ | ⟨rest, q, s, htodo, hplace, hs⟩
    · rcases h.todo j with hsame | hold | ⟨rest', q, s', -, hrest, hdone, hnew⟩
      · rw [hsame] at htodo
        exact Or.inl (by rw [holdsError_adopt htodo, hs]; rfl)
      · rcases hold (.adopt s) (by rw [htodo]; exact List.mem_cons_self) with htail | hplain
        · exact absurd htail (hb.adopts j s)
        · cases hplain
      · obtain ⟨rfl, rfl⟩ : s' = s ∧ rest' = rest := by simpa using hnew.symm.trans htodo
        exact Or.inl (by simp [Bridge.holdsError, hrest, hdone, hs])
    · subst hactor
      have hseated := hb.seated a.actor
      cases h with
      | session admits act =>
        simp only [BridgeStep.actor, Pool.set_self] at hplace
        rcases done_result act hplace with ⟨hpl, hread⟩ | ⟨hread, -⟩
        · obtain rfl := Result.status.inj hread
          exact Or.inr ⟨hs, _, _, rfl, hpl⟩
        · exact absurd rfl (hread s)
      | router _ _ | submits _ _ _ | callsRouter _ _ _ _ => exact Or.inl hj
      | refused at_ =>
        simp only [BridgeStep.actor, Pool.set_self] at hplace
        cases hplace
      | published _ _ _ goes =>
        simp only [BridgeStep.actor, Pool.set_self] at hplace
        subst hplace
        simp at goes
      | call free =>
        have hpl := (free_iff.mp free).2.1
        simp only [BridgeStep.actor, setCaller_session] at hplace
        rw [hpl] at hplace
        cases hplace
      | returns _ _ =>
        simp only [BridgeStep.actor, setCaller_caller, Function.update_self] at htodo
        cases htodo
      | routerReturns busy todo _ _ =>
        have hpl := hseated.idle busy (by simp [BridgeStep.actor, todo])
        simp only [BridgeStep.actor, goto_session] at hpl hplace
        rw [hpl] at hplace
        cases hplace
      | @callsSession i c q' _ _ _ _ _ act =>
        simp only [BridgeStep.actor, Pool.set_self] at hplace
        rw [(session_call act).1] at hplace
        cases q' <;> cases hplace
      | sessionReturns _ _ _ act =>
        simp only [BridgeStep.actor, goto_session, Pool.set_self] at hplace
        rw [(session_return act).1] at hplace
        cases hplace
      | own busy todo act =>
        have hpl := hseated.idle busy (by
          intro q rest htodo
          simp only [BridgeStep.actor, todo, List.cons.injEq] at htodo
          obtain ⟨rfl, -⟩ := htodo
          cases act)
        simp only [BridgeStep.actor, goto_session, setController_session] at hpl hplace
        rw [hpl] at hplace
        cases hplace
  · obtain ⟨hcaller, hplace, -⟩ := h.frame hactor
    unfold Bridge.holdsError at hj ⊢
    rw [hcaller, hplace] at hj
    exact Or.inl hj

theorem returnsIdle_state (h : b.returnsIdle a = true) : b.controller.state = .idle ∧ ∃ i m, a = .go i m ∧ b.taken a = some .report := by
  unfold returnsIdle at h
  split at h
  · simp only [Bool.and_eq_true, beq_iff_eq, Bool.or_eq_true] at h
    obtain ⟨⟨-, hstate⟩, htodo | htodo⟩ := h <;> exact ⟨hstate, _, _, rfl, by simp [taken, htodo]⟩
  · cases h

theorem recordErrors_session (b : Bridge) (a : BridgeStep) (r : Errors) :
    (b.recordErrors a r).session = r.clears ∨ (b.recordErrors a r).session = r.session := by
  unfold recordErrors
  dsimp only
  split
  · split
    · exact Or.inl rfl
    · exact Or.inr rfl
  · exact Or.inr rfl

/-- The controller comes to `ERROR` where a call fails or adopts it. -/
theorem Moves.controller_error (h : Moves b a b') (herror : b'.controller.state = .error) :
    (b.controller.state = .error ∧ ∀ s, b.taken a ≠ some (.adopt s)) ∨ (∃ text, b.taken a = some (.fail text)) ∨
      ∃ s, b.taken a = some (.adopt s) ∧ s.state = .error := by
  cases h with
  | own busy todo act =>
    rcases own_error act herror with ⟨hold, hs⟩ | ⟨text, rfl⟩ | ⟨s, rfl, hs⟩
    · exact Or.inl ⟨hold, by simpa [taken_go todo] using hs⟩
    · exact Or.inr (Or.inl ⟨text, taken_go todo⟩)
    · exact Or.inr (Or.inr ⟨s, taken_go todo, hs⟩)
  | returns busy todo => exact Or.inl ⟨herror, by simp [taken, todo]⟩
  | callsRouter busy todo _ _ | routerReturns busy todo _ _ | callsSession busy todo _ _ | sessionReturns busy todo _ _ =>
    exact Or.inl ⟨herror, by simp [taken, todo]⟩
  | _ => exact Or.inl ⟨herror, by simp [taken]⟩

theorem recordErrors_controller (r : Errors) (h : ∀ s, b.taken a ≠ some (.adopt s)) :
    (b.recordErrors a r).controller = r.clears ∨ (b.recordErrors a r).controller = r.controller := by
  unfold recordErrors
  dsimp only
  split
  · exact Or.inl rfl
  · exact absurd ‹_› (h _)
  · exact Or.inr rfl

/-- A thread that holds an error does not read the status. -/
theorem holdsError_not_status {q : Request} (hb : Sound b) (h : b.holdsError j = true) : b.session.threads j ≠ .inside (.status q) := by
  intro hpl
  rcases holdsError_cases h with ⟨s, rest, htodo, -⟩ | ⟨rest, q', s, -, hdone, -⟩
  · obtain ⟨c, rest', -, hcalling⟩ := hb.calling (j := j) (q := q) (by rw [hpl]; rfl)
    rw [htodo] at hcalling
    cases hcalling
  · rw [hpl] at hdone
    cases hdone

theorem recordErrors_copied (r : Errors) (h : ∀ q, b.session.threads j ≠ .inside (.status q)) :
    (b.recordErrors a r).copied j = r.copied j := by
  cases hblock : b.block a with
  | none => simp [recordErrors, hblock]
  | some k =>
    cases k with
    | status q =>
      obtain ⟨i, c, rfl, hpl⟩ := block_eq_some hblock
      have hij : j ≠ i := fun hij => h q (hij ▸ hpl)
      simp [recordErrors, hblock, BridgeStep.actor, hij]
    | _ => simp [recordErrors, hblock]

/-- The session comes to `ERROR` where its current streaming thread fails. -/
theorem Moves.session_error (hb : Sound b) (h : Moves b a b') (herror : b'.psi.state = .error) :
    b.psi.state = .error ∨ ∃ m, b.block a = some (.loop b.psi.generation (.fail m)) := by
  by_cases ha : ∃ i c, a = .session i c
  · obtain ⟨i, c, rfl⟩ := ha
    cases h with
    | session admits act =>
      rcases change_error (hb.change act) herror with hold | ⟨g, m, hpl, rfl⟩
      · exact Or.inl hold
      · exact Or.inr ⟨m, block_session hpl⟩
  · rw [h.psi fun i c hic => ha ⟨i, c, hic⟩] at herror
    exact Or.inl herror

theorem Fresh.step (hr : Fresh b r) (hb : Sound b) (hc : ErrorsCleared b a) (h : Moves b a b') : Fresh b' (b.recordErrors a r) := by
  by_cases hclear : b.returnsIdle a = true
  · -- No error is left that is older than the reset.
    obtain ⟨hpsi, hheld⟩ := hc hclear
    obtain ⟨hidle, i, m, rfl, htaken⟩ := returnsIdle_state hclear
    have hclears : (b.recordErrors (.go i m) r).clears = r.clears + 1 := if_pos hclear
    refine ⟨fun herror => ?_, fun herror => ?_, fun j hj => ?_, fun j => ?_, fun x hx => ?_⟩
    · rw [h.psi (by simp)] at herror
      exact absurd herror hpsi
    · rcases h.controller_error herror with ⟨hold, -⟩ | ⟨text, hfail⟩ | ⟨s, hadopt, -⟩
      · rw [hidle] at hold
        cases hold
      · rw [htaken] at hfail
        cases hfail
      · rw [htaken] at hadopt
        cases hadopt
    · rcases h.holdsError hb hj with hold | ⟨hold, -⟩
      · rw [hheld j] at hold
        cases hold
      · exact absurd hold hpsi
    · rw [hclears]
      exact Nat.le_succ_of_le (hr.begun j)
    · simp only [recordErrors, htaken, block] at hx
      exact hr.refusals x hx
  · have hclears : (b.recordErrors a r).clears = r.clears := if_neg hclear
    refine ⟨fun herror => ?_, fun herror => ?_, fun j hj => ?_, fun j => ?_, fun x hx => ?_⟩ <;> try rw [hclears]
    · rcases h.session_error hb herror with hold | ⟨m, hblock⟩
      · rcases b.recordErrors_session a r with hnew | hsame
        · exact hnew
        · rw [hsame]
          exact hr.session hold
      · simp [recordErrors, hblock]
    · rcases h.controller_error herror with ⟨hold, hadopt⟩ | ⟨text, hfail⟩ | ⟨s, hadopt, hs⟩
      · rcases recordErrors_controller r hadopt with hnew | hsame
        · exact hnew
        · rw [hsame]
          exact hr.controller hold
      · simp [recordErrors, hfail]
      · obtain ⟨i, m, rest, rfl, htodo⟩ := taken_eq_some hadopt
        have hheld : b.holdsError i = true := by rw [holdsError_adopt htodo, hs]; rfl
        simp [recordErrors, hadopt, BridgeStep.actor, hr.held i hheld]
    · rcases h.holdsError hb hj with hold | ⟨hold, c, q, rfl, hpl⟩
      · rw [recordErrors_copied r fun q => holdsError_not_status hb hold]
        exact hr.held j hold
      · simp [recordErrors, block_session hpl, BridgeStep.actor, hr.session hold]
    · simp only [recordErrors]
      split
      · simp only [Function.update_apply]
        split
        · exact Nat.le_refl _
        · exact hr.begun j
      · exact hr.begun j
    · simp only [recordErrors] at hx
      split at hx
      · split at hx
        · rcases List.mem_cons.mp hx with rfl | hx
          · exact (hr.controller ‹_›).symm ▸ hr.begun _
          · exact hr.refusals x hx
        · exact hr.refusals x hx
      · split at hx
        · rename_i hrefuses
          rcases List.mem_cons.mp hx with rfl | hx
          · have herror : b.psi.state = .error := by simpa using (Bool.and_eq_true_iff.mp hrefuses).2
            exact (hr.session herror).symm ▸ hr.begun _
          · exact hr.refusals x hx
        · exact hr.refusals x hx
      · exact hr.refusals x hx

end Bridge

/-! ### The runs -/

/-- The bridge beside the record of its errors. -/
def erringBridge : Machine (Bridge × Errors) BridgeStep := bridgeMachine.recording Bridge.recordErrors {}

namespace Bridge

theorem fresh_init {s : Bridge} (h : bridgeMachine.init s) : Fresh s {} := by
  obtain ⟨models, initialPose, warmstart, e, info, -, -, rfl⟩ := h
  refine ⟨fun herror => ?_, fun herror => ?_, fun j hj => ?_, fun j => Nat.le_refl _, fun x hx => ?_⟩
  · cases herror
  · cases herror
  · cases hj
  · cases hx

/-- In a run whose resets return `IDLE` over no error, every start that is refused for an error is refused for one raised since the
    resets that had returned when it began. -/
theorem reset_clears_errors {s t : Bridge} {r : Errors} {as : List BridgeStep} (hinit : bridgeMachine.init s)
    (hmeets : bridgeMachine.Meets ErrorsCleared s as) (hrun : erringBridge.run (s, {}) as = some (t, r)) :
    ∀ x ∈ r.refusals, x.begun ≤ x.raised := by
  have hpath : erringBridge.Path (fun s a => ErrorsCleared s.1 a) (s, {}) (t, r) :=
    Machine.path_of_run hrun (Machine.recording_meets.mpr hmeets)
  have hsound : Sound s := sound_reach (C := Machine.Free) (.init hinit)
  have hkept : Sound t ∧ Fresh t r := by
    refine hpath.keeps (I := fun s => Sound s.1 ∧ Fresh s.1 s.2) ⟨hsound, fresh_init hinit⟩ ?_
    rintro ⟨b, r⟩ a ⟨b', r'⟩ - ⟨hb, hr⟩ hc hstep
    obtain ⟨hbridge, rfl⟩ := Machine.recording_step_iff.mp hstep
    have hmoves := step_moves hbridge
    exact ⟨hb.step hmoves, hr.step hb hc hmoves⟩
  exact hkept.2.refusals

/-- A start whose streaming thread reaches no server, and one that is refused because of it. -/
def refusedOnce : List BridgeStep :=
  resetting 1 ++ starting 1 ++ opening 1 ++ unreachable 2 1 ++ started 1 ++ [.call 1 .start] ++ going 1 2

theorem reset_clears_errors_refusal : ∃ t r, erringBridge.run (twoModels, {}) refusedOnce = some (t, r) ∧
    r.refusals = [⟨1, 1⟩] ∧ ∀ x ∈ r.refusals, x.begun ≤ x.raised := by
  have hfinal : (erringBridge.run (twoModels, {}) refusedOnce).map (fun s => s.2.refusals) = some [⟨1, 1⟩] := by decide +kernel
  obtain ⟨⟨t, r⟩, hrun, hr⟩ := Option.map_eq_some_iff.mp hfinal
  have hmeets : bridgeMachine.Meets ErrorsCleared twoModels refusedOnce := by
    refine meets_among (L := [1, 2])
      (D := fun b a => b.returnsIdle a = true → b.psi.state ≠ .error ∧ ∀ j ∈ [1, 2], b.holdsError j = false)
      (fun b a hb hd hidle => ⟨(hd hidle).1, fun j => ?_⟩) (by decide +kernel) (fun j _ => ⟨rfl, rfl⟩) (by decide +kernel)
    by_cases hj : j ∈ [1, 2]
    · exact (hd hidle).2 j hj
    · simp [holdsError, hb j hj]
  exact ⟨t, r, hrun, hr, reset_clears_errors twoModels_init hmeets hrun⟩

/-- The streaming thread of a start fails, and the reset returns `IDLE`. -/
def refusedAfterReset : List BridgeStep :=
  starting 1 ++ opening 1 ++ unreachable 2 1 ++ started 1 ++ resetting 1 ++ starting 1 ++ inRouter 1 2 ++ inRouter 1 2 ++
    inRouter 1 1 ++ going 1 1 ++ inSession 1 2

/-- An error of before the reset refuses a start after it. -/
example : ¬∀ s t r as, bridgeMachine.init s → erringBridge.run (s, {}) as = some (t, r) →
    ∀ x ∈ r.refusals, x.begun ≤ x.raised := by
  intro h
  have hfinal : (erringBridge.run (twoModels, {}) refusedAfterReset).map (fun s => s.2.refusals) = some [⟨0, 1⟩] := by decide +kernel
  obtain ⟨⟨t, r⟩, hrun, hr⟩ := Option.map_eq_some_iff.mp hfinal
  have hrefused : ⟨0, 1⟩ ∈ r.refusals := by
    rw [show r.refusals = [⟨0, 1⟩] from hr]
    exact List.mem_cons_self
  exact absurd (h twoModels t r refusedAfterReset twoModels_init hrun ⟨0, 1⟩ hrefused) (by decide)

end Bridge
end HumanoidLab
