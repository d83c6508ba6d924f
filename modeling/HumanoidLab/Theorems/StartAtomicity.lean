import HumanoidLab.Bridge.Controller

/-! A `start` that raises. Its checks come before the gate is opened, the refusal of the session apart: the gate that was
    opened for a session that refuses stays open. -/

namespace HumanoidLab
open Fallible Std.Do

set_option mvcgen.warning false

/-- `Session.start` as a call: a session that starts or runs stays as it is, one in ERROR refuses, and another one returns as
    it is after the wait. -/
def Session.start (s : Session) (waited : Session) : Except Exn Session :=
  if s.starting = true ∨ s.state = .running then .ok s
  else if s.state = .error then .error ⟨"SessionError", "session is in ERROR; Reset before Start"⟩
  else .ok waited

theorem Session.start_error {s waited : Session} {e : Exn} (h : s.start waited = .error e) :
    s.starting = false ∧ s.state = .error := by
  unfold Session.start at h
  split at h
  · cases h
  · rename_i hidle
    split at h
    · exact ⟨by simpa using mt Or.inl hidle, ‹_›⟩
    · cases h

namespace System

variable {w t : System} {o : Start} {e : Exn}

/-- The gate is closed or as it was, and so are the state and the error of the controller. -/
structure Untouched (w t : System) : Prop where
  gate : t.router.gate = false ∨ t.router.gate = w.router.gate
  state : t.controller.state = w.controller.state
  error : t.controller.error = w.controller.error

/-- The start of a PSI model comes to the session with the gate open, and the session refuses. -/
structure Refused (w : System) (o : Start) : Prop where
  kind : w.controller.selected.kind = .psi
  free : w.controller.switching = false
  state : w.controller.state ≠ .error
  pose : o.pose = none
  opened : w.router.closed = false
  session : ∃ e, o.session = .error e

theorem opened_of_resume {r r' : RouterCore} (h : r.resume = .ok r') : r.closed = false := by
  unfold RouterCore.resume at h
  split at h
  · cases h
  · simpa using ‹¬r.closed = true›

/-- A start that raises leaves the controller alone, and the gate is open only when the session has refused. -/
theorem start_raised (h : (start o).run w = .error e t) : t.controller = w.controller ∧
    (t.router.gate = w.router.gate ∨ t.router.gate = false ∨ w.Refused o) := by
  have hspec : ⦃fun u => ⌜u = w⌝⦄ start o ⦃post⟨fun _ _ => ⌜True⌝, fun _ t => ⌜t.controller = w.controller ∧
      (t.router.gate = w.router.gate ∨ t.router.gate = false ∨ w.Refused o)⌝⟩⦄ := by
    mvcgen [start, startPsi, startGroot, sendKey, onGroot, lift]
    case vc1 hs _ =>
      subst hs
      exact ⟨rfl, Or.inl rfl⟩
    case vc2 hs _ _ =>
      subst hs
      exact ⟨rfl, Or.inl rfl⟩
    case vc3 hs hfree hstate _ hkind _ _ hpose _ hresume _ _ hsession =>
      subst hs
      have hopened := opened_of_resume hresume
      refine ⟨rfl, Or.inr (Or.inr ⟨hkind, by simpa using hfree, hstate, ?_, hopened, _, hsession⟩)⟩
      cases hp : o.pose with
      | none => rfl
      | some x => simp [hp] at hpose
    case vc4 hs _ _ _ _ _ _ _ _ _ =>
      subst hs
      exact ⟨rfl, Or.inr (Or.inl rfl)⟩
    case vc5 hs _ _ _ _ _ _ _ =>
      subst hs
      exact ⟨rfl, Or.inr (Or.inl rfl)⟩
    case vc6 hs _ _ _ _ _ =>
      subst hs
      exact ⟨rfl, Or.inl rfl⟩
    case vc7 hs _ _ _ _ _ _ _ _ =>
      subst hs
      exact ⟨rfl, Or.inr (Or.inl rfl)⟩
  have hraised := error_of_triple (P := fun u => u = w) (Q := fun _ _ => True) (E := fun _ t => t.controller = w.controller ∧
    (t.router.gate = w.router.gate ∨ t.router.gate = false ∨ w.Refused o)) hspec rfl h
  exact hraised

/-- A session that refuses leaves the gate open. -/
theorem start_refused (h : w.Refused o) : ∃ e t, (start o).run w = .error e t ∧ t.router.gate = true := by
  obtain ⟨e, he⟩ := h.session
  refine ⟨e, (w.setRouter (w.router.select .psi)).setRouter { w.router.select .psi with gate := true }, ?_, rfl⟩
  simp [start, startPsi, raiseIf, onRouter, resume, lift, h.free, h.state, h.kind, h.pose, he, RouterCore.resume,
    RouterCore.select, h.opened]
  rfl

/-- A start that raises leaves the gate closed or as it was, and the state and the error of the controller as they were,
    exactly when it does not come to a session in ERROR with a gate that was closed before. -/
theorem start_atomic (w : System) (pose : Option Exn) (waited : Session) :
    (∀ e t, (start ⟨pose, w.session.start waited⟩).run w = .error e t → Untouched w t) ↔
      ¬(w.controller.selected.kind = .psi ∧ w.controller.switching = false ∧ w.controller.state ≠ .error ∧ pose = none ∧
        w.router.closed = false ∧ w.router.gate = false ∧ w.session.starting = false ∧ w.session.state = .error) := by
  constructor
  · rintro hall ⟨hkind, hfree, hstate, hpose, hopened, hgate, hstarting, hsession⟩
    have hrefuses : w.session.start waited = .error ⟨"SessionError", "session is in ERROR; Reset before Start"⟩ := by
      simp [Session.start, hstarting, hsession]
    obtain ⟨e, t, ht, hopen⟩ := start_refused (o := ⟨pose, _⟩) ⟨hkind, hfree, hstate, hpose, hopened, _, hrefuses⟩
    rcases (hall e t ht).gate with hclosed | hsame
    · cases hopen.symm.trans hclosed
    · cases hopen.symm.trans (hsame.trans hgate)
  · intro hno e t ht
    obtain ⟨hcontroller, hgate⟩ := start_raised ht
    refine ⟨?_, by rw [hcontroller], by rw [hcontroller]⟩
    rcases hgate with hsame | hclosed | hrefused
    · exact Or.inr hsame
    · exact Or.inl hclosed
    · obtain ⟨e', he⟩ := hrefused.session
      obtain ⟨hstarting, hsession⟩ := Session.start_error he
      cases hgate : w.router.gate with
      | false =>
        exact absurd ⟨hrefused.kind, hrefused.free, hrefused.state, hrefused.pose, hrefused.opened, hgate, hstarting, hsession⟩ hno
      | true =>
        cases hopen : t.router.gate with
        | false => exact Or.inl rfl
        | true => exact Or.inr rfl

/-- The session has failed while it streamed, and the operator has pressed Stop. -/
def dropped : System :=
  { bridge with
    session := { bridge.session with state := .error, error := some "connection lost" }
    controller := { bridge.controller with state := .stopped } }

theorem start_left_open : ¬∀ (w : System) (pose : Option Exn) (waited : Session) (e : Exn) (t : System),
    (start ⟨pose, w.session.start waited⟩).run w = .error e t → Untouched w t := by
  intro hclaim
  have hrefused : dropped.Refused ⟨none, dropped.session.start {}⟩ := ⟨rfl, rfl, by decide, rfl, rfl, _, rfl⟩
  obtain ⟨e, t, ht, hopen⟩ := start_refused hrefused
  rcases (hclaim dropped none {} e t ht).gate with hclosed | hsame
  · cases hopen.symm.trans hclosed
  · cases hopen.symm.trans hsame

end System
end HumanoidLab
