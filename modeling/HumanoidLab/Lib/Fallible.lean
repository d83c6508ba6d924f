import Mathlib.Data.List.Forall2
import Mathlib.Tactic.Common

/-! Programs that read and write a state and may raise, as `EStateM`: a program over a part of the state
    runs on the whole, an `Except` is a program, and a triple says what a run ends with. -/

namespace Fallible
open Std.Do

universe u v

variable {ε σ τ α β : Type}

/-! ### `Except` -/

theorem bind_ok {x : Except ε α} {f : α → Except ε β} {b : β} (h : x >>= f = .ok b) : ∃ a, x = .ok a ∧ f a = .ok b := by
  cases x with
  | error e => cases h
  | ok a => exact ⟨a, rfl, h⟩

theorem bind_error_iff {x : Except ε α} {f : α → Except ε β} {e : ε} :
    x >>= f = .error e ↔ x = .error e ∨ ∃ a, x = .ok a ∧ f a = .error e := by
  cases x with
  | error d => exact ⟨fun h => Or.inl (congrArg _ (Except.error.inj h)), fun h => by
      rcases h with h | ⟨a, h, -⟩
      · cases h; rfl
      · cases h⟩
  | ok a => exact ⟨fun h => Or.inr ⟨a, rfl, h⟩, fun h => by
      rcases h with h | ⟨b, h, hb⟩
      · cases h
      · cases h; exact hb⟩

/-- A check before the rest. -/
theorem guard_ok {c : Prop} [Decidable c] {e : ε} {x : Except ε α} {a : α} :
    (if c then .error e else x) = .ok a ↔ ¬c ∧ x = .ok a := by
  by_cases hc : c
  · rw [if_pos hc]
    exact ⟨fun h => (by cases h), fun h => absurd hc h.1⟩
  · rw [if_neg hc]
    exact ⟨fun h => ⟨hc, h⟩, fun h => h.2⟩

theorem mapError_ok {δ : Type} {f : ε → δ} {x : Except ε α} {a : α} : x.mapError f = .ok a ↔ x = .ok a := by
  cases x with
  | error e => exact ⟨fun h => (by cases h), fun h => (by cases h)⟩
  | ok b => exact ⟨fun h => congrArg Except.ok (Except.ok.inj h), fun h => congrArg Except.ok (Except.ok.inj h)⟩

theorem map_ok {f : α → β} {x : Except ε α} {b : β} (h : x.map f = .ok b) : ∃ a, x = .ok a ∧ f a = b := by
  cases x with
  | error e => cases h
  | ok a => exact ⟨a, rfl, Except.ok.inj h⟩

theorem map_ok_iff {f : α → β} {x : Except ε α} {b : β} : x.map f = .ok b ↔ ∃ a, x = .ok a ∧ f a = b := by
  refine ⟨map_ok, ?_⟩
  rintro ⟨a, rfl, rfl⟩
  rfl

/-- A map that returns returns for each element, in order. -/
theorem mapM_ok {f : α → Except ε β} {as : List α} {bs : List β} (h : as.mapM f = .ok bs) :
    List.Forall₂ (fun a b => f a = .ok b) as bs := by
  induction as generalizing bs with
  | nil =>
    cases h
    exact .nil
  | cons a as ih =>
    rw [List.mapM_cons] at h
    obtain ⟨b, hb, h⟩ := bind_ok h
    obtain ⟨bs', hbs, h⟩ := bind_ok h
    cases h
    exact .cons hb (ih hbs)

theorem mapM_ok_iff {f : α → Except ε β} {as : List α} {bs : List β} :
    as.mapM f = .ok bs ↔ List.Forall₂ (fun a b => f a = .ok b) as bs := by
  refine ⟨mapM_ok, fun h => ?_⟩
  induction h with
  | nil => rfl
  | cons hb _ ih =>
    rw [List.mapM_cons, hb, ih]
    rfl

/-- What returns the same for every element. -/
theorem mapM_same {f : α → Except ε β} {as : List α} {b : β} (h : ∀ a ∈ as, f a = .ok b) :
    as.mapM f = .ok (List.replicate as.length b) := by
  induction as with
  | nil => rfl
  | cons a as ih =>
    rw [List.mapM_cons, h a List.mem_cons_self, ih fun x hx => h x (List.mem_cons_of_mem _ hx)]
    rfl

/-- A map of a function that returns for each element returns. -/
theorem mapM_returns {f : α → Except ε β} {as : List α} (h : ∀ a ∈ as, ∃ b, f a = .ok b) : ∃ bs, as.mapM f = .ok bs := by
  induction as with
  | nil => exact ⟨[], rfl⟩
  | cons a as ih =>
    obtain ⟨b, hb⟩ := h a List.mem_cons_self
    obtain ⟨bs, hbs⟩ := ih fun x hx => h x (List.mem_cons_of_mem _ hx)
    refine ⟨b :: bs, ?_⟩
    rw [List.mapM_cons, hb, hbs]
    rfl

/-! ### `EStateM` -/

/-- A program over the part that `get` reads, on the whole state. -/
def zoom (part : σ → τ) (put : τ → σ → σ) (x : EStateM ε τ α) : EStateM ε σ α := fun s =>
  match x (part s) with
  | .ok a t => .ok a (put t s)
  | .error e t => .error e (put t s)

/-- `try: x except Exception as e`: the exception that was caught. -/
@[spec] def attempt (x : EStateM ε σ Unit) : EStateM ε σ (Option ε) :=
  tryCatch (x >>= fun _ => pure none) fun e => pure (some e)

/-- `try: x finally: f`, for a cleanup that does not raise. -/
def ensuring (f : σ → σ) (x : EStateM ε σ α) : EStateM ε σ α := fun s =>
  match x s with
  | .ok a t => .ok a (f t)
  | .error e t => .error e (f t)

/-- `if c: raise e`. -/
@[spec] def raiseIf (c : Prop) [Decidable c] (e : ε) : EStateM ε σ Unit := if c then throw e else pure ()

/-- What raises, raises; the state stays. -/
@[spec] def lift : Except ε α → EStateM ε σ α
  | .ok a => pure a
  | .error e => throw e

/-- The state that a run leaves, whether it returns or raises. -/
def after (x : EStateM ε σ α) (s : σ) : σ :=
  match x.run s with
  | .ok _ t => t
  | .error _ t => t

theorem after_of_triple {P Q : σ → Prop} {x : EStateM ε σ α} {s : σ}
    (hx : ⦃fun s => ⌜P s⌝⦄ x ⦃post⟨fun _ t => ⌜Q t⌝, fun _ t => ⌜Q t⌝⟩⦄) (hs : P s) : Q (after x s) := by
  have h := Triple.iff.mp hx s hs
  simp only [wp, PredTrans.apply] at h
  unfold after
  split <;> simp_all

theorem ok_of_triple {P : σ → Prop} {Q : α → σ → Prop} {E : ε → σ → Prop} {x : EStateM ε σ α} {s t : σ} {a : α}
    (hx : ⦃fun s => ⌜P s⌝⦄ x ⦃post⟨fun a t => ⌜Q a t⌝, fun e t => ⌜E e t⌝⟩⦄) (hs : P s)
    (hr : x.run s = .ok a t) : Q a t := by
  have h := Triple.iff.mp hx s hs
  simp only [wp, PredTrans.apply, hr] at h
  exact h

theorem error_of_triple {P : σ → Prop} {Q : α → σ → Prop} {E : ε → σ → Prop} {x : EStateM ε σ α} {s t : σ} {e : ε}
    (hx : ⦃fun s => ⌜P s⌝⦄ x ⦃post⟨fun a t => ⌜Q a t⌝, fun e t => ⌜E e t⌝⟩⦄) (hs : P s)
    (hr : x.run s = .error e t) : E e t := by
  have h := Triple.iff.mp hx s hs
  simp only [wp, PredTrans.apply, hr] at h
  exact h

@[spec] theorem zoom_spec {part : σ → τ} {put : τ → σ → σ} {x : EStateM ε τ α}
    {Q : PostCond α (.except ε (.arg σ .pure))} :
    Triple (zoom part put x)
      (fun s => wp⟦x⟧ (fun a t => Q.1 a (put t s), fun e t => Q.2.1 e (put t s), ()) (part s)) Q := by
  rw [Triple.iff]
  intro s
  simp only [zoom, wp, EStateM.run, PredTrans.apply]
  cases x (part s) <;> simp

/-- A triple about a part, with what does not depend on the part. -/
theorem zoom_frame {part : σ → τ} {put : τ → σ → σ} {x : EStateM ε τ α} {P : τ → Prop} {Q : α → τ → Prop}
    {E : ε → τ → Prop} {R : σ → Prop} (hpart : ∀ s t, part (put t s) = t) (hR : ∀ s t, R s → R (put t s))
    (hx : ⦃fun t => ⌜P t⌝⦄ x ⦃post⟨fun a t => ⌜Q a t⌝, fun e t => ⌜E e t⌝⟩⦄) :
    ⦃fun s => ⌜R s ∧ P (part s)⌝⦄ zoom part put x
    ⦃post⟨fun a s => ⌜R s ∧ Q a (part s)⌝, fun e s => ⌜R s ∧ E e (part s)⌝⟩⦄ := by
  rw [Triple.iff] at hx ⊢
  intro s hs
  have h := hx (part s) hs.2
  simp only [wp, EStateM.run, PredTrans.apply, zoom] at h ⊢
  cases hr : x (part s) <;> simp_all

/-- A program over a part keeps what does not depend on the part. -/
theorem zoom_other {part : σ → τ} {put : τ → σ → σ} (x : EStateM ε τ α) {R : σ → Prop} (hR : ∀ s t, R s → R (put t s)) :
    ⦃fun s => ⌜R s⌝⦄ zoom part put x ⦃post⟨fun _ s => ⌜R s⌝, fun _ s => ⌜R s⌝⟩⦄ := by
  rw [Triple.iff]
  intro s hs
  simp only [wp, EStateM.run, PredTrans.apply, zoom]
  cases x (part s) <;> exact hR _ _ hs

theorem ensuring_run (f : σ → σ) (x : EStateM ε σ α) (s : σ) : (ensuring f x).run s =
    match x.run s with
    | .ok a t => .ok a (f t)
    | .error e t => .error e (f t) := rfl

@[spec] theorem ensuring_spec {f : σ → σ} {x : EStateM ε σ α} {Q : PostCond α (.except ε (.arg σ .pure))} :
    Triple (ensuring f x) (fun s => wp⟦x⟧ (fun a t => Q.1 a (f t), fun e t => Q.2.1 e (f t), ()) s) Q := by
  rw [Triple.iff]
  intro s
  simp only [ensuring, wp, EStateM.run, PredTrans.apply]
  cases x s <;> simp

/-! ### A program and its part -/

/-- On the part, `x` does what `y` does; of an exception this is said when it meets `P`. -/
def Mirrors (part : σ → τ) (P : ε → Prop) (x : EStateM ε σ α) (y : EStateM ε τ α) : Prop := ∀ s,
  match x.run s with
  | .ok a t => y.run (part s) = .ok a (part t)
  | .error e t => P e → y.run (part s) = .error e (part t)

section
variable {part : σ → τ} {P : ε → Prop} {x : EStateM ε σ α} {y : EStateM ε τ α}

theorem Mirrors.ok (h : Mirrors part P x y) {s t : σ} {a : α} (hr : x.run s = .ok a t) : y.run (part s) = .ok a (part t) := by
  have := h s
  rw [hr] at this
  exact this

theorem Mirrors.error (h : Mirrors part P x y) {s t : σ} {e : ε} (hr : x.run s = .error e t) (he : P e) :
    y.run (part s) = .error e (part t) := by
  have := h s
  rw [hr] at this
  exact this he

theorem Mirrors.pure (a : α) : Mirrors part P (pure a : EStateM ε σ α) (pure a) := fun _ => rfl

theorem Mirrors.lift (x : Except ε α) : Mirrors part P (lift x) (lift x) := by
  intro s
  cases x with
  | ok a => exact rfl
  | error e => exact fun _ => rfl

/-- A step before `x` that leaves the part alone. -/
theorem Mirrors.silent {f : σ → σ} (hf : ∀ s, part (f s) = part s) (h : Mirrors part P x y) :
    Mirrors part P (modify f >>= fun _ => x) y := by
  intro s
  have := h (f s)
  rw [hf] at this
  exact this

theorem Mirrors.zoom {put : τ → σ → σ} (hput : ∀ t s, part (put t s) = t) (y : EStateM ε τ α) :
    Mirrors part P (Fallible.zoom part put y) y := by
  intro s
  simp only [Fallible.zoom, EStateM.run]
  cases h : y (part s) with
  | ok a t => exact (congrArg _ (hput t s)).symm
  | error e t => exact fun _ => (congrArg _ (hput t s)).symm

theorem Mirrors.bind {f : α → EStateM ε σ β} {g : α → EStateM ε τ β} (h : Mirrors part P x y)
    (hf : ∀ a, Mirrors part P (f a) (g a)) : Mirrors part P (x >>= f) (y >>= g) := by
  intro s
  have hx := h s
  simp only [EStateM.run, Bind.bind, EStateM.bind] at hx ⊢
  cases hr : x s with
  | ok a t =>
    rw [hr] at hx
    rw [show y (part s) = _ from hx]
    exact hf a t
  | error e t =>
    rw [hr] at hx
    intro he
    rw [show y (part s) = _ from hx he]

/-- What comes after `x` and leaves the part alone. -/
theorem Mirrors.andThen {x z : EStateM ε σ Unit} {y : EStateM ε τ Unit} (h : Mirrors part P x y)
    (hz : Mirrors part P z (Pure.pure ())) : Mirrors part P (x >>= fun _ => z) y := by
  have := h.bind fun _ => hz
  rwa [bind_pure_unit] at this

theorem Mirrors.get {f : σ → EStateM ε σ α} {g : τ → EStateM ε τ α} (hf : ∀ s, Mirrors part P (f s) (g (part s))) :
    Mirrors part P (MonadState.get >>= f) (MonadState.get >>= g) := fun s => hf s s

/-- A handler that catches only what meets `P`. -/
theorem Mirrors.catching {f : ε → EStateM ε σ α} {g : ε → EStateM ε τ α} (h : Mirrors part P x y)
    (hf : ∀ e, P e → Mirrors part P (f e) (g e)) (hraise : ∀ e, ¬P e → f e = throw e) :
    Mirrors part P (tryCatch x f) (tryCatch y g) := by
  intro s
  have hx := h s
  simp only [EStateM.run, tryCatch, tryCatchThe, MonadExceptOf.tryCatch, EStateM.tryCatch] at hx ⊢
  cases hr : x s with
  | ok a t =>
    rw [hr] at hx
    rw [show y (part s) = _ from hx]
  | error e t =>
    rw [hr] at hx
    by_cases he : P e
    · rw [show y (part s) = _ from hx he]
      exact hf e he t
    · simp only [hraise e he]
      exact fun he' => absurd he' he

end

end Fallible
