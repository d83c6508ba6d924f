import HumanoidLab.Lib.Pool

/-! A mutex that is not reentrant. A thread stands at a point between critical sections, waits to enter
    a section, or is inside one. A section ends by releasing the mutex, or it nests: it goes on to
    acquire the mutex it still holds, and then the thread waits for itself. -/

namespace Concurrency

universe u v w x

/-- Where a thread stands: at a point `P`, waiting to enter a section `C`, or inside it. -/
inductive Place (P : Type v) (C : Type w)
  | at (p : P)
  | want (c : C)
  | inside (c : C)
  deriving DecidableEq, Repr

/-- Where a thread goes next. -/
inductive Next (P : Type v) (C : Type w)
  | goto (p : P)
  | enter (c : C)
  deriving DecidableEq, Repr

/-- How a section ends: the mutex is released, or another section is entered with it still held. -/
inductive Exit (P : Type v) (C : Type w)
  | release (n : Next P C)
  | nest (c : C)
  deriving DecidableEq, Repr

/-- Data with the owner of the mutex that guards them. -/
structure Guarded (σ : Type u) where
  owner : Option Nat
  data : σ
  deriving DecidableEq, Repr

/-- A program over guarded data: its points, whose steps take no lock, and its sections. -/
structure Locking (σ : Type u) (P : Type v) (C : Type w) (β : Type x) where
  point : Nat → P → β → σ → Option (Next P C × σ)
  body : Nat → C → σ → Exit P C × σ

variable {σ : Type u} {P : Type v} {C : Type w} {β : Type x}

def Next.place : Next P C → Place P C
  | goto p => .at p
  | enter c => .want c

def Exit.place : Exit P C → Place P C
  | release n => n.place
  | nest c => .want c

/-- The owner after a section of thread `i`. -/
def Exit.owner (i : Nat) : Exit P C → Option Nat
  | release _ => none
  | nest _ => some i

namespace Locking

variable (L : Locking σ P C β)

/-- The steps of a thread. Entering a section waits until no thread owns the mutex, the thread
    itself included. -/
def threads : Threads (Guarded σ) (Place P C) β := fun i place b s =>
  match place with
  | .at p => (L.point i p b s.data).map fun r => (r.1.place, { s with data := r.2 })
  | .want c => if s.owner = none then some (.inside c, { s with owner := some i }) else none
  | .inside c => some ((L.body i c s.data).1.place, ⟨(L.body i c s.data).1.owner i, (L.body i c s.data).2⟩)

/-- Thread `i` waits for the mutex that it holds itself. -/
def Reenters (p : Pool (Guarded σ) (Place P C)) (i : Nat) : Prop :=
  p.shared.owner = some i ∧ ∃ c, p.threads i = .want c

/-- A thread inside a section owns the mutex. -/
def Held (p : Pool (Guarded σ) (Place P C)) : Prop := ∀ i c, p.threads i = .inside c → p.shared.owner = some i

/-- The guard that sections release the mutex. -/
def Releases (p : Pool (Guarded σ) (Place P C)) (a : Nat × β) : Prop :=
  ∀ c, p.threads a.1 = .inside c → ∃ n, (L.body a.1 c p.shared.data).1 = .release n

variable {L} {init : Pool (Guarded σ) (Place P C) → Prop} {p q : Pool (Guarded σ) (Place P C)} {i j : Nat} {b : β}

/-- What a thread does: it moves on from a point, enters a free section, or ends the section it is in. -/
theorem threads_cases {pl : Place P C} {s : Guarded σ} {r : Place P C × Guarded σ}
    (h : L.threads i pl b s = some r) :
    (∃ p n d, pl = .at p ∧ L.point i p b s.data = some (n, d) ∧ r = (n.place, { s with data := d })) ∨
    (∃ c, pl = .want c ∧ s.owner = none ∧ r = (.inside c, { s with owner := some i })) ∨
    (∃ c e d, pl = .inside c ∧ L.body i c s.data = (e, d) ∧ r = (e.place, ⟨e.owner i, d⟩)) := by
  cases pl with
  | «at» p =>
    simp only [threads, Option.map_eq_some_iff] at h
    obtain ⟨⟨n, d⟩, hp, rfl⟩ := h
    exact Or.inl ⟨p, n, d, rfl, hp, rfl⟩
  | want c =>
    simp only [threads] at h
    split at h
    · rename_i hfree
      exact Or.inr (Or.inl ⟨c, rfl, hfree, (Option.some.inj h).symm⟩)
    · cases h
  | inside c => exact Or.inr (Or.inr ⟨c, _, _, rfl, rfl, (Option.some.inj h).symm⟩)

/-- Whatever the sections do, at most one thread is inside one, and it owns the mutex. -/
theorem held_step (hh : Held p) (hs : (L.threads.machine init).step p (i, b) = some q) : Held q := by
  obtain ⟨r, hr, rfl⟩ := Threads.step_eq_some.mp hs
  intro j c hj
  rw [Pool.set_shared]
  by_cases hji : j = i
  · subst hji
    rw [Pool.set_self] at hj
    rcases threads_cases hr with ⟨_, n, _, -, -, rfl⟩ | ⟨_, -, -, rfl⟩ | ⟨_, e, _, -, -, rfl⟩
    · cases n <;> simp [Next.place] at hj
    · rfl
    · rcases e with n | _
      · cases n <;> simp [Exit.place, Next.place] at hj
      · simp [Exit.place] at hj
  · rw [Pool.set_other p r hji] at hj
    have hown := hh j c hj
    rcases threads_cases hr with ⟨_, _, _, -, -, rfl⟩ | ⟨_, -, hfree, rfl⟩ | ⟨_, _, _, hi, -, rfl⟩
    · exact hown
    · rw [hown] at hfree; cases hfree
    · have := hh i _ hi
      rw [hown, Option.some.injEq] at this
      exact absurd this hji

theorem held_reach {G : Pool (Guarded σ) (Place P C) → Nat × β → Prop} (start : ∀ p, init p → Held p)
    (h : (L.threads.machine init).Reach G q) : Held q :=
  h.invariant start fun _ _ _ _ hh _ hs => held_step hh hs

/-- A thread that waits for itself waits forever. -/
theorem reenters_step (hh : Held p) (hr : Reenters p i) (hs : (L.threads.machine init).step p (j, b) = some q) :
    Reenters q i := by
  obtain ⟨hown, c, hc⟩ := hr
  obtain ⟨r, hr, rfl⟩ := Threads.step_eq_some.mp hs
  have hij : i ≠ j := by
    rintro rfl
    rw [hc] at hr
    simp [threads, hown] at hr
  refine ⟨?_, c, by rw [Pool.set_other p r hij]; exact hc⟩
  rw [Pool.set_shared]
  rcases threads_cases hr with ⟨_, _, _, -, -, rfl⟩ | ⟨_, -, hfree, rfl⟩ | ⟨_, _, _, hj, -, rfl⟩
  · exact hown
  · rw [hown] at hfree; cases hfree
  · have := hh j _ hj
    rw [hown, Option.some.injEq] at this
    exact absurd this hij

/-- The mutex is owned exactly by the thread inside a section. -/
def Exclusive (p : Pool (Guarded σ) (Place P C)) : Prop :=
  ∀ i, p.shared.owner = some i ↔ ∃ c, p.threads i = .inside c

theorem Exclusive.not_reenters (h : Exclusive p) : ¬Reenters p i := by
  rintro ⟨hown, c, hc⟩
  obtain ⟨c', hc'⟩ := (h i).mp hown
  rw [hc] at hc'
  cases hc'

theorem Exclusive.held (h : Exclusive p) : Held p := fun i c hi => (h i).mpr ⟨c, hi⟩

/-- A section that does not release nests, and then its thread waits for itself. -/
theorem nests {a : Nat × β} (hb : ¬L.Releases p a) (hs : (L.threads.machine init).step p a = some q) :
    ∃ i, Reenters q i := by
  obtain ⟨i, b⟩ := a
  simp only [Releases, not_forall] at hb
  obtain ⟨c, hc, hb⟩ := hb
  obtain ⟨r, hr, rfl⟩ := Threads.step_eq_some.mp hs
  rw [hc] at hr
  obtain rfl := Option.some.inj hr
  cases he : (L.body i c p.shared.data).1 with
  | release n => exact absurd ⟨n, he⟩ hb
  | nest c' => exact ⟨i, by simp [Exit.owner], c', by simp [Exit.place]⟩

/-- A step whose section releases keeps the owner and the thread inside the same. -/
theorem Exclusive.step (h : Exclusive p) (hrel : L.Releases p (i, b))
    (hs : (L.threads.machine init).step p (i, b) = some q) : Exclusive q := by
  have hheld : Held q := held_step h.held hs
  intro j
  refine ⟨fun hown => ?_, fun ⟨c, hc⟩ => hheld j c hc⟩
  obtain ⟨r, hr, rfl⟩ := Threads.step_eq_some.mp hs
  rw [Pool.set_shared] at hown
  rcases threads_cases hr with ⟨_, _, _, hi, -, rfl⟩ | ⟨c, -, -, rfl⟩ | ⟨c, e, d, hi, hb, rfl⟩
  · -- A point changes neither the owner nor who is inside.
    obtain ⟨c, hc⟩ := (h j).mp hown
    have hji : j ≠ i := by rintro rfl; rw [hi] at hc; cases hc
    exact ⟨c, by rw [Pool.set_other _ _ hji]; exact hc⟩
  · obtain rfl : i = j := by simpa using hown
    exact ⟨c, by rw [Pool.set_self]⟩
  · obtain ⟨n, hn⟩ := hrel c hi
    rw [hb] at hn
    obtain rfl : e = .release n := hn
    simp [Exit.owner] at hown

theorem exclusive_reach {G : Pool (Guarded σ) (Place P C) → Nat × β → Prop} (start : ∀ p, init p → Exclusive p)
    (hG : ∀ p a, G p a → L.Releases p a) (h : (L.threads.machine init).Reach G q) : Exclusive q :=
  h.invariant start fun _ a _ _ hx hg hs => hx.step (i := a.1) (b := a.2) (hG _ _ hg) hs

/-- A run leaves no thread waiting for itself exactly when each section it runs releases the mutex. -/
theorem run_meets_releases_iff {as : List (Nat × β)} (hx : Exclusive p)
    (hr : (L.threads.machine init).run p as = some q) :
    (L.threads.machine init).Meets L.Releases p as ↔ ∀ i, ¬Reenters q i := by
  constructor
  · intro hm i
    have hq : Exclusive q := (Machine.path_of_run hr hm).keeps hx fun t a u _ ht hc hs =>
      ht.step (i := a.1) (b := a.2) hc hs
    exact hq.not_reenters
  · intro hno
    by_contra hn
    obtain ⟨i, hi⟩ : ∃ i, Reenters q i :=
      Machine.of_not_meets (J := Held) (fun _ _ _ hh hs => held_step hh hs) (fun s a t _ hb hs => nests hb hs)
        (fun _ _ _ hh ⟨i, hi⟩ hs => ⟨i, reenters_step hh hi hs⟩) hx.held hr hn
    exact hno i hi

/-! ### Progress -/

/-- Where sections release, the owner of the mutex is about to release it. -/
theorem Exclusive.release [Inhabited β] (h : Exclusive p) (init : Pool (Guarded σ) (Place P C) → Prop)
    (hrel : ∀ a, L.Releases p a) (hown : p.shared.owner = some i) :
    ∃ q, (L.threads.machine init).step p (i, default) = some q ∧ q.shared.owner = none ∧
      ∀ j, j ≠ i → q.threads j = p.threads j := by
  obtain ⟨c, hc⟩ := (h i).mp hown
  obtain ⟨n, hn⟩ := hrel (i, default) c hc
  refine ⟨p.set i _, Threads.step_eq_some.mpr ⟨_, by rw [hc]; rfl, rfl⟩, ?_, fun j hj => Pool.set_other _ _ hj⟩
  rw [Pool.set_shared, hn]
  rfl

/-- A thread whose own steps lower a rank, and whose points are never blocked, comes to its end, unless
    a step that fails the guard comes up before. -/
theorem progress [Inhabited β] {G : Pool (Guarded σ) (Place P C) → Nat × β → Prop} (hG : ∀ p a, G p a → L.Releases p a)
    {rank : Place P C → Nat} {E : Place P C → Prop}
    (lower : ∀ i pl b s r, 0 < rank pl → L.threads i pl b s = some r → rank r.1 < rank pl ∧ (rank r.1 = 0 → E r.1))
    (enabled : ∀ i x s, 0 < rank (.at x) → ∃ b, (L.point i x b s).isSome = true) (hx : Exclusive p)
    (hi : 0 < rank (p.threads i)) :
    ∃ q, (L.threads.machine init).Path G p q ∧ (E (q.threads i) ∨ ∃ a, ¬G q a) := by
  generalize hn : rank (p.threads i) = n
  induction n using Nat.strongRecOn generalizing p with
  | ind n ih =>
    -- The thread's own step, once it is enabled.
    have own : ∀ {p : Pool (Guarded σ) (Place P C)}, Exclusive p → (∀ a, G p a) → rank (p.threads i) = n →
        (∃ b, (L.threads i (p.threads i) b p.shared).isSome = true) →
        ∃ q, (L.threads.machine init).Path G p q ∧ (E (q.threads i) ∨ ∃ a, ¬G q a) := by
      intro p hx hg hr ⟨b, hb⟩
      obtain ⟨r, hr'⟩ := Option.isSome_iff_exists.mp hb
      have hstep : (L.threads.machine init).step p (i, b) = some (p.set i r) := Threads.step_eq_some.mpr ⟨r, hr', rfl⟩
      obtain ⟨hlt, hend⟩ := lower i _ b _ r (by omega) hr'
      have hself := Pool.set_self p i r
      by_cases h0 : rank r.1 = 0
      · exact ⟨_, .step _ .refl (hg _) hstep, Or.inl (by rw [hself]; exact hend h0)⟩
      · obtain ⟨q, hq, hend⟩ := ih (rank r.1) (by omega) (hx.step (hG _ _ (hg _)) hstep) (by rw [hself]; omega) (by rw [hself])
        exact ⟨q, (Machine.Path.step _ .refl (hg _) hstep).trans hq, hend⟩
    by_cases hg : ∃ a, ¬G p a
    · exact ⟨p, .refl, Or.inr hg⟩
    rw [not_exists_not] at hg
    cases hpl : p.threads i with
    | «at» x =>
      obtain ⟨b, hb⟩ := enabled i x p.shared.data (by rw [← hpl]; exact hi)
      exact own hx hg hn ⟨b, by simpa [hpl, threads] using hb⟩
    | inside c => exact own hx hg hn ⟨default, by simp [hpl, threads]⟩
    | want c =>
      cases hown : p.shared.owner with
      | none => exact own hx hg hn ⟨default, by simp [hpl, threads, hown]⟩
      | some j =>
        -- The owner is another thread, and its section releases the mutex.
        have hij : i ≠ j := by
          rintro rfl
          exact hx.not_reenters ⟨hown, c, hpl⟩
        obtain ⟨q, hq, hfree, hsame⟩ := hx.release init (fun a => hG _ _ (hg a)) hown
        have hxq : Exclusive q := hx.step (hG _ _ (hg _)) hq
        by_cases hgq : ∃ a, ¬G q a
        · exact ⟨q, .step _ .refl (hg _) hq, Or.inr hgq⟩
        rw [not_exists_not] at hgq
        obtain ⟨u, hu, hend⟩ := own hxq hgq (by rw [hsame i hij, hn]) ⟨default, by simp [hsame i hij, hpl, threads, hfree]⟩
        exact ⟨u, (Machine.Path.step _ .refl (hg _) hq).trans hu, hend⟩

end Locking
end Concurrency
