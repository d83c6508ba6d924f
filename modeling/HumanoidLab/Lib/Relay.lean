import Mathlib.Data.List.Basic

/-! A relay: elements are accepted one by one, wait in a queue, and are handed on one by one; on the way
    an element may be lost. Whatever is lost, what is sent is a subsequence of what was accepted, and an
    element that was accepted is sent, on its way, or lost by a step that can be named. -/

namespace Concurrency

universe u

/-- The elements of a relay, oldest first: all that were accepted, the one before the queue, the queue,
    the one after the queue, and all that were sent. -/
structure Relay (α : Type u) where
  accepted : List α := []
  pending : List α := []
  queue : List α := []
  hand : List α := []
  sent : List α := []

namespace Relay

variable {α : Type u}

/-- What was accepted and is not lost, oldest first. -/
def flow (r : Relay α) : List α := r.sent ++ r.hand ++ r.queue ++ r.pending

/-- An element is accepted by being put. -/
def submit (r : Relay α) (x : α) : Relay α := { r with accepted := r.accepted ++ [x], queue := r.queue ++ [x] }

/-- A step of a relay, with the element that it loses. -/
inductive Step : Relay α → Option α → Relay α → Prop
  | stay {r : Relay α} : Step r none r
  | accept {r : Relay α} (x : α) (h : r.pending = []) :
      Step r none { r with accepted := r.accepted ++ [x], pending := [x] }
  | put {r : Relay α} (x : α) (h : r.pending = [x]) : Step r none { r with queue := r.queue ++ [x], pending := [] }
  | refuse {r : Relay α} (x : α) (h : r.pending = [x]) : Step r (some x) { r with pending := [] }
  | pop {r : Relay α} (x : α) (xs : List α) (h : r.queue = x :: xs) : Step r (some x) { r with queue := xs }
  | take {r : Relay α} (x : α) (xs : List α) (h : r.queue = x :: xs) (hand : r.hand = []) :
      Step r none { r with queue := xs, hand := [x] }
  | discard {r : Relay α} (x : α) (h : r.hand = [x]) : Step r (some x) { r with hand := [] }
  | send {r : Relay α} (x : α) (h : r.hand = [x]) : Step r none { r with hand := [], sent := r.sent ++ [x] }

variable {r r' : Relay α} {l : Option α}

/-- The flow keeps its elements and their order, loses one, or gets the one that is accepted. -/
theorem Step.flow (h : Step r l r') :
    (r'.accepted = r.accepted ∧ (r'.flow = r.flow ∨ ∃ a x b, l = some x ∧ r.flow = a ++ x :: b ∧ r'.flow = a ++ b)) ∨
    ∃ x, r'.accepted = r.accepted ++ [x] ∧ r'.flow = r.flow ++ [x] := by
  cases h with
  | stay => exact Or.inl ⟨rfl, Or.inl rfl⟩
  | accept x h => exact Or.inr ⟨x, rfl, by simp [Relay.flow, h]⟩
  | put x h => exact Or.inl ⟨rfl, Or.inl (by simp [Relay.flow, h])⟩
  | refuse x h => exact Or.inl ⟨rfl, Or.inr ⟨r.sent ++ r.hand ++ r.queue, x, [], rfl, by simp [Relay.flow, h], by simp [Relay.flow]⟩⟩
  | pop x xs h =>
    exact Or.inl ⟨rfl, Or.inr ⟨r.sent ++ r.hand, x, xs ++ r.pending, rfl, by simp [Relay.flow, h], by simp [Relay.flow]⟩⟩
  | take x xs h hand => exact Or.inl ⟨rfl, Or.inl (by simp [Relay.flow, h, hand])⟩
  | discard x h =>
    exact Or.inl ⟨rfl, Or.inr ⟨r.sent, x, r.queue ++ r.pending, rfl, by simp [Relay.flow, h], by simp [Relay.flow]⟩⟩
  | send x h => exact Or.inl ⟨rfl, Or.inl (by simp [Relay.flow, h])⟩

/-- Nothing is reordered or sent twice. -/
theorem Step.sublist (h : Step r l r') (hr : r.flow.Sublist r.accepted) : r'.flow.Sublist r'.accepted := by
  rcases h.flow with ⟨ha, hf | ⟨a, x, b, -, hf, hf'⟩⟩ | ⟨x, ha, hf⟩
  · rw [ha, hf]; exact hr
  · rw [ha, hf']
    refine List.Sublist.trans ?_ (hf ▸ hr)
    exact (List.sublist_cons_self x b).append_left a
  · rw [ha, hf]
    exact hr.append_right [x]

theorem submit_sublist {x : α} (hp : r.pending = []) (hr : r.flow.Sublist r.accepted) :
    (r.submit x).flow.Sublist (r.submit x).accepted := by
  have hflow : (r.submit x).flow = r.flow ++ [x] := by simp [submit, flow, hp]
  rw [hflow]
  exact hr.append_right [x]

theorem Step.accepted (h : Step r l r') : r.accepted.Sublist r'.accepted := by
  rcases h.flow with ⟨ha, -⟩ | ⟨x, ha, -⟩ <;> rw [ha]
  exact List.sublist_append_left _ _

/-- Every element that was accepted is in the flow or excused, when each loss is excused and an excuse
    stays one. -/
theorem Step.account {E E' : α → Prop} (h : Step r l r') (hr : ∀ x ∈ r.accepted, x ∈ r.flow ∨ E x)
    (stays : ∀ x, E x → E' x) (lost : ∀ x, l = some x → E' x) : ∀ x ∈ r'.accepted, x ∈ r'.flow ∨ E' x := by
  intro x hx
  rcases h.flow with ⟨ha, hf | ⟨a, y, b, hl, hf, hf'⟩⟩ | ⟨y, ha, hf⟩
  · rw [hf]
    exact (hr x (ha ▸ hx)).imp_right (stays x)
  · rcases hr x (ha ▸ hx) with hx | hx
    · rw [hf] at hx
      rcases List.mem_append.mp hx with hx | hx
      · exact Or.inl (by rw [hf']; exact List.mem_append_left _ hx)
      · rcases List.mem_cons.mp hx with rfl | hx
        · exact Or.inr (lost x hl)
        · exact Or.inl (by rw [hf']; exact List.mem_append_right _ hx)
    · exact Or.inr (stays x hx)
  · rw [ha] at hx
    rw [hf]
    rcases List.mem_append.mp hx with hx | hx
    · exact (hr x hx).imp (List.mem_append_left _) (stays x)
    · exact Or.inl (List.mem_append_right _ hx)

/-- The element that was accepted last is the last of the flow. -/
def Newest (r : Relay α) : Prop := r.flow.getLast? = r.accepted.getLast?

theorem Step.newest (h : Step r none r') (hr : r.Newest) : r'.Newest := by
  unfold Newest at hr ⊢
  rcases h.flow with ⟨ha, hf | ⟨_, _, _, hl, -⟩⟩ | ⟨x, ha, hf⟩
  · rw [ha, hf, hr]
  · cases hl
  · rw [ha, hf, List.getLast?_concat, List.getLast?_concat]

theorem submit_newest {x : α} (hp : r.pending = []) : (r.submit x).Newest := by
  have hflow : (r.submit x).flow = r.flow ++ [x] := by simp [submit, flow, hp]
  unfold Newest
  rw [hflow, List.getLast?_concat]
  exact List.getLast?_concat.symm

/-- The element that is lost from the front of the queue is the newest one where nothing is behind it. -/
theorem newest_pop {x : α} {xs : List α} (hr : r.Newest) (hflow : r.flow.Nodup) (hp : r.pending = []) (hq : r.queue = x :: xs) :
    ({ r with queue := xs } : Relay α).Newest ↔ xs ≠ [] := by
  have hbefore : r.flow = (r.sent ++ r.hand) ++ x :: xs := by simp [flow, hp, hq]
  have hafter : ({ r with queue := xs } : Relay α).flow = (r.sent ++ r.hand) ++ xs := by simp [flow, hp]
  unfold Newest at hr ⊢
  rw [hafter, ← hr, hbefore]
  cases xs with
  | nil =>
    refine iff_of_false ?_ (by simp)
    intro h
    rw [hbefore] at hflow
    rw [List.append_nil, List.getLast?_concat] at h
    exact (List.nodup_append.mp hflow).2.2 x (List.mem_of_getLast? h) x (List.mem_singleton_self x) rfl
  | cons y ys =>
    refine iff_of_true ?_ (List.cons_ne_nil _ _)
    rw [List.getLast?_append_of_ne_nil _ (List.cons_ne_nil y ys), List.getLast?_append_of_ne_nil _ (List.cons_ne_nil x (y :: ys)),
      List.getLast?_cons_cons]

/-- The oldest of a queue of two has the next one and the one before the queue after it. -/
theorem two_later {x y z : α} {ys : List α} (hq : r.queue = x :: y :: ys) (hp : r.pending = [z])
    (hr : r.flow.Sublist r.accepted) : [x, y, z].Sublist r.accepted := by
  refine List.Sublist.trans ?_ hr
  have : [x, y, z].Sublist (x :: y :: ys ++ [z]) := by simp
  rw [flow, hq, hp, List.append_assoc _ (x :: y :: ys)]
  exact this.trans (List.sublist_append_right _ _)

end Relay
end Concurrency
