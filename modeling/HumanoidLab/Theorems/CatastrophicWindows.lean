import HumanoidLab.Datasets.Fidelity

/-! The windows of the bad frames. The scan keeps what it knows of the frames behind it: that the open run is all bad and could not
    have started earlier, or that the last frame is not bad. -/

namespace HumanoidLab.Sonic

variable {K : Type} [Arithmetic K]

/-- The windows of a mask: its maximal runs of bad frames, in order. -/
structure MaximalRuns (bad : List Bool) (windows : List (BadWindow K)) : Prop where
  /-- A window says how long it is. -/
  length : ∀ w ∈ windows, w.startFrame ≤ w.endFrame ∧ w.frames = w.endFrame - w.startFrame + 1 ∧
    w.durationS = Arithmetic.ofRat (w.frames : ℚ) / Arithmetic.ofRat 50
  /-- They are in order, with a frame between two of them. -/
  apart : windows.Pairwise fun a b => a.endFrame + 1 < b.startFrame
  /-- A frame is bad where it is in one of them. -/
  union : ∀ i, bad[i]? = some true ↔ ∃ w ∈ windows, w.startFrame ≤ i ∧ i ≤ w.endFrame
  /-- Beside a window there is the end of the mask or a frame that is not bad. -/
  left : ∀ w ∈ windows, w.startFrame = 0 ∨ bad[w.startFrame - 1]? = some false
  right : ∀ w ∈ windows, w.endFrame + 1 = bad.length ∨ bad[w.endFrame + 1]? = some false

/-- What the scan knows at a frame of the frames behind it. -/
def Behind (all : List Bool) (index : Nat) : Option Nat → Prop
  | none => index = 0 ∨ all[index - 1]? = some false
  | some start => start < index ∧ (∀ i, start ≤ i → i < index → all[i]? = some true) ∧ (start = 0 ∨ all[start - 1]? = some false)

/-- The windows that the scan is still to find, from the open run on. -/
structure RunsFrom (all : List Bool) (first : Nat) (windows : List (BadWindow K)) : Prop where
  length : ∀ w ∈ windows, w.startFrame ≤ w.endFrame ∧ w.frames = w.endFrame - w.startFrame + 1 ∧
    w.durationS = Arithmetic.ofRat (w.frames : ℚ) / Arithmetic.ofRat 50
  from_ : ∀ w ∈ windows, first ≤ w.startFrame
  apart : windows.Pairwise fun a b => a.endFrame + 1 < b.startFrame
  union : ∀ i, first ≤ i → (all[i]? = some true ↔ ∃ w ∈ windows, w.startFrame ≤ i ∧ i ≤ w.endFrame)
  left : ∀ w ∈ windows, w.startFrame = 0 ∨ all[w.startFrame - 1]? = some false
  right : ∀ w ∈ windows, all[w.endFrame + 1]? = some false

variable {all : List Bool} {index start : Nat} {rest : List Bool} {windows : List (BadWindow K)}

/-- A run is closed by the frame behind it. -/
theorem RunsFrom.close (h : RunsFrom all (index + 1) windows) (hrun : Behind all index (some start)) (hend : all[index]? = some false) :
    RunsFrom all start (.closed start index :: windows) := by
  obtain ⟨hlt, hbad, hleft⟩ := hrun
  have hlast : (BadWindow.closed start index : BadWindow K).endFrame + 1 = index := Nat.sub_add_cancel (Nat.one_le_of_lt hlt)
  refine ⟨?_, ?_, ?_, ?_, ?_, ?_⟩
  · intro w hw
    rcases List.mem_cons.mp hw with rfl | hw
    · exact ⟨Nat.le_sub_one_of_lt hlt, show index - start = index - 1 - start + 1 by omega, rfl⟩
    · exact h.length w hw
  · intro w hw
    rcases List.mem_cons.mp hw with rfl | hw
    · exact Nat.le_refl _
    · exact hlt.le.trans (Nat.le_of_succ_le (h.from_ w hw))
  · refine List.pairwise_cons.mpr ⟨fun w hw => ?_, h.apart⟩
    rw [hlast]
    exact h.from_ w hw
  · intro i hi
    rw [List.exists_mem_cons_iff]
    rcases Nat.lt_trichotomy i index with hlow | rfl | hhigh
    · exact iff_of_true (hbad i hi hlow) (Or.inl ⟨hi, Nat.le_sub_one_of_lt hlow⟩)
    · refine iff_of_false (by rw [hend]; simp) ?_
      rintro (⟨-, hle⟩ | ⟨w, hw, hle, -⟩)
      · exact absurd hle (Nat.not_le_of_lt (Nat.sub_one_lt_of_lt hlt))
      · exact absurd (h.from_ w hw) (Nat.not_le_of_lt (Nat.lt_succ_of_le hle))
    · rw [h.union i hhigh]
      refine (or_iff_right ?_).symm
      rintro ⟨-, hle⟩
      have hle : i ≤ index - 1 := hle
      omega
  · intro w hw
    rcases List.mem_cons.mp hw with rfl | hw
    · exact hleft
    · exact h.left w hw
  · intro w hw
    rcases List.mem_cons.mp hw with rfl | hw
    · rw [hlast]
      exact hend
    · exact h.right w hw

/-- A frame that is not bad opens nothing. -/
theorem RunsFrom.skip (h : RunsFrom all (index + 1) windows) (hfree : all[index]? = some false) : RunsFrom all index windows := by
  refine ⟨h.length, fun w hw => Nat.le_of_succ_le (h.from_ w hw), h.apart, ?_, h.left, h.right⟩
  intro i hi
  rcases Nat.eq_or_lt_of_le hi with rfl | hlt
  · refine iff_of_false (by rw [hfree]; simp) ?_
    rintro ⟨w, hw, hle, -⟩
    exact absurd (h.from_ w hw) (Nat.not_le_of_lt (Nat.lt_succ_of_le hle))
  · exact h.union i hlt

/-- The windows that the scan finds in the frames left, where the last frame is not bad. By induction on the frames left, with what is
    known of those behind; the first open run cannot be left open, because its last frame is bad. -/
theorem scanWindows_runsFrom (hlast : all.getLast? = some false) :
    ∀ (rest : List Bool) (index : Nat) (start : Option Nat), all.drop index = rest → index ≤ all.length → Behind all index start →
      RunsFrom all (start.getD index) (scanWindows (K := K) index start rest) := by
  intro rest
  induction rest with
  | nil =>
    intro index start hdrop hle hbehind
    have hlength : index = all.length := hle.antisymm (List.drop_eq_nil_iff.mp hdrop)
    rcases start with _ | start
    · refine ⟨by simp [scanWindows], by simp [scanWindows], by simp [scanWindows], ?_, by simp [scanWindows], by simp [scanWindows]⟩
      intro i hi
      refine iff_of_false ?_ (by simp [scanWindows])
      rw [List.getElem?_eq_none (hlength ▸ hi)]
      simp
    · -- The open run would go on to the last frame.
      obtain ⟨hlt, hbad, -⟩ := hbehind
      have hbad := hbad (index - 1) (Nat.le_sub_one_of_lt hlt) (Nat.sub_one_lt_of_lt hlt)
      rw [hlength, ← List.getLast?_eq_getElem?, hlast] at hbad
      cases hbad
  | cons value rest ih =>
    intro index start hdrop hle hbehind
    have hlt : index < all.length := by
      by_contra hge
      rw [List.drop_eq_nil_of_le (Nat.le_of_not_lt hge)] at hdrop
      cases hdrop
    have hvalue : all[index]? = some value := by
      rw [← List.head?_drop, hdrop, List.head?_cons]
    have hrest : all.drop (index + 1) = rest := by
      rw [← List.tail_drop, hdrop, List.tail_cons]
    cases value <;> rcases start with _ | start
    · exact (ih (index + 1) none hrest hlt (Or.inr hvalue)).skip hvalue
    · exact (ih (index + 1) none hrest hlt (Or.inr hvalue)).close hbehind hvalue
    · have hopen : Behind all (index + 1) (some index) := by
        refine ⟨Nat.lt_succ_self index, fun i hlow hhigh => ?_, hbehind⟩
        obtain rfl : i = index := Nat.le_antisymm (Nat.le_of_lt_succ hhigh) hlow
        exact hvalue
      exact ih (index + 1) (some index) hrest hlt hopen
    · obtain ⟨hopen, hbad, hleft⟩ := hbehind
      have hopen : Behind all (index + 1) (some start) := by
        refine ⟨Nat.lt_succ_of_lt hopen, fun i hlow hhigh => ?_, hleft⟩
        rcases Nat.eq_or_lt_of_le (Nat.le_of_lt_succ hhigh) with rfl | hhigh
        · exact hvalue
        · exact hbad i hlow hhigh
      exact ih (index + 1) (some start) hrest hlt hopen

/-- The scan of a mask, with the frame that it adds at the end, finds its maximal runs. -/
theorem badWindows_maximalRuns (bad : List Bool) : MaximalRuns bad (badWindows (K := K) bad) := by
  have hruns : RunsFrom (bad ++ [false]) 0 (badWindows (K := K) bad) :=
    scanWindows_runsFrom (by simp) (bad ++ [false]) 0 none rfl (Nat.zero_le _) (Or.inl rfl)
  have hinside : ∀ i : Nat, i < bad.length → (bad ++ [false])[i]? = bad[i]? := fun i hi => List.getElem?_append_left hi
  have hbad : ∀ i : Nat, (bad ++ [false])[i]? = some true ↔ bad[i]? = some true := by
    intro i
    rcases Nat.lt_trichotomy i bad.length with hi | rfl | hi
    · rw [hinside i hi]
    · simp
    · rw [List.getElem?_eq_none (by simpa using hi), List.getElem?_eq_none hi.le]
  -- The frames of a window are frames of the mask.
  have hend : ∀ w ∈ badWindows (K := K) bad, w.endFrame < bad.length := by
    intro w hw
    have hlast := (hruns.union w.endFrame (Nat.zero_le _)).mpr ⟨w, hw, (hruns.length w hw).1, Nat.le_refl _⟩
    exact (List.getElem?_eq_some_iff.mp ((hbad w.endFrame).mp hlast)).1
  refine ⟨hruns.length, hruns.apart, fun i : Nat => (hbad i).symm.trans (hruns.union i (Nat.zero_le i)), ?_, ?_⟩
  · intro w hw
    refine (hruns.left w hw).imp_right fun hfree => ?_
    have hstart : w.startFrame - 1 < bad.length := (Nat.sub_le _ _).trans_lt ((hruns.length w hw).1.trans_lt (hend w hw))
    rwa [hinside _ hstart] at hfree
  · intro w hw
    rcases Nat.eq_or_lt_of_le (hend w hw) with hlast | hlast
    · exact Or.inl hlast
    · have hfree := hruns.right w hw
      rw [hinside _ hlast] at hfree
      exact Or.inr hfree

/-- The windows of a mask are its maximal runs of bad frames, for every mask and so for that of two motions. -/
theorem catastrophic_windows : (∀ bad : List Bool, MaximalRuns bad (badWindows (K := K) bad)) ∧
    ∀ (reference response : List (List K)) (thresholdRad : K), MaximalRuns (badFrames reference response thresholdRad)
      (catastrophicWindows reference response thresholdRad).windows :=
  ⟨badWindows_maximalRuns, fun reference response thresholdRad => badWindows_maximalRuns (badFrames reference response thresholdRad)⟩

example : (badWindows (K := K) [true, true, false, true, false, false, true]).map (fun w => (w.startFrame, w.endFrame, w.frames)) =
    [(0, 1, 2), (3, 3, 1), (6, 6, 1)] :=
  rfl

end HumanoidLab.Sonic
