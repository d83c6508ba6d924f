import HumanoidLab.Datasets.Observation
import HumanoidLab.Lib.Fallible
import Mathlib.Data.List.GetD

/-! What a row of the encoder observation depends on: its own frame and the ten frames of its look-ahead, from which the four
    blocks of the G1 mode are filled into disjoint spans; every other slot is zero. -/

namespace HumanoidLab
open Fallible
open Psi0Dex3 (float32)

/-! ### The layout -/

namespace EncoderLayout
variable {layout : EncoderLayout} {name other : String} {s w : Nat}

/-- A slot of the input belongs to an observation. -/
def InSpan (layout : EncoderLayout) (name : String) (s : Nat) : Prop :=
  ∃ w, layout.dim name = some w ∧ layout.offset name ≤ s ∧ s < layout.offset name + w

/-- The layout without its first observation. -/
def rest {p : String × Nat} {observations : List (String × Nat)} (once : ((p :: observations).map (·.1)).Nodup) : EncoderLayout :=
  ⟨observations, (List.nodup_cons.mp once).2⟩

theorem inSpan_cons {p : String × Nat} {observations : List (String × Nat)} (once : ((p :: observations).map (·.1)).Nodup) :
    InSpan ⟨p :: observations, once⟩ name s ↔ name = p.1 ∧ s < p.2 ∨ name ≠ p.1 ∧ p.2 ≤ s ∧ (rest once).InSpan name (s - p.2) := by
  obtain ⟨n, d⟩ := p
  unfold InSpan dim offset rest
  dsimp only
  by_cases hname : name = n
  · subst hname
    rw [List.takeWhile_cons_of_neg (by simp), List.lookup_cons_self]
    simp
  · rw [List.takeWhile_cons_of_pos (by simpa using Ne.symm hname), List.lookup_cons, beq_false_of_ne hname]
    simp only [hname, false_and, ne_eq, not_false_eq_true, true_and, false_or, List.map_cons, List.sum_cons]
    constructor
    · rintro ⟨w, hw, hlow, hhigh⟩
      exact ⟨by omega, w, hw, by omega, by omega⟩
    · rintro ⟨hle, w, hw, hlow, hhigh⟩
      exact ⟨w, hw, by omega, by omega⟩

/-- Every slot belongs to exactly one observation. -/
theorem existsUnique_inSpan (hs : s < layout.totalDim) : ∃! name, layout.InSpan name s := by
  obtain ⟨observations, once⟩ := layout
  induction observations generalizing s with
  | nil => exact absurd hs (Nat.not_lt_zero s)
  | cons p observations ih =>
    simp only [inSpan_cons]
    rcases Nat.lt_or_ge s p.2 with hlt | hge
    · refine ⟨p.1, .inl ⟨rfl, hlt⟩, fun other hother => ?_⟩
      rcases hother with ⟨rfl, -⟩ | ⟨-, hle, -⟩
      · rfl
      · exact absurd hle (not_le.mpr hlt)
    · have hsum : s < p.2 + (observations.map (·.2)).sum := hs
      have hrest : s - p.2 < (rest once).totalDim := by
        show s - p.2 < (observations.map (·.2)).sum
        omega
      obtain ⟨found, hfound, hunique⟩ := ih _ hrest
      refine ⟨found, .inr ⟨?_, hge, hfound⟩, fun other hother => ?_⟩
      · obtain ⟨w, hw, -⟩ := hfound
        obtain ⟨before, after, heq, -⟩ := List.lookup_eq_some_iff.mp hw
        rintro rfl
        have hmem : (p.1, w) ∈ observations := by
          change observations = _ at heq
          rw [heq]
          exact List.mem_append_right _ List.mem_cons_self
        exact (List.nodup_cons.mp once).1 (List.mem_map_of_mem (f := (·.1)) hmem)
      · rcases hother with ⟨-, hlt⟩ | ⟨-, -, hspan⟩
        · exact absurd hge (not_le.mpr hlt)
        · exact hunique other hspan

theorem offset_add_le (h : layout.dim name = some w) : layout.offset name + w ≤ layout.totalDim := by
  obtain ⟨observations, once⟩ := layout
  induction observations with
  | nil => cases h
  | cons p observations ih =>
    obtain ⟨n, d⟩ := p
    have hsum : totalDim ⟨(n, d) :: observations, once⟩ = d + (rest once).totalDim := rfl
    have hoffset : offset ⟨(n, d) :: observations, once⟩ name = if name = n then 0 else d + (rest once).offset name := by
      unfold offset rest
      by_cases hname : name = n
      · subst hname
        simp
      · rw [List.takeWhile_cons_of_pos (by simpa using Ne.symm hname), if_neg hname]
        rfl
    rw [hsum, hoffset]
    unfold dim at h
    by_cases hname : name = n
    · subst hname
      rw [List.lookup_cons_self] at h
      rw [if_pos rfl, ← Option.some.inj h]
      omega
    · rw [List.lookup_cons, beq_false_of_ne hname] at h
      have hle : (rest once).offset name + w ≤ (rest once).totalDim := ih _ h
      rw [if_neg hname]
      omega

end EncoderLayout

/-! ### A row of the observation -/

section
variable {K : Type}

/-- A row with a block in place of its entries from an offset on. -/
def splice (offset : Nat) (block row : List K) : List K := row.take offset ++ block ++ row.drop (offset + block.length)

theorem splice_length {offset : Nat} {block row : List K} (h : offset + block.length ≤ row.length) :
    (splice offset block row).length = row.length := by
  unfold splice
  simp only [List.length_append, List.length_take, List.length_drop]
  omega

/-- Outside the block, the row is unchanged. -/
theorem splice_getElem? {offset s : Nat} {block row : List K} (h : offset + block.length ≤ row.length)
    (hs : s < offset ∨ offset + block.length ≤ s) : (splice offset block row)[s]? = row[s]? := by
  unfold splice
  rcases hs with hlt | hge
  · rw [List.append_assoc, List.getElem?_append_left (by simp; omega), List.getElem?_take_of_lt hlt]
  · rw [List.getElem?_append_right (by simp; omega), List.getElem?_drop]
    congr 1
    simp only [List.length_append, List.length_take]
    omega

/-- The blocks of an assignment, row by row. -/
theorem assign_ok {layout : EncoderLayout} {name : String} {n : Nat} {block row : Nat → List K} {out : List (List K)} :
    layout.assign name ((List.range n).map block) ((List.range n).map row) = .ok out ↔
      (∃ w, layout.dim name = some w ∧ ∀ i < n, (block i).length = w) ∧
        out = (List.range n).map fun i => splice (layout.offset name) (block i) (row i) := by
  unfold EncoderLayout.assign
  cases hdim : layout.dim name with
  | none => simp
  | some w =>
    dsimp only
    have hwidth : ((List.range n).map block).any (fun b => b.length ≠ w) = true ↔ ¬∀ i < n, (block i).length = w := by
      simp [List.any_eq_true]
    simp only [List.length_map, ne_eq, not_true_eq_false, false_or]
    by_cases hall : ∀ i < n, (block i).length = w
    · rw [if_neg (fun h => hwidth.mp h hall), List.zipWith_map, List.zipWith_self]
      have hsplice : (List.range n).map (fun i => (row i).take (layout.offset name) ++ block i ++ (row i).drop (layout.offset name + w)) =
          (List.range n).map fun i => splice (layout.offset name) (block i) (row i) := by
        refine List.map_congr_left fun i hi => ?_
        unfold splice
        rw [hall i (List.mem_range.mp hi)]
      rw [hsplice]
      simp only [Except.ok.injEq, Option.some.injEq, exists_eq_left', eq_comm (a := out)]
      exact ⟨fun h => ⟨hall, h⟩, fun h => h.2⟩
    · rw [if_pos (hwidth.mpr hall)]
      simp [hall]

end

section
variable {K : Type} [Arithmetic K]

/-- The quaternion that a policy takes as the base of a row, if it takes one. -/
def baseOf (e : CanonicalEpisode K) (base : Option (List (List K))) : OrientationPolicy → Option (List (List K))
  | .referenceRootCurrentFrame => some e.bodyQuatWxyz
  | .measuredBase => base
  | .legacyRawWorld => none

/-- The orientation of a row. -/
def orientationRow (e : CanonicalEpisode K) (policy : OrientationPolicy) (base : Option (List (List K))) (i : Nat) : List K :=
  match baseOf e base policy with
  | none => (futureRow e.timestamps.length i).flatMap fun j => worldQuaternionTo6d (Quat.ofRow (e.bodyQuatWxyz.getD j []))
  | some rows => anchorRow (Quat.ofRow (rows.getD i [])) e.bodyQuatWxyz (futureRow e.timestamps.length i)

/-- The entries of an array in the look-ahead of a row. -/
def lookAhead (array : List (List K)) (frames i : Nat) : List K :=
  ((futureRow frames i).flatMap fun j => array.getD j []).map Scalar.toFloat32

/-- The blocks that the G1 mode fills, in the order in which they are assigned. -/
def g1Blocks (e : CanonicalEpisode K) (policy : OrientationPolicy) (base : Option (List (List K))) (i : Nat) :
    List (String × List K) :=
  [("encoder_mode_4", modeBlock),
   ("motion_joint_positions_10frame_step5", lookAhead e.jointPos e.timestamps.length i),
   ("motion_joint_velocities_10frame_step5", lookAhead e.jointVel e.timestamps.length i),
   ("motion_anchor_orientation_heading_10frame_step5", orientationRow e policy base i)]

/-- Zeros with the blocks in their places. -/
def observationRow (e : CanonicalEpisode K) (policy : OrientationPolicy) (base : Option (List (List K)))
    (layout : EncoderLayout) (i : Nat) : List K :=
  (g1Blocks e policy base i).foldl (fun row b => splice (layout.offset b.1) b.2 row)
    (List.replicate encoderInputDim (Arithmetic.ofRat 0))

/-- What the builder asks of an episode, a base and a layout. -/
structure Observable (e : CanonicalEpisode K) (policy : OrientationPolicy) (base : Option (List (List K)))
    (layout : EncoderLayout) : Prop where
  valid : e.validate = .ok ()
  total : layout.totalDim = encoderInputDim
  measured : policy = .measuredBase → ∃ rows, base = some rows ∧ rows.length = e.bodyQuatWxyz.length ∧ ∀ row ∈ rows, row.length = 4
  widths : ∀ i < e.timestamps.length, ∀ b ∈ g1Blocks e policy base i, layout.dim b.1 = some b.2.length

variable {e : CanonicalEpisode K} {policy : OrientationPolicy} {base : Option (List (List K))} {layout : EncoderLayout}
  {obs : List (List K)} {clamp : List ℚ}

theorem mapIdx_range {α β : Type} (n : Nat) (f : Nat → α) (g : Nat → α → β) :
    ((List.range n).map f).mapIdx g = (List.range n).map fun i => g i (f i) := by
  refine List.ext_getElem (by simp) fun i hi hi' => ?_
  simp

theorem replicate_range {α : Type} (n : Nat) (a : α) : List.replicate n a = (List.range n).map fun _ => a := by
  refine List.ext_getElem (by simp) fun i hi hi' => ?_
  simp

theorem takeRows_range (array : List (List K)) (n : Nat) :
    (takeRows array ((List.range n).map (futureRow n))).map (·.map Scalar.toFloat32) = (List.range n).map (lookAhead array n) := by
  unfold takeRows
  rw [List.map_map, List.map_map]
  rfl

theorem orientationBlock_ok {block : List (List K)} :
    orientationBlock e.bodyQuatWxyz ((List.range e.timestamps.length).map (futureRow e.timestamps.length)) policy base = .ok block ↔
      (policy = .measuredBase → ∃ rows, base = some rows ∧ rows.length = e.bodyQuatWxyz.length ∧ ∀ row ∈ rows, row.length = 4) ∧
        block = (List.range e.timestamps.length).map (orientationRow e policy base) := by
  unfold orientationBlock orientationRow baseOf
  cases policy with
  | legacyRawWorld => simp [List.map_map, Function.comp_def, eq_comm]
  | referenceRootCurrentFrame => simp [mapIdx_range, eq_comm]
  | measuredBase =>
    cases base with
    | none => simp
    | some rows =>
      dsimp only
      rw [mapIdx_range]
      by_cases hlength : rows.length = e.bodyQuatWxyz.length
      · by_cases hwidth : ∀ row ∈ rows, row.length = 4
        · rw [if_neg (by simpa [hlength] using hwidth)]
          simpa [hlength, eq_comm] using fun _ => hwidth
        · rw [if_pos (by simpa [hlength] using hwidth)]
          simp [hwidth]
      · rw [if_pos (.inl hlength)]
        simp [hlength]

theorem futureIndices_ok {frames : Nat} {indices : List (List Nat)} {fraction : List ℚ} :
    futureIndices frames = .ok (indices, fraction) ↔
      frames ≠ 0 ∧ indices = (List.range frames).map (futureRow frames) ∧ fraction = (List.range frames).map (clampFraction frames) := by
  unfold futureIndices
  rw [guard_ok, Except.ok.injEq, Prod.mk.injEq, @eq_comm _ _ indices, @eq_comm _ _ fraction]

/-- What is built comes from an observable episode. -/
theorem observable_of_ok (h : buildG1EncoderObservation e policy base layout = .ok (obs, clamp)) : Observable e policy base layout ∧
    obs = (List.range e.timestamps.length).map (observationRow e policy base layout) ∧
    clamp = (List.range e.timestamps.length).map (fun i => float32 (clampFraction e.timestamps.length i)) ∧
    finiteRows obs = true := by
  unfold buildG1EncoderObservation at h
  obtain ⟨_, hvalid, h⟩ := bind_ok h
  obtain ⟨htotal, h⟩ := guard_ok.mp h
  obtain ⟨⟨indices, fraction⟩, hfuture, h⟩ := bind_ok h
  obtain ⟨-, rfl, rfl⟩ := futureIndices_ok.mp hfuture
  obtain ⟨mode, hmode, h⟩ := bind_ok h
  rw [replicate_range e.timestamps.length modeBlock, replicate_range e.timestamps.length (List.replicate _ _)] at hmode
  obtain ⟨⟨_, hdim₁, hall₁⟩, rfl⟩ := assign_ok.mp hmode
  obtain ⟨positions, hpositions, h⟩ := bind_ok h
  rw [takeRows_range] at hpositions
  obtain ⟨⟨_, hdim₂, hall₂⟩, rfl⟩ := assign_ok.mp hpositions
  obtain ⟨velocities, hvelocities, h⟩ := bind_ok h
  rw [takeRows_range] at hvelocities
  obtain ⟨⟨_, hdim₃, hall₃⟩, rfl⟩ := assign_ok.mp hvelocities
  obtain ⟨block, hblock, h⟩ := bind_ok h
  obtain ⟨hmeasured, rfl⟩ := orientationBlock_ok.mp hblock
  obtain ⟨output, houtput, h⟩ := bind_ok h
  obtain ⟨⟨_, hdim₄, hall₄⟩, rfl⟩ := assign_ok.mp houtput
  obtain ⟨hfinite, h⟩ := guard_ok.mp h
  obtain ⟨rfl, rfl⟩ := Prod.mk.inj (Except.ok.inj h)
  refine ⟨⟨mapError_ok.mp hvalid, not_not.mp htotal, hmeasured, fun i hi b hb => ?_⟩, rfl, ?_, by simpa using hfinite⟩
  · simp only [g1Blocks, List.mem_cons, List.not_mem_nil, or_false] at hb
    rcases hb with rfl | rfl | rfl | rfl
    · rw [hall₁ i hi, hdim₁]
    · rw [hall₂ i hi, hdim₂]
    · rw [hall₃ i hi, hdim₃]
    · rw [hall₄ i hi, hdim₄]
  · rw [List.map_map]
    rfl

theorem Observable.frames (h : Observable e policy base layout) : e.timestamps.length ≠ 0 := by
  simpa using (CanonicalEpisode.validate_ok.mp h.valid).2.1

/-- A block has the width of its span in every row, and is put there. -/
theorem Observable.assign (h : Observable e policy base layout) {name : String} {block : Nat → List K} (row : Nat → List K)
    (hblock : ∀ i < e.timestamps.length, (name, block i) ∈ g1Blocks e policy base i) :
    layout.assign name ((List.range e.timestamps.length).map block) ((List.range e.timestamps.length).map row) =
      .ok ((List.range e.timestamps.length).map fun i => splice (layout.offset name) (block i) (row i)) := by
  have hwidth : ∀ i < e.timestamps.length, layout.dim name = some (block i).length := fun i hi => h.widths i hi _ (hblock i hi)
  have hzero := hwidth 0 (Nat.pos_of_ne_zero h.frames)
  exact assign_ok.mpr ⟨⟨_, hzero, fun i hi => Option.some.inj ((hwidth i hi).symm.trans hzero)⟩, rfl⟩

/-- An observable episode is built when its rows are finite. -/
theorem Observable.build (h : Observable e policy base layout)
    (hfinite : finiteRows ((List.range e.timestamps.length).map (observationRow e policy base layout)) = true) :
    buildG1EncoderObservation e policy base layout = .ok ((List.range e.timestamps.length).map (observationRow e policy base layout),
      (List.range e.timestamps.length).map fun i => float32 (clampFraction e.timestamps.length i)) := by
  have hkept : (!finiteRows ((List.range e.timestamps.length).map (observationRow e policy base layout))) = false := by
    rw [hfinite]
    rfl
  unfold buildG1EncoderObservation
  rw [h.valid]
  simp only [Except.mapError, bind, Except.bind, h.total, ne_eq, not_true_eq_false, if_false,
    futureIndices_ok.mpr ⟨h.frames, rfl, rfl⟩, takeRows_range]
  rw [replicate_range e.timestamps.length modeBlock, replicate_range e.timestamps.length (List.replicate _ _),
    h.assign (fun _ => List.replicate _ _) fun i hi => by simp [g1Blocks]]
  dsimp only
  rw [h.assign _ fun i hi => by simp [g1Blocks]]
  dsimp only
  rw [h.assign _ fun i hi => by simp [g1Blocks], orientationBlock_ok.mpr ⟨h.measured, rfl⟩]
  dsimp only
  rw [h.assign _ fun i hi => by simp [g1Blocks]]
  dsimp only
  rw [List.map_map]
  exact if_neg (Bool.eq_false_iff.mp hkept)

/-- The observation of an episode is the row of each frame, with the fraction of its samples that are clamped. -/
theorem observation_ok : buildG1EncoderObservation e policy base layout = .ok (obs, clamp) ↔ Observable e policy base layout ∧
    obs = (List.range e.timestamps.length).map (observationRow e policy base layout) ∧
    clamp = (List.range e.timestamps.length).map (fun i => float32 (clampFraction e.timestamps.length i)) ∧
    finiteRows obs = true := by
  refine ⟨observable_of_ok, ?_⟩
  rintro ⟨hobs, rfl, rfl, hfinite⟩
  exact hobs.build hfinite

/-! ### The episode from a frame on -/

/-- The episode cut at a frame. -/
def CanonicalEpisode.cut (e : CanonicalEpisode K) (i : Nat) : CanonicalEpisode K where
  timestamps := e.timestamps.drop i
  jointPos := e.jointPos.drop i
  jointVel := e.jointVel.drop i
  bodyQuatWxyz := e.bodyQuatWxyz.drop i
  bodyPos := e.bodyPos.drop i
  leftHandJoints := e.leftHandJoints.drop i
  rightHandJoints := e.rightHandJoints.drop i

omit [Arithmetic K] in
theorem cut_length (i : Nat) : (e.cut i).timestamps.length = e.timestamps.length - i := List.length_drop

theorem finiteRows_drop {rows : List (List K)} {i : Nat} (h : finiteRows rows = true) : finiteRows (rows.drop i) = true :=
  List.all_eq_true.mpr fun row hrow => List.all_eq_true.mp h row (List.mem_of_mem_drop hrow)

omit [Arithmetic K] in
theorem hasShape_drop {rows : List (List K)} {n width i : Nat} (h : hasShape rows n width = true) :
    hasShape (rows.drop i) (n - i) width = true := by
  unfold hasShape at h ⊢
  rw [Bool.and_eq_true, decide_eq_true_eq] at h ⊢
  refine ⟨by rw [List.length_drop, h.1], List.all_eq_true.mpr fun row hrow => ?_⟩
  exact List.all_eq_true.mp h.2 row (List.mem_of_mem_drop hrow)

theorem cut_valid {i : Nat} (h : e.validate = .ok ()) (hi : i < e.timestamps.length) : (e.cut i).validate = .ok () := by
  rw [CanonicalEpisode.validate_ok] at h ⊢
  obtain ⟨hfields, -, hfinite, hincreasing⟩ := h
  refine ⟨fun f hf => ?_, ?_, ?_, ?_⟩
  · have hexpected : (e.cut i).expected = e.expected.map fun f => (f.1, f.2.1.drop i, f.2.2) := rfl
    rw [hexpected] at hf
    obtain ⟨f, hmem, rfl⟩ := List.mem_map.mp hf
    obtain ⟨hshape, hrows⟩ := hfields f hmem
    rw [cut_length]
    exact ⟨hasShape_drop hshape, finiteRows_drop hrows⟩
  · rw [← List.length_pos_iff, cut_length]
    omega
  · exact List.all_eq_true.mpr fun t ht => List.all_eq_true.mp hfinite t (List.mem_of_mem_drop ht)
  · rw [increasing_iff] at hincreasing ⊢
    exact hincreasing.drop i

theorem getD_drop {α : Type} (l : List α) (i j : Nat) (a : α) : (l.drop i).getD j a = l.getD (i + j) a := by
  rw [List.getD_eq_getElem?_getD, List.getElem?_drop, List.getD_eq_getElem?_getD]

theorem futureRow_cut {n i k : Nat} (h : i + k < n) : futureRow n (i + k) = (futureRow (n - i) k).map (i + ·) := by
  unfold futureRow
  rw [List.map_map]
  refine List.map_congr_left fun o _ => ?_
  show min (i + k + o) (n - 1) = i + min (k + o) (n - i - 1)
  omega

theorem clampCount_cut {n i k : Nat} (h : i ≤ n) : clampCount n (i + k) = clampCount (n - i) k := by
  unfold clampCount
  refine List.countP_congr fun o _ => ?_
  simp only [decide_eq_true_eq]
  omega

theorem lookAhead_cut (array : List (List K)) {n i k : Nat} (h : i + k < n) :
    lookAhead (array.drop i) (n - i) k = lookAhead array n (i + k) := by
  unfold lookAhead
  rw [futureRow_cut h, List.flatMap_map]
  simp only [getD_drop]

theorem orientationRow_cut {i k : Nat} (h : i + k < e.timestamps.length) :
    orientationRow (e.cut i) policy (base.map (·.drop i)) k = orientationRow e policy base (i + k) := by
  have hquat : (e.cut i).bodyQuatWxyz = e.bodyQuatWxyz.drop i := rfl
  unfold orientationRow anchorRow
  rw [cut_length, futureRow_cut h, hquat]
  cases policy with
  | legacyRawWorld => simp only [baseOf, getD_drop, List.flatMap_map]
  | referenceRootCurrentFrame => simp only [baseOf, hquat, getD_drop, List.flatMap_map]
  | measuredBase => cases base <;> simp only [baseOf, Option.map_none, Option.map_some, getD_drop, List.flatMap_map]

theorem g1Blocks_cut {i k : Nat} (h : i + k < e.timestamps.length) :
    g1Blocks (e.cut i) policy (base.map (·.drop i)) k = g1Blocks e policy base (i + k) := by
  unfold g1Blocks
  rw [cut_length, orientationRow_cut h]
  show [_, (_, lookAhead (e.jointPos.drop i) _ k), (_, lookAhead (e.jointVel.drop i) _ k), _] = _
  rw [lookAhead_cut _ h, lookAhead_cut _ h]

theorem range_drop {α : Type} (f : Nat → α) (n i : Nat) :
    ((List.range n).map f).drop i = (List.range (n - i)).map fun k => f (i + k) := by
  refine List.ext_getElem (by simp) fun k hk hk' => ?_
  rw [List.getElem_drop, List.getElem_map, List.getElem_map, List.getElem_range, List.getElem_range]

/-- The observation of the cut episode is that of the whole one from the cut on. -/
theorem build_cut {i : Nat} (h : buildG1EncoderObservation e policy base layout = .ok (obs, clamp)) (hi : i < e.timestamps.length) :
    buildG1EncoderObservation (e.cut i) policy (base.map (·.drop i)) layout = .ok (obs.drop i, clamp.drop i) := by
  obtain ⟨hobs, rfl, rfl, hfinite⟩ := observation_ok.mp h
  refine observation_ok.mpr ⟨⟨cut_valid hobs.valid hi, hobs.total, fun hpolicy => ?_, fun k hk b hb => ?_⟩, ?_, ?_, finiteRows_drop hfinite⟩
  · obtain ⟨rows, rfl, hlength, hwidth⟩ := hobs.measured hpolicy
    refine ⟨rows.drop i, rfl, ?_, fun row hrow => hwidth row (List.mem_of_mem_drop hrow)⟩
    show (rows.drop i).length = (e.bodyQuatWxyz.drop i).length
    rw [List.length_drop, List.length_drop, hlength]
  · rw [cut_length] at hk
    rw [g1Blocks_cut (by omega)] at hb
    exact hobs.widths (i + k) (by omega) b hb
  · rw [range_drop, cut_length]
    refine List.map_congr_left fun k hk => ?_
    have hlt : i + k < e.timestamps.length := by
      have := List.mem_range.mp hk
      omega
    unfold observationRow
    rw [g1Blocks_cut hlt]
  · rw [range_drop, cut_length]
    refine List.map_congr_left fun k hk => ?_
    unfold clampFraction
    rw [clampCount_cut hi.le]

/-! ### Frames beyond the look-ahead -/

/-- Two arrays agree on their first rows. -/
def AgreeTo (m : Nat) (a b : List (List K)) : Prop := a.take m = b.take m

/-- Two episodes, with the bases that are measured for them, agree on their first frames. -/
structure SameTo (m : Nat) (e e' : CanonicalEpisode K) (base base' : Option (List (List K))) : Prop where
  jointPos : AgreeTo m e.jointPos e'.jointPos
  jointVel : AgreeTo m e.jointVel e'.jointVel
  bodyQuatWxyz : AgreeTo m e.bodyQuatWxyz e'.bodyQuatWxyz
  base : base.map (·.take m) = base'.map (·.take m)

omit [Arithmetic K] in
theorem AgreeTo.getD {m j : Nat} {a b : List (List K)} (h : AgreeTo m a b) (hj : j < m) : a.getD j [] = b.getD j [] := by
  have hget : ∀ l : List (List K), l.getD j [] = (l.take m).getD j [] := fun l => by
    rw [List.getD_eq_getElem?_getD, List.getD_eq_getElem?_getD, List.getElem?_take_of_lt hj]
  rw [hget a, hget b, h]

theorem futureRow_whole {n i : Nat} (h : i + 45 < n) : futureRow n i = futureOffsets.map (i + ·) := by
  unfold futureRow
  refine List.map_congr_left fun o ho => ?_
  have hle : ∀ o ∈ futureOffsets, o ≤ 45 := by decide
  have := hle o ho
  omega

theorem futureOffsets_lt {i : Nat} : ∀ j ∈ futureOffsets.map (i + ·), j < i + 46 := by
  intro j hj
  obtain ⟨o, ho, rfl⟩ := List.mem_map.mp hj
  have hle : ∀ o ∈ futureOffsets, o ≤ 45 := by decide
  have := hle o ho
  omega

omit [Arithmetic K] in
theorem flatMap_agree {α : Type} {m : Nat} {a b : List (List K)} (h : AgreeTo m a b) {js : List Nat} (hjs : ∀ j ∈ js, j < m)
    (f : List K → List α) : (js.flatMap fun j => f (a.getD j [])) = js.flatMap fun j => f (b.getD j []) := by
  rw [List.flatMap_def, List.flatMap_def]
  congr 1
  exact List.map_congr_left fun j hj => by rw [h.getD (hjs j hj)]

theorem g1Blocks_same {e' : CanonicalEpisode K} {base' : Option (List (List K))} {i : Nat} (h : SameTo (i + 46) e e' base base')
    (hn : i + 45 < e.timestamps.length) (hn' : i + 45 < e'.timestamps.length) :
    g1Blocks e' policy base' i = g1Blocks e policy base i := by
  have hlook : ∀ {a b : List (List K)}, AgreeTo (i + 46) a b → lookAhead b e'.timestamps.length i = lookAhead a e.timestamps.length i := by
    intro a b hab
    unfold lookAhead
    rw [futureRow_whole hn, futureRow_whole hn', flatMap_agree hab futureOffsets_lt fun row => row]
  have hanchor : ∀ q : Quat K, anchorRow q e'.bodyQuatWxyz (futureRow e'.timestamps.length i) =
      anchorRow q e.bodyQuatWxyz (futureRow e.timestamps.length i) := by
    intro q
    unfold anchorRow
    rw [futureRow_whole hn, futureRow_whole hn']
    exact (flatMap_agree h.bodyQuatWxyz futureOffsets_lt fun row => headingRelativeAnchor6d q (Quat.ofRow row)).symm
  have horientation : orientationRow e' policy base' i = orientationRow e policy base i := by
    unfold orientationRow
    cases policy with
    | legacyRawWorld =>
      dsimp only [baseOf]
      rw [futureRow_whole hn, futureRow_whole hn']
      exact (flatMap_agree h.bodyQuatWxyz futureOffsets_lt fun row => worldQuaternionTo6d (Quat.ofRow row)).symm
    | referenceRootCurrentFrame =>
      dsimp only [baseOf]
      rw [hanchor, h.bodyQuatWxyz.getD (by omega)]
    | measuredBase =>
      have hbase := h.base
      cases base with
      | none =>
        cases base' with
        | none =>
          dsimp only [baseOf]
          rw [futureRow_whole hn, futureRow_whole hn']
          exact (flatMap_agree h.bodyQuatWxyz futureOffsets_lt fun row => worldQuaternionTo6d (Quat.ofRow row)).symm
        | some rows' => cases hbase
      | some rows =>
        cases base' with
        | none => cases hbase
        | some rows' =>
          have hrows : AgreeTo (i + 46) rows rows' := Option.some.inj hbase
          dsimp only [baseOf]
          rw [hanchor, hrows.getD (by omega)]
  unfold g1Blocks
  rw [hlook h.jointPos, hlook h.jointVel, horientation]

theorem build_same {e' : CanonicalEpisode K} {base' : Option (List (List K))} {obs' : List (List K)} {clamp' : List ℚ} {i : Nat}
    (h : buildG1EncoderObservation e policy base layout = .ok (obs, clamp))
    (h' : buildG1EncoderObservation e' policy base' layout = .ok (obs', clamp')) (hclamp : clamp[i]? = some 0)
    (hsame : SameTo (i + 46) e e' base base') : obs'[i]? = obs[i]? ∧ clamp'[i]? = clamp[i]? := by
  obtain ⟨hobs, rfl, rfl, -⟩ := observation_ok.mp h
  obtain ⟨hobs', rfl, rfl, -⟩ := observation_ok.mp h'
  rw [List.getElem?_map, Option.map_eq_some_iff] at hclamp
  obtain ⟨j, hj, hzero⟩ := hclamp
  obtain ⟨hlt, rfl⟩ := List.getElem?_eq_some_iff.mp hj
  rw [List.getElem_range, clampFraction_zero] at hzero
  rw [List.length_range] at hlt
  have hframes : ∀ d : CanonicalEpisode K, d.validate = .ok () → d.jointPos.length = d.timestamps.length := by
    intro d hd
    have hshape := ((CanonicalEpisode.validate_ok.mp hd).1 _ List.mem_cons_self).1
    unfold hasShape at hshape
    rw [Bool.and_eq_true, decide_eq_true_eq] at hshape
    exact hshape.1
  have hlong : i + 45 < e'.timestamps.length := by
    have htake := congrArg List.length hsame.jointPos
    rw [List.length_take, List.length_take, hframes e hobs.valid, hframes e' hobs'.valid] at htake
    omega
  constructor
  · rw [List.getElem?_map, List.getElem?_map, List.getElem?_range (by omega), List.getElem?_range hlt]
    unfold observationRow
    rw [Option.map_some, Option.map_some, g1Blocks_same hsame hzero hlong]
  · rw [List.getElem?_map, List.getElem?_map, List.getElem?_range (by omega), List.getElem?_range hlt]
    rw [Option.map_some, Option.map_some, clampFraction_zero.mpr hzero, clampFraction_zero.mpr hlong]

/-! ### The other slots -/

omit [Arithmetic K] in
theorem foldl_splice {blocks : List (String × List K)} {row : List K}
    (hfit : ∀ b ∈ blocks, layout.offset b.1 + b.2.length ≤ row.length) :
    (blocks.foldl (fun row b => splice (layout.offset b.1) b.2 row) row).length = row.length ∧
    ∀ s, (∀ b ∈ blocks, s < layout.offset b.1 ∨ layout.offset b.1 + b.2.length ≤ s) →
      (blocks.foldl (fun row b => splice (layout.offset b.1) b.2 row) row)[s]? = row[s]? := by
  induction blocks generalizing row with
  | nil => exact ⟨rfl, fun _ _ => rfl⟩
  | cons b blocks ih =>
    have hb := hfit b List.mem_cons_self
    have hlength := splice_length hb
    obtain ⟨hrest, hother⟩ := @ih (splice (layout.offset b.1) b.2 row) fun c hc => hlength ▸ hfit c (List.mem_cons_of_mem _ hc)
    refine ⟨hrest.trans hlength, fun s hs => (hother s fun c hc => hs c (List.mem_cons_of_mem _ hc)).trans ?_⟩
    exact splice_getElem? hb (hs b List.mem_cons_self)

theorem g1Blocks_names (i : Nat) : (g1Blocks e policy base i).map (·.1) = g1RequiredObservations := rfl

theorem g1Blocks_fit (hobs : Observable e policy base layout) {i : Nat} (hi : i < e.timestamps.length) :
    ∀ b ∈ g1Blocks e policy base i, layout.offset b.1 + b.2.length ≤
      (List.replicate encoderInputDim (Arithmetic.ofRat 0 : K)).length := by
  intro b hb
  rw [List.length_replicate, ← hobs.total]
  exact EncoderLayout.offset_add_le (hobs.widths i hi b hb)

theorem observationRow_length (hobs : Observable e policy base layout) {i : Nat} (hi : i < e.timestamps.length) :
    (observationRow e policy base layout i).length = encoderInputDim :=
  (foldl_splice (g1Blocks_fit hobs hi)).1.trans List.length_replicate

theorem observationRow_other (hobs : Observable e policy base layout) {i s : Nat} (hi : i < e.timestamps.length)
    (hs : s < encoderInputDim) (hother : ∀ name ∈ g1RequiredObservations, ¬layout.InSpan name s) :
    (observationRow e policy base layout i)[s]? = some (Arithmetic.ofRat 0) := by
  have hfit := g1Blocks_fit hobs hi
  refine ((foldl_splice hfit).2 s fun b hb => ?_).trans ?_
  · by_contra hin
    refine hother b.1 ?_ ⟨_, hobs.widths i hi b hb, by omega, by omega⟩
    have hnames : (g1Blocks e policy base i).map (·.1) = g1RequiredObservations := g1Blocks_names i
    exact hnames ▸ List.mem_map_of_mem hb
  · rw [List.getElem?_replicate, if_pos hs]

theorem observation_locality (e : CanonicalEpisode K) (policy : OrientationPolicy) (base : Option (List (List K)))
    (layout : EncoderLayout) (obs : List (List K)) (clamp : List ℚ)
    (h : buildG1EncoderObservation e policy base layout = .ok (obs, clamp)) :
    (∀ i < e.timestamps.length,
      buildG1EncoderObservation (e.cut i) policy (base.map (·.drop i)) layout = .ok (obs.drop i, clamp.drop i)) ∧
    (∀ e' base' obs' clamp' i, buildG1EncoderObservation e' policy base' layout = .ok (obs', clamp') → clamp[i]? = some 0 →
      SameTo (i + 46) e e' base base' → obs'[i]? = obs[i]? ∧ clamp'[i]? = clamp[i]?) ∧
    (∀ s < encoderInputDim, ∃! name, layout.InSpan name s) ∧
    ∀ row ∈ obs, ∀ s < encoderInputDim, (∀ name ∈ g1RequiredObservations, ¬layout.InSpan name s) →
      row.length = encoderInputDim ∧ row[s]? = some (Arithmetic.ofRat 0) := by
  obtain ⟨hobs, hrows, -, -⟩ := observation_ok.mp h
  refine ⟨fun i hi => build_cut h hi, fun e' base' obs' clamp' i h' hclamp hsame => build_same h h' hclamp hsame, fun s hs => ?_,
    fun row hrow s hs hother => ?_⟩
  · exact EncoderLayout.existsUnique_inSpan (hobs.total.symm ▸ hs)
  · rw [hrows] at hrow
    obtain ⟨i, hi, rfl⟩ := List.mem_map.mp hrow
    exact ⟨observationRow_length hobs (List.mem_range.mp hi), observationRow_other hobs (List.mem_range.mp hi) hs hother⟩

/-! ### An episode that turns -/

/-- The timestamps of frames at 50 Hz. -/
noncomputable def framesAt50Hz (n : Nat) : List ℝ := (List.range n).map fun i : Nat => (i : ℝ) / (50 : Nat)

/-- An episode whose joints move at a constant rate, and whose heading is turned round in every other frame. -/
noncomputable def walking (n : Nat) : CanonicalEpisode ℝ where
  timestamps := framesAt50Hz n
  jointPos := (List.range n).map fun i : Nat => List.replicate 29 (i : ℝ)
  jointVel := (List.range n).map fun _ => List.replicate 29 ((50 : Nat) : ℝ)
  bodyQuatWxyz := (List.range n).map fun i => if i % 2 = 0 then [1, 0, 0, 0] else [0, 0, 0, 1]
  bodyPos := (List.range n).map fun _ => [0, 0, 0]
  leftHandJoints := List.replicate n (List.replicate 7 0)
  rightHandJoints := List.replicate n (List.replicate 7 0)

/-- One frame, standing. -/
noncomputable def standing : CanonicalEpisode ℝ := walking 1

theorem framesAt50Hz_length (n : Nat) : (framesAt50Hz n).length = n := by
  rw [framesAt50Hz, List.length_map, List.length_range]

theorem framesAt50Hz_chain (n : Nat) : (framesAt50Hz n).IsChain fun a b => b - a = 1 / 50 := by
  unfold framesAt50Hz
  rw [List.isChain_map, List.isChain_range]
  intro m _
  push_cast
  ring

theorem hasShape_range (n width : Nat) {f : Nat → List ℝ} (h : ∀ i, (f i).length = width) :
    hasShape ((List.range n).map f) n width = true := by
  unfold hasShape
  rw [Bool.and_eq_true, decide_eq_true_eq, List.length_map, List.length_range, List.all_eq_true]
  refine ⟨rfl, fun row hrow => ?_⟩
  obtain ⟨i, -, rfl⟩ := List.mem_map.mp hrow
  exact decide_eq_true (h i)

variable {n : Nat}

theorem walking_valid (hn : n ≠ 0) : (walking n).validate = .ok () := by
  have hlength : (walking n).timestamps.length = n := framesAt50Hz_length n
  have hhands : hasShape (List.replicate n (List.replicate 7 (0 : ℝ))) n 7 = true := by
    rw [replicate_range n]
    exact hasShape_range n 7 fun i => List.length_replicate
  refine CanonicalEpisode.validate_ok.mpr ⟨fun f hf => ⟨?_, finiteRows_all (fun _ => rfl) _⟩, ?_, List.all_eq_true.mpr fun _ _ => rfl,
    increasing_iff.mpr ((framesAt50Hz_chain n).imp fun a b h => ?_)⟩
  · rw [hlength]
    simp only [CanonicalEpisode.expected, List.mem_cons, List.not_mem_nil, or_false] at hf
    rcases hf with rfl | rfl | rfl | rfl | rfl | rfl
    · exact hasShape_range n 29 fun i => List.length_replicate
    · exact hasShape_range n 29 fun i => List.length_replicate
    · refine hasShape_range n 4 fun i => ?_
      split <;> rfl
    · exact hasShape_range n 3 fun i => rfl
    · exact hhands
    · exact hhands
  · rwa [← List.length_pos_iff, hlength, Nat.pos_iff_ne_zero]
  · exact decide_eq_true (by linarith)

/-- The look-ahead of a row has ten entries of each channel. -/
theorem lookAhead_length (hn : n ≠ 0) {width : Nat} {f : Nat → List ℝ} (h : ∀ i, (f i).length = width) (i : Nat) :
    (lookAhead ((List.range n).map f) n i).length = 10 * width := by
  have hrow : ∀ j ∈ futureRow n i, (((List.range n).map f).getD j []).length = width := by
    intro j hj
    obtain ⟨o, -, rfl⟩ := List.mem_map.mp hj
    rw [List.getD_eq_getElem _ _ (by rw [List.length_map, List.length_range]; omega), List.getElem_map]
    exact h _
  unfold lookAhead
  rw [List.length_map, List.length_flatMap, List.map_congr_left hrow, List.map_const', List.sum_replicate, smul_eq_mul]
  rfl

theorem orientationRow_length (e : CanonicalEpisode ℝ) (policy : OrientationPolicy) (base : Option (List (List ℝ))) (i : Nat) :
    (orientationRow e policy base i).length = 60 := by
  have hcount : (futureRow e.timestamps.length i).length = 10 := List.length_map _
  have hsix : ∀ f : Nat → List ℝ, (∀ j, (f j).length = 6) → ((futureRow e.timestamps.length i).flatMap f).length = 60 := by
    intro f hf
    rw [List.length_flatMap, List.map_congr_left fun j _ => hf j, List.map_const', List.sum_replicate, hcount]
    rfl
  unfold orientationRow anchorRow
  split
  · exact hsix _ fun j => rfl
  · exact hsix _ fun j => rfl

/-- The episode is built by every policy that needs no measured base. -/
theorem build_walking (hn : n ≠ 0) (policy : OrientationPolicy) (hpolicy : policy ≠ .measuredBase) :
    buildG1EncoderObservation (walking n) policy none pinnedLayout =
      .ok ((List.range n).map (observationRow (walking n) policy none pinnedLayout),
        (List.range n).map fun i => float32 (clampFraction n i)) := by
  have hlength : (walking n).timestamps.length = n := framesAt50Hz_length n
  have hobs : Observable (walking n) policy none pinnedLayout := by
    refine ⟨walking_valid hn, by decide +kernel, fun h => absurd h hpolicy, fun i _ b hb => ?_⟩
    simp only [g1Blocks, List.mem_cons, List.not_mem_nil, or_false] at hb
    rw [hlength] at hb
    rcases hb with rfl | rfl | rfl | rfl
    · rfl
    · have hwidth : (lookAhead (walking n).jointPos n i).length = 290 := lookAhead_length hn (fun i => List.length_replicate) i
      exact (by decide +kernel : pinnedLayout.dim "motion_joint_positions_10frame_step5" = some 290).trans (congrArg some hwidth.symm)
    · have hwidth : (lookAhead (walking n).jointVel n i).length = 290 := lookAhead_length hn (fun i => List.length_replicate) i
      exact (by decide +kernel : pinnedLayout.dim "motion_joint_velocities_10frame_step5" = some 290).trans (congrArg some hwidth.symm)
    · have hwidth := orientationRow_length (walking n) policy none i
      exact (by decide +kernel : pinnedLayout.dim "motion_anchor_orientation_heading_10frame_step5" = some 60).trans
        (congrArg some hwidth.symm)
  have hbuild := hobs.build (finiteRows_all (fun _ => rfl) _)
  rwa [hlength] at hbuild

theorem build_standing (policy : OrientationPolicy) (hpolicy : policy ≠ .measuredBase) :
    buildG1EncoderObservation standing policy none pinnedLayout =
      .ok ([observationRow standing policy none pinnedLayout 0], [float32 (clampFraction 1 0)]) :=
  build_walking Nat.one_ne_zero policy hpolicy

/-- Two episodes that agree as far as the shorter one goes. -/
theorem walking_same {m k : Nat} (hn : m ≤ n) (hk : m ≤ k) : SameTo m (walking n) (walking k) none none := by
  have hagree : ∀ f : Nat → List ℝ, AgreeTo m ((List.range n).map f) ((List.range k).map f) := by
    intro f
    unfold AgreeTo
    rw [← List.map_take, ← List.map_take, List.take_range, List.take_range, Nat.min_eq_left hn, Nat.min_eq_left hk]
  exact ⟨hagree _, hagree _, hagree _, rfl⟩

/-- Fifty frames and sixty: the first five rows agree, and the rows from the seventh on are those of the rest of the episode. -/
theorem observation_locality_walking : ∃ obs clamp obs' clamp',
    buildG1EncoderObservation (walking 50) .referenceRootCurrentFrame none pinnedLayout = .ok (obs, clamp) ∧
    buildG1EncoderObservation (walking 60) .referenceRootCurrentFrame none pinnedLayout = .ok (obs', clamp') ∧
    buildG1EncoderObservation ((walking 50).cut 7) .referenceRootCurrentFrame none pinnedLayout = .ok (obs.drop 7, clamp.drop 7) ∧
    (∀ i < 5, obs'[i]? = obs[i]?) ∧
    ∀ row ∈ obs, ∀ s < encoderInputDim, (∀ name ∈ g1RequiredObservations, ¬pinnedLayout.InSpan name s) → row[s]? = some 0 := by
  have hbuild := build_walking (n := 50) (by decide) .referenceRootCurrentFrame (by decide)
  have hbuild' := build_walking (n := 60) (by decide) .referenceRootCurrentFrame (by decide)
  obtain ⟨hcut, hsame, -, hzero⟩ := observation_locality _ _ _ _ _ _ hbuild
  refine ⟨_, _, _, _, hbuild, hbuild', hcut 7 (by rw [show (walking 50).timestamps.length = 50 from framesAt50Hz_length 50]; decide),
    fun i hi => ?_, fun row hrow s hs hother => ?_⟩
  · refine (hsame _ _ _ _ i hbuild' ?_ (walking_same (by omega) (by omega))).1
    rw [List.getElem?_map, List.getElem?_range (by omega), Option.map_some, clampFraction_zero.mpr (by omega)]
  · rw [(hzero row hrow s hs hother).2]
    exact congrArg some Rat.cast_zero

end

end HumanoidLab
