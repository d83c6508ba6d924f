import HumanoidLab.FluxDex3.Camera
import HumanoidLab.Lib.ReadBack

/-! The stamp of a camera frame travels from the simulator unchanged: it is split into the seconds and nanoseconds of a header, and
    the node reads the same number back. The gate lets frames through whose stamps advance. -/

namespace HumanoidLab.FluxDex3
open Psi0Dex3 (float64)
open Rounding

variable {s x : ℚ}

/-! ### The header -/

/-- A number below a power of two is rounded by a small part of it. -/
theorem float64_near {k : Int} (hlt : |x| < 2 ^ k) (hk : -1074 ≤ k - 53) : |float64 x - x| ≤ 2 ^ (k - 53) / 2 := by
  rcases eq_or_ne x 0 with rfl | hx
  · rw [show float64 0 = 0 from roundBinary_zero, sub_zero, abs_zero]
    exact div_nonneg (zpow_nonneg (by norm_num) _) (by norm_num)
  · have hquantum : quantum 53 (-1074) x ≤ 2 ^ (k - (53 : Nat)) := quantum_le hx hlt hk
    exact (abs_roundBinary_sub_le x).trans (div_le_div_of_nonneg_right hquantum (by norm_num))

/-- The quanta of a capture time are not finer than a quarter of a billionth. -/
theorem quanta_of_capture (h : float64 s = s) (hlow : 2 ^ 24 ≤ s) : ∃ n : Int, s = n * 2 ^ (-28 : Int) := by
  have hpos : 0 < s := lt_of_lt_of_le (by norm_num) hlow
  refine quanta_of_le hpos.le h ?_
  have hlog : (24 : Int) ≤ Int.log 2 s := by
    refine (Int.zpow_le_iff_le_log Nat.one_lt_two hpos).mp ?_
    rw [Nat.cast_ofNat]
    exact_mod_cast hlow
  rw [quantumExponent, abs_of_pos hpos]
  omega

/-- The part of a capture time after the point, in its quanta. -/
theorem fraction_quanta (h : float64 s = s) (hlow : 2 ^ 24 ≤ s) :
    ∃ m : Int, s - wholeSeconds s = m * 2 ^ (-28 : Int) ∧ 0 ≤ m ∧ m ≤ 2 ^ 28 - 1 := by
  obtain ⟨n, hn⟩ := quanta_of_capture h hlow
  have hfraction : s - wholeSeconds s = ((n - wholeSeconds s * 2 ^ 28 : Int) : ℚ) * 2 ^ (-28 : Int) := by
    push_cast
    rw [sub_mul, ← hn, mul_assoc]
    norm_num
  have hnonneg : 0 ≤ s - wholeSeconds s := sub_nonneg.mpr (Int.floor_le s)
  have hlt : s - wholeSeconds s < 1 := sub_lt_iff_lt_add'.mpr (Int.lt_floor_add_one s)
  rw [hfraction] at hnonneg hlt
  refine ⟨_, hfraction, ?_, ?_⟩
  · have := nonneg_of_mul_nonneg_left hnonneg (by positivity)
    exact_mod_cast this
  · have hscaled : ((n - wholeSeconds s * 2 ^ 28 : Int) : ℚ) < 2 ^ 28 := by
      have := mul_lt_mul_of_pos_right hlt (by norm_num : (0 : ℚ) < 2 ^ 28)
      rw [mul_assoc] at this
      norm_num at this ⊢
      exact this
    have : n - wholeSeconds s * 2 ^ 28 < 2 ^ 28 := by exact_mod_cast hscaled
    omega

/-- The part of a capture time after the point needs no rounding, and is not near to one. -/
theorem fraction_float (h : float64 s = s) (hlow : 2 ^ 24 ≤ s) :
    float64 (s - wholeSeconds s) = s - wholeSeconds s ∧ s - wholeSeconds s ≤ 1 - 1 / 2 ^ 28 := by
  obtain ⟨m, hm, hnonneg, hle⟩ := fraction_quanta h hlow
  have hcast : (m : ℚ) ≤ 2 ^ 28 - 1 := by exact_mod_cast hle
  rw [hm]
  refine ⟨roundBinary_of_mul (by norm_num) hnonneg (hle.trans (by norm_num)) (by norm_num), ?_⟩
  calc (m : ℚ) * 2 ^ (-28 : Int) ≤ (2 ^ 28 - 1) * 2 ^ (-28 : Int) := mul_le_mul_of_nonneg_right hcast (by positivity)
    _ = 1 - 1 / 2 ^ 28 := by norm_num

/-- The nanoseconds are the part after the point, to half of one and what the multiplication rounds. They need no carry. -/
theorem nanoseconds_near (h : float64 s = s) (hlow : 2 ^ 24 ≤ s) :
    |(nanoseconds s : ℚ) - (s - wholeSeconds s) * 10 ^ 9| ≤ 1 / 2 + 1 / 2 ^ 24 ∧ nanoseconds s < 10 ^ 9 := by
  obtain ⟨hexact, hhigh⟩ := fraction_float h hlow
  have hlow' : 0 ≤ s - wholeSeconds s := sub_nonneg.mpr (Int.floor_le s)
  set x : ℚ := (s - wholeSeconds s) * 10 ^ 9 with hx
  have hxlow : 0 ≤ x := mul_nonneg hlow' (by norm_num)
  have hxhigh : x ≤ (1 - 1 / 2 ^ 28) * 10 ^ 9 := mul_le_mul_of_nonneg_right hhigh (by norm_num)
  have hnear : |float64 x - x| ≤ 1 / 2 ^ 24 := by
    have hlt : |x| < 2 ^ (30 : Int) := by
      rw [abs_of_nonneg hxlow]
      exact hxhigh.trans_lt (by norm_num)
    refine (float64_near hlt (by norm_num)).trans ?_
    norm_num
  have hround := abs_roundHalfEven_sub_le (float64 x)
  have hn0 : 0 ≤ roundHalfEven (float64 x) := by
    rw [← roundHalfEven_intCast (K := ℚ) 0]
    refine roundHalfEven_mono ?_
    rw [Int.cast_zero]
    exact roundBinary_nonneg hxlow
  rw [abs_le] at hnear hround
  have hn1 : roundHalfEven (float64 x) < 10 ^ 9 := by
    have hlt : (roundHalfEven (float64 x) : ℚ) < 10 ^ 9 := by
      have : (1 - 1 / 2 ^ 28 : ℚ) * 10 ^ 9 + 1 / 2 ^ 24 + 1 / 2 < 10 ^ 9 := by norm_num
      linarith
    exact_mod_cast hlt
  have hnano : (nanoseconds s : Int) = roundHalfEven (float64 x) := by
    unfold nanoseconds
    rw [hexact, ← hx, Int.emod_eq_of_lt hn0 hn1, Int.toNat_of_nonneg hn0]
  have hcast : (nanoseconds s : ℚ) = roundHalfEven (float64 x) := by exact_mod_cast hnano
  refine ⟨?_, by exact_mod_cast hnano ▸ hn1⟩
  rw [hcast, abs_le]
  constructor <;> linarith

theorem billionth_near : |float64 (1 / 10 ^ 9) - 1 / 10 ^ 9| ≤ 1 / 2 ^ 83 := by
  have hsmall : |(1 / 10 ^ 9 : ℚ)| < 2 ^ (-29 : Int) := by
    rw [abs_of_pos (by norm_num)]
    norm_num
  refine (float64_near hsmall (by norm_num)).trans ?_
  norm_num

/-- The nanoseconds in seconds, as the node multiplies them. -/
theorem seconds_near {n : ℚ} (hn0 : 0 ≤ n) (hn1 : n ≤ 10 ^ 9) : |float64 (n * float64 (1 / 10 ^ 9)) - n / 10 ^ 9| ≤ 1 / 2 ^ 52 := by
  have hbillionth := billionth_near
  set c : ℚ := float64 (1 / 10 ^ 9)
  have hscaled : |n * c - n / 10 ^ 9| ≤ 1 / 2 ^ 53 := by
    rw [show n * c - n / 10 ^ 9 = n * (c - 1 / 10 ^ 9) by ring, abs_mul, abs_of_nonneg hn0]
    calc n * |c - 1 / 10 ^ 9| ≤ 10 ^ 9 * (1 / 2 ^ 83) := mul_le_mul hn1 hbillionth (abs_nonneg _) (by norm_num)
      _ ≤ 1 / 2 ^ 53 := by norm_num
  have hproduct : |float64 (n * c) - n * c| ≤ 1 / 2 ^ 53 := by
    have htwo : |n * c| < 2 ^ (1 : Int) := by
      rw [abs_le] at hscaled
      have hunit : n / 10 ^ 9 ≤ 1 := (div_le_one (by norm_num)).mpr hn1
      have hzero : 0 ≤ n / 10 ^ 9 := by positivity
      have hsmall : (1 / 2 ^ 53 : ℚ) < 1 := by norm_num
      rw [abs_lt]
      constructor <;> norm_num <;> linarith
    refine (float64_near htwo (by norm_num)).trans ?_
    norm_num
  calc |float64 (n * c) - n / 10 ^ 9| ≤ |float64 (n * c) - n * c| + |n * c - n / 10 ^ 9| := abs_sub_le _ _ _
    _ ≤ 1 / 2 ^ 53 + 1 / 2 ^ 53 := add_le_add hproduct hscaled
    _ = 1 / 2 ^ 52 := by norm_num

/-- The node reads the capture time back. -/
theorem stamp_reads (h : float64 s = s) (hlow : 2 ^ 24 ≤ s) :
    float64 (wholeSeconds s + float64 (nanoseconds s * float64 (1 / 10 ^ 9))) = s := by
  have hpos : 0 < s := lt_of_lt_of_le (by norm_num) hlow
  obtain ⟨hnear, hlt⟩ := nanoseconds_near h hlow
  have hn0 : (0 : ℚ) ≤ nanoseconds s := Nat.cast_nonneg _
  have hn1 : (nanoseconds s : ℚ) ≤ 10 ^ 9 := by exact_mod_cast hlt.le
  set n : ℚ := (nanoseconds s : ℚ)
  have hseconds := seconds_near hn0 hn1
  -- The sum is nearer to the capture time than half of a nanosecond and a little.
  have hclose : |(wholeSeconds s : ℚ) + float64 (n * float64 (1 / 10 ^ 9)) - s| ≤ 10002 / 10 ^ 13 / 2 := by
    have hnano : |n / 10 ^ 9 - (s - wholeSeconds s)| ≤ (1 / 2 + 1 / 2 ^ 24) / 10 ^ 9 := by
      rw [show n / 10 ^ 9 - (s - wholeSeconds s) = (n - (s - wholeSeconds s) * 10 ^ 9) / 10 ^ 9 by ring, abs_div,
        abs_of_pos (by norm_num : (0 : ℚ) < 10 ^ 9)]
      exact div_le_div_of_nonneg_right hnear (by norm_num)
    rw [abs_le] at hnano hseconds ⊢
    have hsum : (1 / 2 + 1 / 2 ^ 24) / 10 ^ 9 + 1 / 2 ^ 52 ≤ (10002 / 10 ^ 13 / 2 : ℚ) := by norm_num
    constructor <;> linarith
  refine roundBinary_of_close (by norm_num) hpos h (u := 10002 / 10 ^ 13) (by norm_num) ?_ hclose
  exact lt_of_lt_of_le (by norm_num) hlow

/-- In the first days of the clock the nanoseconds may need a carry, and a second is lost. -/
example : wholeSeconds (1 - 1 / 2 ^ 53) = 0 ∧ nanoseconds (1 - 1 / 2 ^ 53) = 0 := by decide +kernel

/-! ### The picture -/

theorem packRows_all {step rows : Nat} {data : List UInt8} (h : data.length = step * rows) : packRows step step data rows = data := by
  induction rows generalizing data with
  | zero => exact (List.length_eq_zero_iff.mp h).symm
  | succ rows ih =>
    rw [packRows, ih (by rw [List.length_drop, h, Nat.mul_succ, Nat.add_sub_cancel]), List.take_append_drop]

/-- The node takes the picture of the frame out of its message. -/
theorem rgbImage_message (f : Frame) : rgbImage f.message = .ok f.rgb := by
  have hsize : f.rgb.data.length = f.rgb.width * 3 * f.rgb.height := by
    rw [f.rgb.size]
    ring
  unfold rgbImage
  rw [dif_pos (show f.message.encoding = "rgb8" ∧ (f.message.height, f.message.width) ∈ [(480, 640), (192, 256)] from ⟨rfl, f.rgb.shape⟩),
    dif_pos (show f.message.width * 3 ≤ f.message.step ∧ f.message.data.length = f.message.step * f.message.height from ⟨le_rfl, hsize⟩)]
  have hdata : packRows (f.rgb.width * 3) (f.rgb.width * 3) f.rgb.data f.rgb.height = f.rgb.data := packRows_all hsize
  obtain ⟨stamp, ⟨height, width, data, shape, size⟩, float, positive, frame⟩ := f
  simp only [Frame.message, Except.ok.injEq, RgbImage.mk.injEq, true_and]
  exact hdata

/-- The node judges the age of the capture, and keeps the picture with the capture time. -/
theorem receiveImage_message (config : NodeConfig) (n : Node) (clock : Reading) (f : Frame) (hlow : 2 ^ 24 ≤ f.stamp) :
    (n.receiveImage config f.message clock).image =
      if float64 (-5 / 100) ≤ ageOf clock.ros f.stamp ∧ ageOf clock.ros f.stamp ≤ config.freshness then some (f.rgb, clock.mono, f.stamp)
      else n.image := by
  have hstamp : float64 (f.message.sec + float64 (f.message.nanosec * float64 (1 / 10 ^ 9))) = f.stamp := stamp_reads f.float hlow
  unfold Node.receiveImage
  rw [rgbImage_message, hstamp]
  by_cases hfresh : float64 (-5 / 100) ≤ ageOf clock.ros f.stamp ∧ ageOf clock.ros f.stamp ≤ config.freshness
  · have hno : ¬(f.stamp ≤ 0 ∨ ageOf clock.ros f.stamp < float64 (-5 / 100) ∨ config.freshness < ageOf clock.ros f.stamp) := by
      rintro (hpos | hyoung | hold)
      · exact absurd hpos (not_le.mpr f.positive)
      · exact absurd hyoung (not_lt.mpr hfresh.1)
      · exact absurd hold (not_lt.mpr hfresh.2)
    simp only [if_neg hno, if_pos hfresh]
  · have hyes : f.stamp ≤ 0 ∨ ageOf clock.ros f.stamp < float64 (-5 / 100) ∨ config.freshness < ageOf clock.ros f.stamp := by
      rcases not_and_or.mp hfresh with hyoung | hold
      · exact Or.inr (Or.inl (not_le.mp hyoung))
      · exact Or.inr (Or.inr (not_le.mp hold))
    simp only [if_pos hyes, if_neg hfresh]

/-! ### The gate -/

section
open CameraBridge

variable {resync : ℚ}

/-- A stamp that may follow on another: it is later, or the clock was set back. -/
def MayFollow (resync last stamp : ℚ) : Prop := last < stamp ∨ steppedBack resync last stamp

/-- A frame that may follow is published. -/
theorem receive_follows (b : CameraBridge) (f : Frame) (h : ∀ last ∈ b.gate.lastStamp, MayFollow resync last f.stamp) :
    ∃ b', b.receive resync (.ok f) = (some f, b') ∧ b'.gate.lastStamp = some f.stamp ∧
      b'.gate.published = b.gate.published + 1 ∧ b'.gate.skipped = b.gate.skipped := by
  have haccept : (b.gate.accept resync f.stamp).1 = true ∧ (b.gate.accept resync f.stamp).2.lastStamp = some f.stamp ∧
      (b.gate.accept resync f.stamp).2.published = b.gate.published + 1 ∧ (b.gate.accept resync f.stamp).2.skipped = b.gate.skipped := by
    unfold FrameGate.accept
    cases hlast : b.gate.lastStamp with
    | none => exact ⟨rfl, rfl, rfl, rfl⟩
    | some last =>
      rcases h last hlast with hlater | hback
      · simp only [if_neg (not_le.mpr hlater), and_self]
      · simp only [if_pos hback]
        split_ifs <;> exact ⟨rfl, rfl, rfl, rfl⟩
  refine ⟨{ b with gate := (b.gate.accept resync f.stamp).2, received := b.received + 1 }, ?_, haccept.2⟩
  simp only [CameraBridge.receive, haccept.1, if_true]

/-- A frame that may not follow is dropped, and the gate stays where it is. -/
theorem receive_drops (b : CameraBridge) (f : Frame) {last : ℚ} (hlast : b.gate.lastStamp = some last)
    (h : ¬MayFollow resync last f.stamp) : ∃ b', b.receive resync (.ok f) = (none, b') ∧ b'.gate.lastStamp = some last ∧
      b'.gate.published = b.gate.published ∧ b'.gate.skipped = b.gate.skipped + 1 := by
  obtain ⟨hlater, hback⟩ := not_or.mp h
  have haccept : b.gate.accept resync f.stamp = (false, { b.gate with skipped := b.gate.skipped + 1 }) := by
    unfold FrameGate.accept
    simp only [hlast, if_pos (not_lt.mp hlater), if_neg hback]
  refine ⟨{ b with gate := { b.gate with skipped := b.gate.skipped + 1 }, received := b.received + 1 }, ?_, hlast, rfl, rfl⟩
  simp only [CameraBridge.receive, haccept]
  rfl

theorem run_publishes {b b' : CameraBridge} {f : Frame} (h : b.receive resync (.ok f) = (some f, b')) (rest : List (Except String Frame)) :
    run resync (.ok f :: rest) b = (f :: (run resync rest b').1, (run resync rest b').2) := by
  rw [run, h]
  rfl

theorem run_drops {b b' : CameraBridge} {f : Frame} (h : b.receive resync (.ok f) = (none, b')) (rest : List (Except String Frame)) :
    run resync (.ok f :: rest) b = run resync rest b' := by
  rw [run, h]
  rfl

/-- The frames among what arrives. -/
def framesOf (payloads : List (Except String Frame)) : List Frame := payloads.filterMap Except.toOption

/-- What the loop publishes, from any state of its gate. -/
structure Gated (resync : ℚ) (b : CameraBridge) (received published : List Frame) (b' : CameraBridge) : Prop where
  sublist : published.Sublist received
  chain : (b.gate.lastStamp.toList ++ published.map Frame.stamp).IsChain (MayFollow resync)
  counted : b'.gate.published = b.gate.published + published.length
  dropped : b'.gate.skipped + published.length = b.gate.skipped + received.length
  complete : (b.gate.lastStamp.toList ++ received.map Frame.stamp).IsChain (MayFollow resync) → published = received

variable {b b' c : CameraBridge} {f : Frame} {frames sent : List Frame}

/-- A frame that is published before the others. -/
theorem Gated.publish (h : Gated resync b' frames sent c) (hfollows : ∀ last ∈ b.gate.lastStamp, MayFollow resync last f.stamp)
    (hlast : b'.gate.lastStamp = some f.stamp) (hpublished : b'.gate.published = b.gate.published + 1)
    (hskipped : b'.gate.skipped = b.gate.skipped) : Gated resync b (f :: frames) (f :: sent) c := by
  have hfirst : ∀ stamps, (b'.gate.lastStamp.toList ++ stamps).IsChain (MayFollow resync) ↔
      (b.gate.lastStamp.toList ++ f.stamp :: stamps).IsChain (MayFollow resync) := by
    intro stamps
    rw [hlast]
    cases hstamp : b.gate.lastStamp with
    | none => rfl
    | some last =>
      exact ⟨fun hchain => List.isChain_cons_cons.mpr ⟨hfollows last hstamp, hchain⟩, fun hchain => (List.isChain_cons_cons.mp hchain).2⟩
  have hcounted := h.counted
  have hdropped := h.dropped
  refine ⟨h.sublist.cons_cons f, (hfirst _).mp h.chain, ?_, ?_, fun hall => congrArg (f :: ·) (h.complete ((hfirst _).mpr hall))⟩
  · rw [List.length_cons]
    omega
  · rw [List.length_cons, List.length_cons]
    omega

/-- A frame that is dropped before the others. -/
theorem Gated.drop {last : ℚ} (h : Gated resync b' frames sent c) (hno : ¬MayFollow resync last f.stamp)
    (hbefore : b.gate.lastStamp = some last) (hlast : b'.gate.lastStamp = some last) (hpublished : b'.gate.published = b.gate.published)
    (hskipped : b'.gate.skipped = b.gate.skipped + 1) : Gated resync b (f :: frames) sent c := by
  have hcounted := h.counted
  have hdropped := h.dropped
  refine ⟨h.sublist.cons f, ?_, by omega, ?_, fun hall => ?_⟩
  · rw [hbefore, ← hlast]
    exact h.chain
  · rw [List.length_cons]
    omega
  · rw [hbefore] at hall
    exact absurd (List.isChain_cons_cons.mp hall).1 hno

theorem run_gated (resync : ℚ) (payloads : List (Except String Frame)) (b : CameraBridge) :
    Gated resync b (framesOf payloads) (run resync payloads b).1 (run resync payloads b).2 := by
  induction payloads generalizing b with
  | nil =>
    refine ⟨List.Sublist.refl _, ?_, rfl, rfl, fun _ => rfl⟩
    cases b.gate.lastStamp <;> simp [run]
  | cons payload rest ih =>
    cases payload with
    | error e =>
      obtain ⟨hsub, hchain, hcounted, hdropped, hcomplete⟩ := ih { b with decodeErrors := b.decodeErrors + 1 }
      exact ⟨hsub, hchain, hcounted, hdropped, hcomplete⟩
    | ok f =>
      by_cases hfollows : ∀ last ∈ b.gate.lastStamp, MayFollow resync last f.stamp
      · obtain ⟨b', hreceive, hlast, hpublished, hskipped⟩ := receive_follows b f hfollows
        rw [run_publishes hreceive]
        exact (ih b').publish hfollows hlast hpublished hskipped
      · simp only [not_forall, exists_prop] at hfollows
        obtain ⟨last, hbefore, hno⟩ := hfollows
        obtain ⟨b', hreceive, hlast, hpublished, hskipped⟩ := receive_drops b f hbefore hno
        rw [run_drops hreceive]
        exact (ih b').drop hno hbefore hlast hpublished hskipped

/-- Over every run of the bridge, what is published are frames that were received, each once and in their order; their stamps advance,
    but where the clock was set back by more than the bound, and every frame is published if the stamps of all do so; and the node judges
    the age of the capture and keeps the very picture with the very capture time. -/
theorem camera_frames (payloads : List (Except String Frame)) :
    (published resync payloads).Sublist (framesOf payloads) ∧ ((published resync payloads).map Frame.stamp).IsChain (MayFollow resync) ∧
      (published resync payloads = framesOf payloads ↔ ((framesOf payloads).map Frame.stamp).IsChain (MayFollow resync)) ∧
      (run resync payloads {}).2.gate.published = (published resync payloads).length ∧
      (run resync payloads {}).2.gate.published + (run resync payloads {}).2.gate.skipped = (framesOf payloads).length ∧
      ∀ f ∈ published resync payloads, f.stamp ∈ Set.Ico (2 ^ 24 : ℚ) (2 ^ 31) → ∀ (config : NodeConfig) (n : Node) (clock : Reading),
        (n.receiveImage config f.message clock).image =
          if float64 (-5 / 100) ≤ ageOf clock.ros f.stamp ∧ ageOf clock.ros f.stamp ≤ config.freshness then
            some (f.rgb, clock.mono, f.stamp)
          else n.image := by
  obtain ⟨hsub, hchain, hpublished, hskipped, hcomplete⟩ := run_gated resync payloads {}
  refine ⟨hsub, hchain, ⟨fun hall => hall ▸ hchain, hcomplete⟩, ?_, ?_, fun f _ hstamp config n clock => ?_⟩
  · rw [hpublished]
    exact Nat.zero_add _
  · rw [hpublished]
    have hnone : (({} : CameraBridge).gate).skipped = 0 := rfl
    have hzero : (({} : CameraBridge).gate).published = 0 := rfl
    omega
  · exact receiveImage_message config n clock f hstamp.1

end

end HumanoidLab.FluxDex3
