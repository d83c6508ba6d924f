import HumanoidLab.Datasets.Tracking
import HumanoidLab.Lib.Fallible
import Mathlib.Data.List.Sort

/-! What the free window of a trace depends on. With a row that was recorded without the support, the metrics are those of such rows.
    Without one the window falls back to all rows, and a robot that only hung is scored. -/

namespace HumanoidLab.Sonic
open Fallible Psi0Dex3

variable {K : Type} {N : Numerics K} {timed : Bool} {rows rows' : List (TrackingRow K)} {t t' : Tracking K}

/-! ### The columns of a loaded trace -/

theorem stack_ok {xs out : List (List K)} (h : stack xs = .ok out) : out = xs ∧ ∀ x ∈ xs, x.length = width xs := by
  obtain ⟨hlen, h⟩ := guard_ok.mp h
  cases h
  refine ⟨rfl, fun x hx => ?_⟩
  simp only [List.any_eq_true, decide_eq_true_eq, not_exists, not_and, not_not] at hlen
  exact hlen x hx

theorem stackHand_ok {values : List (Option (List K))} {out : List (List K)} (h : stackHand values = .ok out) :
    out = values.map (·.getD []) := by
  obtain ⟨hnone, h⟩ := guard_ok.mp h
  rw [(stack_ok h).1, ← List.filterMap_eq_map]
  refine List.filterMap_congr fun v hv => ?_
  cases v with
  | none => exact (hnone (List.any_eq_true.mpr ⟨none, hv, rfl⟩)).elim
  | some x => rfl

theorem column_ok {index : Nat} {xs : List (List K)} {out : List K} (hwidth : ∀ x ∈ xs, x.length = width xs)
    (h : column index xs = .ok out) (d : K) : index < width xs ∧ out = xs.map (·.getD index d) := by
  obtain ⟨hindex, h⟩ := guard_ok.mp h
  cases h
  rw [not_le] at hindex
  refine ⟨hindex, ?_⟩
  rw [← List.filterMap_eq_map]
  refine List.filterMap_congr fun x hx => ?_
  have hlt : index < x.length := by rwa [hwidth x hx]
  rw [Function.comp_apply, List.getD_eq_getElem?_getD, List.getElem?_eq_getElem hlt, Option.getD_some]

/-- The vertical component of the up axis of a row. -/
def upZ (N : Numerics K) (row : TrackingRow K) : K :=
  let x := row.rootQuaternionWxyz.getD 1 (N.ofRat 0)
  let y := row.rootQuaternionWxyz.getD 2 (N.ofRat 0)
  N.clipUnit (N.sub (N.ofRat 1) (N.mul (N.ofRat 2) (N.add (N.mul x x) (N.mul y y))))

/-- The columns of a trace hold the values of its rows. -/
structure Loaded (N : Numerics K) (rows : List (TrackingRow K)) (t : Tracking K) : Prop where
  nonempty : rows ≠ []
  simS : t.simS = rows.map (·.simS)
  supportActive : t.supportActive = rows.map (·.supportActive)
  bodyTarget : t.bodyTarget = rows.map (·.bodyTarget)
  bodyMeasured : t.bodyMeasured = rows.map (·.bodyMeasured)
  handTarget : ∀ side, t.handTarget side = rows.map fun row => (row.handTarget side).getD []
  handMeasured : ∀ side, t.handMeasured side = rows.map (·.handMeasured side)
  rootPosition : t.rootPosition = rows.map (·.rootPosition)
  rootWidth : ∀ row ∈ rows, row.rootPosition.length = width t.rootPosition
  rootUpZ : t.rootUpZ = rows.map (upZ N)

theorem load_ok (h : loadTracking N timed rows = .ok t) : Loaded N rows t := by
  obtain ⟨hempty, h⟩ := guard_ok.mp h
  obtain ⟨quaternion, hquaternion, h⟩ := bind_ok h
  obtain ⟨x, hx, h⟩ := bind_ok h
  obtain ⟨y, hy, h⟩ := bind_ok h
  obtain ⟨bodyTarget, hbodyTarget, h⟩ := bind_ok h
  obtain ⟨bodyMeasured, hbodyMeasured, h⟩ := bind_ok h
  obtain ⟨leftTarget, hleftTarget, h⟩ := bind_ok h
  obtain ⟨leftMeasured, hleftMeasured, h⟩ := bind_ok h
  obtain ⟨rightTarget, hrightTarget, h⟩ := bind_ok h
  obtain ⟨rightMeasured, hrightMeasured, h⟩ := bind_ok h
  obtain ⟨rootPosition, hrootPosition, h⟩ := bind_ok h
  cases h
  obtain ⟨rfl, hwidth⟩ := stack_ok hquaternion
  obtain ⟨-, rfl⟩ := column_ok hwidth hx (N.ofRat 0)
  obtain ⟨-, rfl⟩ := column_ok hwidth hy (N.ofRat 0)
  obtain ⟨rfl, hroot⟩ := stack_ok hrootPosition
  refine
    { nonempty := fun h => hempty (List.isEmpty_iff.mpr h)
      simS := rfl
      supportActive := rfl
      bodyTarget := (stack_ok hbodyTarget).1
      bodyMeasured := (stack_ok hbodyMeasured).1
      handTarget := ?_
      handMeasured := ?_
      rootPosition := rfl
      rootWidth := fun row hrow => hroot _ (List.mem_map_of_mem hrow)
      rootUpZ := ?_ }
  · rintro (_ | _)
    · exact (stackHand_ok hleftTarget).trans List.map_map
    · exact (stackHand_ok hrightTarget).trans List.map_map
  · rintro (_ | _)
    · exact (stack_ok hleftMeasured).1
    · exact (stack_ok hrightMeasured).1
  · rw [List.zipWith_map, List.zipWith_self, List.map_map, List.map_map]
    rfl

/-! ### The free window -/

theorem select_map {α β : Type} (p : α → Bool) (f : α → β) (xs : List α) :
    select (xs.map p) (xs.map f) = (xs.filter p).map f := by
  induction xs with
  | nil => rfl
  | cons x xs ih =>
    unfold select at ih ⊢
    cases hp : p x
    · rw [List.filter_cons_of_neg (Bool.not_eq_true _ ▸ hp)]
      simpa only [List.map_cons, List.zip_cons_cons, hp, List.filter_cons, Bool.false_eq_true, if_false] using ih
    · rw [List.filter_cons_of_pos hp]
      simpa only [List.map_cons, List.zip_cons_cons, hp, List.filter_cons, if_true, List.cons.injEq, true_and] using ih

theorem count_map {α : Type} (p : α → Bool) (xs : List α) : (xs.map p).count true = (xs.filter p).length := by
  rw [List.count, List.countP_map, ← List.countP_eq_length_filter]
  refine List.countP_congr fun x _ => ?_
  simp

/-- Two traces have the same flags, and the same rows where the support was not active. -/
def AgreeFree (rows rows' : List (TrackingRow K)) : Prop :=
  List.Forall₂ (fun row row' => row.supportActive = row'.supportActive ∧ (row.isFree = true → row = row')) rows rows'

theorem AgreeFree.filter (h : AgreeFree rows rows') : rows.filter (·.isFree) = rows'.filter (·.isFree) := by
  induction h with
  | nil => rfl
  | @cons row row' rows rows' hrow _ ih =>
    obtain ⟨hflag, hsame⟩ := hrow
    by_cases hfree : row.isFree = true
    · rw [← hsame hfree, List.filter_cons_of_pos hfree, List.filter_cons_of_pos hfree, ih]
    · have hfree' : ¬row'.isFree = true := by rwa [TrackingRow.isFree, ← hflag]
      rw [List.filter_cons_of_neg hfree, List.filter_cons_of_neg hfree', ih]

theorem Loaded.freeWindow (h : Loaded N rows t) (hfree : ∃ row ∈ rows, row.supportActive = false) :
    Sonic.freeWindow t = rows.map (·.isFree) := by
  have hmask : t.supportActive.map (!·) = rows.map (·.isFree) := by
    rw [h.supportActive, List.map_map]
    rfl
  obtain ⟨row, hrow, hflag⟩ := hfree
  unfold Sonic.freeWindow
  rw [hmask]
  refine if_pos (List.any_eq_true.mpr ⟨row.isFree, List.mem_map_of_mem hrow, ?_⟩)
  rw [TrackingRow.isFree, hflag]
  rfl

/-- What the metrics read of two traces under their masks is the same. -/
structure SameSelection (mask mask' : List Bool) (t t' : Tracking K) : Prop where
  count : mask.count true = mask'.count true
  simS : select mask t.simS = select mask' t'.simS
  bodyTarget : select mask t.bodyTarget = select mask' t'.bodyTarget
  bodyMeasured : select mask t.bodyMeasured = select mask' t'.bodyMeasured
  handTarget : ∀ side, select mask (t.handTarget side) = select mask' (t'.handTarget side)
  handMeasured : ∀ side, select mask (t.handMeasured side) = select mask' (t'.handMeasured side)
  heights : (column 2 t.rootPosition).map (select mask) = (column 2 t'.rootPosition).map (select mask')
  rootUpZ : select mask t.rootUpZ = select mask' t'.rootUpZ

theorem SameSelection.stability {mask mask' : List Bool} (h : SameSelection mask mask' t t') :
    stabilityMetrics N t mask = stabilityMetrics N t' mask' := by
  have hheights := h.heights
  unfold stabilityMetrics
  rw [h.rootUpZ, h.count]
  cases hcolumn : column 2 t.rootPosition with
  | error e =>
    cases hcolumn' : column 2 t'.rootPosition with
    | error e' =>
      rw [hcolumn, hcolumn'] at hheights
      cases hheights
      rfl
    | ok heights' =>
      rw [hcolumn, hcolumn'] at hheights
      cases hheights
  | ok heights =>
    cases hcolumn' : column 2 t'.rootPosition with
    | error e' =>
      rw [hcolumn, hcolumn'] at hheights
      cases hheights
    | ok heights' =>
      rw [hcolumn, hcolumn'] at hheights
      have hselect : select mask heights = select mask' heights' := Except.ok.inj hheights
      dsimp only [bind, Except.bind]
      rw [hselect]

/-- The metrics of a window depend on what it selects only. -/
theorem SameSelection.metrics {window : Window} {mask mask' : List Bool} (h : SameSelection mask mask' t t')
    (hmask : windowMask N t window = .ok mask) (hmask' : windowMask N t' window = .ok mask') :
    trackingMetrics N t window = trackingMetrics N t' window := by
  unfold trackingMetrics
  rw [hmask, hmask']
  dsimp only [bind, Except.bind]
  rw [h.bodyTarget, h.bodyMeasured, h.handTarget .left, h.handMeasured .left, h.handTarget .right, h.handMeasured .right,
    h.stability, h.simS, h.count]

theorem Loaded.heights (h : Loaded N rows t) {row : TrackingRow K} (hrow : row ∈ rows) :
    (column 2 t.rootPosition).map (select (rows.map (·.isFree))) =
      if row.rootPosition.length ≤ 2 then .error .noColumn
      else .ok ((rows.filter (·.isFree)).map fun row => row.rootPosition.getD 2 (N.ofRat 0)) := by
  cases hcolumn : column 2 t.rootPosition with
  | error e =>
    have hnarrow : width t.rootPosition ≤ 2 := by
      by_contra hwide
      rw [column, if_neg hwide] at hcolumn
      cases hcolumn
    rw [column, if_pos hnarrow] at hcolumn
    cases hcolumn
    rw [if_pos (by rwa [h.rootWidth row hrow])]
    rfl
  | ok heights =>
    have hwidth : ∀ x ∈ t.rootPosition, x.length = width t.rootPosition := by
      intro x hx
      have hx' := hx
      rw [h.rootPosition] at hx'
      obtain ⟨row', hrow', rfl⟩ := List.mem_map.mp hx'
      exact h.rootWidth row' hrow'
    obtain ⟨hwide, rfl⟩ := column_ok hwidth hcolumn (N.ofRat 0)
    rw [if_neg (by rw [h.rootWidth row hrow]; exact not_le.mpr hwide)]
    refine congrArg Except.ok ?_
    rw [h.rootPosition, List.map_map, select_map]
    rfl

theorem Loaded.sameSelection (h : Loaded N rows t) (h' : Loaded N rows' t') (hagree : AgreeFree rows rows')
    (hfree : ∃ row ∈ rows, row.supportActive = false) :
    SameSelection (rows.map (·.isFree)) (rows'.map (·.isFree)) t t' := by
  have hfilter := hagree.filter
  have hcolumn {β : Type} (f : TrackingRow K → β) :
      select (rows.map (·.isFree)) (rows.map f) = select (rows'.map (·.isFree)) (rows'.map f) := by
    rw [select_map, select_map, hfilter]
  obtain ⟨row, hrow, hflag⟩ := hfree
  have hfreeRow : row ∈ rows.filter (·.isFree) := List.mem_filter.mpr ⟨hrow, by rw [TrackingRow.isFree, hflag]; rfl⟩
  have hrow' : row ∈ rows' := (List.mem_filter.mp (hfilter ▸ hfreeRow)).1
  exact
    { count := by rw [count_map, count_map, hfilter]
      simS := by rw [h.simS, h'.simS, hcolumn]
      bodyTarget := by rw [h.bodyTarget, h'.bodyTarget, hcolumn]
      bodyMeasured := by rw [h.bodyMeasured, h'.bodyMeasured, hcolumn]
      handTarget := fun side => by rw [h.handTarget, h'.handTarget, hcolumn]
      handMeasured := fun side => by rw [h.handMeasured, h'.handMeasured, hcolumn]
      heights := by rw [h.heights hrow, h'.heights hrow', hfilter]
      rootUpZ := by rw [h.rootUpZ, h'.rootUpZ, hcolumn] }

/-! ### A robot that hangs -/

/-- A row of a robot that hangs upright in the band. -/
def hangingRow (N : Numerics K) : TrackingRow K where
  tick := 0
  simS := N.ofRat 0
  wallTimeNs := 0
  supportActive := true
  bodyTarget := List.replicate 29 (N.ofRat 0)
  bodyMeasured := List.replicate 29 (N.ofRat 0)
  handTarget _ := some (List.replicate 7 (N.ofRat 0))
  handMeasured _ := List.replicate 7 (N.ofRat 0)
  rootPosition := [N.ofRat 0, N.ofRat 0, N.ofRat 1]
  rootQuaternionWxyz := [N.ofRat 1, N.ofRat 0, N.ofRat 0, N.ofRat 0]

section
variable {n : ℕ} {x y : List K}

theorem stack_replicate : stack (List.replicate (n + 1) x) = .ok (List.replicate (n + 1) x) := by
  refine if_neg fun hany => ?_
  obtain ⟨z, hz, hlen⟩ := List.any_eq_true.mp hany
  obtain ⟨-, rfl⟩ := List.mem_replicate.mp hz
  exact of_decide_eq_true hlen rfl

theorem stackHand_replicate : stackHand (List.replicate (n + 1) (some x)) = .ok (List.replicate (n + 1) x) := by
  have hnone : ¬((List.replicate (n + 1) (some x)).any (·.isNone)) = true := by
    intro hany
    obtain ⟨v, hv, hisNone⟩ := List.any_eq_true.mp hany
    obtain ⟨-, rfl⟩ := List.mem_replicate.mp hv
    cases hisNone
  rw [stackHand, if_neg hnone, List.filterMap_replicate_of_some (f := id) (show id (some x) = some x from rfl), stack_replicate]

theorem column_replicate {index : ℕ} {a : K} (h : x[index]? = some a) :
    column index (List.replicate (n + 1) x) = .ok (List.replicate (n + 1) a) := by
  have hindex : ¬width (List.replicate (n + 1) x) ≤ index := not_le.mpr (List.getElem?_eq_some_iff.mp h).1
  rw [column, if_neg hindex]
  exact congrArg Except.ok (List.filterMap_replicate_of_some h)

theorem select_replicate {α : Type} (a : α) : select (List.replicate n true) (List.replicate n a) = List.replicate n a := by
  have h := select_map (fun _ => true) (fun _ => a) (List.range n)
  rwa [List.map_const', List.map_const', List.filter_true, List.map_const', List.length_range] at h

theorem jointErrorMetrics_replicate {names : List String} (hx : x.length = names.length) (hy : y.length = names.length) :
    ∃ errors, jointErrorMetrics N (List.replicate (n + 1) x) (List.replicate (n + 1) y) names = .ok errors := by
  have hshape : ¬((List.replicate (n + 1) x).length ≠ (List.replicate (n + 1) y).length ∨
      width (List.replicate (n + 1) x) ≠ width (List.replicate (n + 1) y)) := by
    rintro (hlen | hwidth)
    · exact hlen (by rw [List.length_replicate, List.length_replicate])
    · exact hwidth (hx.trans hy.symm)
  have hnames : ¬width (List.replicate (n + 1) x) ≠ names.length := not_not.mpr hx
  rw [jointErrorMetrics, if_neg hshape, if_neg hnames]
  exact ⟨_, rfl⟩

end

variable (N timed) in
/-- A trace of rows with the support only is scored, however long it is. -/
theorem hanging_scored (n : ℕ) : ∃ t m, loadTracking N timed (List.replicate (n + 1) (hangingRow N)) = .ok t ∧
    trackingMetrics N t .free = .ok m := by
  obtain ⟨t, ht⟩ : ∃ t, loadTracking N timed (List.replicate (n + 1) (hangingRow N)) = .ok t := by
    unfold loadTracking
    simp only [List.map_replicate, hangingRow, stack_replicate, stackHand_replicate]
    dsimp only [bind, Except.bind]
    rw [column_replicate rfl, column_replicate rfl]
    exact ⟨_, rfl⟩
  have hloaded := load_ok ht
  have hall : freeWindow t = List.replicate (n + 1) true := by
    unfold freeWindow
    rw [hloaded.supportActive]
    simp [hangingRow]
  have hnames : (List.replicate 29 (N.ofRat 0)).length = bodyJointOrder.length := List.length_replicate
  have hcolumns (side : Side) : (List.replicate 7 (N.ofRat 0)).length = (handColumns side).length := by
    rw [List.length_replicate, handColumns, List.length_map, List.length_range]
  have hupright : t.rootUpZ = List.replicate (n + 1) (upZ N (hangingRow N)) := by rw [hloaded.rootUpZ, List.map_replicate]
  have hheights : column 2 t.rootPosition = .ok (List.replicate (n + 1) (N.ofRat 1)) := by
    rw [hloaded.rootPosition, List.map_replicate]
    exact column_replicate rfl
  obtain ⟨body, hbody⟩ : ∃ body, jointErrorMetrics N (select (List.replicate (n + 1) true) t.bodyTarget)
      (select (List.replicate (n + 1) true) t.bodyMeasured) bodyJointOrder = .ok body := by
    rw [hloaded.bodyTarget, hloaded.bodyMeasured, List.map_replicate, List.map_replicate, select_replicate, select_replicate]
    exact jointErrorMetrics_replicate hnames hnames
  have hhand (side : Side) : ∃ hand, jointErrorMetrics N (select (List.replicate (n + 1) true) (t.handTarget side))
      (select (List.replicate (n + 1) true) (t.handMeasured side)) (handColumns side) = .ok hand := by
    rw [hloaded.handTarget, hloaded.handMeasured, List.map_replicate, List.map_replicate, select_replicate, select_replicate]
    exact jointErrorMetrics_replicate (hcolumns side) (hcolumns side)
  obtain ⟨left, hleft⟩ := hhand .left
  obtain ⟨right, hright⟩ := hhand .right
  obtain ⟨stability, hstability⟩ : ∃ stability, stabilityMetrics N t (List.replicate (n + 1) true) = .ok stability := by
    unfold stabilityMetrics
    rw [hupright, hheights]
    dsimp only [bind, Except.bind]
    rw [select_replicate, select_replicate, List.map_replicate, List.getLast?_replicate, List.getLast?_replicate]
    exact ⟨_, rfl⟩
  refine ⟨t, ?_⟩
  unfold trackingMetrics windowMask
  rw [hall]
  dsimp only [bind, Except.bind]
  rw [hbody, hleft, hright, hstability]
  exact ⟨_, ht, rfl⟩

theorem AgreeFree.hanging (h : ∀ row ∈ rows, row.supportActive = true) :
    AgreeFree rows (List.replicate rows.length (hangingRow N)) := by
  induction rows with
  | nil => exact .nil
  | cons row rows ih =>
    have hrow : row.supportActive = true := h row List.mem_cons_self
    refine .cons ⟨hrow, fun hfree => ?_⟩ (ih fun row hrow => h row (List.mem_cons_of_mem _ hrow))
    rw [TrackingRow.isFree, hrow] at hfree
    cases hfree

/-- The metrics of the free window depend on the rows without the support only, and a trace without one is refused: so it is exactly
    where there is such a row. -/
theorem free_window_scoring (hload : loadTracking N timed rows = .ok t) :
    ((∀ rows' t', loadTracking N timed rows' = .ok t' → AgreeFree rows rows' →
        trackingMetrics N t' .free = trackingMetrics N t .free) ∧
      ((∀ row ∈ rows, row.supportActive = true) → ∃ e, trackingMetrics N t .free = .error e)) ↔
    ∃ row ∈ rows, row.supportActive = false := by
  have hloaded := load_ok hload
  constructor
  · rintro ⟨hdepends, hrefused⟩
    by_contra hnone
    have hheld : ∀ row ∈ rows, row.supportActive = true := fun row hrow => by
      by_contra hflag
      exact hnone ⟨row, hrow, Bool.not_eq_true _ ▸ hflag⟩
    obtain ⟨n, hn⟩ := Nat.exists_eq_succ_of_ne_zero fun h => hloaded.nonempty (List.length_eq_zero_iff.mp h)
    obtain ⟨t', m, hload', hm⟩ := hanging_scored N timed n
    obtain ⟨e, he⟩ := hrefused hheld
    -- The supported rows are changed to those of a robot that hangs upright.
    have hagree : AgreeFree rows (List.replicate (n + 1) (hangingRow N)) := by
      rw [← Nat.succ_eq_add_one, ← hn]
      exact .hanging hheld
    have hsame := hdepends _ t' hload' hagree
    rw [hm, he] at hsame
    cases hsame
  · intro hfree
    refine ⟨fun rows' t' hload' hagree => ?_, fun hheld => ?_⟩
    · have hselect := hloaded.sameSelection (load_ok hload') hagree hfree
      have hfree' : ∃ row ∈ rows', row.supportActive = false := by
        obtain ⟨row, hrow, hflag⟩ := hfree
        have hmem : row ∈ rows.filter (·.isFree) := List.mem_filter.mpr ⟨hrow, by rw [TrackingRow.isFree, hflag]; rfl⟩
        rw [hagree.filter] at hmem
        exact ⟨row, (List.mem_filter.mp hmem).1, hflag⟩
      have hmask : windowMask N t .free = .ok _ := congrArg Except.ok (hloaded.freeWindow hfree)
      have hmask' : windowMask N t' .free = .ok _ := congrArg Except.ok ((load_ok hload').freeWindow hfree')
      exact (hselect.metrics hmask hmask').symm
    · obtain ⟨row, hrow, hflag⟩ := hfree
      cases (hheld row hrow).symm.trans hflag

/-- Exact metrics. The angle of a cosine is right where the robot stands upright, lies or stands on its head. -/
def exactNumerics : Numerics ℚ where
  ofRat x := x
  add x y := x + y
  sub x y := x - y
  mul x y := x * y
  abs x := |x|
  lt x y := x < y
  mean xs := xs.sum / xs.length
  percentile95 xs :=
    let sorted := xs.insertionSort (· ≤ ·)
    let position : ℚ := 95 / 100 * (xs.length - 1)
    let low := sorted.getD ⌊position⌋₊ 0
    low + Int.fract position * (sorted.getD (⌊position⌋₊ + 1) low - low)
  max xs := xs.foldl max (xs.headD 0)
  min xs := xs.foldl min (xs.headD 0)
  arccosDegrees x := 90 * (1 - x)

/-- A robot that is released after a row. -/
def releasedRows : List (TrackingRow ℚ) := [hangingRow exactNumerics, { hangingRow exactNumerics with supportActive := false }]

theorem free_window_scoring_released : ∃ t m, loadTracking exactNumerics true releasedRows = .ok t ∧
    trackingMetrics exactNumerics t .free = .ok m ∧ m.frames = 1 ∧
    ∀ rows' t', loadTracking exactNumerics true rows' = .ok t' → AgreeFree releasedRows rows' →
      trackingMetrics exactNumerics t' .free = .ok m := by
  obtain ⟨t, hload⟩ : ∃ t, loadTracking exactNumerics true releasedRows = .ok t := ⟨_, rfl⟩
  have hfree : ∃ row ∈ releasedRows, row.supportActive = false := ⟨_, List.mem_cons_of_mem _ List.mem_cons_self, rfl⟩
  obtain ⟨hdepends, -⟩ := (free_window_scoring hload).mpr hfree
  obtain ⟨m, hm, hframes⟩ : ∃ m, trackingMetrics exactNumerics t .free = .ok m ∧ m.frames = 1 := by
    cases hload
    exact ⟨_, rfl, rfl⟩
  exact ⟨t, m, hload, hm, hframes, fun rows' t' hload' hagree => (hdepends rows' t' hload' hagree).trans hm⟩

/-- A robot that hung in the band in every row is reported as not fallen. -/
theorem hung_run_has_not_fallen : ∃ t m, loadTracking exactNumerics true [hangingRow exactNumerics] = .ok t ∧
    t.supportActive = [true] ∧ trackingMetrics exactNumerics t .free = .ok m ∧ m.stability.fell = false ∧
    m.values.lookup "tracking.fell" = some 0 := by
  refine ⟨_, _, rfl, rfl, rfl, ?_⟩
  decide +kernel

end HumanoidLab.Sonic
