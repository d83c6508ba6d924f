import HumanoidLab.Lib.Fallible
import HumanoidLab.Lib.Sweeps
import HumanoidLab.Simulators.TargetSkeleton
import Mathlib.Order.Filter.AtTopBot.Basic

/-! What the loops of the skeleton do once they have rounds enough: the sweeps place the joints in an order that only the links decide,
    and the search for a visible ancestor ends unless it goes on forever among links that are not shown. -/

namespace HumanoidLab.Skeleton
open Fallible Filter

variable {K : Type} [Arithmetic K] {joints : List (Joint K)} {q : List (String × K)} {includePalms : Bool} {rounds : Nat}
  {j : Joint K} {s : Frames K} {known shown : List String} {link name : String}

/-! ### One joint -/

/-- The frame of a link is known. -/
def Frames.framed (s : Frames K) (link : String) (pose : Transform K) : Frames K :=
  { s with poses := Dict.set s.poses link pose }

/-- A link has its frame and is shown, with a line from one that was. -/
def Frames.drawn (s : Frames K) (link parent : String) (pose : Transform K) : Frames K :=
  let indices := Dict.set s.indices link s.points.length
  { poses := Dict.set s.poses link pose
    indices
    points := s.points ++ [pose.position]
    edges := s.edges ++ [((indices.lookup parent).getD 0, s.points.length)] }

def Supported (j : Joint K) : Prop := ∀ name, j.kind ≠ .other name

variable (q) in
theorem motion_ok_iff : (∃ m, j.motion q = .ok m) ↔ Supported j := by
  unfold Joint.motion Supported
  cases hkind : j.kind <;> simp

variable {m parentPose : Transform K}

theorem place_hidden (hm : j.motion q = .ok m) (hshown : ¬j.shown q includePalms) :
    place joints q includePalms rounds j parentPose s = .ok (s.framed j.child ((parentPose.mul j.origin).mul m)) := by
  unfold place
  rw [hm]
  exact if_neg hshown

theorem place_shown (hm : j.motion q = .ok m) (hshown : j.shown q includePalms) :
    place joints q includePalms rounds j parentPose s =
      (visibleAncestor joints s.indices j.name rounds j.parent).map fun parent =>
        s.drawn j.child parent ((parentPose.mul j.origin).mul m) := by
  unfold place
  rw [hm]
  refine (if_pos hshown).trans ?_
  show (visibleAncestor joints s.indices j.name rounds j.parent >>= fun parent => _) = _
  cases visibleAncestor joints s.indices j.name rounds j.parent <;> rfl

variable (joints q includePalms parentPose s) in
theorem place_unsupported (h : ¬Supported j) :
    ∃ e, ∀ rounds, place joints q includePalms rounds j parentPose s = .error (.raised e) := by
  cases hm : j.motion q with
  | ok m => exact absurd ((motion_ok_iff q).mp ⟨m, hm⟩) h
  | error e =>
    refine ⟨e, fun rounds => ?_⟩
    unfold place
    rw [hm]
    rfl

/-! ### All joints -/

/-- What a sweep does with a joint: nothing while its parent has no frame. -/
def settle (joints : List (Joint K)) (q : List (String × K)) (includePalms : Bool) (rounds : Nat) (s : Frames K) (j : Joint K) :
    Except Stop (Frames K) :=
  match s.poses.lookup j.parent with
  | none => .ok s
  | some parentPose => place joints q includePalms rounds j parentPose s

/-- The links with frames. -/
def Frames.Knows (s : Frames K) (known : List String) : Prop := ∀ link, link ∈ Dict.keys s.poses ↔ link ∈ known

omit [Arithmetic K] in
theorem Frames.Knows.framed (h : s.Knows known) (pose : Transform K) : (s.framed link pose).Knows (link :: known) := by
  intro x
  rw [Frames.framed, Dict.mem_keys_set, List.mem_cons, h x]

omit [Arithmetic K] in
theorem Frames.Knows.drawn (h : s.Knows known) (parent : String) (pose : Transform K) : (s.drawn link parent pose).Knows (link :: known) :=
  h.framed pose

omit [Arithmetic K] in
theorem Frames.Knows.lookup (h : s.Knows known) (hlink : link ∈ known) : ∃ pose, s.poses.lookup link = some pose :=
  Option.isSome_iff_exists.mp (Dict.lookup_isSome_iff.mpr ((h link).mpr hlink))

omit [Arithmetic K] in
theorem Frames.Knows.lookup_none (h : s.Knows known) (hlink : link ∉ known) : s.poses.lookup link = none := by
  rw [← Option.not_isSome_iff_eq_none, Dict.lookup_isSome_iff, h link]
  exact hlink

theorem place_knows {s' : Frames K} (h : s.Knows known) (hplace : place joints q includePalms rounds j parentPose s = .ok s') :
    s'.Knows (j.child :: known) := by
  by_cases hsupported : Supported j
  · obtain ⟨m, hm⟩ := (motion_ok_iff q).mpr hsupported
    by_cases hshown : j.shown q includePalms
    · rw [place_shown hm hshown] at hplace
      obtain ⟨parent, -, rfl⟩ := map_ok hplace
      exact h.drawn parent _
    · rw [place_hidden hm hshown] at hplace
      cases hplace
      exact h.framed _
  · obtain ⟨e, he⟩ := place_unsupported joints q includePalms s parentPose hsupported
    rw [he] at hplace
    cases hplace

variable {items pending : List (Joint K)}

theorem sweepJoints_eq (h : s.Knows known) :
    sweepJoints joints q includePalms rounds items s pending = (do
      let s ← (Sweeps.sweep Joint.parent Joint.child known items).1.foldlM (settle joints q includePalms rounds) s
      return (s, pending ++ (Sweeps.sweep Joint.parent Joint.child known items).2)) := by
  induction items generalizing s known pending with
  | nil => exact congrArg (fun pending => Except.ok (s, pending)) (List.append_nil pending).symm
  | cons j rest ih =>
    unfold sweepJoints Sweeps.sweep
    by_cases hparent : j.parent ∈ known
    · obtain ⟨parentPose, hpose⟩ := h.lookup hparent
      rw [hpose, if_pos hparent]
      dsimp only
      rw [List.foldlM_cons, settle, hpose]
      dsimp only
      cases hplace : place joints q includePalms rounds j parentPose s with
      | error e => rfl
      | ok s' => exact ih (place_knows h hplace)
    · rw [h.lookup_none hparent, if_neg hparent]
      refine (ih h).trans ?_
      rw [List.append_assoc]
      rfl

theorem foldlM_knows {visited : List (Joint K)} {s' : Frames K} (h : s.Knows known)
    (hgrows : Sweeps.Grows Joint.parent Joint.child known visited)
    (hfold : visited.foldlM (settle joints q includePalms rounds) s = .ok s') : s'.Knows (visited.map (·.child) ++ known) := by
  induction visited generalizing s known with
  | nil =>
    cases hfold
    exact h
  | cons j rest ih =>
    rw [List.foldlM_cons] at hfold
    obtain ⟨t, ht, hfold⟩ := bind_ok hfold
    obtain ⟨parentPose, hpose⟩ := h.lookup hgrows.1
    rw [settle, hpose] at ht
    intro link
    rw [ih (place_knows h ht) hgrows.2 hfold link]
    simp only [List.map_cons, List.cons_append, List.mem_cons, List.mem_append]
    tauto

/-- The sweeps settle the joints in order, and then refuse if one is left. -/
theorem sweepAll_eq {n : Nat} (h : s.Knows known) (hn : items.length < n) :
    sweepAll joints q includePalms rounds n items s = (do
      let s ← (Sweeps.order Joint.parent Joint.child n known items).1.foldlM (settle joints q includePalms rounds) s
      if (Sweeps.order Joint.parent Joint.child n known items).2 = [] then .ok s else .error (.raised .disconnected)) := by
  induction n generalizing s known items with
  | zero => cases hn
  | succ n ih =>
    unfold sweepAll
    cases items with
    | nil =>
      rw [Sweeps.order_of_stuck fun j hj => (by cases hj)]
      rfl
    | cons j rest =>
      rw [List.isEmpty_cons, if_neg Bool.false_ne_true, sweepJoints_eq h, List.nil_append]
      have hlen := Sweeps.sweep_length Joint.parent Joint.child known (j :: rest)
      have hgrows := Sweeps.sweep_grows Joint.parent Joint.child known (j :: rest)
      cases hvisited : (Sweeps.sweep Joint.parent Joint.child known (j :: rest)).1 with
      | nil =>
        obtain ⟨hsame, hnone⟩ := Sweeps.sweep_stuck hvisited
        rw [hsame, Sweeps.order_of_stuck hnone]
        have hleft : (if j :: rest = [] then .ok s else .error (.raised .disconnected) : Except Stop (Frames K)) =
            .error (.raised .disconnected) := if_neg (List.cons_ne_nil j rest)
        exact (if_pos rfl).trans hleft.symm
      | cons i more =>
        rw [hvisited, List.length_cons] at hlen
        unfold Sweeps.order
        dsimp only
        rw [← hvisited, List.foldlM_append, bind_assoc]
        cases hfold : (Sweeps.sweep Joint.parent Joint.child known (j :: rest)).1.foldlM (settle joints q includePalms rounds) s with
        | error e => rfl
        | ok t =>
          have hne : (Sweeps.sweep Joint.parent Joint.child known (j :: rest)).2.length ≠ (j :: rest).length := by omega
          have hshorter : (Sweeps.sweep Joint.parent Joint.child known (j :: rest)).2.length < n := by omega
          exact (if_neg hne).trans (ih (foldlM_knows h hgrows hfold) hshorter)

/-! ### The search for a visible ancestor -/

/-- The links above one, by the first joints that list them. -/
def climb (joints : List (Joint K)) : Nat → String → Option String
  | 0, link => some link
  | n + 1, link => (joints.find? (·.child = link)).bind fun predecessor => climb joints n predecessor.parent

/-- The search goes on forever. -/
def Endless (joints : List (Joint K)) (shown : List String) (link : String) : Prop :=
  ∀ n, ∃ above, climb joints n link = some above ∧ above ∉ shown

/-- The search comes to a link that is shown. -/
def Meets (joints : List (Joint K)) (shown : List String) (link : String) : Prop :=
  ∃ n, ∃ above ∈ shown, climb joints n link = some above

/-- Placing the joints in turn comes to a search without end. -/
inductive Loops (joints : List (Joint K)) (q : List (String × K)) (includePalms : Bool) : List String → List (Joint K) → Prop
  | here {shown j rest} : Supported j → j.shown q includePalms → Endless joints shown j.parent →
      Loops joints q includePalms shown (j :: rest)
  | shown {shown j rest} : Supported j → j.shown q includePalms → Meets joints shown j.parent →
      Loops joints q includePalms (j.child :: shown) rest → Loops joints q includePalms shown (j :: rest)
  | hidden {shown j rest} : Supported j → ¬j.shown q includePalms → Loops joints q includePalms shown rest →
      Loops joints q includePalms shown (j :: rest)

variable {indices : List (String × Nat)}

omit [Arithmetic K] in
theorem visibleAncestor_endless (h : Endless joints (Dict.keys indices) link) :
    visibleAncestor joints indices name rounds link = .error .unfinished := by
  induction rounds generalizing link with
  | zero => rfl
  | succ rounds ih =>
    unfold visibleAncestor
    obtain ⟨above, habove, hnot⟩ := h 0
    cases habove
    rw [if_neg fun hsome => hnot (Dict.lookup_isSome_iff.mp hsome)]
    cases hfind : joints.find? (·.child = link) with
    | none =>
      obtain ⟨above, habove, -⟩ := h 1
      rw [climb, hfind] at habove
      cases habove
    | some predecessor =>
      refine ih fun n => ?_
      obtain ⟨above, habove, hnot⟩ := h (n + 1)
      rw [climb, hfind] at habove
      exact ⟨above, habove, hnot⟩

omit [Arithmetic K] in
theorem visibleAncestor_meets (h : Meets joints (Dict.keys indices) link) {e : KinematicsError} :
    visibleAncestor joints indices name rounds link ≠ .error (.raised e) := by
  obtain ⟨n, above, hshown, habove⟩ := h
  induction rounds generalizing link n with
  | zero => exact fun heq => (by cases heq)
  | succ rounds ih =>
    unfold visibleAncestor
    by_cases hlink : (indices.lookup link).isSome
    · rw [if_pos hlink]
      exact fun heq => (by cases heq)
    rw [if_neg hlink]
    cases n with
    | zero =>
      cases habove
      exact absurd (Dict.lookup_isSome_iff.mpr hshown) hlink
    | succ n =>
      rw [climb] at habove
      cases hfind : joints.find? (·.child = link) with
      | none =>
        rw [hfind] at habove
        cases habove
      | some predecessor =>
        rw [hfind] at habove
        exact ih n habove

theorem eventually_step {p p' : Nat → Prop} (h : ∀ᶠ n in atTop, p n) (hstep : ∀ n, p n → p' (n + 1)) : ∀ᶠ n in atTop, p' n := by
  obtain ⟨n, hn⟩ := eventually_atTop.mp h
  refine eventually_atTop.mpr ⟨n + 1, fun k hk => ?_⟩
  obtain ⟨k, rfl⟩ := Nat.exists_eq_add_of_le' (Nat.one_le_of_lt hk)
  exact hstep k (hn k (Nat.le_of_succ_le_succ hk))

omit [Arithmetic K] in
theorem visibleAncestor_shown (h : link ∈ Dict.keys indices) :
    ∀ᶠ rounds in atTop, visibleAncestor joints indices name rounds link = .ok link := by
  refine eventually_step (p := fun _ => True) (.of_forall fun _ => trivial) fun rounds _ => ?_
  exact if_pos (Dict.lookup_isSome_iff.mpr h)

omit [Arithmetic K] in
theorem visibleAncestor_above {predecessor : Joint K} {r : Except Stop String} (h : link ∉ Dict.keys indices)
    (hfind : joints.find? (·.child = link) = some predecessor)
    (habove : ∀ᶠ rounds in atTop, visibleAncestor joints indices name rounds predecessor.parent = r) :
    ∀ᶠ rounds in atTop, visibleAncestor joints indices name rounds link = r := by
  refine eventually_step habove fun rounds heq => ?_
  unfold visibleAncestor
  rw [if_neg fun hsome => h (Dict.lookup_isSome_iff.mp hsome), hfind]
  exact heq

omit [Arithmetic K] in
/-- A search that is not endless comes to a link that is shown, or is refused. -/
theorem visibleAncestor_ends (name : String) (h : ¬Endless joints (Dict.keys indices) link) :
    (∃ above, Meets joints (Dict.keys indices) link ∧ ∀ᶠ rounds in atTop, visibleAncestor joints indices name rounds link = .ok above) ∨
      ∃ e, ∀ᶠ rounds in atTop, visibleAncestor joints indices name rounds link = .error (.raised e) := by
  have hstop : ∃ n, ∀ above, climb joints n link = some above → above ∈ Dict.keys indices := by
    unfold Endless at h
    push Not at h
    exact h
  clear h
  obtain ⟨n, hstop⟩ := hstop
  induction n generalizing link with
  | zero =>
    have hlink := hstop link rfl
    exact Or.inl ⟨link, ⟨0, link, hlink, rfl⟩, visibleAncestor_shown hlink⟩
  | succ n ih =>
    by_cases hlink : link ∈ Dict.keys indices
    · exact Or.inl ⟨link, ⟨0, link, hlink, rfl⟩, visibleAncestor_shown hlink⟩
    cases hfind : joints.find? (·.child = link) with
    | none =>
      refine Or.inr ⟨.noVisibleAncestor name, eventually_step (p := fun _ => True) (.of_forall fun _ => trivial) fun rounds _ => ?_⟩
      unfold visibleAncestor
      rw [if_neg fun hsome => hlink (Dict.lookup_isSome_iff.mp hsome), hfind]
    | some predecessor =>
      rw [climb, hfind] at hstop
      rcases ih hstop with ⟨above, ⟨k, shown, hshown, hclimb⟩, hends⟩ | ⟨e, hends⟩
      · refine Or.inl ⟨above, ⟨k + 1, shown, hshown, ?_⟩, visibleAncestor_above hlink hfind hends⟩
        rw [climb, hfind]
        exact hclimb
      · exact Or.inr ⟨e, visibleAncestor_above hlink hfind hends⟩

/-! ### The whole -/

/-- The links that are shown. -/
def Frames.Shows (s : Frames K) (shown : List String) : Prop := ∀ link, link ∈ Dict.keys s.indices ↔ link ∈ shown

omit [Arithmetic K] in
theorem Frames.Shows.drawn (h : s.Shows shown) (parent : String) (pose : Transform K) :
    (s.drawn link parent pose).Shows (link :: shown) := by
  intro x
  rw [Frames.drawn, Dict.mem_keys_set, List.mem_cons, h x]

omit [Arithmetic K] in
theorem Frames.Shows.endless_iff (h : s.Shows shown) : Endless joints (Dict.keys s.indices) link ↔ Endless joints shown link :=
  forall_congr' fun _ => exists_congr fun above => and_congr_right' (not_congr (h above))

omit [Arithmetic K] in
theorem Frames.Shows.meets_iff (h : s.Shows shown) : Meets joints (Dict.keys s.indices) link ↔ Meets joints shown link :=
  exists_congr fun _ => exists_congr fun above => and_congr_left' (h above)

variable {visited rest : List (Joint K)}

variable (joints q includePalms rest) in
/-- A joint whose turn comes is placed before the others. -/
theorem foldlM_next (hknows : s.Knows known) (hparent : j.parent ∈ known) : ∃ parentPose, ∀ rounds,
    (j :: rest).foldlM (settle joints q includePalms rounds) s = (do
      let s ← place joints q includePalms rounds j parentPose s
      rest.foldlM (settle joints q includePalms rounds) s) := by
  obtain ⟨parentPose, hpose⟩ := hknows.lookup hparent
  refine ⟨parentPose, fun rounds => ?_⟩
  rw [List.foldlM_cons, settle, hpose]

/-- A search without end is not left, with however many rounds. -/
theorem foldlM_loops (h : Loops joints q includePalms shown visited) (hknows : s.Knows known) (hshows : s.Shows shown)
    (hgrows : Sweeps.Grows Joint.parent Joint.child known visited) :
    visited.foldlM (settle joints q includePalms rounds) s = .error .unfinished := by
  induction h generalizing s known with
  | here hsupported hshown hendless =>
    obtain ⟨m, hm⟩ := (motion_ok_iff q).mpr hsupported
    obtain ⟨parentPose, hnext⟩ := foldlM_next joints q includePalms _ hknows hgrows.1
    rw [hnext, place_shown hm hshown, visibleAncestor_endless (hshows.endless_iff.mpr hendless)]
    rfl
  | @shown shown j rest hsupported hshown hmeets _ ih =>
    obtain ⟨m, hm⟩ := (motion_ok_iff q).mpr hsupported
    obtain ⟨parentPose, hnext⟩ := foldlM_next joints q includePalms _ hknows hgrows.1
    rw [hnext, place_shown hm hshown]
    cases hsearch : visibleAncestor joints s.indices j.name rounds j.parent with
    | error stop =>
      cases stop with
      | raised e => exact absurd hsearch (visibleAncestor_meets (hshows.meets_iff.mpr hmeets))
      | unfinished => rfl
    | ok parent => exact ih (hknows.drawn parent _) (hshows.drawn parent _) hgrows.2
  | hidden hsupported hshown _ ih =>
    obtain ⟨m, hm⟩ := (motion_ok_iff q).mpr hsupported
    obtain ⟨parentPose, hnext⟩ := foldlM_next joints q includePalms _ hknows hgrows.1
    rw [hnext, place_hidden hm hshown]
    exact ih (hknows.framed _) hshows hgrows.2

/-- With rounds enough, joints without such a search are all placed or refused. -/
theorem foldlM_ends (h : ¬Loops joints q includePalms shown visited) (hknows : s.Knows known) (hshows : s.Shows shown)
    (hgrows : Sweeps.Grows Joint.parent Joint.child known visited) :
    (∃ s', ∀ᶠ rounds in atTop, visited.foldlM (settle joints q includePalms rounds) s = .ok s') ∨
      ∃ e, ∀ᶠ rounds in atTop, visited.foldlM (settle joints q includePalms rounds) s = .error (.raised e) := by
  induction visited generalizing s known shown with
  | nil => exact Or.inl ⟨s, .of_forall fun _ => rfl⟩
  | cons j rest ih =>
    obtain ⟨parentPose, hnext⟩ := foldlM_next joints q includePalms rest hknows hgrows.1
    simp only [hnext]
    by_cases hsupported : Supported j
    · obtain ⟨m, hm⟩ := (motion_ok_iff q).mpr hsupported
      by_cases hshown : j.shown q includePalms
      · simp only [place_shown hm hshown]
        have hends : ¬Endless joints (Dict.keys s.indices) j.parent := fun hendless =>
          h (.here hsupported hshown (hshows.endless_iff.mp hendless))
        rcases visibleAncestor_ends j.name hends with ⟨above, hmeets, hsearch⟩ | ⟨e, hsearch⟩
        · have hrest := ih (fun hloops => h (.shown hsupported hshown (hshows.meets_iff.mp hmeets) hloops))
            (hknows.drawn above ((parentPose.mul j.origin).mul m)) (hshows.drawn above _) hgrows.2
          rcases hrest with ⟨s', hs'⟩ | ⟨e, he⟩
          · refine Or.inl ⟨s', (hsearch.and hs').mono fun rounds hrounds => ?_⟩
            rw [hrounds.1]
            exact hrounds.2
          · refine Or.inr ⟨e, (hsearch.and he).mono fun rounds hrounds => ?_⟩
            rw [hrounds.1]
            exact hrounds.2
        · refine Or.inr ⟨e, hsearch.mono fun rounds hrounds => ?_⟩
          rw [hrounds]
          rfl
      · simp only [place_hidden hm hshown]
        exact ih (fun hloops => h (.hidden hsupported hshown hloops)) (hknows.framed _) hshows hgrows.2
    · obtain ⟨e, he⟩ := place_unsupported joints q includePalms s parentPose hsupported
      refine Or.inr ⟨e, .of_forall fun rounds => ?_⟩
      rw [he rounds]
      rfl

end HumanoidLab.Skeleton
