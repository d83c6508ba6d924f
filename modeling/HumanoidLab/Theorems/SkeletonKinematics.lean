import HumanoidLab.Lib.Forest
import HumanoidLab.Theorems.SkeletonSweeps

/-! The skeleton of a pose. Joints that form a tree below the pelvis are drawn alike in whatever order they are listed: each link that
    is shown stands where its path from the pelvis leads, with a line from the nearest link above it that is shown. Other joints are
    refused, unless the search for a visible ancestor comes to links that hang from each other first. -/

namespace HumanoidLab.Skeleton
open Fallible Filter

variable {K : Type} [Arithmetic K] {joints others : List (Joint K)} {q : List (String × K)} {includePalms : Bool} {rounds : Nat}
  {rootPosition : Vec3 K} {rootQuaternion : Quat K} {root : Transform K} {link above : String} {m m' : Transform K}

/-! ### Where a link stands -/

/-- The joints form a tree below the pelvis, and each is of a kind that moves or is fixed. -/
structure IsTree (joints : List (Joint K)) : Prop where
  rooted : Forest.Rooted "pelvis" (joints.map fun j => (j.parent, j.child))
  supported : ∀ j ∈ joints, Supported j

/-- The frame of a link, along a path from the pelvis. -/
inductive PoseAt (joints : List (Joint K)) (q : List (String × K)) (root : Transform K) : String → Transform K → Prop
  | pelvis : PoseAt joints q root "pelvis" root
  | joint (j : Joint K) (motion : Transform K) {parentPose : Transform K} : j ∈ joints → j.motion q = .ok motion →
      PoseAt joints q root j.parent parentPose → PoseAt joints q root j.child ((parentPose.mul j.origin).mul motion)

/-- The pelvis is shown, and so is the child of each joint that is. -/
def IsShown (joints : List (Joint K)) (q : List (String × K)) (includePalms : Bool) (link : String) : Prop :=
  link = "pelvis" ∨ ∃ j ∈ joints, j.shown q includePalms ∧ j.child = link

/-- The nearest link at or above one that is shown. -/
inductive NearestShown (joints : List (Joint K)) (q : List (String × K)) (includePalms : Bool) : String → String → Prop
  | here {link : String} : IsShown joints q includePalms link → NearestShown joints q includePalms link link
  | up (j : Joint K) {above : String} : j ∈ joints → ¬IsShown joints q includePalms j.child →
      NearestShown joints q includePalms j.parent above → NearestShown joints q includePalms j.child above

/-- Every joint hangs from a link that joints lead to from the pelvis. -/
def Reachable (joints : List (Joint K)) : Prop := ∀ j ∈ joints, Sweeps.Reach Joint.parent Joint.child "pelvis" joints j.parent

/-- What is drawn stays the same in whatever order the joints are listed: a point for the root and one for each joint that is shown,
    with one line to each of those from the nearest link above that is shown. -/
def Drawn (joints : List (Joint K)) (q : List (String × K)) (includePalms : Bool) (rootPosition : Vec3 K) (rootQuaternion : Quat K) :
    Prop :=
  ∃ (pose : String → Transform K) (above : String → String),
    (∀ j ∈ joints, j.shown q includePalms → PoseAt joints q (rootTransform rootPosition rootQuaternion) j.child (pose j.child) ∧
      NearestShown joints q includePalms j.parent (above j.child)) ∧
    ∀ others : List (Joint K), others.Perm joints →
      ∃ links : List String, links.Perm ((joints.filter (·.shown q includePalms)).map (·.child)) ∧
        ∀ᶠ rounds in atTop, points others q includePalms rounds rootPosition rootQuaternion =
          .ok (rootPosition :: links.map fun link => (pose link).position,
            links.zipIdx.map fun (link, i) => (("pelvis" :: links).idxOf (above link), i + 1))

/-- With rounds enough, an error is raised. -/
def Refused (joints : List (Joint K)) (q : List (String × K)) (includePalms : Bool) (rootPosition : Vec3 K) (rootQuaternion : Quat K) :
    Prop :=
  ∃ e, ∀ᶠ rounds in atTop, points joints q includePalms rounds rootPosition rootQuaternion = .error (.raised e)

/-! ### The points of the joints in order -/

/-- The order in which joints are placed: each once its parent is, in sweeps. -/
def placements (joints : List (Joint K)) : List (Joint K) :=
  (Sweeps.order Joint.parent Joint.child joints.length ["pelvis"] joints).1

def Frames.start (rootPosition : Vec3 K) (rootQuaternion : Quat K) : Frames K :=
  ⟨[("pelvis", rootTransform rootPosition rootQuaternion)], [rootPosition], [("pelvis", 0)], []⟩

theorem start_knows : (Frames.start rootPosition rootQuaternion).Knows ["pelvis"] := fun _ => Iff.rfl

theorem start_shows : (Frames.start rootPosition rootQuaternion).Shows ["pelvis"] := fun _ => Iff.rfl

theorem points_eq (hq : ∀ name ∈ Dict.keys q, name ∈ actuated joints) (hrounds : joints.length < rounds) :
    points joints q includePalms rounds rootPosition rootQuaternion = (do
      let s ← (placements joints).foldlM (settle joints q includePalms rounds) (.start rootPosition rootQuaternion)
      if (Sweeps.order Joint.parent Joint.child joints.length ["pelvis"] joints).2 = [] then .ok (s.points, s.edges)
      else .error (.raised .disconnected)) := by
  have hknown : (Dict.keys q).filter (fun name => name ∉ actuated joints) = [] := by
    refine List.filter_eq_nil_iff.mpr fun name hname => ?_
    simpa using hq name hname
  unfold points
  rw [hknown]
  refine (if_neg fun h => h rfl).trans ?_
  show (sweepAll joints q includePalms rounds rounds joints (.start rootPosition rootQuaternion) >>= fun s => _) = _
  rw [sweepAll_eq start_knows hrounds, Sweeps.order_eq hrounds.le (Nat.le_refl _), bind_assoc]
  refine bind_congr fun s => ?_
  by_cases hstuck : (Sweeps.order Joint.parent Joint.child joints.length ["pelvis"] joints).2 = []
  · rw [if_pos hstuck, if_pos hstuck]
    rfl
  · rw [if_neg hstuck, if_neg hstuck]
    rfl

omit [Arithmetic K] in
theorem reachable_iff : (Sweeps.order Joint.parent Joint.child joints.length ["pelvis"] joints).2 = [] ↔ Reachable joints :=
  Sweeps.order_complete_iff (Nat.le_refl _)

omit [Arithmetic K] in
theorem placements_grow (joints : List (Joint K)) : Sweeps.Grows Joint.parent Joint.child ["pelvis"] (placements joints) :=
  Sweeps.order_grows _ _ _ _ _

theorem points_loop (hq : ∀ name ∈ Dict.keys q, name ∈ actuated joints)
    (h : Loops joints q includePalms ["pelvis"] (placements joints)) :
    ∀ᶠ rounds in atTop, points joints q includePalms rounds rootPosition rootQuaternion = .error .unfinished := by
  refine (eventually_gt_atTop joints.length).mono fun rounds hrounds => ?_
  rw [points_eq hq hrounds, foldlM_loops h start_knows start_shows (placements_grow joints)]
  rfl

/-- What does not hang below the pelvis is refused, unless a search goes on forever first. -/
theorem refused_iff (hq : ∀ name ∈ Dict.keys q, name ∈ actuated joints) (hreach : ¬Reachable joints) :
    Refused joints q includePalms rootPosition rootQuaternion ↔ ¬Loops joints q includePalms ["pelvis"] (placements joints) := by
  have hstuck := mt reachable_iff.mp hreach
  constructor
  · rintro ⟨e, he⟩ hloops
    obtain ⟨rounds, hrefused, hloop⟩ := (he.and (points_loop hq hloops)).exists
    cases hrefused.symm.trans hloop
  · intro hloops
    rcases foldlM_ends hloops start_knows start_shows (placements_grow joints) with ⟨s, hs⟩ | ⟨e, he⟩
    · refine ⟨.disconnected, (hs.and (eventually_gt_atTop joints.length)).mono fun rounds hrounds => ?_⟩
      rw [points_eq hq hrounds.2, hrounds.1]
      exact if_neg hstuck
    · refine ⟨e, (he.and (eventually_gt_atTop joints.length)).mono fun rounds hrounds => ?_⟩
      rw [points_eq hq hrounds.2, hrounds.1]
      rfl

/-! ### Trees -/

theorem PoseAt.inv (h : PoseAt joints q root link m) : link = "pelvis" ∧ m = root ∨
    ∃ j ∈ joints, ∃ motion parentPose, j.child = link ∧ j.motion q = .ok motion ∧ PoseAt joints q root j.parent parentPose ∧
      m = (parentPose.mul j.origin).mul motion := by
  cases h with
  | pelvis => exact Or.inl ⟨rfl, rfl⟩
  | joint j motion hj hmotion hparent => exact Or.inr ⟨j, hj, motion, _, rfl, hmotion, hparent, rfl⟩

omit [Arithmetic K] in
theorem NearestShown.inv (h : NearestShown joints q includePalms link above) :
    IsShown joints q includePalms link ∧ above = link ∨
      ¬IsShown joints q includePalms link ∧ ∃ j ∈ joints, j.child = link ∧ NearestShown joints q includePalms j.parent above := by
  cases h with
  | here hshown => exact Or.inl ⟨hshown, rfl⟩
  | up j hj hshown hparent => exact Or.inr ⟨hshown, j, hj, rfl, hparent⟩

theorem PoseAt.mono (h : PoseAt joints q root link m) (hsub : joints ⊆ others) : PoseAt others q root link m := by
  induction h with
  | pelvis => exact .pelvis
  | joint j motion hj hmotion _ ih => exact .joint j motion (hsub hj) hmotion ih

omit [Arithmetic K] in
theorem NearestShown.perm (h : NearestShown joints q includePalms link above) (hperm : others.Perm joints) :
    NearestShown others q includePalms link above := by
  have hshown : ∀ link, IsShown others q includePalms link ↔ IsShown joints q includePalms link := fun link =>
    or_congr_right (exists_congr fun j => and_congr_left' hperm.mem_iff)
  induction h with
  | here h => exact .here ((hshown _).mpr h)
  | up j hj h _ ih => exact .up j (hperm.mem_iff.mpr hj) (mt (hshown _).mp h) ih

section
variable (htree : IsTree joints) {j j' : Joint K}
include htree

omit [Arithmetic K] in
theorem IsTree.perm (hperm : others.Perm joints) : IsTree others where
  rooted := htree.rooted.perm (hperm.map _)
  supported j hj := htree.supported j (hperm.mem_iff.mp hj)

omit [Arithmetic K] in
theorem IsTree.nodup : (joints.map (·.child)).Nodup := by
  have h := htree.rooted.nodup
  rw [List.map_map] at h
  exact h

omit [Arithmetic K] in
theorem IsTree.joint_unique (hj : j ∈ joints) (hj' : j' ∈ joints) (h : j.child = j'.child) : j = j' :=
  List.inj_on_of_nodup_map htree.nodup hj hj' h

omit [Arithmetic K] in
theorem IsTree.child_ne (hj : j ∈ joints) : j.child ≠ "pelvis" := by
  intro h
  refine htree.rooted.root_top (h ▸ ?_)
  rw [List.map_map]
  exact List.mem_map_of_mem hj

omit [Arithmetic K] in
theorem IsTree.induction {p : String → Prop} (hstep : ∀ link, (∀ j ∈ joints, j.child = link → p j.parent) → p link) (link : String) :
    p link := by
  induction link using htree.rooted.wellFounded.induction with
  | _ link ih => exact hstep link fun j hj hchild => ih j.parent (List.mem_map.mpr ⟨j, hj, hchild ▸ rfl⟩)

theorem IsTree.pose_unique (h : PoseAt joints q root link m) (h' : PoseAt joints q root link m') : m = m' := by
  induction h generalizing m' with
  | pelvis =>
    rcases h'.inv with ⟨-, rfl⟩ | ⟨j, hj, -, -, hchild, -⟩
    · rfl
    · exact absurd hchild (htree.child_ne hj)
  | joint j motion hj hmotion _ ih =>
    rcases h'.inv with ⟨hchild, -⟩ | ⟨j', hj', motion', parentPose', hchild, hmotion', hparent', rfl⟩
    · exact absurd hchild (htree.child_ne hj)
    · obtain rfl := htree.joint_unique hj' hj hchild
      rw [ih hparent', Except.ok.inj (hmotion.symm.trans hmotion')]

omit [Arithmetic K] in
theorem IsTree.above_unique {above' : String} (h : NearestShown joints q includePalms link above)
    (h' : NearestShown joints q includePalms link above') : above = above' := by
  induction h with
  | here hshown =>
    rcases h'.inv with ⟨-, rfl⟩ | ⟨hnot, -⟩
    · rfl
    · exact absurd hshown hnot
  | up j hj hnot _ ih =>
    rcases h'.inv with ⟨hshown, -⟩ | ⟨-, j', hj', hchild, hparent⟩
    · exact absurd hshown hnot
    · exact ih (htree.joint_unique hj' hj hchild ▸ hparent)

omit [Arithmetic K] in
theorem IsTree.reachable : Reachable joints := by
  have hreach : ∀ link, Relation.ReflTransGen (fun p c => (p, c) ∈ joints.map fun j => (j.parent, j.child)) "pelvis" link →
      Sweeps.Reach Joint.parent Joint.child "pelvis" joints link := by
    intro link h
    induction h with
    | refl => exact .root
    | tail _ hstep ih =>
      obtain ⟨j, hj, heq⟩ := List.mem_map.mp hstep
      cases heq
      exact .step j hj ih
  intro j hj
  have hedge : (j.parent, j.child) ∈ joints.map fun j => (j.parent, j.child) := List.mem_map_of_mem hj
  rcases Relation.ReflTransGen.cases_tail (htree.rooted.reach _ hedge) with heq | ⟨p, hp, hstep⟩
  · exact absurd heq (htree.child_ne hj)
  · obtain rfl := htree.rooted.parent_unique hstep hedge
    exact hreach _ hp

end
/-! ### Drawing a tree -/

/-- The links that joints show, in order. -/
def shownLinks (joints : List (Joint K)) (q : List (String × K)) (includePalms : Bool) : List String :=
  (joints.filter (·.shown q includePalms)).map (·.child)

/-- What is drawn after some joints: their frames, and the points and the lines of those that are shown. -/
structure DrawnSoFar (joints : List (Joint K)) (q : List (String × K)) (includePalms : Bool) (root : Transform K)
    (rootPosition : Vec3 K) (pose : String → Transform K) (above : String → String) (placed : List (Joint K)) (s : Frames K) : Prop where
  knows : s.Knows (placed.map (·.child) ++ ["pelvis"])
  poses : ∀ link m, s.poses.lookup link = some m → PoseAt joints q root link m
  points : s.points = rootPosition :: (shownLinks placed q includePalms).map fun link => (pose link).position
  indices : s.indices = ("pelvis" :: shownLinks placed q includePalms).zipIdx
  above_mem : ∀ link ∈ shownLinks placed q includePalms, above link ∈ "pelvis" :: shownLinks placed q includePalms
  edges : s.edges = (shownLinks placed q includePalms).zipIdx.map fun (link, i) =>
    (("pelvis" :: shownLinks placed q includePalms).idxOf (above link), i + 1)

section
variable {placed rest : List (Joint K)} {j : Joint K} {s : Frames K} {pose : String → Transform K} {nearest : String → String}

omit [Arithmetic K] in
theorem shownLinks_shown (placed : List (Joint K)) (h : j.shown q includePalms) :
    shownLinks (placed ++ [j]) q includePalms = shownLinks placed q includePalms ++ [j.child] := by
  unfold shownLinks
  rw [List.filter_append, List.map_append, List.filter_singleton, h]
  rfl

omit [Arithmetic K] in
theorem shownLinks_hidden (placed : List (Joint K)) (h : ¬j.shown q includePalms) :
    shownLinks (placed ++ [j]) q includePalms = shownLinks placed q includePalms := by
  unfold shownLinks
  rw [List.filter_append, List.map_append, List.filter_singleton, Bool.eq_false_iff.mpr h]
  exact List.append_nil _

omit [Arithmetic K] in
theorem mem_shownLinks : link ∈ shownLinks placed q includePalms ↔ ∃ j ∈ placed, j.shown q includePalms ∧ j.child = link := by
  unfold shownLinks
  simp only [List.mem_map, List.mem_filter, and_assoc]

/-- The lines that were drawn stay when a link is added. -/
theorem lines_append {links : List String} (new : String) (h : ∀ link ∈ links, nearest link ∈ "pelvis" :: links) :
    (links ++ [new]).zipIdx.map (fun (link, i) => (("pelvis" :: (links ++ [new])).idxOf (nearest link), i + 1)) =
      links.zipIdx.map (fun (link, i) => (("pelvis" :: links).idxOf (nearest link), i + 1)) ++
        [(("pelvis" :: (links ++ [new])).idxOf (nearest new), links.length + 1)] := by
  rw [List.zipIdx_append, List.map_append, List.zipIdx_singleton, List.map_singleton, Nat.zero_add]
  refine congrArg (· ++ _) (List.map_congr_left fun entry hentry => ?_)
  obtain ⟨link, i⟩ := entry
  have hlink : link ∈ links := (List.zipIdx_map_fst 0 links) ▸ List.mem_map_of_mem (f := Prod.fst) hentry
  exact congrArg (·, i + 1) (List.idxOf_append_of_mem (h link hlink))

theorem drawnSoFar_start : DrawnSoFar joints q includePalms (rootTransform rootPosition rootQuaternion) rootPosition pose nearest []
    (.start rootPosition rootQuaternion) where
  knows := start_knows
  poses link m h := by
    unfold Frames.start at h
    rw [List.lookup_cons] at h
    by_cases hlink : link = "pelvis"
    · subst hlink
      cases h
      exact .pelvis
    · rw [beq_false_of_ne hlink] at h
      cases h
  points := rfl
  indices := rfl
  above_mem link h := (by cases h)
  edges := rfl

/-- The search from a link that is placed comes to the nearest one that is shown. -/
theorem DrawnSoFar.search (htree : IsTree joints)
    (h : DrawnSoFar joints q includePalms root rootPosition pose nearest placed s) (hplaced : placed ⊆ joints)
    (hgrows : Sweeps.Grows Joint.parent Joint.child ["pelvis"] placed) (name : String) :
    ∀ link ∈ placed.map (·.child) ++ ["pelvis"], ∃ above, NearestShown joints q includePalms link above ∧
      above ∈ "pelvis" :: shownLinks placed q includePalms ∧
      ∀ᶠ rounds in atTop, visibleAncestor joints s.indices name rounds link = .ok above := by
  intro link
  induction link using htree.induction with
  | hstep link ih =>
    intro hlink
    have hkeys : Dict.keys s.indices = "pelvis" :: shownLinks placed q includePalms := h.indices ▸ Dict.keys_zipIdx _
    by_cases hshown : link ∈ "pelvis" :: shownLinks placed q includePalms
    · refine ⟨link, .here ?_, hshown, visibleAncestor_shown (hkeys ▸ hshown)⟩
      rcases List.mem_cons.mp hshown with rfl | hmem
      · exact Or.inl rfl
      · obtain ⟨j, hj, hj'⟩ := mem_shownLinks.mp hmem
        exact Or.inr ⟨j, hplaced hj, hj'⟩
    · rw [List.mem_cons, not_or] at hshown
      rcases List.mem_append.mp hlink with hchild | hpelvis
      · obtain ⟨j, hj, rfl⟩ := List.mem_map.mp hchild
        obtain ⟨above, hnearest, habove, hsearch⟩ := ih j (hplaced hj) rfl (hgrows.parents j hj)
        -- The joint that lists the link is the only one, and is not shown.
        have hfind : joints.find? (·.child = j.child) = some j := by
          cases hfind : joints.find? (·.child = j.child) with
          | none => exact absurd (List.find?_eq_none.mp hfind j (hplaced hj)) (by simp)
          | some j' =>
            have hsame : j'.child = j.child := by simpa using List.find?_some hfind
            rw [htree.joint_unique (List.mem_of_find?_eq_some hfind) (hplaced hj) hsame]
        have hhidden : ¬IsShown joints q includePalms j.child := by
          rintro (hpelvis | ⟨j', hj', hshown', hsame⟩)
          · exact hshown.1 hpelvis
          · obtain rfl := htree.joint_unique hj' (hplaced hj) hsame
            exact hshown.2 (mem_shownLinks.mpr ⟨j', hj, hshown', rfl⟩)
        refine ⟨above, .up j (hplaced hj) hhidden hnearest, habove, visibleAncestor_above (fun hmem => ?_) hfind hsearch⟩
        rw [hkeys, List.mem_cons] at hmem
        exact hmem.elim hshown.1 hshown.2
      · exact absurd (List.mem_singleton.mp hpelvis) hshown.1

omit [Arithmetic K] in
theorem mem_placed (j : Joint K) (link : String) : link ∈ j.child :: (placed.map (·.child) ++ ["pelvis"]) ↔
    link ∈ (placed ++ [j]).map (·.child) ++ ["pelvis"] := by
  simp only [List.map_append, List.map_cons, List.map_nil, List.mem_cons, List.mem_append]
  tauto

theorem DrawnSoFar.poses_set (h : DrawnSoFar joints q includePalms root rootPosition pose nearest placed s)
    (hchild : PoseAt joints q root j.child m) :
    ∀ link m', (Dict.set s.poses j.child m).lookup link = some m' → PoseAt joints q root link m' := by
  intro link m' hm'
  rw [Dict.lookup_set] at hm'
  split at hm'
  · rename_i hlink
    cases hm'
    exact hlink ▸ hchild
  · exact h.poses link m' hm'

/-- A joint that is not shown leaves the points and the lines. -/
theorem DrawnSoFar.framed (h : DrawnSoFar joints q includePalms root rootPosition pose nearest placed s)
    (hshown : ¬j.shown q includePalms) (hchild : PoseAt joints q root j.child m) :
    DrawnSoFar joints q includePalms root rootPosition pose nearest (placed ++ [j]) (s.framed j.child m) := by
  have hlinks := shownLinks_hidden placed hshown
  refine ⟨fun link => (h.knows.framed _ link).trans (mem_placed j link), h.poses_set hchild, ?_, ?_, ?_, ?_⟩
  · rw [hlinks]
    exact h.points
  · rw [hlinks]
    exact h.indices
  · rw [hlinks]
    exact h.above_mem
  · rw [hlinks]
    exact h.edges

/-- One that is shown adds its point, and a line from the nearest link above. -/
theorem DrawnSoFar.drawn (h : DrawnSoFar joints q includePalms root rootPosition pose nearest placed s)
    (hshown : j.shown q includePalms) (hchild : PoseAt joints q root j.child m) (hpose : m = pose j.child)
    (hnot : j.child ∉ "pelvis" :: shownLinks placed q includePalms)
    (habove : nearest j.child ∈ "pelvis" :: shownLinks placed q includePalms) :
    DrawnSoFar joints q includePalms root rootPosition pose nearest (placed ++ [j]) (s.drawn j.child (nearest j.child) m) := by
  have hlinks := shownLinks_shown placed hshown
  have hlength : s.points.length = ("pelvis" :: shownLinks placed q includePalms).length := by
    rw [h.points, List.length_cons, List.length_map, List.length_cons]
  have hindices : Dict.set s.indices j.child s.points.length =
      ("pelvis" :: (shownLinks placed q includePalms ++ [j.child])).zipIdx := by
    rw [h.indices, hlength, Dict.set_zipIdx hnot]
    rfl
  refine ⟨fun link => (h.knows.drawn _ _ link).trans (mem_placed j link), h.poses_set hchild, ?_, ?_, ?_, ?_⟩
  · rw [hlinks, List.map_append, ← List.cons_append, ← h.points, List.map_singleton, ← hpose]
    rfl
  · rw [hlinks]
    exact hindices
  · rw [hlinks]
    intro link hlink
    rw [← List.cons_append]
    rcases List.mem_append.mp hlink with hold | hnew
    · exact List.mem_append_left _ (h.above_mem link hold)
    · exact List.mem_append_left _ (List.mem_singleton.mp hnew ▸ habove)
  · rw [hlinks, lines_append j.child h.above_mem, ← h.edges]
    have hnearer := List.mem_append_left [j.child] habove
    refine congrArg (fun line => s.edges ++ [line]) (Prod.ext ?_ ?_)
    · show ((Dict.set s.indices j.child s.points.length).lookup (nearest j.child)).getD 0 = _
      rw [hindices, ← List.cons_append, Dict.lookup_zipIdx hnearer]
      rfl
    · exact hlength

/-- The next joint is drawn too. -/
theorem DrawnSoFar.step (htree : IsTree joints)
    (hpose : ∀ link m, PoseAt joints q root link m → m = pose link)
    (hnearest : ∀ i ∈ joints, ∀ above, NearestShown joints q includePalms i.parent above → above = nearest i.child)
    (h : DrawnSoFar joints q includePalms root rootPosition pose nearest placed s) (hplaced : placed ⊆ joints)
    (hgrows : Sweeps.Grows Joint.parent Joint.child ["pelvis"] placed) (hj : j ∈ joints)
    (hfresh : j.child ∉ placed.map (·.child)) (hparent : j.parent ∈ placed.map (·.child) ++ ["pelvis"]) :
    ∃ s', DrawnSoFar joints q includePalms root rootPosition pose nearest (placed ++ [j]) s' ∧
      ∀ᶠ rounds in atTop, settle joints q includePalms rounds s j = .ok s' := by
  obtain ⟨motion, hmotion⟩ := (motion_ok_iff q).mpr (htree.supported j hj)
  obtain ⟨parentPose, hlookup⟩ := h.knows.lookup hparent
  have hchild : PoseAt joints q root j.child ((parentPose.mul j.origin).mul motion) :=
    .joint j motion hj hmotion (h.poses _ _ hlookup)
  simp only [settle, hlookup]
  by_cases hshown : j.shown q includePalms
  · obtain ⟨above, hnear, habove, hsearch⟩ := h.search htree hplaced hgrows j.name j.parent hparent
    obtain rfl := hnearest j hj above hnear
    have hnot : j.child ∉ "pelvis" :: shownLinks placed q includePalms := by
      rw [List.mem_cons, not_or]
      refine ⟨htree.child_ne hj, fun hmem => ?_⟩
      obtain ⟨i, hi, -, hsame⟩ := mem_shownLinks.mp hmem
      exact hfresh (List.mem_map.mpr ⟨i, hi, hsame⟩)
    refine ⟨_, h.drawn hshown hchild (hpose _ _ hchild) hnot habove, hsearch.mono fun rounds hrounds => ?_⟩
    rw [place_shown hmotion hshown, hrounds]
    rfl
  · exact ⟨_, h.framed hshown hchild, .of_forall fun rounds => place_hidden hmotion hshown⟩

/-- All joints are drawn, one after the other. -/
theorem DrawnSoFar.run (htree : IsTree joints)
    (hpose : ∀ link m, PoseAt joints q root link m → m = pose link)
    (hnearest : ∀ i ∈ joints, ∀ above, NearestShown joints q includePalms i.parent above → above = nearest i.child)
    (h : DrawnSoFar joints q includePalms root rootPosition pose nearest placed s) (hsub : placed ++ rest ⊆ joints)
    (hnodup : ((placed ++ rest).map (·.child)).Nodup) (hgrows : Sweeps.Grows Joint.parent Joint.child ["pelvis"] (placed ++ rest)) :
    ∃ s', DrawnSoFar joints q includePalms root rootPosition pose nearest (placed ++ rest) s' ∧
      ∀ᶠ rounds in atTop, rest.foldlM (settle joints q includePalms rounds) s = .ok s' := by
  induction rest generalizing placed s with
  | nil => exact ⟨s, (List.append_nil placed).symm ▸ h, .of_forall fun _ => rfl⟩
  | cons j rest ih =>
    have hfresh : j.child ∉ placed.map (·.child) := by
      rw [List.map_append, List.map_cons] at hnodup
      intro hmem
      exact List.disjoint_of_nodup_append hnodup hmem List.mem_cons_self
    obtain ⟨t, ht, hsettle⟩ := h.step htree hpose hnearest (fun i hi => hsub (List.mem_append_left _ hi)) hgrows.left
      (hsub (List.mem_append_right _ List.mem_cons_self)) hfresh hgrows.next
    rw [List.append_cons] at hsub hnodup hgrows ⊢
    obtain ⟨s', hs', hrest⟩ := ih ht hsub hnodup hgrows
    refine ⟨s', hs', (hsettle.and hrest).mono fun rounds hrounds => ?_⟩
    rw [List.foldlM_cons, hrounds.1]
    exact hrounds.2

end

omit [Arithmetic K] in
theorem IsTree.placements_perm (htree : IsTree joints) : (placements joints).Perm joints := by
  have hall := Sweeps.order_perm Joint.parent Joint.child joints.length ["pelvis"] joints
  rw [reachable_iff.mpr htree.reachable, List.append_nil] at hall
  exact hall

section
variable {pose : String → Transform K} {nearest : String → String}

theorem IsTree.run (htree : IsTree joints)
    (hpose : ∀ link m, PoseAt joints q (rootTransform rootPosition rootQuaternion) link m → m = pose link)
    (hnearest : ∀ i ∈ joints, ∀ above, NearestShown joints q includePalms i.parent above → above = nearest i.child) :
    ∃ s, DrawnSoFar joints q includePalms (rootTransform rootPosition rootQuaternion) rootPosition pose nearest (placements joints) s ∧
      ∀ᶠ rounds in atTop, (placements joints).foldlM (settle joints q includePalms rounds) (.start rootPosition rootQuaternion) =
        .ok s :=
  DrawnSoFar.run htree hpose hnearest drawnSoFar_start htree.placements_perm.subset
    ((htree.placements_perm.map _).nodup_iff.mpr htree.nodup) (placements_grow joints)

/-- What was drawn of a tree is returned. -/
theorem IsTree.points_eq (htree : IsTree joints) (hq : ∀ name ∈ Dict.keys q, name ∈ actuated joints)
    (hpose : ∀ link m, PoseAt joints q (rootTransform rootPosition rootQuaternion) link m → m = pose link)
    (hnearest : ∀ i ∈ joints, ∀ above, NearestShown joints q includePalms i.parent above → above = nearest i.child) :
    ∀ᶠ rounds in atTop, points joints q includePalms rounds rootPosition rootQuaternion =
      .ok (rootPosition :: (shownLinks (placements joints) q includePalms).map fun link => (pose link).position,
        (shownLinks (placements joints) q includePalms).zipIdx.map fun (link, i) =>
          (("pelvis" :: shownLinks (placements joints) q includePalms).idxOf (nearest link), i + 1)) := by
  obtain ⟨s, hs, hrun⟩ := htree.run hpose hnearest
  refine (hrun.and (eventually_gt_atTop joints.length)).mono fun rounds hrounds => ?_
  rw [Skeleton.points_eq hq hrounds.2, hrounds.1]
  refine (if_pos (reachable_iff.mpr htree.reachable)).trans ?_
  rw [hs.points, hs.edges]

end

/-- A tree is drawn, and alike in whatever order it is listed. -/
theorem IsTree.drawn (htree : IsTree joints) (hq : ∀ name ∈ Dict.keys q, name ∈ actuated joints) :
    Drawn joints q includePalms rootPosition rootQuaternion := by
  have hposes : ∀ link, ∃ m, ∀ m', PoseAt joints q (rootTransform rootPosition rootQuaternion) link m' → m' = m := by
    intro link
    by_cases h : ∃ m, PoseAt joints q (rootTransform rootPosition rootQuaternion) link m
    · obtain ⟨m, hm⟩ := h
      exact ⟨m, fun m' hm' => htree.pose_unique hm' hm⟩
    · exact ⟨rootTransform rootPosition rootQuaternion, fun m' hm' => absurd ⟨m', hm'⟩ h⟩
  have haboves : ∀ link, ∃ above, ∀ j ∈ joints, j.child = link → ∀ above',
      NearestShown joints q includePalms j.parent above' → above' = above := by
    intro link
    by_cases h : ∃ j ∈ joints, j.child = link ∧ ∃ above, NearestShown joints q includePalms j.parent above
    · obtain ⟨j, hj, rfl, above, habove⟩ := h
      refine ⟨above, fun i hi hsame above' habove' => htree.above_unique ?_ habove⟩
      exact htree.joint_unique hi hj hsame ▸ habove'
    · exact ⟨link, fun j hj hsame above' habove' => absurd ⟨j, hj, hsame, above', habove'⟩ h⟩
  choose pose hpose using hposes
  choose nearest hnearest using haboves
  have hnearest' : ∀ i ∈ joints, ∀ above, NearestShown joints q includePalms i.parent above → above = nearest i.child :=
    fun i hi => hnearest i.child i hi rfl
  refine ⟨pose, nearest, fun j hj _ => ?_, fun others hperm => ?_⟩
  · obtain ⟨s, hs, -⟩ := htree.run hpose hnearest'
    have hplaced := htree.placements_perm.mem_iff.mpr hj
    constructor
    · obtain ⟨m, hm⟩ := hs.knows.lookup (List.mem_append_left _ (List.mem_map_of_mem hplaced))
      have hm' := hs.poses _ _ hm
      exact hpose _ _ hm' ▸ hm'
    · have hparent := (placements_grow joints).parents j hplaced
      obtain ⟨above, habove, -, -⟩ := hs.search htree htree.placements_perm.subset (placements_grow joints) j.name _ hparent
      exact hnearest' j hj above habove ▸ habove
  · have htree' := htree.perm hperm
    refine ⟨shownLinks (placements others) q includePalms, ((htree'.placements_perm.trans hperm).filter _).map _, ?_⟩
    refine htree'.points_eq (fun name hname => ?_) (fun link m hm => hpose link m (hm.mono hperm.subset))
      fun i hi above habove => hnearest' i (hperm.mem_iff.mp hi) above (habove.perm hperm.symm)
    exact ((hperm.filter _).map _).mem_iff.mpr (hq name hname)

/-- The skeleton of a tree is drawn link by link, whatever the order of the joints; joints that do not hang below the pelvis are
    refused, except where the search from a joint that is shown goes on forever before the last sweep is over. -/
theorem skeleton_kinematics (hq : ∀ name ∈ Dict.keys q, name ∈ actuated joints) :
    (IsTree joints → Drawn joints q includePalms rootPosition rootQuaternion) ∧
        (¬Reachable joints → Refused joints q includePalms rootPosition rootQuaternion) ↔
      (¬Reachable joints → ¬Loops joints q includePalms ["pelvis"] (placements joints)) := by
  constructor
  · intro h hreach
    exact (refused_iff hq hreach).mp (h.2 hreach)
  · intro h
    exact ⟨fun htree => htree.drawn hq, fun hreach => (refused_iff hq hreach).mpr (h hreach)⟩

/-- A joint at the frame of its parent. -/
def hinge (name : String) (kind : JointKind) (parent child : String) : Joint ℝ :=
  ⟨name, kind, parent, child, fun i j => if i = j then 1 else 0, ⟨1, 0, 0⟩⟩

/-- A hand below an arm, listed before it. -/
def arm : List (Joint ℝ) := [hinge "wrist" .fixed "arm" "left_hand_palm_link", hinge "shoulder" .revolute "pelvis" "arm"]

theorem arm_tree : IsTree arm := by
  have hup : Relation.ReflTransGen (fun p c => (p, c) ∈ arm.map fun j => (j.parent, j.child)) "pelvis" "arm" :=
    .single (by decide)
  refine ⟨⟨by decide, by decide, fun e he => ?_⟩, fun j hj => ?_⟩
  · have hedges : e ∈ [("arm", "left_hand_palm_link"), ("pelvis", "arm")] := he
    simp only [List.mem_cons, List.not_mem_nil, or_false] at hedges
    rcases hedges with rfl | rfl
    · exact hup.tail (by decide)
    · exact hup
  · simp only [arm, List.mem_cons, List.not_mem_nil, or_false] at hj
    rcases hj with rfl | rfl
    · exact fun name h => (by cases h)
    · exact fun name h => (by cases h)

theorem skeleton_kinematics_arm : IsTree arm ∧ Drawn arm [("shoulder", 0)] true ⟨0, 0, 1⟩ ⟨1, 0, 0, 0⟩ :=
  ⟨arm_tree, ((skeleton_kinematics (by decide)).mpr fun hreach => absurd arm_tree.reachable hreach).1 arm_tree⟩

/-- A link that is below itself, from which a link hangs that also hangs from the pelvis. -/
def selfHung : List (Joint ℝ) :=
  [hinge "spare" .fixed "x" "a", hinge "loop" .fixed "x" "x", hinge "waist" .fixed "pelvis" "a", hinge "knee" .revolute "a" "b"]

theorem selfHung_unreachable : ¬Reachable selfHung := by
  have hnot : ∀ link, Sweeps.Reach Joint.parent Joint.child "pelvis" selfHung link → link ≠ "x" := by
    intro link h
    induction h with
    | root => decide
    | step j hj _ ih =>
      simp only [selfHung, List.mem_cons, List.not_mem_nil, or_false] at hj
      rcases hj with rfl | rfl | rfl | rfl
      · exact absurd rfl ih
      · exact absurd rfl ih
      · decide
      · decide
  exact fun h => hnot "x" (h _ List.mem_cons_self) rfl

theorem selfHung_loops : Loops selfHung [("knee", 0)] true ["pelvis"] (placements selfHung) := by
  have hsame : ∀ n, climb selfHung n "x" = some "x" := by
    intro n
    induction n with
    | zero => rfl
    | succ n ih => exact ih
  have hendless : Endless selfHung ["pelvis"] "a" := by
    intro n
    cases n with
    | zero => exact ⟨"a", rfl, by decide⟩
    | succ n => exact ⟨"x", hsame n, by decide⟩
  -- The waist is placed and not shown, and the search of the knee starts at the link that it holds.
  have hplaced : placements selfHung = [hinge "waist" .fixed "pelvis" "a", hinge "knee" .revolute "a" "b"] := rfl
  rw [hplaced]
  exact .hidden (fun name h => (by cases h)) (by decide) (.here (fun name h => (by cases h)) (by decide) hendless)

theorem selfHung_endless : ¬((IsTree selfHung → Drawn selfHung [("knee", 0)] true ⟨0, 0, 1⟩ ⟨1, 0, 0, 0⟩) ∧
    (¬Reachable selfHung → Refused selfHung [("knee", 0)] true ⟨0, 0, 1⟩ ⟨1, 0, 0, 0⟩)) := by
  rintro ⟨-, hrefused⟩
  exact (refused_iff (by decide) selfHung_unreachable).mp (hrefused selfHung_unreachable) selfHung_loops

end HumanoidLab.Skeleton
