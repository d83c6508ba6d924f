import HumanoidLab.Theorems.Dex3Requests

/-! What the policy of the Dex3 server is asked: one prediction at a time, session after session, each from a reset and with its numbers in
    order, whoever sends the requests. Its queue of jobs never overflows, which would end the serving thread. -/

namespace HumanoidLab.FluxDex3
open Concurrency

variable {S : Type} {config : NodeConfig} {timeout : ℚ} {policy : Policy S} {s t : System S} {j : Journal}

/-! ### What is outstanding -/

/-- The request that a result is for. -/
def ServerResult.token : ServerResult → Option Nat
  | .loaded _ => none
  | .fatal _ => none
  | .prediction token _ => some token
  | .predictionError token _ => some token

/-- The job that the thread works on. -/
def PolicyThread.job : PolicyThread S → Option Job
  | .working _ job => some job
  | _ => none

namespace Server

variable {server : Server S}

/-- The jobs that are not done. -/
def todo (server : Server S) : List Job := server.thread.job.toList ++ server.jobs

def outstanding (server : Server S) : List Nat := server.results.filterMap ServerResult.token ++ server.todo.map Job.token

/-- A prediction has failed. -/
def Failed (server : Server S) : Prop := server.status = .error ∨ ∃ token text, .predictionError token text ∈ server.results

/-- What the policy is asked for in a session: a reset, and predictions with the numbers from zero. -/
def sessionCalls (block : Session × Nat) : List Call := .reset :: (List.range block.2).map (.predict block.1)

theorem sessionCalls_succ (session : Session) (n : Nat) :
    sessionCalls (session, n + 1) = sessionCalls (session, n) ++ [.predict session n] := by
  simp [sessionCalls, List.range_succ]

/-- The turn is at the next request of the session, or at the job that is not done. -/
def Turn (server : Server S) (blocks : List (Session × Nat)) : Prop :=
  (server.todo = [] ∧ blocks.getLast? = server.sessionId.map fun session => (session, (server.lastSeq + 1).toNat)) ∨
    ∃ job, server.todo = [job] ∧ server.sessionId = some job.request.session ∧ server.lastSeq = job.request.seq ∧
      (job.newSession = true ∧ job.request.seq = 0 ∧ job.request.session ∉ blocks.map Prod.fst ∨
        job.newSession = false ∧ blocks.getLast? = some (job.request.session, job.request.seq))

theorem Turn.congr {server' : Server S} {blocks : List (Session × Nat)} (h : Turn server blocks) (htodo : server'.todo = server.todo)
    (hsession : server'.sessionId = server.sessionId) (hseq : server'.lastSeq = server.lastSeq) : Turn server' blocks := by
  unfold Turn
  rw [htodo, hsession, hseq]
  exact h

/-- The calls of the policy, in blocks of a session each. -/
structure Discipline (server : Server S) (calls : List Call) (blocks : List (Session × Nat)) : Prop where
  one : server.outstanding = (server.pending.map ServerPending.token).toList
  alive : server.crashed = false
  boot : server.status = .loading → server.pending = none ∧
    (server.thread = .loading ∧ server.results = [] ∨ ∃ r, server.results = [r] ∧ r.token = none ∧ server.thread ≠ .loading)
  booted : server.status ≠ .loading → server.thread ≠ .loading ∧ ∀ r ∈ server.results, r.token ≠ none
  stopped : server.status = .error → server.pending = none
  calls_eq : calls = blocks.flatMap sessionCalls
  distinct : (blocks.map Prod.fst).Nodup
  seen : ∀ block ∈ blocks, block.1 ∈ server.seenSessions
  current : ∀ session, server.sessionId = some session → session ∈ server.seenSessions
  asked : ∀ block ∈ blocks.dropLast, 0 < block.2
  turn : server.Failed ∨ (∀ block ∈ blocks, 0 < block.2) ∧ Turn server blocks

theorem discipline_init : Discipline ({} : Server S) [] [] where
  one := rfl
  alive := rfl
  boot _ := ⟨rfl, Or.inl ⟨rfl, rfl⟩⟩
  booted h := absurd rfl h
  stopped h := by cases h
  calls_eq := rfl
  distinct := .nil
  seen block h := by cases h
  current session h := by cases h
  asked block h := by cases h
  turn := by
    refine Or.inr ⟨fun block h => ?_, Or.inl ⟨rfl, rfl⟩⟩
    cases h

variable {calls : List Call} {blocks : List (Session × Nat)}

/-! ### What a step of the server changes -/

theorem refusal_none {session : Session} {seq : Nat} (h : server.refusal session seq = none) :
    server.status = .ready ∧ server.pending = none ∧ (server.sessionId ≠ some session → session ∉ server.seenSessions ∧ seq = 0) ∧
      (server.sessionId = some session → (seq : Int) = server.lastSeq + 1) := by
  unfold refusal at h
  split at h
  · cases h
  next hready =>
  split at h
  · cases h
  next hpending =>
  split at h
  · cases h
  next hstale =>
  split at h
  · cases h
  next horder =>
  split at h
  · cases h
  next hstart =>
  rw [not_and, not_not] at horder hstart
  rw [not_and] at hstale
  exact ⟨not_not.mp hready, Option.not_isSome_iff_eq_none.mp hpending, fun hother => ⟨hstale hother, hstart hother⟩, horder⟩

/-- Nothing is outstanding while nothing is pending. -/
theorem Discipline.idle (h : Discipline server calls blocks) (hpending : server.pending = none) :
    server.todo = [] ∧ ∀ r ∈ server.results, r.token = none := by
  have hone := h.one
  rw [hpending] at hone
  obtain ⟨hresults, htodo⟩ := List.append_eq_nil_iff.mp hone
  exact ⟨List.map_eq_nil_iff.mp htodo, List.filterMap_eq_nil_iff.mp hresults⟩

/-- A result that is drained is the one that is waited for, and the only one. -/
theorem Discipline.settles (h : Discipline server calls blocks) {result : ServerResult} {rest : List ServerResult} {token : Nat}
    (hresults : server.results = result :: rest) (htoken : result.token = some token) :
    (∃ p, server.pending = some p ∧ p.token = token) ∧ rest = [] ∧ server.todo = [] ∧ server.status ≠ .loading ∧
      server.status ≠ .error := by
  have hloaded : server.status ≠ .loading := fun hloading => by
    rcases (h.boot hloading).2 with ⟨-, hnil⟩ | ⟨r, hr, hnone, -⟩
    · rw [hnil] at hresults
      cases hresults
    · rw [hr, List.cons.injEq] at hresults
      rw [hresults.1, htoken] at hnone
      cases hnone
  have hone := h.one
  unfold outstanding at hone
  rw [hresults, List.filterMap_cons_some htoken, List.cons_append] at hone
  obtain ⟨p, hp⟩ : ∃ p, server.pending = some p := by
    cases hp : server.pending with
    | none =>
      rw [hp] at hone
      cases hone
    | some p => exact ⟨p, rfl⟩
  rw [hp] at hone
  obtain ⟨hsame, hnil⟩ := List.cons.inj hone
  obtain ⟨hrest, htodo⟩ := List.append_eq_nil_iff.mp hnil
  refine ⟨⟨p, hp, hsame.symm⟩, ?_, List.map_eq_nil_iff.mp htodo, hloaded, fun herror => ?_⟩
  · refine List.eq_nil_iff_forall_not_mem.mpr fun r hr => ?_
    exact (h.booted hloaded).2 r (hresults ▸ List.mem_cons_of_mem _ hr) (List.filterMap_eq_nil_iff.mp hrest r hr)
  · rw [h.stopped herror] at hp
    cases hp

theorem Discipline.notFailed (h : Discipline server calls blocks) (hready : server.status = .ready) (hpending : server.pending = none) :
    (∀ block ∈ blocks, 0 < block.2) ∧ blocks.getLast? = server.sessionId.map fun session => (session, (server.lastSeq + 1).toNat) := by
  obtain ⟨htodo, hresults⟩ := h.idle hpending
  rcases h.turn with (herror | ⟨token, text, hfailed⟩) | ⟨hasked, ⟨-, hlast⟩ | ⟨job, hjob, -⟩⟩
  · rw [hready] at herror
    cases herror
  · cases hresults _ hfailed
  · exact ⟨hasked, hlast⟩
  · rw [htodo] at hjob
    cases hjob

theorem Discipline.enqueue (h : Discipline server calls blocks) {address : Peer} {r : Request}
    (hadmitted : server.refusal r.session r.seq = none) : Discipline (server.enqueue address r) calls blocks := by
  obtain ⟨hready, hpending, hnew, hsame⟩ := refusal_none hadmitted
  obtain ⟨htodo, hresults⟩ := h.idle hpending
  obtain ⟨hthread, hjobs⟩ := List.append_eq_nil_iff.mp htodo
  obtain ⟨hasked, hlast⟩ := h.notFailed hready hpending
  have hqueue : (server.enqueue address r).jobs = [⟨server.tokens, r, decide (server.sessionId ≠ some r.session)⟩] := by
    simp [Server.enqueue, hjobs, maxJobs]
  have htodo' : (server.enqueue address r).todo = [⟨server.tokens, r, decide (server.sessionId ≠ some r.session)⟩] := by
    show server.thread.job.toList ++ (server.enqueue address r).jobs = _
    rw [hqueue, hthread]
    rfl
  refine ⟨?_, ?_, fun hloading => ?_, fun _ => h.booted (by rw [hready]; decide), fun herror => ?_, h.calls_eq, h.distinct,
    fun block hb => List.mem_cons_of_mem _ (h.seen block hb), fun session hs => Option.some.inj hs ▸ List.mem_cons_self, h.asked,
    Or.inr ⟨hasked, Or.inr ⟨_, htodo', rfl, rfl, ?_⟩⟩⟩
  · show server.results.filterMap ServerResult.token ++ (server.enqueue address r).todo.map Job.token = _
    rw [htodo', List.filterMap_eq_nil_iff.mpr hresults]
    rfl
  · simp [Server.enqueue, h.alive, hjobs, maxJobs]
  · have hloading : server.status = .loading := hloading
    rw [hready] at hloading
    cases hloading
  · have herror : server.status = .error := herror
    rw [hready] at herror
    cases herror
  · by_cases hsession : server.sessionId = some r.session
    · refine Or.inr ⟨decide_eq_false (not_not.mpr hsession), ?_⟩
      rw [hlast, hsession, ← hsame hsession]
      rfl
    · obtain ⟨hfresh, hzero⟩ := hnew hsession
      refine Or.inl ⟨decide_eq_true hsession, hzero, fun hmem => hfresh ?_⟩
      obtain ⟨block, hb, hkey⟩ := List.mem_map.mp hmem
      exact hkey ▸ h.seen block hb

theorem Discipline.load (h : Discipline server calls blocks) {result : ServerResult} {thread : PolicyThread S}
    (hthread : server.thread = .loading)
    (hloaded : (∃ identity model, result = .loaded identity ∧ thread = .waiting model) ∨
      ∃ text, result = .fatal text ∧ thread = .finished) :
    Discipline { server with results := server.results ++ [result], thread } calls blocks := by
  have hloading : server.status = .loading := not_not.mp fun hother => (h.booted hother).1 hthread
  obtain ⟨hpending, hboot⟩ := h.boot hloading
  have hempty : server.results = [] := by
    rcases hboot with ⟨-, hempty⟩ | ⟨r, -, -, hother⟩
    · exact hempty
    · exact absurd hthread hother
  obtain ⟨htodo, -⟩ := h.idle hpending
  obtain ⟨-, hjobs⟩ := List.append_eq_nil_iff.mp htodo
  have hresult : result.token = none ∧ thread.job = none ∧ thread ≠ .loading := by
    rcases hloaded with ⟨identity, model, rfl, rfl⟩ | ⟨text, rfl, rfl⟩
    · exact ⟨rfl, rfl, fun hne => by cases hne⟩
    · exact ⟨rfl, rfl, fun hne => by cases hne⟩
  obtain ⟨htoken, hjob, hother⟩ := hresult
  have htodo' : ({ server with results := server.results ++ [result], thread } : Server S).todo = [] := by
    show thread.job.toList ++ server.jobs = []
    rw [hjob, hjobs]
    rfl
  refine ⟨?_, h.alive, fun _ => ⟨hpending, Or.inr ⟨result, ?_, htoken, hother⟩⟩, fun hne => absurd hloading hne, h.stopped, h.calls_eq,
    h.distinct, h.seen, h.current, h.asked, ?_⟩
  · show (server.results ++ [result]).filterMap ServerResult.token ++ (Server.todo _).map Job.token = (server.pending.map _).toList
    rw [htodo', hempty, hpending, List.nil_append, List.filterMap_cons_none htoken]
    rfl
  · show server.results ++ [result] = [result]
    rw [hempty]
    rfl
  · rcases h.turn with (herror | ⟨token, text, hfailed⟩) | ⟨hasked, hturn⟩
    · rw [hloading] at herror
      cases herror
    · rw [hempty] at hfailed
      cases hfailed
    · exact Or.inr ⟨hasked, hturn.congr (htodo'.trans htodo.symm) rfl rfl⟩

theorem Discipline.take (h : Discipline server calls blocks) {model : S} {job : Job} {rest : List Job}
    (hthread : server.thread = .waiting model) (hjobs : server.jobs = job :: rest) :
    Discipline { server with jobs := rest, thread := .working model job } calls blocks := by
  have htodo : ({ server with jobs := rest, thread := .working model job } : Server S).todo = server.todo := by
    show [job] ++ rest = server.thread.job.toList ++ server.jobs
    rw [hthread, hjobs]
    rfl
  have hwaits : server.thread ≠ .loading := by
    rw [hthread]
    exact fun hne => by cases hne
  refine ⟨?_, h.alive, fun hloading => ?_, fun hne => ⟨?_, (h.booted hne).2⟩, h.stopped, h.calls_eq, h.distinct, h.seen, h.current, h.asked,
    h.turn.imp_right fun ⟨hasked, hturn⟩ => ⟨hasked, hturn.congr htodo rfl rfl⟩⟩
  · show server.results.filterMap ServerResult.token ++ (Server.todo _).map Job.token = _
    rw [htodo]
    exact h.one
  · obtain ⟨hpending, -⟩ := h.boot hloading
    obtain ⟨hnone, -⟩ := h.idle hpending
    rw [todo, hjobs] at hnone
    simp at hnone
  · exact fun hne => by cases hne

/-- The calls for a job. -/
def jobCalls (policy : Policy S) (job : Job) (model : S) : List Call :=
  if job.newSession then
    match policy.reset model with
    | .ok _ => [.reset, .predict job.request.session job.request.seq]
    | .error _ => [.reset]
  else [.predict job.request.session job.request.seq]

theorem work_token (job : Job) (model : S) : (work policy job model).1.token = some job.token := by
  unfold work
  split
  · rfl
  · simp only
    split <;> rfl

theorem work_reset {job : Job} {model : S} {text : String} (hnew : job.newSession = true) (hreset : policy.reset model = .error text) :
    (work policy job model).1 = .predictionError job.token text := by
  unfold work
  rw [if_pos hnew, hreset]

/-- While a job is worked on, nothing else is outstanding. -/
theorem Discipline.working (h : Discipline server calls blocks) {model : S} {job : Job} (hworking : server.thread = .working model job) :
    server.pending.map ServerPending.token = some job.token ∧ server.jobs = [] ∧ server.results = [] ∧ server.todo = [job] ∧
      server.status = .ready := by
  have htodo : server.todo = job :: server.jobs := by
    rw [todo, hworking]
    rfl
  have hone := h.one
  rw [outstanding, htodo, List.map_cons] at hone
  obtain ⟨token, htoken⟩ : ∃ token, server.pending.map ServerPending.token = some token := by
    cases hp : server.pending.map ServerPending.token with
    | none =>
      rw [hp] at hone
      simp at hone
    | some token => exact ⟨token, rfl⟩
  rw [htoken, Option.toList_some, List.append_eq_singleton_iff] at hone
  obtain ⟨hresults, hjob⟩ : server.results.filterMap ServerResult.token = [] ∧ job.token :: server.jobs.map Job.token = [token] := by
    rcases hone with hone | ⟨-, hnil⟩
    · exact hone
    · cases hnil
  obtain ⟨rfl, hjobs⟩ := List.cons.inj hjob
  have hjobs := List.map_eq_nil_iff.mp hjobs
  have hpending : server.pending ≠ none := fun hnone => by
    rw [hnone] at htoken
    cases htoken
  have hready : server.status = .ready := by
    cases hstatus : server.status with
    | loading => exact absurd (h.boot hstatus).1 hpending
    | ready => rfl
    | error => exact absurd (h.stopped hstatus) hpending
  refine ⟨htoken, hjobs, List.eq_nil_iff_forall_not_mem.mpr fun r hr => ?_, by rw [htodo, hjobs], hready⟩
  exact (h.booted (by rw [hready]; decide)).2 r hr (List.filterMap_eq_nil_iff.mp hresults r hr)

/-- A job is done. -/
theorem Discipline.work (h : Discipline server calls blocks) (policy : Policy S) {model : S} {job : Job}
    (hworking : server.thread = .working model job) :
    ∃ blocks', Discipline { server with
      results := server.results ++ [(Server.work policy job model).1]
      thread := .waiting (Server.work policy job model).2 } (calls ++ jobCalls policy job model) blocks' := by
  obtain ⟨htoken, hjobs, hempty, htodo, hready⟩ := h.working hworking
  have hdone : ∀ blocks' : List (Session × Nat), calls ++ jobCalls policy job model = blocks'.flatMap sessionCalls →
      (blocks'.map Prod.fst).Nodup → (∀ block ∈ blocks', block.1 ∈ server.seenSessions) → (∀ block ∈ blocks'.dropLast, 0 < block.2) →
      ((∃ token text, (Server.work policy job model).1 = .predictionError token text) ∨ (∀ block ∈ blocks', 0 < block.2) ∧
        blocks'.getLast? = server.sessionId.map fun session => (session, (server.lastSeq + 1).toNat)) →
      Discipline { server with
        results := server.results ++ [(Server.work policy job model).1]
        thread := .waiting (Server.work policy job model).2 } (calls ++ jobCalls policy job model) blocks' := by
    intro blocks' hcalls hdistinct hseen hasked hturn
    refine ⟨?_, h.alive, fun hloading => ?_, fun _ => ⟨?_, fun r hr => ?_⟩, h.stopped, hcalls, hdistinct, hseen,
      h.current, hasked, hturn.imp (fun ⟨token, text, hfailed⟩ => Or.inr ⟨token, text, ?_⟩) fun hlast => ⟨hlast.1, Or.inl ⟨hjobs, hlast.2⟩⟩⟩
    · show (server.results ++ [_]).filterMap ServerResult.token ++ ([] ++ server.jobs).map Job.token = _
      rw [hempty, hjobs, List.nil_append, List.filterMap_cons_some (work_token job model), htoken]
      rfl
    · have hloading : server.status = .loading := hloading
      rw [hready] at hloading
      cases hloading
    · exact fun hne => by cases hne
    · rw [hempty] at hr
      rw [List.mem_singleton.mp hr, work_token]
      exact fun hne => by cases hne
    · exact hfailed ▸ List.mem_append_right _ (List.mem_singleton_self _)
  obtain ⟨hasked, hturn⟩ : (∀ block ∈ blocks, 0 < block.2) ∧ Turn server blocks := by
    rcases h.turn with (herror | ⟨token, text, hfailed⟩) | hturn
    · rw [hready] at herror
      cases herror
    · rw [hempty] at hfailed
      cases hfailed
    · exact hturn
  rcases hturn with ⟨hnil, -⟩ | ⟨job', hjob, hsession, hseq, hnew⟩
  · rw [htodo] at hnil
    cases hnil
  obtain rfl : job = job' := List.singleton_inj.mp (htodo.symm.trans hjob)
  have hseen := h.current _ hsession
  rcases hnew with ⟨hnew, hzero, hfresh⟩ | ⟨hsame, hlast⟩
  · have hblock : ∀ n, ((blocks ++ [(job.request.session, n)]).map Prod.fst).Nodup ∧
        (∀ block ∈ blocks ++ [(job.request.session, n)], block.1 ∈ server.seenSessions) ∧
        ∀ block ∈ (blocks ++ [(job.request.session, n)]).dropLast, 0 < block.2 := by
      intro n
      refine ⟨?_, fun block hb => ?_, fun block hb => ?_⟩
      · rw [List.map_append, List.nodup_append]
        refine ⟨h.distinct, List.nodup_singleton _, ?_⟩
        rintro session hold _ hadded rfl
        have hsame : session = job.request.session := List.mem_singleton.mp hadded
        exact hfresh (hsame ▸ hold)
      · rcases List.mem_append.mp hb with hb | hb
        · exact h.seen block hb
        · exact List.mem_singleton.mp hb ▸ hseen
      · rw [List.dropLast_concat] at hb
        exact hasked block hb
    cases hreset : policy.reset model with
    | error text =>
      have hcalls : jobCalls policy job model = sessionCalls (job.request.session, 0) := by
        rw [jobCalls, if_pos hnew, hreset]
        rfl
      obtain ⟨hdistinct, hknown, hpositive⟩ := hblock 0
      refine ⟨_, hdone _ ?_ hdistinct hknown hpositive (Or.inl ⟨_, _, work_reset hnew hreset⟩)⟩
      rw [hcalls, h.calls_eq, List.flatMap_append, List.flatMap_singleton]
    | ok model' =>
      have hcalls : jobCalls policy job model = sessionCalls (job.request.session, 1) := by
        rw [jobCalls, if_pos hnew, hreset, hzero]
        rfl
      obtain ⟨hdistinct, hknown, hpositive⟩ := hblock 1
      refine ⟨_, hdone _ ?_ hdistinct hknown hpositive (Or.inr ⟨fun block hb => ?_, ?_⟩)⟩
      · rw [hcalls, h.calls_eq, List.flatMap_append, List.flatMap_singleton]
      · rcases List.mem_append.mp hb with hb | hb
        · exact hasked block hb
        · rw [List.mem_singleton.mp hb]
          exact Nat.one_pos
      · rw [List.getLast?_concat, hsession, hseq, hzero]
        rfl
  · obtain ⟨before, rfl⟩ := List.getLast?_eq_some_iff.mp hlast
    have hcalls : jobCalls policy job model = [.predict job.request.session job.request.seq] := by
      rw [jobCalls, hsame, if_neg Bool.false_ne_true]
    have hbefore : ∀ block ∈ before, 0 < block.2 := fun block hb => hasked block (List.mem_append_left _ hb)
    refine ⟨before ++ [(job.request.session, job.request.seq + 1)], hdone _ ?_ ?_ (fun block hb => ?_) (fun block hb => ?_)
      (Or.inr ⟨fun block hb => ?_, ?_⟩)⟩
    · rw [hcalls, h.calls_eq, List.flatMap_append, List.flatMap_append, List.flatMap_singleton, List.flatMap_singleton, sessionCalls_succ,
        List.append_assoc]
    · have hdistinct := h.distinct
      rw [List.map_append] at hdistinct ⊢
      exact hdistinct
    · rcases List.mem_append.mp hb with hb | hb
      · exact h.seen block (List.mem_append_left _ hb)
      · exact List.mem_singleton.mp hb ▸ hseen
    · rw [List.dropLast_concat] at hb
      exact hbefore block hb
    · rcases List.mem_append.mp hb with hb | hb
      · exact hbefore block hb
      · rw [List.mem_singleton.mp hb]
        exact Nat.succ_pos _
    · rw [List.getLast?_concat, hsession, hseq]
      rfl

theorem Discipline.drain (h : Discipline server calls blocks) {result : ServerResult} {rest : List ServerResult}
    (hresults : server.results = result :: rest) :
    Discipline (({ server with results := rest } : Server S).drain result).2 calls blocks := by
  have hboots : result.token = none → rest = [] ∧ server.pending = none ∧ server.status = .loading ∧ server.thread ≠ .loading := by
    intro hnone
    have hloading : server.status = .loading := not_not.mp fun hother =>
      (h.booted hother).2 result (hresults ▸ List.mem_cons_self) hnone
    obtain ⟨hpending, ⟨-, hnil⟩ | ⟨r, hr, -, hthread⟩⟩ := h.boot hloading
    · rw [hnil] at hresults
      cases hresults
    · exact ⟨(List.cons.inj (hresults.symm.trans hr)).2, hpending, hloading, hthread⟩
  -- Nothing is outstanding once the last result is gone.
  have hdone : ∀ (status : ServerStatus) (identity error : String), rest = [] → server.todo = [] → status ≠ .loading →
      server.thread ≠ .loading → (status = .error ∨ (∀ block ∈ blocks, 0 < block.2) ∧ Turn server blocks) →
      Discipline { server with results := rest, pending := none, status, identity, error } calls blocks := by
    intro status identity error hrest htodo hstatus hthread hturn
    refine ⟨?_, h.alive, fun hloading => absurd hloading hstatus, fun _ => ⟨hthread, fun r hr => ?_⟩, fun _ => rfl, h.calls_eq, h.distinct,
      h.seen, h.current, h.asked, hturn.imp Or.inl fun hlast => ⟨hlast.1, hlast.2.congr rfl rfl rfl⟩⟩
    · show rest.filterMap ServerResult.token ++ server.todo.map Job.token = []
      rw [hrest, htodo]
      rfl
    · rw [hrest] at hr
      cases hr
  cases result with
  | loaded identity =>
    obtain ⟨hrest, hpending, hloading, hthread⟩ := hboots rfl
    have hturn : (∀ block ∈ blocks, 0 < block.2) ∧ Turn server blocks := by
      rcases h.turn with (herror | ⟨token, text, hfailed⟩) | hturn
      · rw [hloading] at herror
        cases herror
      · rw [hresults, hrest] at hfailed
        cases List.mem_singleton.mp hfailed
      · exact hturn
    have hready := hdone .ready identity server.error hrest (h.idle hpending).1 (by decide) hthread (Or.inr hturn)
    rw [← hpending] at hready
    exact hready
  | fatal text =>
    obtain ⟨hrest, hpending, -, hthread⟩ := hboots rfl
    have hstopped := hdone .error server.identity (textOr "model load failed" text) hrest (h.idle hpending).1 (by decide) hthread
      (Or.inl rfl)
    rw [← hpending] at hstopped
    exact hstopped
  | prediction token reply =>
    obtain ⟨⟨p, hp, htoken⟩, hrest, htodo, hloaded, hsound⟩ := h.settles hresults rfl
    have hturn : (∀ block ∈ blocks, 0 < block.2) ∧ Turn server blocks := by
      rcases h.turn with (herror | ⟨token, text, hfailed⟩) | hturn
      · exact absurd herror hsound
      · rw [hresults, hrest] at hfailed
        cases List.mem_singleton.mp hfailed
      · exact hturn
    unfold Server.drain
    simp only [hp]
    rw [if_pos htoken]
    exact hdone server.status server.identity server.error hrest htodo hloaded (h.booted hloaded).1 (Or.inr hturn)
  | predictionError token text =>
    obtain ⟨⟨p, hp, htoken⟩, hrest, htodo, hloaded, -⟩ := h.settles hresults rfl
    unfold Server.drain
    simp only [hp]
    rw [if_pos htoken]
    exact hdone .error server.identity _ hrest htodo (by decide) (h.booted hloaded).1 (Or.inl rfl)

end Server

/-! ### Runs -/

theorem callsOf_working {model : S} {job : Job} (loaded : Except String (String × S)) (hworking : s.server.thread = .working model job) :
    Journal.callsOf policy s (.policy loaded) = Server.jobCalls policy job model := by
  cases hreset : policy.reset model <;> simp only [Journal.callsOf, hworking, Server.jobCalls, hreset]

theorem discipline_move {x y : System S × Journal} (hmove : Move config policy x y)
    (h : ∃ blocks, Server.Discipline x.1.server x.2.calls blocks) : ∃ blocks, Server.Discipline y.1.server y.2.calls blocks := by
  obtain ⟨blocks, h⟩ := h
  cases hmove with
  | enqueue address r hmem admitted alive => exact ⟨blocks, h.enqueue admitted⟩
  | drain result rest hresults => exact ⟨blocks, h.drain hresults⟩
  | load result thread hthread loaded => exact ⟨blocks, h.load hthread loaded⟩
  | take model job rest hthread hjobs => exact ⟨blocks, h.take hthread hjobs⟩
  | work model job loaded hworking =>
    obtain ⟨blocks', hdone⟩ := h.work policy hworking
    refine ⟨blocks', ?_⟩
    simp only [callsOf_working loaded hworking]
    exact hdone
  | _ => exact ⟨blocks, h⟩

variable {clock : ℚ} {as : List (SystemStep S)}

/-- In every run, whatever the clients send, the serving thread does not end and at most one prediction is under way. The policy sees
    one session after the other, none of them twice: a reset, and then the predictions with the numbers from zero, none left out or
    repeated. Only the last session may have a reset without a prediction. -/
theorem policy_sessions (hrun : (journaledDex3 config timeout policy).run ({ clock }, {}) as = some (s, j)) :
    s.server.crashed = false ∧ s.server.outstanding = (s.server.pending.map ServerPending.token).toList ∧
      ∃ blocks : List (Session × Nat), (blocks.map Prod.fst).Nodup ∧ (∀ block ∈ blocks.dropLast, 0 < block.2) ∧
        j.calls = blocks.flatMap Server.sessionCalls := by
  obtain ⟨blocks, h⟩ := (moves_of_run hrun).keeps (I := fun x => ∃ blocks, Server.Discipline x.1.server x.2.calls blocks)
    (fun _ _ hmove h => discipline_move hmove h) ⟨[], Server.discipline_init⟩
  exact ⟨h.alive, h.one, blocks, h.distinct, h.asked, h.calls_eq⟩

/-- The run in which a row is played: one session, with one prediction. -/
theorem policy_sessions_demo : ∃ s j,
    (journaledDex3 demoConfig 5 rampPolicy).run ({ clock := 0 }, {}) (.image blackMessage (demoReading 0) :: demoSteps) = some (s, j) ∧
      j.calls = [.reset, .predict "a" 0] ∧ s.server.crashed = false := by
  obtain ⟨s, j, hrun, -, hcalls, -⟩ := demo_records
  have hrun := (demoRun_eq _).trans hrun
  exact ⟨s, j, hrun, hcalls, (policy_sessions hrun).1⟩

end HumanoidLab.FluxDex3
