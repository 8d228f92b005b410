import EvidraBench.Benchsvc.Fleet

/-!
# Tenants that share a server

Rows carry a tenant and are asked for with one. Trigger jobs in the store do not, and the progress
statement goes by the id alone. What a tenant's requests must not do is read or change what belongs
to another: a request must be answered as if the server held the tenant's own part only, and must
leave the parts of the others as they are.

Results: `isolated_iff`, `other_tenants_job_served`.

Source: `internal/benchsvc/trigger_handler.go`
-/

namespace EvidraBench.Benchsvc

open EvidraBench.Lib

/-! ### Parts of a server -/

/-- A request for an id.
Source: `internal/benchsvc/handlers.go` -/
inductive Request
  | status (stream : Bool)
  | progress (body : Except String ProgressUpdate) (now : Int)
  | complete (body : Except String CompleteRequest) (now : Int)

/-- The handler of a request, authenticated as a tenant.
Source: `internal/benchsvc/runner_handler.go` -/
def Server.serve (s : Server) (tenant id : String) : Request → Server × Response
  | .status stream => s.handleTriggerStatus tenant id stream
  | .progress body now => s.handleTriggerProgress tenant id body now
  | .complete body now => s.handleCompleteJob tenant id body now

/-- The rows and the trigger jobs of a tenant, and nothing else. -/
def Server.part (tenantOf : String → String) (tenant : String) (s : Server) : Server where
  jobs := s.jobs.restrict fun r => r.tenantID = tenant
  store := ⟨fun id => if tenantOf id = tenant then s.store.get id else none⟩

/-- The request is answered as if the server held the tenant's own part, and the parts of the
other tenants stay as they are. -/
def Isolated (tenantOf : String → String) (tenant id : String) (req : Request) (s : Server) :
    Prop :=
  (s.serve tenant id req).2 = ((s.part tenantOf tenant).serve tenant id req).2 ∧
    ∀ other, other ≠ tenant → (s.serve tenant id req).1.part tenantOf other = s.part tenantOf other

/-- The request asks the store for its id. A message that cannot be read does not, and a
completion goes to the table first.
Source: `internal/benchsvc/runner_handler.go` -/
def Request.AsksStore : Request → Prop
  | .status _ => True
  | .progress (.ok u) _ => u.Supported
  | .progress (.error _) _ => False
  | .complete _ _ => False

/-- The store has a job of another tenant under the id. -/
def HoldsOther (tenantOf : String → String) (tenant id : String) (s : Server) : Prop :=
  tenantOf id ≠ tenant ∧ s.store.get id ≠ none

/-- Each row belongs to the tenant its id was handed out to. -/
def Server.Assigned (tenantOf : String → String) (s : Server) : Prop :=
  ∀ id r, s.jobs.find id = some r → r.tenantID = tenantOf id

section Assigned

variable {tenantOf : String → String} {f : Fleet}

/-- **Rows and ids agree on the tenant**, in whatever a fleet reaches. -/
theorem assigned_of_reach (h : (fleet tenantOf).Reach f) : f.server.Assigned tenantOf := by
  refine System.Reach.invariant (I := fun f => f.server.Assigned tenantOf) ?_ ?_ h
  · intro id r hr
    cases hr
  · intro f f' e _ ih hstep id r hr
    rcases jobs_step hstep with hsame | ⟨c, hc, hjobs⟩
    · exact ih id r (hsame ▸ hr)
    rw [hjobs] at hr
    rcases hfind : f.server.jobs.find id with _ | r₀
    · -- a new row is the trigger's, which drew the id for its tenant
      obtain ⟨-, tenant, model, provider, cfg, now, rfl, htenant⟩ := fresh_of_find_step hfind hr
      cases e with
      | enqueue tenant' id' req provider' now' =>
        obtain ⟨hid, -⟩ := Option.ite_none_right_eq_some.mp hstep
        cases hc
        exact htenant.trans hid.symm
      | complete tenant' id' body now' => rcases body with _ | req <;> cases hc
      | _ => cases hc
    · obtain ⟨r'', hr'', hchange⟩ := exists_find_step (c := c) hfind
      obtain rfl := Option.some.inj (hr''.symm.trans hr)
      rcases hchange with rfl | hchange
      · exact ih id r'' hfind
      · exact hchange.tenantID_eq.trans (ih id r₀ hfind)

end Assigned

/-! ### What a tenant sees -/

section View

variable {tenantOf : String → String} {s : Server} {tenant other id : String}

theorem getJob_part : (s.part tenantOf tenant).jobs.getJob tenant id = s.jobs.getJob tenant id := by
  apply Option.ext
  intro r
  rw [getJob_eq_some, getJob_eq_some, Table.find_eq_some, Table.find_eq_some]
  constructor
  · rintro ⟨⟨hr, hid⟩, htenant⟩
    exact ⟨⟨(List.mem_filter.mp hr).1, hid⟩, htenant⟩
  · rintro ⟨⟨hr, hid⟩, htenant⟩
    exact ⟨⟨List.mem_filter.mpr ⟨hr, decide_eq_true htenant⟩, hid⟩, htenant⟩

theorem getJob_of_ne (hs : s.Assigned tenantOf) (hid : tenantOf id ≠ tenant) :
    s.jobs.getJob tenant id = none := by
  apply Option.eq_none_iff_forall_ne_some.mpr
  intro r hr
  obtain ⟨hfind, htenant⟩ := getJob_eq_some.mp hr
  exact hid ((hs id r hfind).symm.trans htenant)

/-- In its own part a tenant meets what it meets on the server, unless the store has a job of
another tenant there. -/
theorem visible_part (h : ¬ HoldsOther tenantOf tenant id s) :
    (s.part tenantOf tenant).visible tenant id = s.visible tenant id := by
  have hget : (s.part tenantOf tenant).store.get id = s.store.get id := by
    show (if tenantOf id = tenant then s.store.get id else none) = s.store.get id
    split
    · rfl
    · rename_i hid
      by_contra hne
      exact h ⟨hid, Ne.symm hne⟩
  rw [Server.visible, Server.visible, getJob_part, hget]

theorem visible_part_of_ne (hs : s.Assigned tenantOf) (hid : tenantOf id ≠ tenant) :
    (s.part tenantOf tenant).visible tenant id = none := by
  have hget : (s.part tenantOf tenant).store.get id = none := if_neg hid
  rw [Server.visible, getJob_part, getJob_of_ne hs hid, hget]
  rfl

theorem tenantOf_eq_of_visible {job : TriggerJob} (hs : s.Assigned tenantOf)
    (h : ¬ HoldsOther tenantOf tenant id s) (hjob : s.visible tenant id = some job) :
    tenantOf id = tenant := by
  by_contra hid
  rw [← visible_part h, visible_part_of_ne hs hid] at hjob
  cases hjob

theorem part_put_of_ne {job : TriggerJob} (hid : tenantOf id ≠ other) :
    (s.put id job).part tenantOf other = s.part tenantOf other := by
  refine Server.ext rfl (TriggerStore.ext (funext fun id' => ?_))
  show (if tenantOf id' = other then (s.put id job).store.get id' else none) = _
  split
  · rename_i hid'
    rw [Server.get_put_of_ne]
    · exact (if_pos hid').symm
    · rintro rfl
      exact hid hid'
  · rename_i hid'
    exact (if_neg hid').symm

theorem part_writeProgress_of_ne {call : ProgressCall} {now : Int} (hs : s.Assigned tenantOf)
    (hid : tenantOf call.jobID ≠ other) :
    (s.writeProgress call now).part tenantOf other = s.part tenantOf other := by
  refine Server.ext ?_ rfl
  show (s.writeProgress call now).jobs.restrict _ = s.jobs.restrict _
  rw [Server.writeProgress, Jobs.step, Jobs.updateJobProgress]
  split
  · refine Table.restrict_update_of_disjoint (BenchJob.id_report _ _ _ _) (fun _ => rfl) ?_
    intro r hr hother
    apply decide_eq_false
    rintro ⟨hjob, -⟩
    have htenant := hs call.jobID r (Table.find_eq_some.mpr ⟨hr, hjob⟩)
    exact hid (htenant.symm.trans (of_decide_eq_true hother))
  · rfl

theorem completeJob_part {runner message : String} {status : Status} {passed failed now : Int} :
    (s.part tenantOf tenant).jobs.completeJob tenant runner id status passed failed message now =
      (s.jobs.completeJob tenant runner id status passed failed message now).map
        (·.restrict fun r => r.tenantID = tenant) := by
  have hany : (s.part tenantOf tenant).jobs.rows.any (fun r => r.OwnedBy tenant runner id) =
      s.jobs.rows.any fun r => r.OwnedBy tenant runner id := by
    show (s.jobs.rows.filter _).any _ = _
    rw [List.any_filter]
    refine congrArg s.jobs.rows.any (funext fun r => ?_)
    by_cases howned : r.OwnedBy tenant runner id
    · simp [howned, howned.2.1]
    · simp [howned]
  rw [Jobs.completeJob, Jobs.completeJob, hany]
  split
  · rfl
  split
  · rfl
  split
  · rfl
  · exact congrArg Except.ok
      (Table.restrict_update (BenchJob.id_finish _ _ _ _ _) fun _ => rfl).symm

theorem of_completeJob_eq_ok {jobs : Jobs} {runner message : String} {status : Status}
    {passed failed now : Int} (hs : s.Assigned tenantOf)
    (h : s.jobs.completeJob tenant runner id status passed failed message now = .ok jobs) :
    tenantOf id = tenant ∧ ∀ other, other ≠ tenant →
      (jobs.restrict fun r => r.tenantID = other) =
        s.jobs.restrict fun r => r.tenantID = other := by
  obtain ⟨-, ⟨r, hr, hid, htenant, -⟩, rfl⟩ := completeJob_eq_ok h
  refine ⟨(hs id r hr).symm.trans htenant, fun other hother => ?_⟩
  refine Table.restrict_update_of_disjoint (BenchJob.id_finish _ _ _ _ _) (fun _ => rfl) ?_
  intro r _ hr
  apply decide_eq_false
  intro howned
  exact hother ((of_decide_eq_true hr).symm.trans howned.2.1)

/-- A completion that leaves the rows of a tenant and is about a job of another leaves the
tenant's part. -/
theorem part_complete_of_ne {jobs : Jobs} {status : Status} {passed failed : Int}
    (hid : tenantOf id ≠ other)
    (hrows : (jobs.restrict fun r => r.tenantID = other) =
      s.jobs.restrict fun r => r.tenantID = other) :
    (⟨jobs, s.store.complete id status passed failed⟩ : Server).part tenantOf other =
      s.part tenantOf other := by
  refine Server.ext hrows ?_
  rw [TriggerStore.complete]
  split
  · rename_i job _
    have hput : ((s.put id (job.complete status passed failed)).part tenantOf other).store =
        (s.part tenantOf other).store := congrArg Server.store (part_put_of_ne hid)
    exact hput
  · rfl

end View

/-! ### Isolation -/

section Isolation

variable {tenantOf : String → String} {s : Server} {tenant id : String}

theorem reply_ne_error {stream : Bool} {job : TriggerJob} {code : Nat} {message : String} :
    Server.reply stream job ≠ .error code message := by
  rw [Server.reply]
  split
  · split <;> exact Response.noConfusion
  · exact Response.noConfusion

theorem isolated_status {stream : Bool} (hs : s.Assigned tenantOf)
    (h : ¬ HoldsOther tenantOf tenant id s) : Isolated tenantOf tenant id (.status stream) s := by
  rw [Isolated, Server.serve, Server.serve, Server.handleTriggerStatus_eq,
    Server.handleTriggerStatus_eq, visible_part h]
  rcases hjob : s.visible tenant id with _ | job
  · exact ⟨rfl, fun _ _ => rfl⟩
  · refine ⟨rfl, fun other hother => part_put_of_ne ?_⟩
    rw [tenantOf_eq_of_visible hs h hjob]
    exact hother.symm

theorem isolated_progress {u : ProgressUpdate} {now : Int} (hs : s.Assigned tenantOf)
    (hu : u.Supported) (h : ¬ HoldsOther tenantOf tenant id s) :
    Isolated tenantOf tenant id (.progress (.ok u) now) s := by
  rw [Isolated, Server.serve, Server.serve, Server.handleTriggerProgress_eq hu,
    Server.handleTriggerProgress_eq hu, visible_part h]
  rcases hjob : s.visible tenant id with _ | job
  · exact ⟨rfl, fun _ _ => rfl⟩
  · refine ⟨rfl, fun other hother => ?_⟩
    have hid : tenantOf id ≠ other := tenantOf_eq_of_visible hs h hjob ▸ hother.symm
    -- the rows are those of the server, so they are assigned as well
    have hs' : ∀ job, (s.put id job).Assigned tenantOf := fun _ => hs
    exact (part_writeProgress_of_ne (hs' _) hid).trans (part_put_of_ne hid)

theorem isolated_of_refused {body : Except String ProgressUpdate} {now : Int}
    (h : ¬ (Request.progress body now).AsksStore) :
    Isolated tenantOf tenant id (.progress body now) s := by
  rcases body with e | u
  · exact ⟨rfl, fun _ _ => rfl⟩
  · have hu : ¬ u.Supported := h
    rw [Isolated, Server.serve, Server.serve, Server.handleTriggerProgress,
      Server.handleTriggerProgress, Server.acceptProgress, Server.acceptProgress]
    simp only [if_neg hu]
    exact ⟨trivial, fun _ _ => trivial⟩

/-- A completion. Its statement asks for the tenant, and the store is told only if a row was
written. -/
theorem isolated_complete {body : Except String CompleteRequest} {now : Int}
    (hs : s.Assigned tenantOf) : Isolated tenantOf tenant id (.complete body now) s := by
  rcases body with e | req
  · exact ⟨rfl, fun _ _ => rfl⟩
  rw [Isolated, Server.serve, Server.serve, Server.handleCompleteJob, Server.handleCompleteJob,
    completeJob_part]
  by_cases hterm : req.status.Terminal
  swap
  · simp only [hterm, not_false_eq_true, if_true]
    exact ⟨trivial, fun _ _ => trivial⟩
  by_cases hrunner : req.runnerID = ""
  · simp only [hterm, not_true_eq_false, if_false, hrunner, if_true]
    exact ⟨trivial, fun _ _ => trivial⟩
  simp only [hterm, not_true_eq_false, if_false, hrunner]
  rcases hok : s.jobs.completeJob tenant req.runnerID id req.status req.passed req.failed
    req.message now with e | jobs
  · cases e <;> exact ⟨rfl, fun _ _ => rfl⟩
  · obtain ⟨hid, hrows⟩ := of_completeJob_eq_ok hs hok
    refine ⟨rfl, fun other hother => ?_⟩
    have hne : tenantOf id ≠ other := hid ▸ hother.symm
    exact part_complete_of_ne hne (hrows other hother)

/-- A request that reaches a job of another tenant in the store is not answered as if it were not
there. -/
theorem not_isolated {req : Request} (hs : s.Assigned tenantOf) (hreq : req.AsksStore)
    (h : HoldsOther tenantOf tenant id s) : ¬ Isolated tenantOf tenant id req s := by
  rintro ⟨hresponse, -⟩
  obtain ⟨hid, hget⟩ := h
  have hpart := visible_part_of_ne hs hid
  obtain ⟨job, hjob⟩ : ∃ job, s.visible tenant id = some job := by
    obtain ⟨job, hjob⟩ := Option.ne_none_iff_exists'.mp hget
    exact ⟨job, by rw [Server.visible, hjob]; rfl⟩
  cases req with
  | status stream =>
    rw [Server.serve, Server.serve, Server.handleTriggerStatus_eq, Server.handleTriggerStatus_eq,
      hpart, hjob] at hresponse
    exact reply_ne_error hresponse
  | progress body now =>
    rcases body with e | u
    · exact hreq
    · rw [Server.serve, Server.serve, Server.handleTriggerProgress_eq hreq,
        Server.handleTriggerProgress_eq hreq, hpart, hjob] at hresponse
      cases hresponse
  | complete body now => exact hreq

/-- **Tenants on one server.** In every state that any requests of any tenants lead to, a request of
a tenant is answered as if the server held that tenant's own part only, and leaves the parts of all
others as they are, exactly if it does not ask the store for an id under which it holds a job of
another tenant. So two such states that agree on the tenant's part give the same answer.
Source: `handleTriggerStatus`, `handleTriggerProgress`, `internal/benchsvc/runner_handler.go`
`handleCompleteJob`
-/
theorem isolated_iff {f : Fleet} (hf : (fleet tenantOf).Reach f) (tenant id : String)
    (req : Request) :
    (Isolated tenantOf tenant id req f.server ↔
      ¬ (req.AsksStore ∧ HoldsOther tenantOf tenant id f.server)) ∧
    ∀ f', (fleet tenantOf).Reach f' →
      f'.server.part tenantOf tenant = f.server.part tenantOf tenant →
      ¬ (req.AsksStore ∧ HoldsOther tenantOf tenant id f.server) →
      ¬ (req.AsksStore ∧ HoldsOther tenantOf tenant id f'.server) →
      (f'.server.serve tenant id req).2 = (f.server.serve tenant id req).2 := by
  have hiff : ∀ {f : Fleet}, (fleet tenantOf).Reach f →
      (Isolated tenantOf tenant id req f.server ↔
        ¬ (req.AsksStore ∧ HoldsOther tenantOf tenant id f.server)) := by
    intro f hf
    have hs := assigned_of_reach hf
    constructor
    · rintro hisolated ⟨hreq, hother⟩
      exact not_isolated hs hreq hother hisolated
    · intro h
      cases req with
      | status stream => exact isolated_status hs fun hother => h ⟨trivial, hother⟩
      | complete body now => exact isolated_complete hs
      | progress body now =>
        by_cases hreq : (Request.progress body now).AsksStore
        · rcases body with e | u
          · exact hreq.elim
          · exact isolated_progress hs hreq fun hother => h ⟨hreq, hother⟩
        · exact isolated_of_refused hreq
  refine ⟨hiff hf, ?_⟩
  intro f' hf' hpart h h'
  rw [((hiff hf').mpr h').1, ((hiff hf).mpr h).1, hpart]

end Isolation

/-- Tenant `b` triggers a job, which a runner of `b` claims. -/
def triggered : List Event :=
  [ .enqueue "b" "j" { model := "m", scenarios := ["s"] } "p" 0,
    .create "b" "j" { model := "m", scenarios := ["s"] } "p" 0,
    .claim "b" "r" ["m"] [] 1 ]

/-- Tenant `b` itself is served in isolation, and `a` is not. -/
theorem isolated_iff_triggered : ∃ f, (fleet fun _ => "b").Reach f ∧
    Isolated (fun _ => "b") "b" "j" (.status false) f.server ∧
    ¬ Isolated (fun _ => "b") "a" "j" (.status false) f.server := by
  obtain ⟨f, hexec, hget⟩ : ∃ f, (fleet fun _ => "b").exec .init triggered = some f ∧
      f.server.store.get "j" ≠ none := ⟨_, rfl, Option.some_ne_none _⟩
  have hf : (fleet fun _ => "b").Reach f := System.Reach.init.exec hexec
  refine ⟨f, hf, (isolated_iff hf "b" "j" _).1.mpr ?_, ?_⟩
  · rintro ⟨-, hne, -⟩
    exact hne rfl
  · intro hisolated
    exact (isolated_iff hf "a" "j" _).1.mp hisolated ⟨trivial, by decide, hget⟩

/-- Tenant `a` asks for the status of the job and is shown it, and a progress message of `a`
changes the trigger job and the row. -/
theorem other_tenants_job_served :
    ∃ f job, (fleet fun _ => "b").exec .init triggered = some f ∧
      (f.server.serve "a" "j" (.status false)).2 = .job job ∧
      ((f.server.part (fun _ => "b") "a").serve "a" "j" (.status false)).2 =
        .error 404 "job not found" ∧
      (f.server.jobs.find "j").map (fun r => (r.tenantID, r.status, r.passed)) =
        some ("b", .claimed, 0) ∧
      ((f.server.serve "a" "j" (.progress (.ok passedReport) 2)).1.jobs.find "j").map
        (fun r => (r.tenantID, r.status, r.passed)) = some ("b", .running, 1) ∧
      (f.server.store.get "j").map TriggerJob.passed = some 0 ∧
      ((f.server.serve "a" "j" (.progress (.ok passedReport) 2)).1.store.get "j").map
        TriggerJob.passed = some 1 :=
  ⟨_, _, rfl, rfl, rfl, rfl, rfl, rfl, rfl⟩

end EvidraBench.Benchsvc
