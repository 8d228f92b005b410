import EvidraBench.Benchsvc.ReviewRoutes

/-!
# Who reads a private review

A run, any calls that store reviews, previews and validations of it, and reads of what is there
then. A review has versions, public and private ones; a preview is made of the version that is
stored when it is asked for, and is guarded by the version that is stored when it is read.

Results: `Alike.afterCalls`, `served_iff`, `reviews_guarded`, `private_preview_shown`.

Source: `internal/benchsvc/handlers.go`
-/

namespace EvidraBench.Benchsvc

open EvidraBench.Gostd EvidraBench.Runreview EvidraBench.Scenariopatch

/-! ### Calls -/

/-- A call on the routes of a run that may store something. -/
inductive ReviewCall
  | putReview (tenantID : String) (body : Except String Review)
  | postPreview (tenantID : String) (file : ScenarioFile)
  | postValidation (tenantID : String) (body : Except String ValidationRequest)
      (triggers : Triggers)
  | getValidation (tenantID : String) (r : Auth.Request) (job : String → Option TriggerJob)

def ReviewCall.serve (svc : ReviewService) (id : String) (s : RunStore) :
    ReviewCall → RunStore × Reply
  | .putReview tenantID body => handlePutRunReview svc s tenantID id body
  | .postPreview tenantID file => handlePostScenarioPatchPreview svc s tenantID id file
  | .postValidation tenantID body triggers =>
      handlePostScenarioPatchValidation svc s tenantID id body triggers
  | .getValidation tenantID r job => handleGetScenarioPatchValidation svc s tenantID id r job

def afterCalls (svc : ReviewService) (id : String) : RunStore → List ReviewCall → RunStore
  | s, [] => s
  | s, c :: calls => afterCalls svc id (c.serve svc id s).1 calls

/-- The version of the review that a call stores. -/
def ReviewCall.version (svc : ReviewService) (id : String) (s : RunStore) :
    ReviewCall → Option Review
  | .putReview tenantID body => (svc.version s tenantID id body).toOption
  | _ => none

/-- The version of the review that is stored last. -/
def lastVersion (svc : ReviewService) (id : String) :
    RunStore → Option Review → List ReviewCall → Option Review
  | _, review, [] => review
  | s, review, c :: calls =>
      lastVersion svc id (c.serve svc id s).1 ((c.version svc id s).or review) calls

/-- The stored review is one that everyone may read. -/
def publicReview (s : RunStore) (id : String) : Bool :=
  match (s.artifacts id hostedRunReview).bind fun a => decode a.data with
  | none => false
  | some review => review.isPublic

/-- Whether the stored preview is of a private version, after a call. -/
def ReviewCall.taint (svc : ReviewService) (id : String) (s : RunStore) (tainted : Bool) :
    ReviewCall → Bool
  | .postPreview tenantID file =>
      match svc.newPreview s tenantID id file with
      | .error _ => tainted
      | .ok _ => !publicReview s id
  | _ => tainted

/-- The call stores a public version of the review. -/
def ReviewCall.Publishes (svc : ReviewService) (id : String) (s : RunStore) : ReviewCall → Prop
  | .putReview tenantID body =>
      ∃ review, svc.version s tenantID id body = .ok review ∧ review.isPublic = true
  | _ => False

/-- A public version is stored only while no preview of a private one is there. -/
def Careful (svc : ReviewService) (id : String) : RunStore → Bool → List ReviewCall → Prop
  | _, _, [] => True
  | s, tainted, c :: calls =>
      (c.Publishes svc id s → tainted = false) ∧
        Careful svc id (c.serve svc id s).1 (c.taint svc id s tainted) calls

/-- Two calls that are the same, or store private versions of the review. -/
inductive AlikeCalls (svc : ReviewService) (id : String) (s : RunStore) :
    ReviewCall → ReviewCall → Prop
  | same (c : ReviewCall) : AlikeCalls svc id s c c
  | secret {tenantID : String} {body₁ body₂ : Except String Review} {review₁ review₂ : Review}
      (h₁ : svc.version s tenantID id body₁ = .ok review₁)
      (h₂ : svc.version s tenantID id body₂ = .ok review₂)
      (hprivate₁ : review₁.isPublic = false) (hprivate₂ : review₂.isPublic = false) :
      AlikeCalls svc id s (.putReview tenantID body₁) (.putReview tenantID body₂)

/-! ### What a call stores -/

section stores

variable {svc : ReviewService} {id : String} {s s' : RunStore} {kind tenantID : String}
  {data : Bytes} {reply : Reply}

/-- What is under a kind once something was written. -/
def written (w : Option (String × Bytes)) (kind : String) (old : Option Artifact) :
    Option Artifact :=
  match w with
  | none => old
  | some (k, data) => if kind = k then some ⟨"application/json", data⟩ else old

/-- One artifact of the run was written, or none, and nothing else. -/
structure Wrote (s : RunStore) (id : String) (w : Option (String × Bytes)) (s' : RunStore) :
    Prop where
  runs : s'.runs = s.runs
  artifacts : ∀ kind, s'.artifacts id kind = written w kind (s.artifacts id kind)

theorem owner_of_getRun {run : RunRow} (h : s.getRun tenantID id = some run) :
    s.owner id = some tenantID := by
  obtain ⟨hfind, hcond⟩ := Option.filter_eq_some_iff.mp h
  rw [Bool.and_eq_true, decide_eq_true_eq] at hcond
  exact RunStore.owner_eq_some.mpr ⟨run, hfind, hcond.1⟩

theorem owner_of_getArtifact {a : Artifact} (h : s.getArtifact tenantID id kind = some a) :
    s.owner id = some tenantID ∧ s.artifacts id kind = some a := by
  unfold RunStore.getArtifact at h
  split_ifs at h with howner
  exact ⟨howner, h⟩

theorem wrote_save (h : s.owner id = some tenantID) :
    Wrote s id (some (kind, data)) (svc.save s id kind data reply).1 := by
  obtain ⟨s', hs'⟩ := RunStore.exists_storeArtifact (h ▸ Option.some_ne_none tenantID) kind
    ⟨"application/json", data⟩
  obtain ⟨hruns, hartifacts⟩ := RunStore.storeArtifact_eq_some hs'
  unfold ReviewService.save
  rw [hs']
  refine ⟨hruns, fun kind' => ?_⟩
  rw [hartifacts, Function.update_self, Function.update_apply]
  rfl

theorem wrote_none : Wrote s id none s := ⟨rfl, fun _ => rfl⟩

theorem owner_of_version {body : Except String Review} {review : Review}
    (h : svc.version s tenantID id body = .ok review) : s.owner id = some tenantID := by
  unfold ReviewService.version at h
  split at h
  · cases h
  · rename_i hrun
    exact owner_of_getRun hrun

theorem owner_of_newPreview {file : ScenarioFile} {p : PreviewResponse}
    (h : svc.newPreview s tenantID id file = .ok p) : s.owner id = some tenantID := by
  unfold ReviewService.newPreview at h
  split_ifs at h
  split at h
  · cases h
  · cases h
  · rename_i hrun _
    exact owner_of_getRun hrun

theorem owner_of_newValidation {body : Except String ValidationRequest} {triggers : Triggers}
    {v : ValidationResponse} (h : svc.newValidation s tenantID id body triggers = .ok v) :
    s.owner id = some tenantID := by
  unfold ReviewService.newValidation at h
  split at h
  · cases h
  · cases h
  · cases h
  · rename_i hrun _
    exact owner_of_getRun hrun

theorem owner_of_readValidation {r : Auth.Request} {job : String → Option TriggerJob}
    {p : ValidationResponse × Option TriggerJob}
    (h : svc.readValidation s tenantID id r job = .ok p) : s.owner id = some tenantID := by
  unfold ReviewService.readValidation authorizeScenarioPatchArtifactRead at h
  cases hreview : s.getArtifact tenantID id hostedRunReview with
  | none =>
      rw [hreview] at h
      cases h
  | some a => exact (owner_of_getArtifact hreview).1

/-- The kind and the text of the artifact that a call stores, if it does. -/
def ReviewCall.write (svc : ReviewService) (id : String) (s : RunStore) :
    ReviewCall → Option (String × Bytes)
  | .putReview tenantID body =>
      (svc.version s tenantID id body).toOption.map fun review => (hostedRunReview, review.marshal)
  | .postPreview tenantID file =>
      (svc.newPreview s tenantID id file).toOption.map fun p =>
        (hostedScenarioPatchPreview, bytesOf (String.ofList (p.json.text .compact 0)))
  | .postValidation tenantID body triggers =>
      (svc.newValidation s tenantID id body triggers).toOption.map fun v =>
        (hostedScenarioPatchValidation, bytesOf (String.ofList (v.json.text .compact 0)))
  | .getValidation tenantID r job =>
      (svc.readValidation s tenantID id r job).toOption.bind fun p =>
        p.2.map fun job => (hostedScenarioPatchValidation, bytesOf (String.ofList
          ((enrichScenarioPatchValidationFromTrigger p.1 (some job)).json.text .compact 0)))

/-- **A call stores what it writes**, and nothing else. -/
theorem ReviewCall.wrote (svc : ReviewService) (id : String) (s : RunStore) (c : ReviewCall) :
    Wrote s id (c.write svc id s) (c.serve svc id s).1 := by
  cases c with
  | putReview tenantID body =>
      rw [ReviewCall.write, ReviewCall.serve, handlePutRunReview]
      cases h : svc.version s tenantID id body with
      | error reply => exact wrote_none
      | ok review => exact wrote_save (owner_of_version h)
  | postPreview tenantID file =>
      rw [ReviewCall.write, ReviewCall.serve, handlePostScenarioPatchPreview]
      cases h : svc.newPreview s tenantID id file with
      | error reply => exact wrote_none
      | ok p => exact wrote_save (owner_of_newPreview h)
  | postValidation tenantID body triggers =>
      rw [ReviewCall.write, ReviewCall.serve, handlePostScenarioPatchValidation]
      cases h : svc.newValidation s tenantID id body triggers with
      | error reply => exact wrote_none
      | ok v => exact wrote_save (owner_of_newValidation h)
  | getValidation tenantID r job =>
      rw [ReviewCall.write, ReviewCall.serve, handleGetScenarioPatchValidation]
      cases h : svc.readValidation s tenantID id r job with
      | error reply => exact wrote_none
      | ok p =>
          obtain ⟨v, job⟩ := p
          cases job with
          | none => exact wrote_none
          | some job => exact wrote_save (owner_of_readValidation h)

theorem ReviewCall.written_review {c : ReviewCall}
    (hc : ∀ tenantID body, c ≠ .putReview tenantID body) (old : Option Artifact) :
    written (c.write svc id s) hostedRunReview old = old := by
  cases c with
  | putReview tenantID body => exact absurd rfl (hc tenantID body)
  | postPreview tenantID file =>
      rw [ReviewCall.write]
      cases svc.newPreview s tenantID id file <;> rfl
  | postValidation tenantID body triggers =>
      rw [ReviewCall.write]
      cases svc.newValidation s tenantID id body triggers <;> rfl
  | getValidation tenantID r job =>
      rw [ReviewCall.write]
      cases svc.readValidation s tenantID id r job with
      | error reply => rfl
      | ok p =>
          obtain ⟨v, job⟩ := p
          cases job <;> rfl

theorem ReviewCall.runs_serve (c : ReviewCall) : (c.serve svc id s).1.runs = s.runs :=
  (c.wrote svc id s).runs

theorem runs_afterCalls (calls : List ReviewCall) :
    (afterCalls svc id s calls).runs = s.runs := by
  induction calls generalizing s with
  | nil => rfl
  | cons c calls ih => exact ih.trans c.runs_serve

end stores

/-! ### What a call depends on -/

section congr

variable {svc : ReviewService} {id tenantID kind : String} {s₁ s₂ : RunStore}
  (hruns : s₁.runs = s₂.runs)
include hruns

theorem getRun_congr : s₁.getRun tenantID id = s₂.getRun tenantID id := by
  unfold RunStore.getRun
  rw [hruns]

theorem owner_congr : s₁.owner id = s₂.owner id := by
  unfold RunStore.owner
  rw [hruns]

theorem getArtifact_congr (h : s₁.artifacts id kind = s₂.artifacts id kind) :
    s₁.getArtifact tenantID id kind = s₂.getArtifact tenantID id kind := by
  unfold RunStore.getArtifact
  rw [owner_congr hruns, h]

theorem version_congr (body : Except String Review) :
    svc.version s₁ tenantID id body = svc.version s₂ tenantID id body := by
  unfold ReviewService.version
  rw [getRun_congr hruns]

theorem newPreview_congr (file : ScenarioFile)
    (h : s₁.artifacts id hostedRunReview = s₂.artifacts id hostedRunReview) :
    svc.newPreview s₁ tenantID id file = svc.newPreview s₂ tenantID id file := by
  unfold ReviewService.newPreview
  rw [getRun_congr hruns, getArtifact_congr hruns h]

theorem storedPreview_congr
    (h : s₁.artifacts id hostedScenarioPatchPreview = s₂.artifacts id hostedScenarioPatchPreview) :
    getStoredScenarioPatchPreview svc s₁ tenantID id =
      getStoredScenarioPatchPreview svc s₂ tenantID id := by
  unfold getStoredScenarioPatchPreview
  rw [getArtifact_congr hruns h]

theorem newValidation_congr (body : Except String ValidationRequest) (triggers : Triggers)
    (h : s₁.artifacts id hostedScenarioPatchPreview = s₂.artifacts id hostedScenarioPatchPreview) :
    svc.newValidation s₁ tenantID id body triggers =
      svc.newValidation s₂ tenantID id body triggers := by
  unfold ReviewService.newValidation
  rw [getRun_congr hruns, storedPreview_congr hruns h]

theorem storedValidation_congr (h : s₁.artifacts id hostedScenarioPatchValidation =
      s₂.artifacts id hostedScenarioPatchValidation) :
    getStoredScenarioPatchValidation svc s₁ tenantID id =
      getStoredScenarioPatchValidation svc s₂ tenantID id := by
  unfold getStoredScenarioPatchValidation
  rw [getArtifact_congr hruns h]

end congr

/-! ### Two histories -/

def PrivateReview (s : RunStore) (id : String) : Prop :=
  ∃ a review, s.artifacts id hostedRunReview = some a ∧ decode a.data = some review ∧
    review.isPublic = false

/-- What two histories that differ in private versions agree on. -/
structure Alike (id : String) (s₁ s₂ : RunStore) (tainted₁ tainted₂ : Bool) : Prop where
  runs : s₁.runs = s₂.runs
  review : s₁.artifacts id hostedRunReview = s₂.artifacts id hostedRunReview ∨
    PrivateReview s₁ id ∧ PrivateReview s₂ id
  derived : tainted₁ = false → tainted₂ = false →
    s₁.artifacts id hostedScenarioPatchPreview = s₂.artifacts id hostedScenarioPatchPreview ∧
      s₁.artifacts id hostedScenarioPatchValidation = s₂.artifacts id hostedScenarioPatchValidation
  hidden₁ : publicReview s₁ id = true → tainted₁ = false
  hidden₂ : publicReview s₂ id = true → tainted₂ = false

section alike

variable {svc : ReviewService} {id tenantID : String} {s s' s₁ s₂ s₁' s₂' : RunStore}
  {t₁ t₂ : Bool}

theorem publicReview_of_private (h : PrivateReview s id) : publicReview s id = false := by
  obtain ⟨a, review, ha, hdecode, hprivate⟩ := h
  unfold publicReview
  rw [ha]
  simp only [Option.bind_some, hdecode]
  exact hprivate

theorem publicReview_congr (h : s₁.artifacts id hostedRunReview = s₂.artifacts id hostedRunReview) :
    publicReview s₁ id = publicReview s₂ id := by
  unfold publicReview
  rw [h]

theorem publicReview_of_wrote {review : Review}
    (h : Wrote s id (some (hostedRunReview, review.marshal)) s') :
    publicReview s' id = review.isPublic := by
  unfold publicReview
  rw [h.artifacts, written, if_pos rfl]
  simp only [Option.bind_some, decode_marshal]

theorem private_of_wrote {review : Review}
    (h : Wrote s id (some (hostedRunReview, review.marshal)) s')
    (hprivate : review.isPublic = false) : PrivateReview s' id := by
  refine ⟨⟨"application/json", review.marshal⟩, review, ?_, decode_marshal review, hprivate⟩
  rw [h.artifacts, written, if_pos rfl]

/-- Storing versions keeps the agreement if they are the same or both private, and no preview of a
private version is there when they are public. -/
theorem Alike.store_review {review₁ review₂ : Review} (h : Alike id s₁ s₂ t₁ t₂)
    (h₁ : Wrote s₁ id (some (hostedRunReview, review₁.marshal)) s₁')
    (h₂ : Wrote s₂ id (some (hostedRunReview, review₂.marshal)) s₂')
    (hreview : review₁ = review₂ ∨ review₁.isPublic = false ∧ review₂.isPublic = false)
    (hcareful₁ : review₁.isPublic = true → t₁ = false)
    (hcareful₂ : review₂.isPublic = true → t₂ = false) : Alike id s₁' s₂' t₁ t₂ where
  runs := by rw [h₁.runs, h₂.runs, h.runs]
  review := by
    rcases hreview with rfl | ⟨hprivate₁, hprivate₂⟩
    · refine Or.inl ?_
      rw [h₁.artifacts, h₂.artifacts, written, written, if_pos rfl, if_pos rfl]
    · exact Or.inr ⟨private_of_wrote h₁ hprivate₁, private_of_wrote h₂ hprivate₂⟩
  derived ht₁ ht₂ := by
    obtain ⟨hpreview, hvalidation⟩ := h.derived ht₁ ht₂
    rw [h₁.artifacts, h₂.artifacts, h₁.artifacts, h₂.artifacts, hpreview, hvalidation]
    exact ⟨rfl, rfl⟩
  hidden₁ hpublic := hcareful₁ (publicReview_of_wrote h₁ ▸ hpublic)
  hidden₂ hpublic := hcareful₂ (publicReview_of_wrote h₂ ▸ hpublic)

theorem Alike.keep {c : ReviewCall} {t₁' t₂' : Bool} (h : Alike id s₁ s₂ t₁ t₂)
    (hc : ∀ tenantID body, c ≠ .putReview tenantID body)
    (hderived : t₁' = false → t₂' = false →
      ∀ kind ∈ [hostedScenarioPatchPreview, hostedScenarioPatchValidation],
        written (c.write svc id s₁) kind (s₁.artifacts id kind) =
          written (c.write svc id s₂) kind (s₂.artifacts id kind))
    (hhidden₁ : publicReview s₁ id = true → t₁' = false)
    (hhidden₂ : publicReview s₂ id = true → t₂' = false) :
    Alike id (c.serve svc id s₁).1 (c.serve svc id s₂).1 t₁' t₂' := by
  have hreview : ∀ s : RunStore,
      (c.serve svc id s).1.artifacts id hostedRunReview = s.artifacts id hostedRunReview := by
    intro s
    rw [(c.wrote svc id s).artifacts, c.written_review hc]
  constructor
  · rw [c.runs_serve, c.runs_serve, h.runs]
  · unfold PrivateReview
    rw [hreview, hreview]
    exact h.review
  · intro ht₁ ht₂
    have hsame := hderived ht₁ ht₂
    rw [(c.wrote svc id s₁).artifacts, (c.wrote svc id s₂).artifacts,
      (c.wrote svc id s₁).artifacts, (c.wrote svc id s₂).artifacts]
    exact ⟨hsame _ (by simp), hsame _ (by simp)⟩
  · exact fun hpublic => hhidden₁ (publicReview_congr (hreview s₁) ▸ hpublic)
  · exact fun hpublic => hhidden₂ (publicReview_congr (hreview s₂) ▸ hpublic)

theorem Alike.artifacts (h : Alike id s₁ s₂ t₁ t₂) (ht₁ : t₁ = false) (ht₂ : t₂ = false) :
    ∀ kind ∈ [hostedScenarioPatchPreview, hostedScenarioPatchValidation],
      s₁.artifacts id kind = s₂.artifacts id kind := by
  intro kind hkind
  rcases List.mem_cons.mp hkind with rfl | hkind
  · exact (h.derived ht₁ ht₂).1
  · rw [List.mem_singleton.mp hkind]
    exact (h.derived ht₁ ht₂).2

theorem Alike.authorize (h : Alike id s₁ s₂ t₁ t₂) (r : Auth.Request) (message : String) :
    authorizeScenarioPatchArtifactRead svc s₁ tenantID id r message =
      authorizeScenarioPatchArtifactRead svc s₂ tenantID id r message := by
  unfold authorizeScenarioPatchArtifactRead
  rcases h.review with hreview | ⟨⟨a₁, r₁, ha₁, hdecode₁, hprivate₁⟩, a₂, r₂, ha₂, hdecode₂,
    hprivate₂⟩
  · rw [getArtifact_congr h.runs hreview]
  · -- both reviews are private: only the request decides
    unfold RunStore.getArtifact
    rw [owner_congr h.runs]
    by_cases howner : s₂.owner id = some tenantID
    · rw [if_pos howner, if_pos howner, ha₁, ha₂]
      simp only [hdecode₁, hdecode₂, hprivate₁, hprivate₂]
    · rw [if_neg howner, if_neg howner]

theorem Alike.readValidation (h : Alike id s₁ s₂ t₁ t₂) (ht₁ : t₁ = false) (ht₂ : t₂ = false)
    (r : Auth.Request) (job : String → Option TriggerJob) :
    svc.readValidation s₁ tenantID id r job = svc.readValidation s₂ tenantID id r job := by
  unfold ReviewService.readValidation
  rw [h.authorize, storedValidation_congr h.runs (h.derived ht₁ ht₂).2]

theorem Alike.serve_derived {c : ReviewCall} (h : Alike id s₁ s₂ t₁ t₂)
    (hc : ∀ tenantID body, c ≠ .putReview tenantID body)
    (hwrite : t₁ = false → t₂ = false → c.write svc id s₁ = c.write svc id s₂) :
    Alike id (c.serve svc id s₁).1 (c.serve svc id s₂).1 t₁ t₂ := by
  refine h.keep hc (fun ht₁ ht₂ kind hkind => ?_) h.hidden₁ h.hidden₂
  rw [hwrite ht₁ ht₂, h.artifacts ht₁ ht₂ kind hkind]

theorem Alike.postPreview (h : Alike id s₁ s₂ t₁ t₂) (file : ScenarioFile) :
    Alike id ((ReviewCall.postPreview tenantID file).serve svc id s₁).1
      ((ReviewCall.postPreview tenantID file).serve svc id s₂).1
      ((ReviewCall.postPreview tenantID file).taint svc id s₁ t₁)
      ((ReviewCall.postPreview tenantID file).taint svc id s₂ t₂) := by
  have hc : ∀ t body, ReviewCall.postPreview tenantID file ≠ .putReview t body := by
    intro t body heq
    cases heq
  rw [ReviewCall.taint, ReviewCall.taint]
  rcases h.review with hreview | ⟨hprivate₁, hprivate₂⟩
  · -- the previews are made of the same review
    rw [← newPreview_congr h.runs file hreview, ← publicReview_congr hreview]
    cases hnew : svc.newPreview s₁ tenantID id file with
    | error reply =>
        refine h.serve_derived hc fun _ _ => ?_
        rw [ReviewCall.write, ReviewCall.write, newPreview_congr h.runs file hreview]
    | ok p =>
        refine h.keep hc (fun hpublic _ kind hkind => ?_) ?_ ?_
        · have hpublic₁ : publicReview s₁ id = true := by simpa using hpublic
          have hpublic₂ : publicReview s₂ id = true := publicReview_congr hreview ▸ hpublic₁
          rw [ReviewCall.write, ReviewCall.write, newPreview_congr h.runs file hreview,
            h.artifacts (h.hidden₁ hpublic₁) (h.hidden₂ hpublic₂) kind hkind]
        · exact fun hpublic => by rw [hpublic]; rfl
        · exact fun hpublic => by rw [publicReview_congr hreview, hpublic]; rfl
  · -- a preview that is made is of a private review, so that only failures are left
    have hnot₁ := publicReview_of_private hprivate₁
    have hnot₂ := publicReview_of_private hprivate₂
    rw [hnot₁, hnot₂]
    refine h.keep hc (fun ht₁ ht₂ kind hkind => ?_) ?_ ?_
    · rw [ReviewCall.write, ReviewCall.write]
      cases hnew₁ : svc.newPreview s₁ tenantID id file with
      | ok p =>
          rw [hnew₁] at ht₁
          cases ht₁
      | error reply₁ =>
          cases hnew₂ : svc.newPreview s₂ tenantID id file with
          | ok p =>
              rw [hnew₂] at ht₂
              cases ht₂
          | error reply₂ =>
              rw [hnew₁] at ht₁
              rw [hnew₂] at ht₂
              exact h.artifacts ht₁ ht₂ kind hkind
    · exact fun hpublic => by rw [hnot₁] at hpublic; cases hpublic
    · exact fun hpublic => by rw [hnot₂] at hpublic; cases hpublic

/-- **One call each.** Calls that are the same or store private versions keep the agreement of
careful histories. -/
theorem Alike.serve {c₁ c₂ : ReviewCall} (h : Alike id s₁ s₂ t₁ t₂)
    (hcalls : AlikeCalls svc id s₁ c₁ c₂) (hcareful₁ : c₁.Publishes svc id s₁ → t₁ = false)
    (hcareful₂ : c₂.Publishes svc id s₂ → t₂ = false) :
    Alike id (c₁.serve svc id s₁).1 (c₂.serve svc id s₂).1 (c₁.taint svc id s₁ t₁)
      (c₂.taint svc id s₂ t₂) := by
  cases hcalls with
  | @secret tenantID body₁ body₂ review₁ review₂ h₁ h₂ hprivate₁ hprivate₂ =>
      have hwrote₁ := (ReviewCall.putReview tenantID body₁).wrote svc id s₁
      have hwrote₂ := (ReviewCall.putReview tenantID body₂).wrote svc id s₂
      rw [version_congr h.runs] at h₂
      rw [ReviewCall.write, h₁] at hwrote₁
      rw [ReviewCall.write, h₂] at hwrote₂
      refine h.store_review hwrote₁ hwrote₂ (Or.inr ⟨hprivate₁, hprivate₂⟩) ?_ ?_
      · exact fun hpublic => hcareful₁ ⟨review₁, h₁, hpublic⟩
      · exact fun hpublic => hcareful₂ ⟨review₂, h₂, hpublic⟩
  | same =>
      cases c₁ with
      | putReview tenantID body =>
          have hwrote₁ := (ReviewCall.putReview tenantID body).wrote svc id s₁
          have hwrote₂ := (ReviewCall.putReview tenantID body).wrote svc id s₂
          rw [ReviewCall.write] at hwrote₁ hwrote₂
          rw [← version_congr h.runs] at hwrote₂
          cases hversion : svc.version s₁ tenantID id body with
          | error reply =>
              rw [ReviewCall.serve, ReviewCall.serve, handlePutRunReview, handlePutRunReview,
                ← version_congr h.runs, hversion]
              exact h
          | ok review =>
              rw [hversion] at hwrote₁ hwrote₂
              refine h.store_review hwrote₁ hwrote₂ (Or.inl rfl) ?_ ?_
              · exact fun hpublic => hcareful₁ ⟨review, hversion, hpublic⟩
              · exact fun hpublic =>
                  hcareful₂ ⟨review, version_congr h.runs body ▸ hversion, hpublic⟩
      | postPreview tenantID file => exact h.postPreview file
      | postValidation tenantID body triggers =>
          refine h.serve_derived (fun t body heq => by cases heq) fun ht₁ ht₂ => ?_
          rw [ReviewCall.write, ReviewCall.write,
            newValidation_congr h.runs body triggers (h.derived ht₁ ht₂).1]
      | getValidation tenantID r job =>
          refine h.serve_derived (fun t body heq => by cases heq) fun ht₁ ht₂ => ?_
          rw [ReviewCall.write, ReviewCall.write, h.readValidation ht₁ ht₂]

theorem AlikeCalls.congr {c₁ c₂ : ReviewCall} (h : AlikeCalls svc id s c₁ c₂)
    (hruns : s.runs = s'.runs) : AlikeCalls svc id s' c₁ c₂ := by
  cases h with
  | same => exact .same c₁
  | secret h₁ h₂ hprivate₁ hprivate₂ =>
      exact .secret (version_congr hruns _ ▸ h₁) (version_congr hruns _ ▸ h₂) hprivate₁ hprivate₂

def taintAfter (svc : ReviewService) (id : String) : RunStore → Bool → List ReviewCall → Bool
  | _, tainted, [] => tainted
  | s, tainted, c :: calls =>
      taintAfter svc id (c.serve svc id s).1 (c.taint svc id s tainted) calls

/-- **Any calls.** Careful histories that differ in private versions keep their agreement. -/
theorem Alike.afterCalls {calls₁ calls₂ : List ReviewCall} (h : Alike id s₁ s₂ t₁ t₂)
    (hruns : s.runs = s₁.runs) (hcalls : List.Forall₂ (AlikeCalls svc id s) calls₁ calls₂)
    (hcareful₁ : Careful svc id s₁ t₁ calls₁) (hcareful₂ : Careful svc id s₂ t₂ calls₂) :
    Alike id (afterCalls svc id s₁ calls₁) (Benchsvc.afterCalls svc id s₂ calls₂)
      (taintAfter svc id s₁ t₁ calls₁) (taintAfter svc id s₂ t₂ calls₂) := by
  induction hcalls generalizing s₁ s₂ t₁ t₂ with
  | nil => exact h
  | @cons c₁ c₂ calls₁ calls₂ hfirst hrest ih =>
      refine ih (h.serve (hfirst.congr hruns) hcareful₁.1 hcareful₂.1) ?_ hcareful₁.2 hcareful₂.2
      rw [c₁.runs_serve, hruns]

end alike

/-! ### Reads -/

/-- The routes on which reviews and what is derived from them are read. -/
inductive ReviewRoute
  | review
  | preview
  | diff
  | validation (job : String → Option TriggerJob)

def ReviewRoute.reply (svc : ReviewService) (s : RunStore) (tenantID id : String)
    (r : Auth.Request) : ReviewRoute → Reply
  | .review => handleGetRunReview svc s tenantID id r
  | .preview => handleGetScenarioPatchPreview svc s tenantID id r
  | .diff => handleGetScenarioPatchDiff svc s tenantID id r
  | .validation job => (handleGetScenarioPatchValidation svc s tenantID id r job).2

/-- The reply to a read, through the middleware.
Source: `RegisterRoutes` -/
def readRoute (svc : ReviewService) (authMw : Auth.Request → Except Reply String) (s : RunStore)
    (id : String) (route : ReviewRoute) (r : Auth.Request) : Reply :=
  match readTenantMiddleware svc authMw r with
  | .error reply => reply
  | .ok tenantID => route.reply svc s tenantID id r

section reads

variable {svc : ReviewService} {id tenantID : String} {s s₁ s₂ : RunStore} {t₁ t₂ : Bool}
  {r : Auth.Request}

theorem public_of_authorize {message : String} (hr : isAnonymousRead r = true)
    (h : authorizeScenarioPatchArtifactRead svc s tenantID id r message = none) :
    publicReview s id = true := by
  unfold authorizeScenarioPatchArtifactRead at h
  cases hartifact : s.getArtifact tenantID id hostedRunReview with
  | none =>
      rw [hartifact] at h
      cases h
  | some a =>
      rw [hartifact] at h
      cases hdecode : decode a.data with
      | none =>
          simp only [hdecode] at h
          cases h
      | some review =>
          simp only [hdecode, hr, Bool.true_and] at h
          unfold publicReview
          rw [(owner_of_getArtifact hartifact).2]
          simp only [Option.bind_some, hdecode]
          by_contra hprivate
          rw [Bool.not_eq_true] at hprivate
          rw [hprivate] at h
          cases h

theorem Alike.review_reply (h : Alike id s₁ s₂ t₁ t₂) (hr : isAnonymousRead r = true) :
    handleGetRunReview svc s₁ tenantID id r = handleGetRunReview svc s₂ tenantID id r := by
  have hblank : Auth.isBlank r.authorization = true := (Bool.and_eq_true_iff.mp hr).1
  unfold handleGetRunReview
  rcases h.review with hreview | ⟨⟨a₁, r₁, ha₁, hdecode₁, hprivate₁⟩, a₂, r₂, ha₂, hdecode₂,
    hprivate₂⟩
  · rw [getArtifact_congr h.runs hreview]
  · unfold RunStore.getArtifact
    rw [owner_congr h.runs]
    by_cases howner : s₂.owner id = some tenantID
    · rw [if_pos howner, if_pos howner, ha₁, ha₂]
      simp only [hdecode₁, hdecode₂, hprivate₁, hprivate₂, hblank, Bool.not_false, Bool.and_self,
        if_true]
    · rw [if_neg howner, if_neg howner]

theorem save_reply_congr (hruns : s₁.runs = s₂.runs) (kind : String) (data : Bytes)
    (reply : Reply) : (svc.save s₁ id kind data reply).2 = (svc.save s₂ id kind data reply).2 := by
  unfold ReviewService.save RunStore.storeArtifact
  by_cases h : s₁.runs.find id = none
  · rw [dif_pos h, dif_pos (hruns ▸ h)]
  · rw [dif_neg h, dif_neg (hruns ▸ h)]

/-- **What a reader without credentials is shown is agreed on.** -/
theorem Alike.reply (h : Alike id s₁ s₂ t₁ t₂) (hr : isAnonymousRead r = true)
    (route : ReviewRoute) :
    route.reply svc s₁ tenantID id r = route.reply svc s₂ tenantID id r := by
  -- whoever passes the guard reads a public review, and nothing of a private one is there
  have hpassed : ∀ message, authorizeScenarioPatchArtifactRead svc s₂ tenantID id r message = none →
      t₁ = false ∧ t₂ = false := by
    intro message hnone
    refine ⟨h.hidden₁ (public_of_authorize hr ((h.authorize r message).trans hnone)), ?_⟩
    exact h.hidden₂ (public_of_authorize hr hnone)
  cases route with
  | review => exact h.review_reply hr
  | preview =>
      rw [ReviewRoute.reply, ReviewRoute.reply, handleGetScenarioPatchPreview,
        handleGetScenarioPatchPreview, h.authorize]
      cases hauth : authorizeScenarioPatchArtifactRead svc s₂ tenantID id r
        "scenario patch preview not found" with
      | some reply => rfl
      | none =>
          obtain ⟨ht₁, ht₂⟩ := hpassed _ hauth
          rw [getArtifact_congr h.runs (h.derived ht₁ ht₂).1]
  | diff =>
      rw [ReviewRoute.reply, ReviewRoute.reply, handleGetScenarioPatchDiff,
        handleGetScenarioPatchDiff, h.authorize]
      cases hauth : authorizeScenarioPatchArtifactRead svc s₂ tenantID id r
        "scenario patch preview not found" with
      | some reply => rfl
      | none =>
          obtain ⟨ht₁, ht₂⟩ := hpassed _ hauth
          rw [storedPreview_congr h.runs (h.derived ht₁ ht₂).1]
  | validation job =>
      rw [ReviewRoute.reply, ReviewRoute.reply, handleGetScenarioPatchValidation,
        handleGetScenarioPatchValidation]
      cases hauth : authorizeScenarioPatchArtifactRead svc s₂ tenantID id r
        "scenario patch validation not found" with
      | some reply =>
          rw [ReviewService.readValidation, ReviewService.readValidation, h.authorize, hauth]
      | none =>
          obtain ⟨ht₁, ht₂⟩ := hpassed _ hauth
          rw [h.readValidation ht₁ ht₂]
          rcases svc.readValidation s₂ tenantID id r job with reply | ⟨v, _ | job⟩
          · rfl
          · rfl
          · exact save_reply_congr h.runs _ _ _

def storedVersion (review : Review) : Artifact := ⟨"application/json", review.marshal⟩

theorem handleGetRunReview_stored {review : Review} (howner : s.owner id = some tenantID)
    (hreview : s.artifacts id hostedRunReview = some (storedVersion review)) :
    handleGetRunReview svc s tenantID id r =
      if Auth.isBlank r.authorization && !review.isPublic then
        writeError 404 "run review not found"
      else writeJSON 200 review.json := by
  unfold handleGetRunReview RunStore.getArtifact
  rw [if_pos howner, hreview]
  simp only [storedVersion, decode_marshal]

/-- A reader of the owning tenant whose request carries a header is served the review, and so is
every one if it is public. -/
theorem served_iff {review : Review} (howner : s.owner id = some tenantID)
    (hreview : s.artifacts id hostedRunReview = some (storedVersion review)) :
    handleGetRunReview svc s tenantID id r = writeJSON 200 review.json ↔
      Auth.isBlank r.authorization = false ∨ review.isPublic = true := by
  have hother : writeError 404 "run review not found" ≠ writeJSON 200 review.json := by
    intro heq
    have hstatus := congrArg Reply.status heq
    cases hstatus
  rw [handleGetRunReview_stored howner hreview]
  cases Auth.isBlank r.authorization with
  | false => simp
  | true =>
      cases review.isPublic with
      | true => simp
      | false => simpa using hother

theorem ReviewCall.review_serve (c : ReviewCall) :
    (c.serve svc id s).1.artifacts id hostedRunReview =
      ((c.version svc id s).map storedVersion).or (s.artifacts id hostedRunReview) := by
  rw [(c.wrote svc id s).artifacts]
  cases c with
  | putReview tenantID body =>
      rw [ReviewCall.write, ReviewCall.version]
      cases svc.version s tenantID id body with
      | error reply => rfl
      | ok review =>
          show written (some (hostedRunReview, review.marshal)) hostedRunReview _ = _
          rw [written, if_pos rfl]
          rfl
  | postPreview tenantID file =>
      exact ReviewCall.written_review (fun t body heq => by cases heq) _
  | postValidation tenantID body triggers =>
      exact ReviewCall.written_review (fun t body heq => by cases heq) _
  | getValidation tenantID r job =>
      exact ReviewCall.written_review (fun t body heq => by cases heq) _

theorem review_afterCalls (calls : List ReviewCall) (review : Option Review)
    (h : s.artifacts id hostedRunReview = review.map storedVersion) :
    (afterCalls svc id s calls).artifacts id hostedRunReview =
      (lastVersion svc id s review calls).map storedVersion := by
  induction calls generalizing s review with
  | nil => exact h
  | cons c calls ih =>
      refine ih _ ?_
      rw [c.review_serve, h, Option.map_or]

/-- **Private reviews over any history.** Start with a run that has no review, no preview and no
validation.

In any two histories that differ in private versions of the review only, and in which a public
version is stored only while the stored preview, if any, is not of a private one, requests without
credentials get the same replies.

After any history, a reader whom the authentication takes for the owning tenant is served the last
version if the request carries an `Authorization` header, or the version is public, and only then.
-/
theorem reviews_guarded (svc : ReviewService) (authMw : Auth.Request → Except Reply String)
    (s : RunStore) (id : String)
    (hnone : ∀ kind ∈ [hostedRunReview, hostedScenarioPatchPreview, hostedScenarioPatchValidation],
      s.artifacts id kind = none) :
    (∀ calls₁ calls₂, List.Forall₂ (AlikeCalls svc id s) calls₁ calls₂ →
      Careful svc id s false calls₁ → Careful svc id s false calls₂ →
      ∀ route r, isAnonymousRead r = true →
        readRoute svc authMw (afterCalls svc id s calls₁) id route r =
          readRoute svc authMw (afterCalls svc id s calls₂) id route r) ∧
    ∀ calls tenantID review r, s.owner id = some tenantID →
      lastVersion svc id s none calls = some review →
      isAnonymousRead r = false → authMw r = .ok tenantID →
      (readRoute svc authMw (afterCalls svc id s calls) id .review r = writeJSON 200 review.json ↔
        Auth.isBlank r.authorization = false ∨ review.isPublic = true) := by
  have hreview : s.artifacts id hostedRunReview = none := hnone _ (by simp)
  constructor
  · intro calls₁ calls₂ hcalls hcareful₁ hcareful₂ route r hr
    have hstart : Alike id s s false false :=
      ⟨rfl, Or.inl rfl, fun _ _ => ⟨rfl, rfl⟩, fun _ => rfl, fun _ => rfl⟩
    have halike := hstart.afterCalls rfl hcalls hcareful₁ hcareful₂
    unfold readRoute
    cases readTenantMiddleware svc authMw r with
    | error reply => rfl
    | ok tenantID => exact halike.reply hr route
  · intro calls tenantID review r howner hlast hr hauth
    have hcredentials : (!Auth.isBlank r.authorization || hasSessionCookie r) = true := by
      rw [isAnonymousRead] at hr
      cases hblank : Auth.isBlank r.authorization <;> simp_all
    have hstored : (afterCalls svc id s calls).artifacts id hostedRunReview =
        some (storedVersion review) := by
      rw [review_afterCalls calls none hreview, hlast]
      rfl
    unfold readRoute readTenantMiddleware
    rw [if_pos hcredentials, hauth]
    refine served_iff ?_ hstored
    rw [owner_congr (runs_afterCalls calls), howner]

theorem preview_postPreview {file : ScenarioFile} {p : PreviewResponse}
    (h : svc.newPreview s tenantID id file = .ok p) :
    ((ReviewCall.postPreview tenantID file).serve svc id s).1.artifacts id
        hostedScenarioPatchPreview =
      some ⟨"application/json", bytesOf (String.ofList (p.json.text .compact 0))⟩ := by
  rw [((ReviewCall.postPreview tenantID file).wrote svc id s).artifacts, ReviewCall.write, h]
  show written (some (hostedScenarioPatchPreview, _)) hostedScenarioPatchPreview _ = _
  rw [written, if_pos rfl]

theorem preview_putReview {body : Except String Review} {review : Review}
    {contentType : String} {data : Bytes}
    (hversion : svc.version s tenantID id body = .ok review) (hpublic : review.isPublic = true)
    (ha : s.artifacts id hostedScenarioPatchPreview = some ⟨contentType, data⟩) :
    handleGetScenarioPatchPreview svc ((ReviewCall.putReview tenantID body).serve svc id s).1
        tenantID id r = ⟨200, contentType, data⟩ := by
  have hwrote := (ReviewCall.putReview tenantID body).wrote svc id s
  rw [ReviewCall.write, hversion] at hwrote
  have howner : ((ReviewCall.putReview tenantID body).serve svc id s).1.owner id =
      some tenantID := by
    rw [owner_congr hwrote.runs]
    exact owner_of_version hversion
  have hreview : ((ReviewCall.putReview tenantID body).serve svc id s).1.artifacts id
      hostedRunReview = some (storedVersion review) := by
    rw [ReviewCall.review_serve, ReviewCall.version, hversion]
    rfl
  have hpreview := hwrote.artifacts hostedScenarioPatchPreview
  rw [ha] at hpreview
  unfold handleGetScenarioPatchPreview authorizeScenarioPatchArtifactRead RunStore.getArtifact
  rw [if_pos howner, if_pos howner, hreview, hpreview]
  simp only [storedVersion, decode_marshal, hpublic, Bool.not_true, Bool.and_false]
  rfl

end reads

/-! ### A preview that outlives its review -/

/-- A service whose scenarios are empty mappings. -/
def sampleService : ReviewService where
  scenariosDir := "scenarios"
  publicTenant := "public"
  jsonError _ := "invalid"
  foreignKey := "no run"
  yaml :=
    { parse := fun _ => .ok (.mk .mapping "" [] [])
      encode := fun _ => .ok []
      unifiedDiff := fun _ _ _ => .ok "" }

def sampleRun : RunRow := ⟨"run-1", "public", { scenarioID := "s", model := "m" }, 0, false⟩

def sampleStore : RunStore := (RunStore.empty.insertRun sampleRun).getD .empty

/-- A version of its review that suggests a rule. -/
def sampleReview (visibility target : String) : Review where
  version := "run_review.v1"
  runID := "run-1"
  scenarioID := "s"
  visibility := visibility
  verdict := "needs_review"
  reviewer := { type := "human" }
  suggestedRules := [⟨target, "command", "kubectl delete", "", ""⟩]

def samplePut (visibility target : String) : ReviewCall :=
  .putReview "public" (.ok (sampleReview visibility target))

def samplePreview (target : String) : PreviewResponse :=
  newScenarioPatchPreviewResponse "run-1" "s" "s.yaml"
    { patchedYAML := [], addedRules := []
      skippedRules := [⟨target, "command", "kubectl delete", "unsupported_target"⟩] }

def sampleMembers (target : String) : List (String × Json) :=
  [("version", .str "scenario_patch_preview.v1"), ("run_id", .str "run-1"),
    ("scenario_id", .str "s"), ("scenario_path", .str "s.yaml"), ("changed", .bool false),
    ("diff", .str ""), ("artifact_url", .str "/v1/bench/runs/run-1/scenario-patch-preview"),
    ("diff_url", .str "/v1/bench/runs/run-1/scenario-patch.diff"), ("added_rules", .null),
    ("skipped_rules", .arr [.obj [("target", .str target), ("kind", .str "command"),
      ("pattern", .str "kubectl delete"), ("reason", .str "unsupported_target")]])]

/-- A private version, a preview of it and a public version. -/
def sampleCalls (target : String) : List ReviewCall :=
  [samplePut "private" target, .postPreview "public" (.found "s.yaml" []), samplePut "public" ""]

theorem newPreview_sampleReview {s : RunStore} {target : String} (hruns : s.runs = sampleStore.runs)
    (hreview : s.artifacts "run-1" hostedRunReview =
      some (storedVersion (sampleReview "private" target)))
    (htarget : autopsySection target = none) :
    sampleService.newPreview s "public" "run-1" (.found "s.yaml" []) =
      .ok (samplePreview target) := by
  have hrun : s.getRun "public" "run-1" = some sampleRun := getRun_congr hruns
  have hnormal : normalizeForRun (sampleReview "private" target) "run-1"
      sampleRun.columns.scenarioID visibilityPrivate = .ok (sampleReview "private" target) := rfl
  have hpreview : preview sampleService.yaml [] (sampleReview "private" target) "s.yaml" =
      .ok { patchedYAML := [], addedRules := []
            skippedRules := [⟨target, "command", "kubectl delete", "unsupported_target"⟩] } := by
    simp only [preview, sampleReview, Patch.turns, Patch.turn, htarget]
    rfl
  unfold ReviewService.newPreview RunStore.getArtifact
  rw [if_neg (by decide), hrun, if_pos (owner_of_getRun hrun), hreview]
  simp only [storedVersion, decode_marshal, hnormal, hpreview]
  rfl

theorem preview_sampleCalls {target : String} (htarget : autopsySection target = none) :
    readRoute sampleService (fun _ => .error (writeError 401 "unauthorized"))
        (afterCalls sampleService "run-1" sampleStore (sampleCalls target)) "run-1" .preview
        ⟨[], []⟩ =
      ⟨200, "application/json",
        bytesOf (String.ofList ((samplePreview target).json.text .compact 0))⟩ := by
  have htenant : readTenantMiddleware sampleService
      (fun _ => .error (writeError 401 "unauthorized")) ⟨[], []⟩ = .ok "public" := rfl
  have hpublic : sampleService.version sampleStore "public" "run-1"
      (.ok (sampleReview "public" "")) = .ok (sampleReview "public" "") := rfl
  simp only [readRoute, htenant, sampleCalls, afterCalls, ReviewRoute.reply]
  -- after each call, what it left is all that the next one needs to know
  have hruns₁ : ((samplePut "private" target).serve sampleService "run-1" sampleStore).1.runs =
      sampleStore.runs := ReviewCall.runs_serve _
  have hreview₁ : ((samplePut "private" target).serve sampleService "run-1" sampleStore).1.artifacts
      "run-1" hostedRunReview = some (storedVersion (sampleReview "private" target)) :=
    ReviewCall.review_serve _
  generalize ((samplePut "private" target).serve sampleService "run-1" sampleStore).1 = s₁
    at hruns₁ hreview₁ ⊢
  have hpreview₂ := preview_postPreview (newPreview_sampleReview hruns₁ hreview₁ htarget)
  have hruns₂ : ((ReviewCall.postPreview "public" (.found "s.yaml" [])).serve sampleService
      "run-1" s₁).1.runs = sampleStore.runs := (ReviewCall.runs_serve _).trans hruns₁
  generalize ((ReviewCall.postPreview "public" (.found "s.yaml" [])).serve sampleService "run-1"
    s₁).1 = s₂ at hruns₂ hpreview₂ ⊢
  rw [← version_congr hruns₂] at hpublic
  rw [samplePut]
  exact preview_putReview hpublic rfl hpreview₂

/-- **A private review is shown, and not to its readers.** Two histories that differ in the target
of a rule of a private version: a request without credentials reads the target in the preview once
a public version is stored. The private version itself is not found by a reader of its tenant who
has a session cookie. -/
theorem private_preview_shown :
    List.Forall₂ (AlikeCalls sampleService "run-1" sampleStore) (sampleCalls "a")
        (sampleCalls "b") ∧
      isAnonymousRead ⟨[], []⟩ = true ∧
      readRoute sampleService (fun _ => .error (writeError 401 "unauthorized"))
          (afterCalls sampleService "run-1" sampleStore (sampleCalls "a")) "run-1" .preview
          ⟨[], []⟩ ≠
        readRoute sampleService (fun _ => .error (writeError 401 "unauthorized"))
          (afterCalls sampleService "run-1" sampleStore (sampleCalls "b")) "run-1" .preview
          ⟨[], []⟩ ∧
      lastVersion sampleService "run-1" sampleStore none [samplePut "private" "a"] =
        some (sampleReview "private" "a") ∧
      isAnonymousRead ⟨[], [("bench_session", [1])]⟩ = false ∧
      readRoute sampleService (fun _ => .ok "public")
          (afterCalls sampleService "run-1" sampleStore [samplePut "private" "a"]) "run-1" .review
          ⟨[], [("bench_session", [1])]⟩ =
        writeError 404 "run review not found" := by
  refine ⟨?_, rfl, ?_, rfl, rfl, ?_⟩
  · refine .cons (.secret rfl rfl rfl rfl) (.cons (.same _) (.cons (.same _) .nil))
  · have ha : autopsySection "a" = none := rfl
    have hb : autopsySection "b" = none := rfl
    rw [preview_sampleCalls ha, preview_sampleCalls hb]
    intro heq
    have htext := congrArg (fun reply => decodeUtf8 reply.body) heq
    simp only [decodeUtf8_bytesOf, String.toList_ofList] at htext
    have hjson : ∀ target, (samplePreview target).json = .obj (sampleMembers target) :=
      fun _ => rfl
    have hok : ∀ target, (Json.obj (sampleMembers target)).Ok Doc.maxNestingDepth := fun _ => by
      simp [sampleMembers, Json.Ok, Json.MembersOk, Json.ItemsOk, Doc.maxNestingDepth]
    rw [hjson, hjson] at htext
    simpa [sampleMembers] using Json.eq_of_text_eq (hok "a") (hok "b") htext
  · have htenant : readTenantMiddleware sampleService (fun _ => .ok "public")
        ⟨[], [("bench_session", [1])]⟩ = .ok "public" := rfl
    have howner : (afterCalls sampleService "run-1" sampleStore [samplePut "private" "a"]).owner
        "run-1" = some "public" := owner_congr (runs_afterCalls _)
    have hreview : (afterCalls sampleService "run-1" sampleStore
        [samplePut "private" "a"]).artifacts "run-1" hostedRunReview =
          some (storedVersion (sampleReview "private" "a")) := review_afterCalls _ none rfl
    simp only [readRoute, htenant, ReviewRoute.reply]
    rw [handleGetRunReview_stored howner hreview]
    rfl

/-- Two careful histories with different private versions: the reader without credentials gets the
same, and the one with a header gets the private version. -/
theorem reviews_guarded_sample :
    readRoute sampleService (fun _ => .ok "public")
        (afterCalls sampleService "run-1" sampleStore [samplePut "private" "a"]) "run-1" .review
        ⟨[], []⟩ =
      readRoute sampleService (fun _ => .ok "public")
        (afterCalls sampleService "run-1" sampleStore [samplePut "private" "b"]) "run-1" .review
        ⟨[], []⟩ ∧
      readRoute sampleService (fun _ => .ok "public")
          (afterCalls sampleService "run-1" sampleStore [samplePut "private" "a"]) "run-1" .review
          ⟨[1], []⟩ = writeJSON 200 (sampleReview "private" "a").json := by
  have hcareful : ∀ target,
      Careful sampleService "run-1" sampleStore false [samplePut "private" target] :=
    fun target => ⟨fun _ => rfl, trivial⟩
  obtain ⟨hsame, hserved⟩ := reviews_guarded sampleService (fun _ => .ok "public") sampleStore
    "run-1" (fun kind _ => rfl)
  constructor
  · exact hsame _ _ (.cons (.secret rfl rfl rfl rfl) .nil) (hcareful "a") (hcareful "b") .review
      ⟨[], []⟩ rfl
  · exact (hserved [samplePut "private" "a"] "public" (sampleReview "private" "a") ⟨[1], []⟩ rfl rfl
      rfl rfl).mpr (Or.inl rfl)

end EvidraBench.Benchsvc
