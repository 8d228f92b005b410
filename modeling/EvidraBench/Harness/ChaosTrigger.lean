import EvidraBench.Harness.Chaos

/-!
# When a chaos trigger fires, and when it is at fault

What holds over whole runs of `ChaosRunner.Run`, whatever the runner's commands answer and whenever
the context is cancelled.

Results: `took`, `fires_on_own_object`, `triggerFaulted_iff`.

Source: `pkg/harness/chaos.go`
-/

namespace EvidraBench.Harness

open EvidraBench.Gostd EvidraBench.Lib

variable {c : ChaosSetup} {s s' : ChaosState} {m : Move}

/-! ### What a move can do -/

/-- The moves that are possible, and what they lead to. -/
inductive Took (c : ChaosSetup) (s : ChaosState) : Move → ChaosState → Prop
  | cancel : Took c s .cancel { s with cancelled := true }
  | turn (hpc : s.pc = .next) : Took c s .turn (s.turnNext c)
  | read (hpc : s.pc = .waiting) : Took c s .tick { s with pc := .reading }
  | stop (hpc : s.pc = .waiting ∨ s.pc = .timer) (hcancelled : s.cancelled = true) :
      Took c s .stop { s with pc := .returned }
  | answer {step : ChaosStep} {i : Nat} {rest : List (ChaosStep × Nat)}
      {ac : ResourceChangeTrigger} {a : Answer} (hpc : s.pc = .reading)
      (htodo : s.todo = (step, i) :: rest) (hac : step.afterChange = some ac)
      (hadmits : s.Admits a = true) : Took c s (.answer a) (s.answerReading c step i ac a)
  | check {step : ChaosStep} {i : Nat} {rest : List (ChaosStep × Nat)} {e : String} {b : Bool}
      (hpc : s.pc = .checking e b) (htodo : s.todo = (step, i) :: rest) :
      Took c s .turn (s.check step e)
  | enter {step : ChaosStep} {i : Nat} {rest : List (ChaosStep × Nat)} (hpc : s.pc = .timer)
      (htodo : s.todo = (step, i) :: rest) : Took c s .tick (s.enter i)
  | finish {m : Move} {step : ChaosStep} {i : Nat} {rest : List (ChaosStep × Nat)} {a : Answer}
      (hpc : s.pc = .executing) (htodo : s.todo = (step, i) :: rest)
      (hends : (execution c.tools c.kubeconfigPath step).ends m = some a)
      (hadmits : s.Admits a = true) : Took c s m (s.finish c step i rest a)

/-- **A move does one of these.** -/
theorem took (h : chaosTurn c s m = some s') : Took c s m s' := by
  unfold chaosTurn at h
  split at h
  · cases h
    exact .cancel
  · split at h
    · cases h
      exact .turn ‹_›
    · cases h
      exact .read ‹_›
    · split_ifs at h with hcancelled
      cases h
      exact .stop (.inl ‹_›) hcancelled
    · obtain ⟨ac, hac, h⟩ := Option.bind_eq_some_iff.mp h
      split_ifs at h with hadmits
      cases h
      exact .answer ‹_› ‹_› hac hadmits
    · cases h
      exact .check ‹_› ‹_›
    · cases h
      exact .enter ‹_› ‹_›
    · split_ifs at h with hcancelled
      cases h
      exact .stop (.inr ‹_›) hcancelled
    · obtain ⟨a, ha, h⟩ := Option.bind_eq_some_iff.mp h
      split_ifs at h with hadmits
      cases h
      exact .finish ‹_› ‹_› ha hadmits
    · cases h

/-! ### A trigger fires on its own object -/

/-- The version that a step was armed with: the one read for it. -/
def armReading (t : ChaosTools) (reads : Nat → Answer) (steps : List ChaosStep) (i : Nat) :
    Option String :=
  steps[i]?.bind fun step => step.afterChange.bind fun ac =>
    (resourceVersion t ac (reads i)).toOption

/-- Every execution of a step that was armed comes after a reading of its object that differs from
the version it was armed with. -/
def Preceded (reading : Nat → Option String) (trace : List Obs) : Prop :=
  ∀ before after i, trace = before ++ Obs.executed i :: after → ∀ v, reading i = some v →
    ∃ w, Obs.read i w ∈ before ∧ w ≠ v

section arming

variable {t : ChaosTools} {reads : Nat → Answer}

/-- A version that was read for a step of the name. -/
def ReadFor (t : ChaosTools) (reads : Nat → Answer) (i : Nat) (steps : List ChaosStep)
    (name version : String) : Prop :=
  ∃ k step ac, steps[k]? = some step ∧ step.name = name ∧ step.afterChange = some ac ∧
    resourceVersion t ac (reads (i + k)) = .ok version

theorem ReadFor.cons {i : Nat} {steps : List ChaosStep} {name version : String}
    (h : ReadFor t reads (i + 1) steps name version) (step : ChaosStep) :
    ReadFor t reads i (step :: steps) name version := by
  obtain ⟨k, step', ac, hk, hname, hac, hv⟩ := h
  refine ⟨k + 1, step', ac, hk, hname, hac, ?_⟩
  rw [show i + (k + 1) = i + 1 + k by omega]
  exact hv

theorem readFor_of_armFrom {steps : List ChaosStep} {i : Nat} {armed armed' : String → String}
    (h : armFrom t reads i steps armed = .ok armed') (name : String) :
    ReadFor t reads i steps name (armed' name) ∨
      (∀ step ∈ steps, step.afterChange.isSome → step.name ≠ name) ∧ armed' name = armed name := by
  induction steps generalizing i armed with
  | nil =>
      obtain rfl := Except.ok.inj h
      exact Or.inr ⟨fun _ hmem => absurd hmem List.not_mem_nil, rfl⟩
  | cons step rest ih =>
      rw [armFrom] at h
      cases hac : step.afterChange with
      | none =>
          rw [hac] at h
          refine (ih h).imp (·.cons step) fun hnone => ⟨?_, hnone.2⟩
          refine List.forall_mem_cons.mpr ⟨fun hsome => ?_, hnone.1⟩
          rw [hac] at hsome
          cases hsome
      | some ac =>
          rw [hac] at h
          cases hv : resourceVersion t ac (reads i) with
          | error e =>
              simp only [hv] at h
              cases h
          | ok v =>
              simp only [hv] at h
              rcases ih h with hread | ⟨hnone, harmed⟩
              · exact Or.inl (hread.cons step)
              · by_cases hname : step.name = name
                · rw [harmed, ← hname, Function.update_self]
                  exact Or.inl ⟨0, step, ac, rfl, rfl, hac, hv⟩
                · rw [Function.update_of_ne (Ne.symm hname)] at harmed
                  exact Or.inr ⟨List.forall_mem_cons.mpr ⟨fun _ => hname, hnone⟩, harmed⟩

/-- Triggers of one name were armed with one version. -/
def OneVersionAName (t : ChaosTools) (reads : Nat → Answer) (steps : List ChaosStep) : Prop :=
  ∀ i j a b, steps[i]? = some a → steps[j]? = some b → a.afterChange.isSome →
    b.afterChange.isSome → a.name = b.name →
    armReading t reads steps i = armReading t reads steps j

theorem oneVersionAName_of_nodup {steps : List ChaosStep}
    (h : (steps.map ChaosStep.name).Nodup) : OneVersionAName t reads steps := by
  intro i j a b hi hj _ _ hname
  have hlength : i < (steps.map ChaosStep.name).length := by
    rw [List.length_map]
    exact (List.getElem?_eq_some_iff.mp hi).1
  have hsame : (steps.map ChaosStep.name)[i]? = (steps.map ChaosStep.name)[j]? := by
    rw [List.getElem?_map, List.getElem?_map, hi, hj, Option.map_some, Option.map_some, hname]
  rw [(List.getElem?_inj hlength h).mp hsame]

theorem armed_eq_of_armReading {config : ChaosConfig} {armed : String → String}
    (harm : armResourceTriggers t reads config = .ok armed)
    (hnames : OneVersionAName t reads config.steps) {step : ChaosStep} {i : Nat} {v : String}
    (hstep : config.steps[i]? = some step) (hv : armReading t reads config.steps i = some v) :
    armed step.name = v := by
  have hsome : step.afterChange.isSome = true := by
    unfold armReading at hv
    rw [hstep, Option.bind_some] at hv
    obtain ⟨ac, hac, -⟩ := Option.bind_eq_some_iff.mp hv
    rw [hac]
    rfl
  rcases readFor_of_armFrom harm step.name with ⟨k, step', ac, hk, hname, hac, hw⟩ | ⟨hnone, -⟩
  · have hk' : armReading t reads config.steps k = some (armed step.name) := by
      unfold armReading
      rw [Nat.zero_add] at hw
      rw [hk, Option.bind_some, hac, Option.bind_some, hw]
      rfl
    have hsame := hnames i k step step' hstep hk hsome (hac ▸ rfl) hname.symm
    rw [hv, hk'] at hsame
    exact (Option.some.inj hsame).symm
  · exact absurd rfl (hnone step (List.mem_of_getElem? hstep) hsome)

end arming

theorem Preceded.snoc {reading : Nat → Option String} {trace : List Obs} {o : Obs}
    (h : Preceded reading trace)
    (ho : ∀ i, o = .executed i → ∀ v, reading i = some v → ∃ w, Obs.read i w ∈ trace ∧ w ≠ v) :
    Preceded reading (trace ++ [o]) := by
  intro before after i heq v hv
  rcases List.eq_nil_or_concat after with rfl | ⟨after', o', rfl⟩
  · obtain ⟨rfl, hlast⟩ := List.append_inj' heq rfl
    exact ho i (List.cons.inj hlast).1 v hv
  · rw [List.concat_eq_append, ← List.cons_append, ← List.append_assoc] at heq
    obtain ⟨htrace, -⟩ := List.append_inj' heq rfl
    exact h before after' i htrace v hv

structure Watching (c : ChaosSetup) (armed : String → String) (reading : Nat → Option String)
    (s : ChaosState) : Prop where
  armed : s.armed = armed
  todo : ∀ step i, (step, i) ∈ s.todo → c.config.steps[i]? = some step
  timer : s.pc = .timer → ∀ step i rest, s.todo = (step, i) :: rest → step.afterChange = none
  trace : Preceded reading s.trace

section watching

variable {armed : String → String} {reading : Nat → Option String}

theorem Watching.keep (h : Watching c armed reading s) (harmed : s'.armed = s.armed)
    (htodo : ∀ p ∈ s'.todo, p ∈ s.todo) (hpc : s'.pc ≠ .timer)
    (htrace : Preceded reading s'.trace) : Watching c armed reading s' :=
  ⟨harmed.trans h.armed, fun step i hmem => h.todo step i (htodo _ hmem),
    fun htimer => absurd htimer hpc, htrace⟩

theorem Watching.turnNext (h : Watching c armed reading s) (hpc : s.pc = .next) :
    Watching c armed reading (s.turnNext c) := by
  unfold ChaosState.turnNext
  split
  · split_ifs
    · refine ⟨h.armed, fun step i hmem => List.mem_zipIdx_iff_getElem?.mp hmem, ?_, h.trace⟩
      intro htimer
      rw [hpc] at htimer
      cases htimer
    · exact h.keep rfl (fun _ hmem => hmem) Pc.noConfusion h.trace
  · rename_i step i rest htodo
    split_ifs with hnone hempty
    · refine ⟨h.armed, h.todo, fun _ step' i' rest' htodo' => ?_, h.trace⟩
      rw [htodo] at htodo'
      cases htodo'
      exact Option.isNone_iff_eq_none.mp hnone
    · exact h.keep rfl (fun _ hmem => hmem) Pc.noConfusion (h.trace.snoc nofun)
    · exact h.keep rfl (fun _ hmem => hmem) Pc.noConfusion h.trace

/-- So does a reading: the step is executed when the version differs from the one that it was
armed with. -/
theorem Watching.answerReading (h : Watching c armed reading s) {step : ChaosStep} {i : Nat}
    (hfires : ∀ v, reading i = some v → armed step.name = v) (ac : ResourceChangeTrigger)
    (a : Answer) : Watching c armed reading (s.answerReading c step i ac a) := by
  unfold ChaosState.answerReading
  split
  · exact h.keep rfl (fun _ hmem => hmem) Pc.noConfusion (h.trace.snoc nofun)
  · rename_i current _
    have hread : Preceded reading (s.trace ++ [.read i current]) := h.trace.snoc nofun
    dsimp only
    split_ifs with hchanged
    · refine h.keep rfl (fun _ hmem => hmem) Pc.noConfusion (hread.snoc ?_)
      rintro j ⟨rfl⟩ v hv
      refine ⟨current, by simp, ?_⟩
      rw [← hfires v hv, ← h.armed]
      exact hchanged
    · exact h.keep rfl (fun _ hmem => hmem) Pc.noConfusion hread

theorem Watching.finish (h : Watching c armed reading s) {step : ChaosStep} {i : Nat}
    {rest : List (ChaosStep × Nat)} (htodo : s.todo = (step, i) :: rest) (a : Answer) :
    Watching c armed reading (s.finish c step i rest a) := by
  have htrace : Preceded reading (s.record c step i a).trace := by
    show Preceded reading (s.trace ++ _)
    split_ifs
    · exact h.trace.snoc nofun
    · rw [List.append_nil]
      exact h.trace
  unfold ChaosState.finish
  dsimp only
  split_ifs
  · exact h.keep rfl (fun _ hmem => hmem) Pc.noConfusion htrace
  · refine h.keep rfl (fun p hmem => ?_) Pc.noConfusion htrace
    rw [htodo]
    exact List.mem_cons_of_mem _ hmem

/-- **Every move keeps it.** -/
theorem Watching.step (h : Watching c armed reading s)
    (hfires : ∀ step i v, c.config.steps[i]? = some step → reading i = some v →
      armed step.name = v)
    (htimer : ∀ step i, c.config.steps[i]? = some step → step.afterChange = none →
      reading i = none)
    (hstep : chaosTurn c s m = some s') : Watching c armed reading s' := by
  cases took hstep with
  | cancel => exact ⟨h.armed, h.todo, h.timer, h.trace⟩
  | turn hpc => exact h.turnNext hpc
  | read hpc => exact h.keep rfl (fun _ hmem => hmem) Pc.noConfusion h.trace
  | stop hpc hcancelled => exact h.keep rfl (fun _ hmem => hmem) Pc.noConfusion h.trace
  | @answer step i rest ac a hpc htodo hac hadmits =>
      have hmem : c.config.steps[i]? = some step := h.todo step i (htodo ▸ List.mem_cons_self)
      exact h.answerReading (fun v => hfires step i v hmem) ac a
  | @check step i rest e b hpc htodo =>
      unfold ChaosState.check
      split_ifs
      · exact h.keep rfl (fun _ hmem => hmem) Pc.noConfusion h.trace
      · exact h.keep rfl (fun _ hmem => hmem) Pc.noConfusion h.trace
  | @enter step i rest hpc htodo =>
      have hmem : c.config.steps[i]? = some step := h.todo step i (htodo ▸ List.mem_cons_self)
      have hnone := htimer step i hmem (h.timer hpc step i rest htodo)
      refine h.keep rfl (fun _ hmem => hmem) Pc.noConfusion (h.trace.snoc ?_)
      rintro j ⟨rfl⟩ v hv
      rw [hnone] at hv
      cases hv
  | finish hpc htodo hends hadmits => exact h.finish htodo _

end watching

/-- **A trigger fires on its own object.** Let the triggers be armed, triggers of one name with one
version. In every run, whatever is read and whenever the context is cancelled, every execution of a
step with a trigger comes after a reading of the object of that very step whose version differs from
the one that was read for the step when it was armed. -/
theorem fires_on_own_object (c : ChaosSetup) (reads : Nat → Answer) {armed : String → String}
    (harm : armResourceTriggers c.tools reads c.config = .ok armed)
    (hnames : OneVersionAName c.tools reads c.config.steps) {moves : List Move} {s : ChaosState}
    (hrun : (chaos c armed).exec (chaos c armed).init moves = some s) :
    Preceded (armReading c.tools reads c.config.steps) s.trace := by
  have hfires : ∀ step i v, c.config.steps[i]? = some step →
      armReading c.tools reads c.config.steps i = some v → armed step.name = v :=
    fun step i v => armed_eq_of_armReading harm hnames
  have htimer : ∀ step i, c.config.steps[i]? = some step → step.afterChange = none →
      armReading c.tools reads c.config.steps i = none := by
    intro step i hstep hnone
    unfold armReading
    rw [hstep, Option.bind_some, hnone, Option.bind_none]
  have hinit : Watching c armed (armReading c.tools reads c.config.steps)
      (chaos c armed).init := by
    refine ⟨rfl, fun step i hmem => List.mem_zipIdx_iff_getElem?.mp hmem, nofun, ?_⟩
    intro before after i heq
    exact absurd heq (by simp [chaos])
  refine (System.Reach.invariant (S := chaos c armed) hinit ?_ (.exec .init hrun)).trace
  intro s s' m _ hs hstep
  exact hs.step hfires htimer hstep

/-- The standard library, as far as the samples use it. -/
def sampleTools : ChaosTools := ⟨id, fun _ => none, fun _ => "invalid"⟩

def sampleStep (name object : String) : ChaosStep where
  name := name
  type := "kubectl-apply"
  path := "drift.yaml"
  afterChange := some ⟨"v1", "configmaps", "bench", object⟩

def sampleSetup (name₁ name₂ : String) : ChaosSetup where
  tools := sampleTools
  kubeconfigPath := "/kc"
  config := { steps := [sampleStep name₁ "a", sampleStep name₂ "b"] }

def sampleAnswer (version : String) : Answer where
  out := bytesOf ("\x7b\"metadata\":\x7b\"resourceVersion\":\"" ++ version ++ "\"\x7d\x7d")

def sampleReads (i : Nat) : Answer := sampleAnswer (if i = 0 then "100" else "200")

def sampleArmed (name₁ name₂ : String) : String → String :=
  Function.update (Function.update (fun _ => "") name₁ "100") name₂ "200"

def sampleTrace (name₁ name₂ : String) (moves : List Move) : Option (List Obs) :=
  let run := chaos (sampleSetup name₁ name₂) (sampleArmed name₁ name₂)
  (run.exec run.init moves).map ChaosState.trace

/-- **A trigger fires without a change.** Two steps have no name, and their objects have the
versions `100` and `200`. The first reading of the first object finds `100`, as it was armed with,
and the step is executed. -/
theorem fires_without_change :
    validateChaos sampleTools "s" ["bench"] (sampleSetup "" "").config = .ok () ∧
      armResourceTriggers sampleTools sampleReads (sampleSetup "" "").config =
        .ok (sampleArmed "" "") ∧
      sampleTrace "" "" [.turn, .tick, .answer (sampleAnswer "100")] =
        some [.read 0 "100", .executed 0] ∧
      armReading sampleTools sampleReads (sampleSetup "" "").config.steps 0 = some "100" ∧
      ¬ Preceded (armReading sampleTools sampleReads (sampleSetup "" "").config.steps)
        [.read 0 "100", .executed 0] := by
  have hreading : armReading sampleTools sampleReads (sampleSetup "" "").config.steps 0 =
      some "100" := rfl
  refine ⟨rfl, rfl, rfl, hreading, fun hpreceded => ?_⟩
  obtain ⟨w, hread, hw⟩ := hpreceded [.read 0 "100"] [] 0 rfl "100" hreading
  rw [List.mem_singleton] at hread
  cases hread
  exact hw rfl

/-- With names of their own the steps are told apart. -/
theorem fires_on_own_object_named :
    sampleTrace "first" "second"
        [.turn, .tick, .answer (sampleAnswer "100"), .tick, .answer (sampleAnswer "101")] =
        some [.read 0 "100", .read 0 "101", .executed 0] ∧
      Preceded (armReading sampleTools sampleReads (sampleSetup "first" "second").config.steps)
        [.read 0 "100", .read 0 "101", .executed 0] := by
  have harm : armResourceTriggers sampleTools sampleReads (sampleSetup "first" "second").config =
      .ok (sampleArmed "first" "second") := rfl
  have htrace : sampleTrace "first" "second"
      [.turn, .tick, .answer (sampleAnswer "100"), .tick, .answer (sampleAnswer "101")] =
        some [.read 0 "100", .read 0 "101", .executed 0] := rfl
  refine ⟨htrace, ?_⟩
  unfold sampleTrace at htrace
  obtain ⟨s, hs, hseen⟩ := Option.map_eq_some_iff.mp htrace
  rw [← hseen]
  exact fires_on_own_object (sampleSetup "first" "second") sampleReads harm
    (oneVersionAName_of_nodup (by decide)) hs

/-! ### Faults -/

/-- A failure that the cancellation is not the reason for. -/
def Obs.IsFault : Obs → Prop
  | .read _ _ | .executed _ => False
  | .unarmed _ => True
  | .readFailed _ byCancel => byCancel = false
  | .stepFailed _ step byCancel => step.loadBearing = true ∧ byCancel = false

def ChaosState.Faults (s : ChaosState) : Prop := ∃ o ∈ s.trace, o.IsFault

def ChaosState.triggerFaulted (s : ChaosState) : Bool := s.triggerErr.isSome

/-- A move does not confuse cancellation and failure: the cancellation does not end the execution
of a step with a trigger that must not fail, no such execution fails with an empty text, and
the context is not cancelled between the failure of a reading for another reason and the
question for the context's error. -/
def Separated (c : ChaosSetup) (s : ChaosState) (m : Move) : Prop :=
  match s.pc, s.todo with
  | .executing, (step, _) :: _ => step.loadBearing = true →
      ∀ a, (execution c.tools c.kubeconfigPath step).ends m = some a →
        a.byCancel = false ∧ a.err ≠ some ""
  | .checking _ byCancel, _ => m = .turn → byCancel = false → s.cancelled = false
  | _, _ => True

/-- What holds until the runner returns: nothing is reported, and there was no fault but a reading
that just failed. -/
structure Clean (s : ChaosState) : Prop where
  running : s.pc ≠ .returned
  err : s.triggerErr = none
  faults : s.Faults ↔ ∃ e, s.pc = .checking e false
  cancelled : ∀ e, s.pc = .checking e true → s.cancelled = true

def Sound (s : ChaosState) : Prop :=
  Clean s ∨ s.pc = .returned ∧ (s.triggerFaulted = true ↔ s.Faults)

theorem faults_append {trace : List Obs} {o : Obs} :
    (∃ o' ∈ trace ++ [o], o'.IsFault) ↔ (∃ o' ∈ trace, o'.IsFault) ∨ o.IsFault := by
  simp only [List.mem_append, List.mem_singleton, or_and_right, exists_or, exists_eq_left]

theorem Clean.not_faults (h : Clean s) (hpc : ∀ e b, s.pc ≠ .checking e b) : ¬ s.Faults := by
  intro hfaults
  obtain ⟨e, he⟩ := h.faults.mp hfaults
  exact hpc e false he

theorem Clean.go (herr : s.triggerErr = none) (hfaults : ¬ s.Faults) (hpc : s.pc ≠ .returned)
    (hchecking : ∀ e b, s.pc ≠ .checking e b) : Clean s where
  running := hpc
  err := herr
  faults := by
    refine ⟨fun h => absurd h hfaults, ?_⟩
    rintro ⟨e, he⟩
    exact absurd he (hchecking e false)
  cancelled e he := absurd he (hchecking e true)

theorem Sound.quiet (herr : s.triggerErr = none) (hfaults : ¬ s.Faults) (hpc : s.pc = .returned) :
    Sound s := by
  refine Or.inr ⟨hpc, ?_⟩
  rw [ChaosState.triggerFaulted, herr]
  exact ⟨Bool.noConfusion, fun h => absurd h hfaults⟩

theorem Sound.reported {err : String} (herr : s.triggerErr = some err) (hfaults : s.Faults)
    (hpc : s.pc = .returned) : Sound s := by
  refine Or.inr ⟨hpc, ?_⟩
  rw [ChaosState.triggerFaulted, herr]
  exact ⟨fun _ => hfaults, fun _ => rfl⟩

theorem Clean.turnNext (h : Clean s) (hpc : s.pc = .next) : Sound (s.turnNext c) := by
  have hno : ¬ s.Faults := h.not_faults fun e b he => by rw [hpc] at he; cases he
  unfold ChaosState.turnNext
  split
  · split_ifs
    · refine Or.inl (Clean.go h.err hno ?_ ?_)
      · exact h.running
      · intro e b he
        rw [show s.pc = .next from hpc] at he
        cases he
    · exact Sound.quiet h.err hno rfl
  · split_ifs
    · exact Or.inl (Clean.go h.err hno nofun nofun)
    · exact Sound.reported rfl (faults_append.mpr (Or.inr trivial)) rfl
    · exact Or.inl (Clean.go h.err hno nofun nofun)

theorem Clean.answerReading (h : Clean s) (hpc : s.pc = .reading) {a : Answer}
    (hadmits : s.Admits a = true) (step : ChaosStep) (i : Nat) (ac : ResourceChangeTrigger) :
    Clean (s.answerReading c step i ac a) := by
  have hno : ¬ s.Faults := h.not_faults fun e b he => by rw [hpc] at he; cases he
  unfold ChaosState.answerReading
  split
  · rename_i e _
    refine ⟨nofun, h.err, ?_, ?_⟩
    · refine faults_append.trans ((or_iff_right hno).trans ?_)
      constructor
      · intro hreal
        exact ⟨e, congrArg (Pc.checking e) hreal⟩
      · rintro ⟨e', he'⟩
        exact (Pc.checking.inj he').2
    · intro e' he'
      have hby : a.byCancel = true := (Pc.checking.inj he').2
      unfold ChaosState.Admits at hadmits
      rw [hby] at hadmits
      exact (Bool.and_eq_true_iff.mp hadmits).1
  · have hread : ∀ j v, ¬ ∃ o ∈ s.trace ++ [Obs.read j v], o.IsFault :=
      fun j v hfault => (faults_append.mp hfault).elim hno id
    dsimp only
    split_ifs
    · refine Clean.go h.err (fun hfault => ?_) nofun nofun
      exact (faults_append.mp hfault).elim (hread _ _) id
    · exact Clean.go h.err (hread _ _) nofun nofun

theorem Clean.check (h : Clean s) {e : String} {b : Bool} (hpc : s.pc = .checking e b)
    (hseparated : Separated c s .turn) (step : ChaosStep) : Sound (s.check step e) := by
  unfold Separated at hseparated
  rw [hpc] at hseparated
  unfold ChaosState.check
  split_ifs with hcancelled
  · refine Sound.quiet h.err (fun hfaults => ?_) rfl
    obtain ⟨e', he'⟩ := h.faults.mp hfaults
    rw [hpc] at he'
    have hnot := hseparated rfl (Pc.checking.inj he').2
    rw [hcancelled] at hnot
    cases hnot
  · cases b with
    | true => exact absurd (h.cancelled e hpc) hcancelled
    | false => exact Sound.reported rfl (h.faults.mpr ⟨e, hpc⟩) rfl

theorem Clean.finish (h : Clean s) (hpc : s.pc = .executing) {step : ChaosStep} {i : Nat}
    {rest : List (ChaosStep × Nat)} {a : Answer} (htodo : s.todo = (step, i) :: rest)
    (hends : (execution c.tools c.kubeconfigPath step).ends m = some a)
    (hseparated : Separated c s m) : Sound (s.finish c step i rest a) := by
  have hno : ¬ s.Faults := h.not_faults fun e b he => by rw [hpc] at he; cases he
  unfold Separated at hseparated
  rw [hpc, htodo] at hseparated
  unfold ChaosState.finish
  dsimp only
  split_ifs with hstops
  · obtain ⟨herror, hload⟩ := hstops
    obtain ⟨err, herr⟩ : ∃ err, a.err = some err := by
      refine Option.ne_none_iff_exists'.mp fun hnone => herror ?_
      rw [hnone]
      rfl
    refine Sound.reported rfl ⟨.stepFailed i step a.byCancel, ?_, hload, ?_⟩ rfl
    · show _ ∈ s.trace ++ _
      rw [herr]
      simp
    · exact (hseparated hload a hends).1
  · refine Or.inl (Clean.go h.err (fun hfaults => ?_) nofun nofun)
    obtain ⟨o, hmem, hfault⟩ := hfaults
    rcases List.mem_append.mp hmem with hold | hnew
    · exact hno ⟨o, hold, hfault⟩
    · -- a failure that did not stop the runner is one that may happen
      split_ifs at hnew with hsome
      · obtain rfl := List.mem_singleton.mp hnew
        obtain ⟨err, herr⟩ := Option.isSome_iff_exists.mp hsome
        refine hstops ⟨fun hempty => (hseparated hfault.1 a hends).2 ?_, hfault.1⟩
        rw [herr] at hempty ⊢
        exact congrArg some hempty
      · exact absurd hnew List.not_mem_nil

/-- **Every move that keeps cancellation and failures apart keeps the reports sound.** -/
theorem Sound.step (h : Sound s) (hseparated : Separated c s m)
    (hstep : chaosTurn c s m = some s') : Sound s' := by
  rcases h with h | ⟨hreturned, hreported⟩
  · cases took hstep with
    | cancel => exact Or.inl ⟨h.running, h.err, h.faults, fun _ _ => rfl⟩
    | turn hpc => exact h.turnNext hpc
    | read hpc =>
        refine Or.inl (Clean.go h.err (h.not_faults fun e b he => ?_) nofun nofun)
        rw [hpc] at he
        cases he
    | stop hpc hcancelled =>
        refine Sound.quiet h.err (h.not_faults fun e b he => ?_) rfl
        rcases hpc with hpc | hpc <;> · rw [hpc] at he; cases he
    | answer hpc htodo hac hadmits => exact Or.inl (h.answerReading hpc hadmits _ _ _)
    | check hpc htodo => exact h.check hpc hseparated _
    | @enter step i rest hpc htodo =>
        have hno : ¬ s.Faults := h.not_faults fun e b he => by rw [hpc] at he; cases he
        exact Or.inl (Clean.go h.err (fun hf => (faults_append.mp hf).elim hno id) nofun nofun)
    | finish hpc htodo hends hadmits => exact h.finish hpc htodo hends hseparated
  · -- after the return there is only the cancellation
    cases took hstep with
    | cancel => exact Or.inr ⟨hreturned, hreported⟩
    | turn hpc | read hpc | answer hpc | check hpc | enter hpc | finish hpc =>
        rw [hreturned] at hpc
        cases hpc
    | stop hpc =>
        rw [hreturned] at hpc
        rcases hpc with hpc | hpc <;> cases hpc

/-- **Faults are those of the evaluator.** In every run of the steps, with triggers armed in any
way, whatever the commands answer and whenever the context is cancelled: if every move keeps
cancellation and failures apart, then a fault is reported after the run just when some trigger was
not armed, a reading failed or the execution of a step with a trigger failed that must not, for a
reason other than the cancellation. -/
theorem triggerFaulted_iff (c : ChaosSetup) (armed : String → String) {moves : List Move}
    {s : ChaosState} (hrun : (chaos c armed).exec (chaos c armed).init moves = some s)
    (hseparated : ∀ i m t, moves[i]? = some m →
      (chaos c armed).exec (chaos c armed).init (moves.take i) = some t → Separated c t m)
    (hreturned : s.pc = .returned) : s.triggerFaulted = true ↔ s.Faults := by
  have hinit : Sound (chaos c armed).init := by
    refine Or.inl (Clean.go rfl ?_ nofun nofun)
    rintro ⟨o, hmem, -⟩
    exact absurd hmem List.not_mem_nil
  have hsound : Sound s :=
    System.exec_invariant (S := chaos c armed) (fun hs hq hstep => hs.step hq hstep) hinit
      hseparated hrun
  rcases hsound with hclean | ⟨-, hreported⟩
  · exact absurd hreturned hclean.running
  · exact hreported

/-- A step that pauses once a config map has changed. -/
def samplePause : ChaosStep where
  name := "drift"
  type := "sleep"
  duration := "30s"
  afterChange := some ⟨"v1", "configmaps", "bench", "a"⟩

def samplePauseSetup : ChaosSetup where
  tools := sampleTools
  kubeconfigPath := "/kc"
  config := { steps := [samplePause] }

/-- What its run is after some moves, if the step was armed with version `100`. -/
def samplePauseRun (moves : List Move) : Option ChaosState :=
  (chaos samplePauseSetup fun _ => "100").exec (chaos samplePauseSetup fun _ => "100").init moves

/-- **The agent finishes, and the trigger is at fault.** The object has changed, the step pauses,
the context is cancelled: a fault is reported, and nothing had failed for another reason. A reading
fails, the context is cancelled before it is asked for its error: nothing is reported. -/
theorem cancelled_step_faults :
    (samplePauseRun [.turn, .tick, .answer (sampleAnswer "101"), .cancel, .stop]).map
        (fun s => (s.pc, s.triggerErr, s.trace)) =
        some (.returned, some "chaos step \"drift\" failed: context canceled",
          [.read 0 "101", .executed 0, .stepFailed 0 samplePause true]) ∧
      (¬ ∃ o ∈ [Obs.read 0 "101", .executed 0, .stepFailed 0 samplePause true], o.IsFault) ∧
      (samplePauseRun [.turn, .tick, .answer { err := some "connection refused" }, .cancel,
        .turn]).map (fun s => (s.pc, s.triggerErr, s.trace)) =
        some (.returned, none, [.readFailed 0 false]) ∧
      ∃ o ∈ [Obs.readFailed 0 false], o.IsFault := by
  refine ⟨rfl, ?_, rfl, _, List.mem_cons_self, rfl⟩
  simp [Obs.IsFault]

/-- The agent finishes before the object changes. -/
theorem triggerFaulted_iff_unchanged :
    ∃ s, samplePauseRun [.turn, .cancel, .stop] = some s ∧ s.pc = .returned ∧
      (s.triggerFaulted = true ↔ s.Faults) := by
  obtain ⟨s, hs, hpc⟩ : ∃ s, samplePauseRun [.turn, .cancel, .stop] = some s ∧
      s.pc = .returned := ⟨_, rfl, rfl⟩
  refine ⟨s, hs, hpc, triggerFaulted_iff samplePauseSetup (fun _ => "100") hs ?_ hpc⟩
  intro i m t hm ht
  -- the runner is at the head of its loop or waits, and nothing is executed or asked for
  rcases i with _ | _ | _ | i
  · obtain rfl := Option.some.inj ht
    trivial
  · obtain rfl := Option.some.inj ht
    trivial
  · obtain rfl := Option.some.inj ht
    trivial
  · cases hm

end EvidraBench.Harness
