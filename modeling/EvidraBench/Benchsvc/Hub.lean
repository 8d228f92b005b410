import EvidraBench.Lib.Channel
import EvidraBench.Lib.Transition
import EvidraBench.Benchsvc.TriggerStore

/-!
# The subscribers of trigger jobs

Beside its jobs the trigger store keeps, for each job id, the channels on which clients wait for
updates. An update is sent to each of them, without waiting; one that finishes the job closes them
and forgets them, as a completion always does. `Hub` is the store with the channels: on the jobs it
does what `TriggerStore` does, and the operations are atomic, since each holds the store's lock.

Results: `call_ok`, `quiet_iff`.

Source: `internal/benchsvc/executor.go`
-/

namespace EvidraBench.Benchsvc

open EvidraBench.Lib

/-! ### The store with its channels -/

/-- The jobs, the channels registered for each id, and all channels made so far: channel `ch` is
made if `ch < made`.
Source: `TriggerStore` -/
structure Hub where
  store : TriggerStore
  subscribers : String → List ℕ
  channels : ℕ → Channel ProgressUpdate
  made : ℕ

inductive Write
  | create (job : TriggerJob)
  | update (u : ProgressUpdate)
  | complete (id : String) (status : Status) (passed failed : Int)
deriving DecidableEq, Repr

inductive Call
  | write (w : Write)
  | subscribe (id : String)
  | unsubscribe (id : String) (ch : ℕ)
  | receive (ch : ℕ)
deriving DecidableEq, Repr

/-- The room in a channel.
Source: `TriggerStore.Subscribe` -/
def channelSize : ℕ := 16

namespace Hub

variable (h : Hub)

/-- Source: `NewTriggerStore` -/
def new : Hub := ⟨.new, fun _ => [], fun _ => {}, 0⟩

def update (u : ProgressUpdate) : Except Panic Hub :=
  match h.store.get u.jobID with
  | none => .ok h
  | some j => do
      let job := j.update u
      let store : TriggerStore := ⟨Function.update h.store.get u.jobID (some job)⟩
      let channels ← Channel.each (·.trySend channelSize u) (h.subscribers u.jobID) h.channels
      if job.status.Terminal then
        let channels ← Channel.each Channel.close (h.subscribers u.jobID) channels
        return ⟨store, Function.update h.subscribers u.jobID [], channels, h.made⟩
      else return ⟨store, h.subscribers, channels, h.made⟩

/-- The subscribers are told the new status and totals, and that nothing more comes.
Source: `TriggerStore.Complete` -/
def complete (id : String) (status : Status) (passed failed : Int) : Except Panic Hub :=
  match h.store.get id with
  | none => .ok h
  | some j => do
      let job := j.complete status passed failed
      let u : ProgressUpdate :=
        { jobID := id, scenario := "", status := status, completed := job.completed,
          total := job.total }
      let channels ← Channel.each (·.sendLast channelSize u) (h.subscribers id) h.channels
      return ⟨⟨Function.update h.store.get id (some job)⟩,
        Function.update h.subscribers id [], channels, h.made⟩

/-- A new channel, registered for the id.
Source: `TriggerStore.Subscribe` -/
def subscribe (id : String) : Hub :=
  ⟨h.store, Function.update h.subscribers id (h.subscribers id ++ [h.made]),
    Function.update h.channels h.made {}, h.made + 1⟩

/-- The channel is not closed.
Source: `TriggerStore.Unsubscribe` -/
def unsubscribe (id : String) (ch : ℕ) : Hub :=
  { h with subscribers := Function.update h.subscribers id ((h.subscribers id).erase ch) }

/-- One update less in the channel, if there is one. -/
def receive (ch : ℕ) : Hub :=
  match (h.channels ch).receive with
  | some (_, c) => { h with channels := Function.update h.channels ch c }
  | none => h

/-- Source: -/
def call : Call → Except Panic Hub
  | .write (.create job) => .ok { h with store := h.store.create job }
  | .write (.update u) => h.update u
  | .write (.complete id status passed failed) => h.complete id status passed failed
  | .subscribe id => .ok (h.subscribe id)
  | .unsubscribe id ch => .ok (h.unsubscribe id ch)
  | .receive ch => .ok (h.receive ch)

/-- What is sent to the channels of an id, and whether they are then closed and forgotten. -/
def notified (store : TriggerStore) (id : String) (u : ProgressUpdate) (last : Bool) : Hub where
  store := store
  subscribers := if last then Function.update h.subscribers id [] else h.subscribers
  channels := fun ch =>
    if ch ∈ h.subscribers id then
      if last then ((h.channels ch).offer channelSize u).shut
      else (h.channels ch).offer channelSize u
    else h.channels ch
  made := h.made

/-- What a call can do to a hub whose channels are in order: it puts a job in, it finds no job, it
writes one and tells the subscribers, or it is about one subscriber. -/
inductive Does : Call → Hub → Prop
  | create (job : TriggerJob) : Does (.write (.create job)) { h with store := h.store.create job }
  | miss {w : Write} (hw : ∀ job, w ≠ .create job) : Does (.write w) h
  | notify {w : Write} {id : String} {j : TriggerJob} {u : ProgressUpdate} {last : Bool}
      (hw : ∀ job, w ≠ .create job) (hlast : j.status.Terminal → last = true) :
      Does (.write w) (h.notified ⟨Function.update h.store.get id (some j)⟩ id u last)
  | subscribe (id : String) : Does (.subscribe id) (h.subscribe id)
  | unsubscribe (id : String) (ch : ℕ) : Does (.unsubscribe id ch) (h.unsubscribe id ch)
  | receive (ch : ℕ) : Does (.receive ch) (h.receive ch)

def Finished (id : String) : Prop := ∃ j, h.store.get id = some j ∧ j.status.Terminal

/-- No open channel is registered for a finished job. -/
def Quiet : Prop :=
  ∀ id, h.Finished id → ∀ ch ∈ h.subscribers id, (h.channels ch).closed = true

/-- A subscription to a finished job, or a finished job that comes in over subscribers.
Source: `TriggerStore.Subscribe`, `TriggerStore.Create` -/
def Late : Call → Prop
  | .subscribe id => h.Finished id
  | .write (.create job) => job.status.Terminal ∧ h.subscribers job.id ≠ []
  | _ => False

/-- A channel of a subscriber to the id: while it is open it is registered. -/
def Serves (id : String) (ch : ℕ) : Prop :=
  ch < h.made ∧ ((h.channels ch).closed = false → ch ∈ h.subscribers id)

/-- Registered channels are open, and each is registered once and for one id. -/
structure Sound : Prop where
  isMade : ∀ {id ch}, ch ∈ h.subscribers id → ch < h.made
  isOpen : ∀ {id ch}, ch ∈ h.subscribers id → (h.channels ch).closed = false
  nodup : ∀ id, (h.subscribers id).Nodup
  apart : ∀ {id id' ch}, ch ∈ h.subscribers id → ch ∈ h.subscribers id' → id = id'

end Hub

/-- The calls of any number of handlers, in any order; what is refused is a fault. -/
def hub : System Hub Call where
  init := .new
  step := fun h c => (h.call c).toOption

/-! ### No fault -/

section Sound

variable {h h' : Hub} {id : String} {ch : ℕ} {u : ProgressUpdate}

theorem Hub.Sound.update_eq (hs : h.Sound) {j : TriggerJob} (hget : h.store.get u.jobID = some j) :
    h.update u = .ok (h.notified ⟨Function.update h.store.get u.jobID (some (j.update u))⟩ u.jobID u
      (decide (j.update u).status.Terminal)) := by
  have hsend := Channel.each_eq_ok (f := (·.trySend channelSize u)) (·.offer channelSize u)
    (hs.nodup u.jobID) fun ch hch => Channel.trySend_of_open (hs.isOpen hch)
  rw [Hub.update, hget]
  simp only [hsend]
  by_cases hterm : (j.update u).status.Terminal
  · have hopen : ∀ ch ∈ h.subscribers u.jobID,
        (if ch ∈ h.subscribers u.jobID then (h.channels ch).offer channelSize u
          else h.channels ch).close =
        .ok (if ch ∈ h.subscribers u.jobID then (h.channels ch).offer channelSize u
          else h.channels ch).shut := by
      intro ch hch
      apply Channel.close_of_open
      rw [if_pos hch, Channel.closed_offer]
      exact hs.isOpen hch
    have hclose := Channel.each_eq_ok Channel.shut (hs.nodup u.jobID) hopen
    simp only [if_pos hterm, bind, Except.bind, hclose, decide_eq_true hterm]
    refine congrArg Except.ok ?_
    rw [Hub.notified]
    congr 1
    funext ch
    by_cases hch : ch ∈ h.subscribers u.jobID <;> simp [hch]
  · simp only [if_neg hterm, bind, Except.bind, decide_eq_false hterm]
    rfl

theorem Hub.Sound.complete_eq (hs : h.Sound) {j : TriggerJob} {status : Status}
    {passed failed : Int} (hget : h.store.get id = some j) :
    h.complete id status passed failed = .ok (h.notified
      ⟨Function.update h.store.get id (some (j.complete status passed failed))⟩ id
      { jobID := id, scenario := "", status := status, completed := passed + failed,
        total := j.total } true) := by
  have heach := fun u => Channel.each_eq_ok (f := (·.sendLast channelSize u))
    (fun c => (c.offer channelSize u).shut) (hs.nodup id)
    fun ch hch => Channel.sendLast_of_open (hs.isOpen hch)
  rw [Hub.complete, hget]
  simp only [heach]
  rfl

theorem subscribers_notified {store : TriggerStore} {id' : String} {last : Bool} :
    (h.notified store id u last).subscribers id' =
      if last = true ∧ id' = id then [] else h.subscribers id' := by
  rw [Hub.notified]
  cases last with
  | false => simp
  | true => simp [Function.update_apply]

theorem mem_notified {store : TriggerStore} {id' : String} {last : Bool} :
    ch ∈ (h.notified store id u last).subscribers id' ↔
      ch ∈ h.subscribers id' ∧ ¬ (last = true ∧ id' = id) := by
  rw [subscribers_notified]
  split <;> simp_all

theorem channels_notified_of_notMem {store : TriggerStore} {last : Bool}
    (hch : ch ∉ h.subscribers id) :
    (h.notified store id u last).channels ch = h.channels ch := if_neg hch

theorem Hub.Sound.notified {store : TriggerStore} {last : Bool} (hs : h.Sound) :
    (h.notified store id u last).Sound where
  isMade hch := hs.isMade (mem_notified.mp hch).1
  isOpen {id' ch} hch := by
    obtain ⟨hch, hkept⟩ := mem_notified.mp hch
    by_cases hid : ch ∈ h.subscribers id
    · obtain rfl := hs.apart hch hid
      have hlast : last = false := by simpa using hkept
      subst hlast
      rw [Hub.notified]
      simp only [if_pos hid, Bool.false_eq_true, if_false, Channel.closed_offer]
      exact hs.isOpen hid
    · rw [channels_notified_of_notMem hid]
      exact hs.isOpen hch
  nodup id' := by
    rw [subscribers_notified]
    split
    · exact List.nodup_nil
    · exact hs.nodup id'
  apart hch hch' := hs.apart (mem_notified.mp hch).1 (mem_notified.mp hch').1

theorem subscribers_subscribe {id' : String} : (h.subscribe id).subscribers id' =
    if id' = id then h.subscribers id ++ [h.made] else h.subscribers id' :=
  Function.update_apply _ _ _ _

theorem mem_subscribe {id' : String} : ch ∈ (h.subscribe id).subscribers id' ↔
    ch ∈ h.subscribers id' ∨ id' = id ∧ ch = h.made := by
  rw [subscribers_subscribe]
  split
  · rename_i hid
    subst hid
    simp
  · rename_i hid
    simp [hid]

theorem channels_subscribe (hch : ch < h.made) :
    (h.subscribe id).channels ch = h.channels ch := Function.update_of_ne hch.ne _ _

theorem channels_subscribe_self : (h.subscribe id).channels h.made = {} :=
  Function.update_self _ _ _

theorem Hub.Sound.subscribe (hs : h.Sound) : (h.subscribe id).Sound where
  isMade {id' ch} hch := by
    rcases mem_subscribe.mp hch with hch | ⟨-, rfl⟩
    · exact Nat.lt_succ_of_lt (hs.isMade hch)
    · exact Nat.lt_succ_self _
  isOpen {id' ch} hch := by
    rcases mem_subscribe.mp hch with hch | ⟨-, rfl⟩
    · rw [channels_subscribe (hs.isMade hch)]
      exact hs.isOpen hch
    · rw [channels_subscribe_self]
  nodup id' := by
    rw [subscribers_subscribe]
    split
    · have hnew : ∀ ch ∈ h.subscribers id, ch ≠ h.made := fun ch hch => (hs.isMade hch).ne
      simpa [List.nodup_append] using ⟨hs.nodup id, hnew⟩
    · exact hs.nodup id'
  apart {id' id'' ch} hch hch' := by
    have hnew : ∀ {id}, ch = h.made → ch ∉ h.subscribers id := by
      intro id hch hmem
      exact (hs.isMade hmem).ne hch
    rcases mem_subscribe.mp hch with hold | ⟨hid, hmade⟩ <;>
      rcases mem_subscribe.mp hch' with hold' | ⟨hid', hmade'⟩
    · exact hs.apart hold hold'
    · exact absurd hold (hnew hmade')
    · exact absurd hold' (hnew hmade)
    · exact hid.trans hid'.symm

theorem subscribers_unsubscribe {id' : String} : (h.unsubscribe id ch).subscribers id' =
    if id' = id then (h.subscribers id).erase ch else h.subscribers id' :=
  Function.update_apply _ _ _ _

theorem mem_of_mem_unsubscribe {id' : String} {ch' : ℕ}
    (hch : ch ∈ (h.unsubscribe id ch').subscribers id') : ch ∈ h.subscribers id' := by
  rw [subscribers_unsubscribe] at hch
  split at hch
  · rename_i hid
    exact hid ▸ List.mem_of_mem_erase hch
  · exact hch

theorem Hub.Sound.unsubscribe (hs : h.Sound) : (h.unsubscribe id ch).Sound where
  isMade hch := hs.isMade (mem_of_mem_unsubscribe hch)
  isOpen hch := hs.isOpen (mem_of_mem_unsubscribe hch)
  nodup id' := by
    rw [subscribers_unsubscribe]
    split
    · exact (hs.nodup id).erase ch
    · exact hs.nodup id'
  apart hch hch' := hs.apart (mem_of_mem_unsubscribe hch) (mem_of_mem_unsubscribe hch')

theorem receive_fields (h : Hub) (ch : ℕ) : (h.receive ch).store = h.store ∧
    (h.receive ch).subscribers = h.subscribers ∧ (h.receive ch).made = h.made ∧
    (∀ ch', ((h.receive ch).channels ch').closed = (h.channels ch').closed) ∧
    ∀ ch', ch' ≠ ch → (h.receive ch).channels ch' = h.channels ch' := by
  rw [Hub.receive]
  split
  · rename_i next c hreceive
    refine ⟨rfl, rfl, rfl, fun ch' => ?_, fun ch' hne => Function.update_of_ne hne _ _⟩
    by_cases hch : ch' = ch
    · subst hch
      simp only [Function.update_self]
      obtain ⟨a, rest, -, -, rfl⟩ | ⟨-, -, -, rfl⟩ := Channel.receive_eq_some hreceive <;> rfl
    · simp only [Function.update_of_ne hch]
  · exact ⟨rfl, rfl, rfl, fun _ => rfl, fun _ _ => rfl⟩

theorem buffer_receive (h : Hub) (ch : ℕ) :
    ((h.receive ch).channels ch).buffer = (h.channels ch).buffer.tail := by
  rw [Hub.receive]
  split
  · rename_i next c hreceive
    simp only [Function.update_self]
    obtain ⟨a, rest, -, hbuffer, rfl⟩ | ⟨-, hbuffer, -, rfl⟩ := Channel.receive_eq_some hreceive
    · rw [hbuffer, List.tail_cons]
    · rw [hbuffer, List.tail_nil]
  · rename_i hreceive
    rw [(Channel.receive_eq_none.mp hreceive).1, List.tail_nil]

theorem Hub.Sound.receive (hs : h.Sound) : (h.receive ch).Sound := by
  obtain ⟨-, hsubs, hmade, hclosed, -⟩ := receive_fields h ch
  refine ⟨?_, ?_, ?_, ?_⟩
  · intro id ch' hch'
    rw [hsubs] at hch'
    rw [hmade]
    exact hs.isMade hch'
  · intro id ch' hch'
    rw [hsubs] at hch'
    rw [hclosed]
    exact hs.isOpen hch'
  · intro id
    rw [hsubs]
    exact hs.nodup id
  · intro id id' ch' hch' hch''
    rw [hsubs] at hch' hch''
    exact hs.apart hch' hch''

/-- **No fault.** A call on a sound hub does what calls do. -/
theorem call_ok (hs : h.Sound) (c : Call) : ∃ h', h.call c = .ok h' ∧ h.Does c h' := by
  cases c with
  | write w =>
    cases w with
    | create job => exact ⟨_, rfl, .create job⟩
    | update u =>
      rcases hget : h.store.get u.jobID with _ | j
      · refine ⟨h, ?_, .miss (by simp)⟩
        rw [Hub.call, Hub.update, hget]
      · exact ⟨_, hs.update_eq hget, .notify (by simp) decide_eq_true⟩
    | complete id status passed failed =>
      rcases hget : h.store.get id with _ | j
      · refine ⟨h, ?_, .miss (by simp)⟩
        rw [Hub.call, Hub.complete, hget]
      · exact ⟨_, hs.complete_eq hget, .notify (by simp) fun _ => rfl⟩
  | subscribe id => exact ⟨_, rfl, .subscribe id⟩
  | unsubscribe id ch => exact ⟨_, rfl, .unsubscribe id ch⟩
  | receive ch => exact ⟨_, rfl, .receive ch⟩

theorem Hub.Sound.does {c : Call} (hs : h.Sound) (hcall : h.call c = .ok h') : h.Does c h' := by
  obtain ⟨h'', hcall', hdoes⟩ := call_ok hs c
  obtain rfl := Except.ok.inj (hcall'.symm.trans hcall)
  exact hdoes

theorem Hub.Sound.call {c : Call} (hs : h.Sound) (hcall : h.call c = .ok h') : h'.Sound := by
  cases hs.does hcall with
  | create job => exact ⟨hs.isMade, hs.isOpen, hs.nodup, hs.apart⟩
  | miss hw => exact hs
  | notify hw hlast => exact hs.notified
  | subscribe id => exact hs.subscribe
  | unsubscribe id ch => exact hs.unsubscribe
  | receive ch => exact hs.receive

theorem hub_step {c : Call} : hub.step h c = some h' ↔ h.call c = .ok h' := by
  dsimp only [hub]
  rcases h.call c with p | t <;> simp [Except.toOption]

theorem sound_of_exec {cs : List Call} (hs : h.Sound) (hexec : hub.exec h cs = some h') :
    h'.Sound := by
  refine System.exec_invariant (Q := fun _ _ => True) ?_ hs (fun _ _ _ _ _ => trivial) hexec
  intro h h' c hs _ hstep
  exact hs.call (hub_step.mp hstep)

theorem exists_exec (cs : List Call) (hs : h.Sound) : ∃ h', hub.exec h cs = some h' := by
  induction cs generalizing h with
  | nil => exact ⟨h, rfl⟩
  | cons c cs ih =>
    obtain ⟨t, hcall, -⟩ := call_ok hs c
    rw [System.exec_cons (hub_step.mpr hcall)]
    exact ih (hs.call hcall)

theorem Hub.Sound.new : Hub.new.Sound where
  isMade hch := absurd hch List.not_mem_nil
  isOpen hch := absurd hch List.not_mem_nil
  nodup _ := List.nodup_nil
  apart hch := absurd hch List.not_mem_nil

end Sound

/-! ### Finished jobs -/

section Quiet

variable {h h' : Hub} {id : String} {c : Call}

theorem Hub.Sound.quiet_iff (hs : h.Sound) :
    h.Quiet ↔ ∀ id, h.Finished id → h.subscribers id = [] := by
  constructor
  · intro hquiet id hfin
    apply List.eq_nil_iff_forall_not_mem.mpr
    intro ch hch
    have hclosed := hquiet id hfin ch hch
    rw [hs.isOpen hch] at hclosed
    cases hclosed
  · intro hnone id hfin ch hch
    rw [hnone id hfin] at hch
    exact absurd hch List.not_mem_nil

theorem finished_write_iff {store : TriggerStore} {subs channels made id'} {j : TriggerJob}
    (hstore : store = ⟨Function.update h.store.get id (some j)⟩) :
    Hub.Finished ⟨store, subs, channels, made⟩ id' ↔
      if id' = id then j.status.Terminal else h.Finished id' := by
  rw [Hub.Finished, hstore]
  split
  · rename_i hid
    simp [hid]
  · rename_i hid
    simp [hid, Hub.Finished]

theorem Hub.Quiet.notified {j : TriggerJob} {u : ProgressUpdate} {last : Bool} (hs : h.Sound)
    (hquiet : h.Quiet) (hlast : j.status.Terminal → last = true) :
    (h.notified ⟨Function.update h.store.get id (some j)⟩ id u last).Quiet := by
  rw [hs.notified.quiet_iff]
  intro id' hfin
  rw [Hub.notified, finished_write_iff rfl] at hfin
  rw [subscribers_notified]
  split at hfin
  · rename_i hid
    rw [if_pos ⟨hlast hfin, hid⟩]
  · rename_i hid
    rw [if_neg (fun h => hid h.2)]
    exact hs.quiet_iff.mp hquiet id' hfin

theorem not_late_write {w : Write} (hw : ∀ job, w ≠ .create job) : ¬ h.Late (.write w) := by
  cases w with
  | create job => exact absurd rfl (hw job)
  | update u => exact not_false
  | complete id status passed failed => exact not_false

/-- **One call.** It keeps a quiet hub quiet exactly if it is not late. -/
theorem quiet_call_iff (hs : h.Sound) (hquiet : h.Quiet) (hcall : h.call c = .ok h') :
    h'.Quiet ↔ ¬ h.Late c := by
  have hs' := hs.call hcall
  have hnone := hs.quiet_iff.mp hquiet
  cases hs.does hcall with
  | create job =>
    rw [hs'.quiet_iff]
    constructor
    · rintro hall ⟨hterm, hsubs⟩
      exact hsubs (hall job.id ((finished_write_iff rfl).mpr (by simpa using hterm)))
    · intro hlate id hfin
      replace hfin : if id = job.id then job.status.Terminal else h.Finished id :=
        (finished_write_iff rfl).mp hfin
      split at hfin
      · rename_i hid
        subst hid
        by_contra hsubs
        exact hlate ⟨hfin, hsubs⟩
      · exact hnone id hfin
  | miss hw => exact iff_of_true hquiet (not_late_write hw)
  | notify hw hlast => exact iff_of_true (hquiet.notified hs hlast) (not_late_write hw)
  | subscribe id =>
    rw [hs'.quiet_iff]
    constructor
    · intro hall hfin
      have hsubs := hall id hfin
      rw [subscribers_subscribe, if_pos rfl] at hsubs
      exact List.append_ne_nil_of_right_ne_nil _ (List.cons_ne_nil _ _) hsubs
    · intro hopen id' hfin
      rw [subscribers_subscribe]
      split
      · rename_i hid
        exact absurd (hid ▸ hfin) hopen
      · exact hnone id' hfin
  | unsubscribe id ch =>
    refine iff_of_true (hs'.quiet_iff.mpr ?_) not_false
    intro id' hfin
    rw [subscribers_unsubscribe]
    split
    · rename_i hid
      rw [hnone id (hid ▸ hfin), List.erase_nil]
    · exact hnone id' hfin
  | receive ch =>
    obtain ⟨hstore, hsubs, -⟩ := receive_fields h ch
    refine iff_of_true (hs'.quiet_iff.mpr ?_) not_false
    intro id' hfin
    rw [Hub.Finished, hstore] at hfin
    rw [hsubs]
    exact hnone id' hfin

theorem Hub.Quiet.new : Hub.new.Quiet := by
  rintro id ⟨j, hget, -⟩
  cases hget

theorem quiet_of_exec {cs : List Call}
    (hcs : ∀ i c t, cs[i]? = some c → hub.exec .new (cs.take i) = some t → ¬ t.Late c)
    (hexec : hub.exec .new cs = some h) : h.Quiet := by
  refine (System.exec_invariant (I := fun h => h.Sound ∧ h.Quiet) (Q := fun h c => ¬ h.Late c)
    ?_ ⟨Hub.Sound.new, Hub.Quiet.new⟩ hcs hexec).2
  rintro h h' c ⟨hs, hquiet⟩ hlate hstep
  exact ⟨hs.call (hub_step.mp hstep),
    (quiet_call_iff hs hquiet (hub_step.mp hstep)).mpr hlate⟩

/-- **Finished jobs have no open channels**, at any time, exactly if no call is late. -/
theorem quiet_iff (cs : List Call) :
    (∀ i h, hub.exec .new (cs.take i) = some h → h.Quiet) ↔
      ∀ i c h, cs[i]? = some c → hub.exec .new (cs.take i) = some h → ¬ h.Late c := by
  constructor
  · intro hall i c h hc hexec
    have hs := sound_of_exec Hub.Sound.new hexec
    obtain ⟨h', hcall, -⟩ := call_ok hs c
    have hnext : hub.exec .new (cs.take (i + 1)) = some h' := by
      rw [List.take_add_one, hc, Option.toList_some, System.exec_append hexec,
        System.exec_cons (hub_step.mpr hcall)]
      rfl
    exact (quiet_call_iff hs (hall i h hexec) hcall).mp (hall (i + 1) h' hnext)
  · intro hclean i h hexec
    refine quiet_of_exec ?_ hexec
    intro k c t hc ht
    rw [List.getElem?_take] at hc
    obtain ⟨hk, hc⟩ := Option.ite_none_right_eq_some.mp hc
    rw [List.take_take, min_eq_left hk.le] at ht
    exact hclean k c t hc ht

end Quiet

/-! ### The channel of a subscriber -/

section Serves

variable {h h' : Hub} {id : String} {ch : ℕ} {c : Call}

theorem Hub.Serves.notified {store : TriggerStore} {id' : String} {u : ProgressUpdate} {last : Bool}
    (hs : h.Sound) (hserves : h.Serves id ch) : (h.notified store id' u last).Serves id ch := by
  refine ⟨hserves.1, fun hopen => mem_notified.mpr ?_⟩
  by_cases hch : ch ∈ h.subscribers id'
  · refine ⟨hserves.2 (hs.isOpen hch), fun hlast => ?_⟩
    -- a channel that got its last update is closed
    rw [Hub.notified] at hopen
    simp only [if_pos hch, if_pos hlast.1, Channel.shut] at hopen
    cases hopen
  · rw [channels_notified_of_notMem hch] at hopen
    refine ⟨hserves.2 hopen, fun hlast => ?_⟩
    exact hch (hlast.2 ▸ hserves.2 hopen)

theorem Hub.Serves.call (hs : h.Sound) (hserves : h.Serves id ch) (hcall : h.call c = .ok h')
    (hc : c ≠ .unsubscribe id ch) : h'.Serves id ch := by
  cases hs.does hcall with
  | create job => exact hserves
  | miss hw => exact hserves
  | notify hw hlast => exact hserves.notified hs
  | subscribe id' =>
    refine ⟨Nat.lt_succ_of_lt hserves.1, fun hopen => mem_subscribe.mpr (.inl ?_)⟩
    rw [channels_subscribe hserves.1] at hopen
    exact hserves.2 hopen
  | unsubscribe id' ch' =>
    refine ⟨hserves.1, fun hopen => ?_⟩
    have hch := hserves.2 hopen
    rw [subscribers_unsubscribe]
    split
    · rename_i hid
      subst hid
      refine (List.mem_erase_of_ne ?_).mpr hch
      rintro rfl
      exact hc rfl
    · exact hch
  | receive ch' =>
    obtain ⟨-, hsubs, hmade, hclosed, -⟩ := receive_fields h ch'
    rw [Hub.Serves, hsubs, hmade, hclosed]
    exact hserves

theorem channel_of_closed (hs : h.Sound) (hmade : ch < h.made)
    (hclosed : (h.channels ch).closed = true) (hcall : h.call c = .ok h') (hc : c ≠ .receive ch) :
    h'.channels ch = h.channels ch := by
  have hnot : ∀ id, ch ∉ h.subscribers id := by
    intro id hch
    rw [hs.isOpen hch] at hclosed
    cases hclosed
  cases hs.does hcall with
  | create job => rfl
  | miss hw => rfl
  | notify hw hlast => exact channels_notified_of_notMem (hnot _)
  | subscribe id' => exact channels_subscribe hmade
  | unsubscribe id' ch' => rfl
  | receive ch' =>
    refine (receive_fields h ch').2.2.2.2 ch ?_
    rintro rfl
    exact hc rfl

end Serves

end EvidraBench.Benchsvc
