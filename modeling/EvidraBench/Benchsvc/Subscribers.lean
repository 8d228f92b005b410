import EvidraBench.Benchsvc.Counters
import EvidraBench.Benchsvc.Hub

/-!
# Clients that follow a trigger job

A client that asks for the stream of a job is shown the job. If it is not finished, the handler
subscribes and then waits on its channel; it passes on each update and looks the job up again, until
the job is finished or the channel is closed. The snapshot and the subscription are two steps, and
so are an update and the look at the job.

Results: `ends_step`, `subscribers_served`, `finished_before_subscription`.

Source: `internal/benchsvc/trigger_handler.go`
-/

namespace EvidraBench.Benchsvc

open EvidraBench.Lib

/-! ### The handler of a stream -/

/-- Why the handler returns: it has sent the finished job, nothing more comes, or the client is
gone.
Source: `handleTriggerStatus` -/
inductive Ending
  | complete (j : TriggerJob)
  | closed
  | cancelled
deriving DecidableEq, Repr

/-- Where the handler of a client is.
Source: `handleTriggerStatus` -/
inductive Client
  /-- It has sent a job that was not finished. -/
  | asked (id : String)
  | waiting (id : String) (ch : ℕ)
  /-- It has sent an update. -/
  | checking (id : String) (ch : ℕ)
  /-- It has yet to unsubscribe. -/
  | returning (id : String) (ch : ℕ) (why : Ending)
  | gone (why : Ending)
deriving DecidableEq, Repr

/-- The client has been sent a finished job, or has seen its channel closed. -/
def Ending.Told : Ending → Prop
  | .complete j => j.status.Terminal
  | .closed => True
  | .cancelled => False

namespace Client

/-- The channel of a client, and the job it follows. -/
def channel : Client → Option (String × ℕ)
  | .waiting id ch => some (id, ch)
  | .checking id ch => some (id, ch)
  | .returning id ch _ => some (id, ch)
  | _ => none

/-- What the handler does next, and where it is then; nothing if it has to wait or has returned.
Source: `handleTriggerStatus` -/
def next (h : Hub) : Client → Option (Option Call × Client)
  | .asked id => some (some (.subscribe id), .waiting id h.made)
  | .waiting id ch =>
      match (h.channels ch).receive with
      | some (some _, _) => some (some (.receive ch), .checking id ch)
      | some (none, _) => some (none, .returning id ch .closed)
      | none => none
  | .checking id ch =>
      match h.store.get id with
      | some j =>
          if j.status.Terminal then some (none, .returning id ch (.complete j))
          else some (none, .waiting id ch)
      | none => some (none, .waiting id ch)
  | .returning id ch why => some (some (.unsubscribe id ch), .gone why)
  | .gone _ => none

/-- How many steps of its own a client whose channel is closed takes at most. -/
def rest (h : Hub) : Client → ℕ
  | .waiting _ ch => 2 * (h.channels ch).buffer.length + 2
  | .checking _ ch => 2 * (h.channels ch).buffer.length + 3
  | .returning _ _ _ => 1
  | _ => 0

/-- A handler that returns has told its client how the job ended. -/
def Told : Client → Prop
  | .returning _ _ why => why.Told
  | .gone why => why.Told
  | _ => True

end Client

/-! ### The system -/

structure Feed where
  hub : Hub
  clients : ℕ → Option Client

/-- What happens: a handler writes a job, or something about a client.
Source: `internal/benchsvc/runner_handler.go` -/
inductive Action
  | write (w : Write)
  /-- A new client is shown the job. -/
  | ask (i : ℕ) (id : String)
  /-- The handler of a client takes its next step. -/
  | move (i : ℕ)
  /-- A client goes away. -/
  | cancel (i : ℕ)
deriving DecidableEq

namespace Feed

variable (f : Feed)

def place (h : Hub) (i : ℕ) (c : Client) : Feed := ⟨h, Function.update f.clients i (some c)⟩

/-- Source: `handleTriggerStatus` -/
def step : Action → Option Feed
  | .write w => (Benchsvc.hub.step f.hub (.write w)).map fun h => ⟨h, f.clients⟩
  | .ask i id =>
      match f.clients i, f.hub.store.get id with
      | none, some j =>
          some (f.place f.hub i (if j.status.Terminal then .gone (.complete j) else .asked id))
      | _, _ => none
  | .move i =>
      match f.clients i with
      | none => none
      | some c =>
          match c.next f.hub with
          | none => none
          | some (none, c') => some (f.place f.hub i c')
          | some (some call, c') =>
              (Benchsvc.hub.step f.hub call).map fun h => f.place h i c'
  | .cancel i =>
      match f.clients i with
      | some (.waiting id ch) => some (f.place f.hub i (.returning id ch .cancelled))
      | some (.checking id ch) => some (f.place f.hub i (.returning id ch .cancelled))
      | _ => none

/-- The subscription of a client to a job that has finished since it was shown, or a finished job
that comes in over subscribers. -/
def Late : Action → Prop
  | .write w => f.hub.Late (.write w)
  | .move i => ∃ id, f.clients i = some (.asked id) ∧ f.hub.Finished id
  | _ => False

/-- What a step can do: a handler writes, a client is shown the job, one moves on, without a call
or with one, or one goes away. -/
inductive Does : Action → Feed → Prop
  | write {w : Write} {h : Hub} (hcall : f.hub.call (.write w) = .ok h) :
      Does (.write w) ⟨h, f.clients⟩
  | ask {i : ℕ} {id : String} {j : TriggerJob} (hi : f.clients i = none)
      (hget : f.hub.store.get id = some j) :
      Does (.ask i id)
        (f.place f.hub i (if j.status.Terminal then .gone (.complete j) else .asked id))
  | look {i : ℕ} {c c' : Client} (hc : f.clients i = some c)
      (hnext : c.next f.hub = some (none, c')) : Does (.move i) (f.place f.hub i c')
  | call {i : ℕ} {c c' : Client} {call : Call} {h : Hub} (hc : f.clients i = some c)
      (hnext : c.next f.hub = some (some call, c')) (hcall : f.hub.call call = .ok h) :
      Does (.move i) (f.place h i c')
  | cancel {i : ℕ} {c : Client} {id : String} {ch : ℕ} (hc : f.clients i = some c)
      (hfrom : c = .waiting id ch ∨ c = .checking id ch) :
      Does (.cancel i) (f.place f.hub i (.returning id ch .cancelled))

/-- Each client has a channel of its own, which is registered while it is open. -/
structure Sound : Prop where
  hub : f.hub.Sound
  serves : ∀ {i c id ch}, f.clients i = some c → c.channel = some (id, ch) → f.hub.Serves id ch
  apart : ∀ {i i' c c' id id' ch}, f.clients i = some c → f.clients i' = some c' →
    c.channel = some (id, ch) → c'.channel = some (id', ch) → i = i'

/-- The client has returned, or its channel is closed and it has at most so many steps to go. -/
def Ends (i n : ℕ) : Prop :=
  ∃ c, f.clients i = some c ∧ c.rest f.hub ≤ n ∧
    ((∃ why, c = .gone why) ∨
      ∃ id ch, c.channel = some (id, ch) ∧ (f.hub.channels ch).closed = true)

end Feed

def feed : System Feed Action where
  init := ⟨.new, fun _ => none⟩
  step := Feed.step

/-! ### Channels and clients -/

section Sound

variable {f f' : Feed} {i : ℕ} {a : Action} {h : Hub} {c : Client}

theorem clients_place_self : (f.place h i c).clients i = some c := Function.update_self _ _ _

theorem clients_place_of_ne {i' : ℕ} (hi : i' ≠ i) : (f.place h i c).clients i' = f.clients i' :=
  Function.update_of_ne hi _ _

theorem does_of_step (hstep : f.step a = some f') : f.Does a f' := by
  cases a with
  | write w =>
    obtain ⟨h, hcall, rfl⟩ := Option.map_eq_some_iff.mp hstep
    exact .write (hub_step.mp hcall)
  | ask i id =>
    rw [Feed.step] at hstep
    split at hstep
    · rename_i j hnone hget
      obtain rfl := Option.some.inj hstep
      exact .ask hnone hget
    · cases hstep
  | move i =>
    rw [Feed.step] at hstep
    split at hstep
    · cases hstep
    rename_i c hc
    split at hstep
    · cases hstep
    · rename_i c' hnext
      obtain rfl := Option.some.inj hstep
      exact .look hc hnext
    · rename_i call c' hnext
      obtain ⟨h, hcall, rfl⟩ := Option.map_eq_some_iff.mp hstep
      exact .call hc hnext (hub_step.mp hcall)
  | cancel i =>
    rw [Feed.step] at hstep
    split at hstep
    · rename_i id ch hc
      obtain rfl := Option.some.inj hstep
      exact .cancel hc (.inl rfl)
    · rename_i id ch hc
      obtain rfl := Option.some.inj hstep
      exact .cancel hc (.inr rfl)
    · cases hstep

/-- A step without a call: the client keeps its channel, comes closer to its end and, if it
returns, has told how the job ended. -/
theorem look_spec {c' : Client} (hnext : c.next h = some (none, c')) :
    c'.channel = c.channel ∧ c'.rest h < c.rest h ∧ c'.Told := by
  cases c with
  | asked id => cases hnext
  | waiting id ch =>
    rw [Client.next] at hnext
    split at hnext
    · cases hnext
    · obtain ⟨-, rfl⟩ := Prod.mk.inj (Option.some.inj hnext)
      exact ⟨rfl, Nat.lt_add_left _ Nat.one_lt_two, trivial⟩
    · cases hnext
  | checking id ch =>
    rw [Client.next] at hnext
    split at hnext
    · split at hnext
      · rename_i hterm
        obtain ⟨-, rfl⟩ := Prod.mk.inj (Option.some.inj hnext)
        exact ⟨rfl, Nat.lt_add_left _ (show 1 < 3 by decide), hterm⟩
      · obtain ⟨-, rfl⟩ := Prod.mk.inj (Option.some.inj hnext)
        exact ⟨rfl, Nat.lt_succ_self _, trivial⟩
    · obtain ⟨-, rfl⟩ := Prod.mk.inj (Option.some.inj hnext)
      exact ⟨rfl, Nat.lt_succ_self _, trivial⟩
  | returning id ch why => cases hnext
  | gone why => cases hnext

theorem call_cases {c' : Client} {call : Call} (hnext : c.next h = some (some call, c')) :
    (∃ id, c = .asked id ∧ call = .subscribe id ∧ c' = .waiting id h.made) ∨
    (∃ id ch, c = .waiting id ch ∧ (h.channels ch).buffer ≠ [] ∧ call = .receive ch ∧
      c' = .checking id ch) ∨
    ∃ id ch why, c = .returning id ch why ∧ call = .unsubscribe id ch ∧ c' = .gone why := by
  cases c with
  | asked id =>
    obtain ⟨hcall, rfl⟩ := Prod.mk.inj (Option.some.inj hnext)
    exact .inl ⟨id, rfl, (Option.some.inj hcall).symm, rfl⟩
  | waiting id ch =>
    rw [Client.next] at hnext
    split at hnext
    · rename_i hreceive
      obtain ⟨hcall, rfl⟩ := Prod.mk.inj (Option.some.inj hnext)
      obtain ⟨a, rest, -, hbuffer, -⟩ | ⟨hnone, -⟩ := Channel.receive_eq_some hreceive
      · refine .inr (.inl ⟨id, ch, rfl, ?_, (Option.some.inj hcall).symm, rfl⟩)
        rw [hbuffer]
        exact List.cons_ne_nil a rest
      · cases hnone
    · cases hnext
    · cases hnext
  | checking id ch =>
    rw [Client.next] at hnext
    split at hnext
    · split at hnext <;> cases hnext
    · cases hnext
  | returning id ch why =>
    obtain ⟨hcall, rfl⟩ := Prod.mk.inj (Option.some.inj hnext)
    exact .inr (.inr ⟨id, ch, why, rfl, (Option.some.inj hcall).symm, rfl⟩)
  | gone why => cases hnext

theorem Feed.Sound.place (hs : f.Sound) (hh : h.Sound)
    (hothers : ∀ {i' c id ch}, i' ≠ i → f.clients i' = some c → c.channel = some (id, ch) →
      h.Serves id ch)
    (hown : ∀ {id ch}, c.channel = some (id, ch) → h.Serves id ch ∧
      ∀ {i' c' id'}, i' ≠ i → f.clients i' = some c' → c'.channel ≠ some (id', ch)) :
    (f.place h i c).Sound where
  hub := hh
  serves {i' c' id ch} hc' hch := by
    by_cases hi : i' = i
    · subst hi
      obtain rfl := Option.some.inj (clients_place_self.symm.trans hc')
      exact (hown hch).1
    · rw [clients_place_of_ne hi] at hc'
      exact hothers hi hc' hch
  apart {i₁ i₂ c₁ c₂ id₁ id₂ ch} hc₁ hc₂ hch₁ hch₂ := by
    by_cases hi₁ : i₁ = i <;> by_cases hi₂ : i₂ = i
    · exact hi₁.trans hi₂.symm
    · subst hi₁
      obtain rfl := Option.some.inj (clients_place_self.symm.trans hc₁)
      rw [clients_place_of_ne hi₂] at hc₂
      exact absurd hch₂ ((hown hch₁).2 hi₂ hc₂)
    · subst hi₂
      obtain rfl := Option.some.inj (clients_place_self.symm.trans hc₂)
      rw [clients_place_of_ne hi₁] at hc₁
      exact absurd hch₁ ((hown hch₂).2 hi₁ hc₁)
    · rw [clients_place_of_ne hi₁] at hc₁
      rw [clients_place_of_ne hi₂] at hc₂
      exact hs.apart hc₁ hc₂ hch₁ hch₂

theorem Feed.Sound.keep {c' : Client} (hs : f.Sound) (hc : f.clients i = some c)
    (hsame : c'.channel = c.channel) (hh : h.Sound)
    (hserves : ∀ {id ch}, f.hub.Serves id ch → h.Serves id ch) : (f.place h i c').Sound := by
  refine hs.place hh (fun _ hc' hch => hserves (hs.serves hc' hch)) ?_
  intro id ch hch
  rw [hsame] at hch
  refine ⟨hserves (hs.serves hc hch), ?_⟩
  intro i' c'' id' hi hc'' hch''
  exact hi (hs.apart hc'' hc hch'' hch)

theorem Feed.Sound.step (hs : f.Sound) (hstep : f.step a = some f') : f'.Sound := by
  cases does_of_step hstep with
  | write hcall =>
    refine ⟨hs.hub.call hcall, ?_, hs.apart⟩
    intro i c id ch hc hch
    exact (hs.serves hc hch).call hs.hub hcall (by simp)
  | ask hi hget =>
    refine hs.place hs.hub (fun _ hc hch => hs.serves hc hch) ?_
    intro id ch hch
    split at hch <;> cases hch
  | look hc hnext => exact hs.keep hc (look_spec hnext).1 hs.hub id
  | cancel hc hfrom =>
    refine hs.keep hc ?_ hs.hub id
    rcases hfrom with rfl | rfl <;> rfl
  | call hc hnext hcall =>
    obtain ⟨id, rfl, rfl, rfl⟩ | ⟨id, ch, rfl, -, rfl, rfl⟩ | ⟨id, ch, why, rfl, rfl, rfl⟩ :=
      call_cases hnext
    · refine hs.place (hs.hub.call hcall)
        (fun _ hc' hch => (hs.serves hc' hch).call hs.hub hcall (by simp)) ?_
      obtain rfl := Except.ok.inj hcall
      intro id' ch hch
      obtain ⟨rfl, rfl⟩ := Prod.mk.inj (Option.some.inj hch)
      refine ⟨⟨Nat.lt_succ_self _, fun _ => mem_subscribe.mpr (.inr ⟨rfl, rfl⟩)⟩, ?_⟩
      -- the others have channels that were made before
      intro i' c' id' _ hc' hch'
      exact (hs.serves hc' hch').1.false
    · exact hs.keep hc rfl (hs.hub.call hcall) fun hserves => hserves.call hs.hub hcall (by simp)
    · refine hs.place (hs.hub.call hcall) ?_ (fun hch => by cases hch)
      intro i' c' id' ch' hi hc' hch'
      refine (hs.serves hc' hch').call hs.hub hcall ?_
      intro hsame
      obtain ⟨rfl, rfl⟩ := Call.unsubscribe.inj hsame
      exact hi (hs.apart hc' hc hch' rfl)

theorem Feed.Sound.init : feed.init.Sound where
  hub := .new
  serves hc := by cases hc
  apart hc := by cases hc

theorem quiet_step (hs : f.Sound) (hquiet : f.hub.Quiet) (hlate : ¬ f.Late a)
    (hstep : f.step a = some f') : f'.hub.Quiet := by
  cases does_of_step hstep with
  | write hcall => exact (quiet_call_iff hs.hub hquiet hcall).mpr hlate
  | ask hi hget => exact hquiet
  | look hc hnext => exact hquiet
  | cancel hc hfrom => exact hquiet
  | call hc hnext hcall =>
    refine (quiet_call_iff hs.hub hquiet hcall).mpr ?_
    obtain ⟨id, rfl, rfl, rfl⟩ | ⟨id, ch, rfl, -, rfl, rfl⟩ | ⟨id, ch, why, rfl, rfl, rfl⟩ :=
      call_cases hnext
    · intro hfin
      exact hlate ⟨id, hc, hfin⟩
    · exact not_false
    · exact not_false

end Sound

/-! ### The way out -/

section Ends

variable {f f' : Feed} {i n : ℕ} {a : Action} {h : Hub} {c : Client}

theorem rest_congr {id : String} {ch : ℕ} (hch : c.channel = some (id, ch))
    (hsame : h.channels ch = f.hub.channels ch) : c.rest h = c.rest f.hub := by
  cases c with
  | waiting id' ch' =>
    obtain ⟨-, rfl⟩ := Prod.mk.inj (Option.some.inj hch)
    rw [Client.rest, Client.rest, hsame]
  | checking id' ch' =>
    obtain ⟨-, rfl⟩ := Prod.mk.inj (Option.some.inj hch)
    rw [Client.rest, Client.rest, hsame]
  | returning id' ch' why => rfl
  | asked id' => cases hch
  | gone why => cases hch

theorem Feed.Ends.frame (hends : f.Ends i n) (hc : f'.clients i = f.clients i)
    (hsame : ∀ {c id ch}, f.clients i = some c → c.channel = some (id, ch) →
      (f.hub.channels ch).closed = true → f'.hub.channels ch = f.hub.channels ch) :
    f'.Ends i n := by
  obtain ⟨c, hci, hrest, ⟨why, rfl⟩ | ⟨id, ch, hch, hclosed⟩⟩ := hends
  · exact ⟨_, hc.trans hci, hrest, .inl ⟨why, rfl⟩⟩
  · have hchannel := hsame hci hch hclosed
    refine ⟨c, hc.trans hci, ?_, .inr ⟨id, ch, hch, ?_⟩⟩
    · rw [rest_congr hch hchannel]
      exact hrest
    · rw [hchannel]
      exact hclosed

theorem ends_of_next {c' : Client} {call : Option Call}
    (hends : f.Ends i n) (hc : f.clients i = some c) (hnext : c.next f.hub = some (call, c'))
    (hcall : match call with
      | none => h = f.hub
      | some call => f.hub.call call = .ok h) : (f.place h i c').Ends i (n - 1) := by
  obtain ⟨c₀, hc₀, hrest, hway⟩ := hends
  obtain rfl := Option.some.inj (hc.symm.trans hc₀)
  cases call with
  | none =>
    obtain rfl := hcall
    obtain ⟨hsame, hless, -⟩ := look_spec hnext
    obtain ⟨why, rfl⟩ | ⟨id, ch, hch, hclosed⟩ := hway
    · cases hnext
    · refine ⟨c', clients_place_self, ?_, .inr ⟨id, ch, hsame.trans hch, hclosed⟩⟩
      exact Nat.le_sub_one_of_lt (hless.trans_le hrest)
  | some call =>
    obtain ⟨id, rfl, rfl, rfl⟩ | ⟨id, ch, rfl, hbuffer, rfl, rfl⟩ | ⟨id, ch, why, rfl, rfl, rfl⟩ :=
      call_cases hnext
    · obtain ⟨why, hgone⟩ | ⟨id, ch, hch, -⟩ := hway
      · cases hgone
      · cases hch
    · obtain ⟨why, hgone⟩ | ⟨id', ch', hch, hclosed⟩ := hway
      · cases hgone
      obtain ⟨rfl, rfl⟩ := Prod.mk.inj (Option.some.inj hch)
      obtain rfl := Except.ok.inj hcall
      refine ⟨_, clients_place_self, ?_, .inr ⟨_, _, rfl, ?_⟩⟩
      · have hlength := List.length_pos_iff.mpr hbuffer
        rw [Client.rest] at hrest
        rw [Feed.place, Client.rest, buffer_receive, List.length_tail]
        omega
      · exact ((receive_fields f.hub ch).2.2.2.1 ch).trans hclosed
    · exact ⟨_, clients_place_self, Nat.zero_le _, .inl ⟨why, rfl⟩⟩

/-- **One step.** Whatever happens, a client on its way out stays on it; a step of its own brings it
closer to its end. -/
theorem ends_step (hs : f.Sound) (hends : f.Ends i n) (hstep : f.step a = some f') :
    f'.Ends i (if a = .move i then n - 1 else n) := by
  cases does_of_step hstep with
  | write hcall =>
    rw [if_neg (by simp)]
    refine hends.frame rfl fun hc hch hclosed => ?_
    exact channel_of_closed hs.hub (hs.serves hc hch).1 hclosed hcall (by simp)
  | @ask i' id j hi hget =>
    rw [if_neg (show Action.ask i' id ≠ .move i by simp)]
    refine hends.frame (clients_place_of_ne ?_) fun _ _ _ => rfl
    rintro rfl
    obtain ⟨c, hc, -⟩ := hends
    cases hi.symm.trans hc
  | @look i' c c' hc hnext =>
    by_cases hi : i = i'
    · subst hi
      rw [if_pos rfl]
      exact ends_of_next hends hc hnext rfl
    · rw [if_neg (by simpa using Ne.symm hi)]
      exact hends.frame (clients_place_of_ne hi) fun _ _ _ => rfl
  | @cancel i' c id ch hc hfrom =>
    rw [if_neg (by simp)]
    by_cases hi : i = i'
    · subst hi
      obtain ⟨c₀, hc₀, hrest, hway⟩ := hends
      obtain rfl := Option.some.inj (hc.symm.trans hc₀)
      obtain ⟨why, rfl⟩ | ⟨id', ch', hch, hclosed⟩ := hway
      · rcases hfrom with hfrom | hfrom <;> cases hfrom
      · refine ⟨_, clients_place_self, ?_, .inr ⟨id', ch', ?_, hclosed⟩⟩
        · rcases hfrom with rfl | rfl <;> exact (Nat.le_add_left _ _).trans hrest
        · rcases hfrom with rfl | rfl <;> exact hch
    · exact hends.frame (clients_place_of_ne hi) fun _ _ _ => rfl
  | @call i' c c' call h hc hnext hcall =>
    by_cases hi : i = i'
    · subst hi
      rw [if_pos rfl]
      exact ends_of_next hends hc hnext hcall
    · rw [if_neg (by simpa using Ne.symm hi)]
      refine hends.frame (clients_place_of_ne hi) fun {c₀ id ch} hc₀ hch hclosed => ?_
      refine channel_of_closed hs.hub (hs.serves hc₀ hch).1 hclosed hcall ?_
      -- the other client receives from a channel of its own
      rintro rfl
      obtain ⟨id', -, hcall, -⟩ | ⟨id', ch', rfl, -, hcall, -⟩ | ⟨id', ch', why, -, hcall, -⟩ :=
        call_cases hnext
      · cases hcall
      · obtain rfl := Call.receive.inj hcall
        exact hi (hs.apart hc₀ hc hch rfl)
      · cases hcall

theorem ends_exec {as : List Action} (hs : f.Sound) (hends : f.Ends i n)
    (hexec : feed.exec f as = some f') : f'.Sound ∧ f'.Ends i (n - as.count (.move i)) := by
  induction as generalizing f n with
  | nil =>
    obtain rfl := Option.some.inj hexec
    exact ⟨hs, hends⟩
  | cons a as ih =>
    rcases hstep : f.step a with _ | t
    · rw [System.exec, show feed.step f a = none from hstep] at hexec
      cases hexec
    rw [System.exec_cons (show feed.step f a = some t from hstep)] at hexec
    have hrun := ih (hs.step hstep) (ends_step hs hends hstep) hexec
    rw [List.count_cons]
    by_cases ha : a = .move i
    · rw [if_pos ha] at hrun
      rw [if_pos (beq_iff_eq.mpr ha), Nat.add_comm, ← Nat.sub_sub]
      exact hrun
    · rw [if_neg ha] at hrun
      rw [if_neg (fun h => ha (beq_iff_eq.mp h)), Nat.add_zero]
      exact hrun

theorem Feed.Ends.move (hs : f.Sound) (hends : f.Ends i n) :
    (∃ why, f.clients i = some (.gone why)) ∨ ∃ f', f.step (.move i) = some f' := by
  obtain ⟨c, hc, -, ⟨why, rfl⟩ | ⟨id, ch, hch, hclosed⟩⟩ := hends
  · exact .inl ⟨why, hc⟩
  right
  rcases hnext : c.next f.hub with _ | ⟨_ | call, c'⟩
  · -- it would wait on an open channel only
    exfalso
    cases c with
    | asked id' => cases hch
    | waiting id' ch' =>
      obtain ⟨rfl, rfl⟩ := Prod.mk.inj (Option.some.inj hch)
      rw [Client.next] at hnext
      split at hnext
      · cases hnext
      · cases hnext
      · rename_i hreceive
        rw [(Channel.receive_eq_none.mp hreceive).2] at hclosed
        cases hclosed
    | checking id' ch' =>
      rw [Client.next] at hnext
      split at hnext
      · split at hnext <;> cases hnext
      · cases hnext
    | returning id' ch' why => cases hnext
    | gone why => cases hch
  · refine ⟨f.place f.hub i c', ?_⟩
    simp only [Feed.step, hc, hnext]
  · obtain ⟨h, hcall, -⟩ := call_ok hs.hub call
    refine ⟨f.place h i c', ?_⟩
    simp only [Feed.step, hc, hnext, hub_step.mpr hcall, Option.map_some]

theorem told_step (hstep : f.step a = some f') (ha : a ≠ .cancel i)
    (htold : ∀ c, f.clients i = some c → c.Told) : ∀ c, f'.clients i = some c → c.Told := by
  -- only what happens to this client matters
  have hplace : ∀ {i' : ℕ} {h : Hub} {c' : Client}, (i' = i → c'.Told) →
      ∀ c, (f.place h i' c').clients i = some c → c.Told := by
    intro i' h c' hc' c hc
    by_cases hi : i = i'
    · subst hi
      obtain rfl := Option.some.inj (clients_place_self.symm.trans hc)
      exact hc' rfl
    · rw [clients_place_of_ne hi] at hc
      exact htold c hc
  cases does_of_step hstep with
  | write hcall => exact htold
  | ask hi hget =>
    apply hplace
    intro _
    split
    · rename_i hterm
      exact hterm
    · trivial
  | look hc hnext => exact hplace fun _ => (look_spec hnext).2.2
  | cancel hc hfrom =>
    apply hplace
    rintro rfl
    exact absurd rfl ha
  | call hc hnext hcall =>
    obtain ⟨id, rfl, rfl, rfl⟩ | ⟨id, ch, rfl, -, rfl, rfl⟩ | ⟨id, ch, why, rfl, rfl, rfl⟩ :=
      call_cases hnext
    · exact hplace fun _ => trivial
    · exact hplace fun _ => trivial
    · apply hplace
      rintro rfl
      exact htold (.returning id ch why) hc

end Ends

/-- **Subscribers.** In every interleaving no call sends on a closed channel or closes one again. No
open channel is registered for a finished job, at any time, exactly if no call is late. And in every
run of clients and handlers without late steps, a client that follows a finished job is on its way
out: whatever happens then, its handler never has to wait, and after as many steps of its own as
there are updates to pass on, twice, and three more, it has returned, having sent the finished job
or seen its channel closed, unless the client went away.
Source: `internal/benchsvc/executor.go` `TriggerStore`; `handleTriggerStatus` -/
theorem subscribers_served (cs : List Call) (run : List Action) :
    (∃ h, hub.exec .new cs = some h) ∧
    ((∀ i h, hub.exec .new (cs.take i) = some h → h.Quiet) ↔
      ∀ i c h, cs[i]? = some c → hub.exec .new (cs.take i) = some h → ¬ h.Late c) ∧
    ∀ f : Feed, feed.exec feed.init run = some f →
      (∀ k a g, run[k]? = some a → feed.exec feed.init (run.take k) = some g → ¬ g.Late a) →
      ∀ i id ch, f.clients i = some (.waiting id ch) ∨ f.clients i = some (.checking id ch) →
        f.hub.Finished id → ∀ as f', feed.exec f as = some f' →
          ((∃ why, f'.clients i = some (.gone why)) ∨ ∃ f'', f'.step (.move i) = some f'') ∧
          (2 * (f.hub.channels ch).buffer.length + 3 ≤ as.count (.move i) →
            ∃ why, f'.clients i = some (.gone why) ∧ (.cancel i ∉ as → why.Told)) := by
  refine ⟨exists_exec cs .new, quiet_iff cs, ?_⟩
  intro f hexec hclean i id ch hclient hfin as f' hexec'
  obtain ⟨hs, hquiet⟩ : f.Sound ∧ f.hub.Quiet := by
    refine System.exec_invariant (I := fun f => f.Sound ∧ f.hub.Quiet) (Q := fun f a => ¬ f.Late a)
      ?_ ⟨.init, .new⟩ hclean hexec
    rintro f f' a ⟨hs, hquiet⟩ hlate hstep
    exact ⟨hs.step hstep, quiet_step hs hquiet hlate hstep⟩
  obtain ⟨c, hc, hch, hrest, htold⟩ : ∃ c, f.clients i = some c ∧ c.channel = some (id, ch) ∧
      c.rest f.hub ≤ 2 * (f.hub.channels ch).buffer.length + 3 ∧ c.Told := by
    rcases hclient with hc | hc
    · exact ⟨_, hc, rfl, Nat.le_succ _, trivial⟩
    · exact ⟨_, hc, rfl, le_rfl, trivial⟩
  -- nothing is registered for the finished job, so the channel is closed
  have hclosed : (f.hub.channels ch).closed = true := by
    by_contra hopen
    have hmem := (hs.serves hc hch).2 (by simpa using hopen)
    exact hopen (hquiet id hfin ch hmem)
  obtain ⟨hs', hends⟩ := ends_exec hs ⟨c, hc, hrest, .inr ⟨id, ch, hch, hclosed⟩⟩ hexec'
  refine ⟨hends.move hs', fun hcount => ?_⟩
  rw [Nat.sub_eq_zero_of_le hcount] at hends
  obtain ⟨c', hc', hzero, hway⟩ := hends
  obtain ⟨why, rfl⟩ : ∃ why, c' = .gone why := by
    rcases hway with hgone | ⟨id', ch', hch', -⟩
    · exact hgone
    · cases c' with
      | gone why => exact ⟨why, rfl⟩
      | asked id => cases hch'
      | waiting id ch => cases hzero
      | checking id ch => cases hzero
      | returning id ch why => cases hzero
  refine ⟨why, hc', fun hcancel => ?_⟩
  refine System.exec_invariant (I := fun f => ∀ c, f.clients i = some c → c.Told)
    (Q := fun _ a => a ≠ .cancel i) ?_ ?_ ?_ hexec' _ hc'
  · intro f f' a htold ha hstep
    exact told_step hstep ha htold
  · intro c₀ hc₀
    obtain rfl := Option.some.inj (hc.symm.trans hc₀)
    exact htold
  · intro k a g ha _
    rintro rfl
    exact hcancel (List.mem_of_getElem? ha)

/-- A client is shown a pending job, the job finishes, and only then does the handler subscribe:
it waits on an open channel that is registered for a finished job, where nothing is sent any
more. -/
theorem finished_before_subscription :
    ∃ f, feed.exec feed.init
        [.write (.create onePending), .ask 0 "j",
          .write (.update ⟨"", "j", "s", .passed, "", 1, 1⟩), .move 0] = some f ∧
      f.clients 0 = some (.waiting "j" 0) ∧ f.hub.Finished "j" ∧ 0 ∈ f.hub.subscribers "j" ∧
      (f.hub.channels 0).closed = false ∧ f.step (.move 0) = none :=
  ⟨_, rfl, rfl, ⟨_, rfl, .inl rfl⟩, List.mem_singleton.mpr rfl, rfl, rfl⟩

end EvidraBench.Benchsvc
