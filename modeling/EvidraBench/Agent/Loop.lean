import Mathlib

/-!
# The agent loop

`pkg/agent/loop.go`: `RunLoop` asks a model, runs the tools it calls and asks again, each time with
a window of what was recorded so far.

Results: `runLoop_windows`, `runLoop_accounts`.
-/

namespace EvidraBench.Agent

/-! ### Messages -/

/-- Source: `pkg/agent/provider.go` `ToolCall` -/
structure ToolCall where
  id : String
  name : String
  arguments : String
deriving DecidableEq

/-- Source: `pkg/agent/provider.go` `Message` -/
structure Message where
  role : String
  content : String := ""
  reasoningContent : String := ""
  toolCalls : List ToolCall := []
  toolCallID : String := ""
deriving DecidableEq

/-- The counts that the loop adds up.
Source: `pkg/agent/provider.go` `Usage` -/
structure Usage where
  promptTokens : Int := 0
  completionTokens : Int := 0
deriving DecidableEq

/-- Source: `pkg/agent/provider.go` `ChatResponse` -/
structure ChatResponse where
  content : String := ""
  reasoningContent : String := ""
  toolCalls : List ToolCall := []
  usage : Usage := {}
deriving DecidableEq

/-- Source: `pkg/agent/provider.go` `Done` -/
def ChatResponse.done (r : ChatResponse) : Bool := r.toolCalls.isEmpty

/-- A request. Definitions of tools and temperatures are handed on only.
Source: `pkg/agent/provider.go` `ChatRequest` -/
structure ChatRequest (Tool Temperature : Type) where
  model : String
  messages : List Message
  tools : List Tool
  temperature : Temperature
  maxTokens : Int

def Message.isAssistant (m : Message) : Bool := m.role = "assistant"

def Message.isTool (m : Message) : Bool := m.role = "tool"

/-! ### The window -/

/-- The last answer of the model below an index, as the loop from the end finds it.
Source: `buildContextWindow` -/
def lastAssistant (conversation : List Message) : Nat → Option Nat
  | 0 => none
  | i + 1 =>
      if (conversation[i]?.map Message.isAssistant).getD false then some i
      else lastAssistant conversation i

/-- Where the window of some answers starts: the loop from an index down, with the answers counted
so far.
Source: `buildContextWindow` -/
def cutoff (conversation : List Message) (memoryWindow : Int) : Nat → Nat → Nat
  | 0, _ => 0
  | i + 1, assistantCount =>
      if (conversation[i]?.map Message.isAssistant).getD false then
        if memoryWindow ≤ assistantCount + 1 then i
        else cutoff conversation memoryWindow i (assistantCount + 1)
      else cutoff conversation memoryWindow i assistantCount

def buildContextWindow (messages : List Message) (memoryWindow : Int) : List Message :=
  if memoryWindow < 0 ∨ messages.length ≤ 2 then messages
  else
    let base := messages.take 2
    let conversation := messages.drop 2
    if memoryWindow = 0 then
      match lastAssistant conversation conversation.length with
      | some i => base ++ conversation.drop i
      | none => base ++ conversation.drop (conversation.length - 1)
    else base ++ conversation.drop (cutoff conversation memoryWindow conversation.length 0)

/-! ### The loop -/

structure LoopConfig (Tool Temperature : Type) where
  model : String
  maxTurns : Int
  memoryWindow : Int
  temperature : Temperature
  maxTokens : Int
  systemPrompt : String
  taskPrompt : String
  tools : List Tool := []

/-- What a turn meets: the model's response or its error, the results of the tool calls by their
place, the messages that are waiting to be injected, and a change of the window. -/
structure TurnInput where
  chat : Except String ChatResponse
  results : Nat → String := fun _ => ""
  injected : List Message := []
  window : Option Int := none

/-- Source: `LoopResult`, without the duration -/
structure LoopResult where
  turns : Nat
  messages : List Message
  totalUsage : Usage
  finalOutput : String
  completed : Bool
  memoryWindow : Int

/-- A request as it was sent, with what was recorded then and the window it was cut by. -/
structure Sent (Tool Temperature : Type) where
  recorded : List Message
  memoryWindow : Int
  request : ChatRequest Tool Temperature

structure LoopState where
  allMessages : List Message
  memoryWindow : Int
  totalUsage : Usage := {}

/-- Source: `RunLoop`, `assistantMsg` -/
def assistantMsg (r : ChatResponse) : Message where
  role := "assistant"
  content := r.content
  reasoningContent := r.reasoningContent
  toolCalls := r.toolCalls

/-- The results of tool calls.
Source: `RunLoop` -/
def toolMessages (calls : List ToolCall) (results : Nat → String) : List Message :=
  calls.zipIdx.map fun p => { role := "tool", content := results p.2, toolCallID := p.1.id }

/-- Source: `RunLoop`, the end -/
def LoopState.result (s : LoopState) (completed : Bool) (finalOutput : String) : LoopResult where
  turns := s.allMessages.length
  messages := s.allMessages
  totalUsage := s.totalUsage
  finalOutput := finalOutput
  completed := completed
  memoryWindow := s.memoryWindow

def LoopState.answered (s : LoopState) (r : ChatResponse) : LoopState :=
  { s with
    allMessages := s.allMessages ++ [assistantMsg r]
    totalUsage :=
      { promptTokens := s.totalUsage.promptTokens + r.usage.promptTokens
        completionTokens := s.totalUsage.completionTokens + r.usage.completionTokens } }

/-- The state after the tools have run and the channels were asked. -/
def LoopState.next (s : LoopState) (r : ChatResponse) (input : TurnInput) : LoopState :=
  { s with
    allMessages := s.allMessages ++ toolMessages r.toolCalls input.results ++ input.injected
    memoryWindow := input.window.getD s.memoryWindow }

section loop

variable {Tool Temperature : Type}

/-- The requests that are sent from a turn on, and how the loop ends.
Source: `RunLoop`, the loop -/
def turnsFrom (cfg : LoopConfig Tool Temperature) (inputs : Nat → TurnInput) :
    Nat → Nat → LoopState → List (Sent Tool Temperature) × Except String LoopResult
  | 0, _, s => ([], .ok (s.result false ""))
  | n + 1, turn, s =>
      let sent : Sent Tool Temperature :=
        { recorded := s.allMessages
          memoryWindow := s.memoryWindow
          request :=
            { model := cfg.model
              messages := buildContextWindow s.allMessages s.memoryWindow
              tools := cfg.tools
              temperature := cfg.temperature
              maxTokens := cfg.maxTokens } }
      match (inputs turn).chat with
      | .error e => ([sent], .error ("agent.RunLoop: turn " ++ toString (turn + 1) ++ ": " ++ e))
      | .ok r =>
          let s := s.answered r
          if r.done then ([sent], .ok (s.result true r.content))
          else
            let rest := turnsFrom cfg inputs n (turn + 1) (s.next r (inputs turn))
            (sent :: rest.1, rest.2)

/-- `benchTools` is what `BenchTools` returns.
Source: `RunLoop` -/
def runLoop (benchTools : List Tool) (cfg : LoopConfig Tool Temperature)
    (inputs : Nat → TurnInput) : List (Sent Tool Temperature) × Except String LoopResult :=
  let cfg := { cfg with
    maxTurns := if cfg.maxTurns ≤ 0 then 25 else cfg.maxTurns
    maxTokens := if cfg.maxTokens ≤ 0 then 4096 else cfg.maxTokens
    tools := if cfg.tools.isEmpty then benchTools else cfg.tools }
  turnsFrom cfg inputs cfg.maxTurns.toNat 0
    { allMessages :=
        [{ role := "system", content := cfg.systemPrompt },
          { role := "user", content := cfg.taskPrompt }]
      memoryWindow := cfg.memoryWindow }

end loop

/-! ### Where the window starts -/

def assistants (messages : List Message) : Nat := messages.countP Message.isAssistant

/-- The messages start at an answer of the model, if there are any. -/
def StartsAtAssistant (messages : List Message) : Prop :=
  ∀ m, messages.head? = some m → m.isAssistant = true

theorem assistants_take_succ {conversation : List Message} {i : Nat} {m : Message}
    (hi : conversation[i]? = some m) (k : Nat) (hk : k ≤ i) :
    assistants ((conversation.take (i + 1)).drop k) =
      assistants ((conversation.take i).drop k) + if m.isAssistant then 1 else 0 := by
  obtain ⟨hlt, hm⟩ := List.getElem?_eq_some_iff.mp hi
  have hlen : k ≤ (conversation.take i).length := by
    rw [List.length_take]
    omega
  rw [List.take_add_one, hi, List.drop_append_of_le_length hlen]
  simp [assistants]

/-- The loop counts from the end: what it leaves below an index starts at an answer, or nothing is
cut, and holds as many answers as the window has left. -/
theorem cutoff_spec (conversation : List Message) {w : Int} {i c : Nat}
    (hi : i ≤ conversation.length) (hc : (c : Int) < w) :
    cutoff conversation w i c ≤ i ∧
    (cutoff conversation w i c = 0 ∨
      StartsAtAssistant (conversation.drop (cutoff conversation w i c))) ∧
    ((assistants ((conversation.take i).drop (cutoff conversation w i c)) : Int) + c =
      min w (assistants (conversation.take i) + c)) := by
  induction i generalizing c with
  | zero =>
    have hmin : min w (c : Int) = c := min_eq_right hc.le
    simp [cutoff, assistants, hmin]
  | succ i ih =>
    obtain ⟨m, hm⟩ : ∃ m, conversation[i]? = some m := ⟨_, List.getElem?_eq_getElem hi⟩
    have hall := assistants_take_succ hm 0 (Nat.zero_le i)
    simp only [List.drop_zero] at hall
    have hi' : i ≤ conversation.length := Nat.le_of_succ_le hi
    simp only [cutoff, hm, Option.map_some, Option.getD_some]
    split
    next ha =>
      rw [if_pos ha] at hall
      split
      next hw =>
        -- the window is full: the cut is at this answer
        have hrest := assistants_take_succ hm i (Nat.le_refl i)
        have hnil : (conversation.take i).drop i = [] :=
          List.drop_eq_nil_of_le (by rw [List.length_take]; omega)
        rw [hnil, if_pos ha] at hrest
        have hdrop : (conversation.drop i).head? = some m := by
          rw [List.head?_drop, hm]
        refine ⟨Nat.le_succ i, Or.inr fun m' hm' => ?_, ?_⟩
        · obtain rfl : m = m' := by
            rw [hdrop] at hm'
            exact Option.some.inj hm'
          exact ha
        · rw [hrest, hall, min_eq_left (by push_cast; omega)]
          have hzero : assistants [] = 0 := rfl
          rw [hzero]
          push_cast
          omega
      next hw =>
        obtain ⟨hle, hstart, hcount⟩ := ih (c := c + 1) hi' (by push_cast; omega)
        refine ⟨Nat.le_succ_of_le hle, hstart, ?_⟩
        rw [assistants_take_succ hm _ hle, hall, if_pos ha]
        push_cast at hcount ⊢
        rw [add_assoc, add_comm (1 : Int), hcount, add_assoc, add_comm (1 : Int)]
    next ha =>
      rw [if_neg ha] at hall
      obtain ⟨hle, hstart, hcount⟩ := ih hi' hc
      refine ⟨Nat.le_succ_of_le hle, hstart, ?_⟩
      rw [assistants_take_succ hm _ hle, hall, if_neg ha]
      exact hcount

theorem cutoff_of_lastAssistant {conversation : List Message} {i k : Nat}
    (h : lastAssistant conversation i = some k) : cutoff conversation 1 i 0 = k := by
  induction i with
  | zero => simp [lastAssistant] at h
  | succ i ih =>
    simp only [lastAssistant] at h
    simp only [cutoff]
    split
    next ha =>
      rw [if_pos ha] at h
      simpa using h
    next ha =>
      rw [if_neg ha] at h
      exact ih h

theorem lastAssistant_isSome {conversation : List Message} {i k : Nat} {m : Message}
    (hm : conversation[k]? = some m) (ha : m.isAssistant = true) (hk : k < i) :
    (lastAssistant conversation i).isSome = true := by
  induction i with
  | zero => omega
  | succ i ih =>
    simp only [lastAssistant]
    split
    · rfl
    next hn =>
      apply ih
      apply lt_of_le_of_ne (Nat.le_of_lt_succ hk)
      rintro rfl
      simp [hm, ha] at hn

/-- What a window shows of a conversation that starts at an answer. -/
structure Shows (conversation shown : List Message) (memoryWindow : Int) : Prop where
  suffix : shown <:+ conversation
  starts : StartsAtAssistant shown
  counted : 1 ≤ memoryWindow →
    (assistants shown : Int) = min memoryWindow (assistants conversation)
  stateless : memoryWindow = 0 → assistants shown ≤ 1
  full : memoryWindow < 0 → shown = conversation

theorem Shows.cutoff {conversation : List Message} (hstart : StartsAtAssistant conversation)
    {w : Int} (hw : 1 ≤ w) :
    Shows conversation (conversation.drop (cutoff conversation w conversation.length 0)) w := by
  obtain ⟨-, hcut, hcount⟩ :=
    cutoff_spec conversation (w := w) (c := 0) (Nat.le_refl _) (by omega)
  rw [List.take_length] at hcount
  refine ⟨List.drop_suffix _ _, ?_, fun _ => by simpa using hcount, ?_, ?_⟩
  · rcases hcut with hzero | hcut
    · rw [hzero, List.drop_zero]
      exact hstart
    · exact hcut
  · intro h
    omega
  · intro h
    omega

theorem buildContextWindow_shows (system task : Message) {conversation : List Message}
    (hstart : StartsAtAssistant conversation) (w : Int) :
    ∃ shown, buildContextWindow (system :: task :: conversation) w = system :: task :: shown ∧
      Shows conversation shown w := by
  by_cases hneg : w < 0
  · refine ⟨conversation, by rw [buildContextWindow, if_pos (Or.inl hneg)], List.suffix_rfl, hstart,
      ?_, ?_, fun _ => rfl⟩
    · intro h
      omega
    · intro h
      omega
  cases conversation with
  | nil =>
    refine ⟨[], by simp [buildContextWindow], List.suffix_rfl, hstart, fun h => ?_, fun _ => ?_,
      fun _ => rfl⟩
    · simp only [assistants, List.countP_nil, Nat.cast_zero]
      omega
    · simp [assistants]
  | cons m rest =>
    have hlong : ¬ (w < 0 ∨ (system :: task :: m :: rest).length ≤ 2) := by
      simp [hneg]
    rw [buildContextWindow, if_neg hlong]
    simp only [List.take_succ_cons, List.take_zero, List.drop_succ_cons, List.drop_zero]
    by_cases hzero : w = 0
    · -- the conversation starts at an answer, so that the fallback is never taken
      have hfirst : (m :: rest)[0]? = some m := rfl
      obtain ⟨k, hk⟩ := Option.isSome_iff_exists.mp
        (lastAssistant_isSome hfirst (hstart m rfl) (Nat.succ_pos rest.length))
      have hone := Shows.cutoff hstart (w := 1) (le_refl _)
      rw [List.length_cons, cutoff_of_lastAssistant hk] at hone
      rw [if_pos hzero, List.length_cons, hk]
      refine ⟨(m :: rest).drop k, rfl, hone.suffix, hone.starts, ?_, fun _ => ?_, ?_⟩
      · intro h
        omega
      · have hcount := hone.counted (le_refl _)
        have hle : min (1 : Int) (assistants (m :: rest)) ≤ 1 := min_le_left _ _
        omega
      · intro h
        exact absurd h hneg
    · rw [if_neg hzero]
      exact ⟨_, rfl, Shows.cutoff hstart (by omega)⟩

/-! ### Turns -/

structure Turn where
  response : ChatResponse
  results : Nat → String
  injected : List Message

def Turn.rest (t : Turn) : List Message :=
  toolMessages t.response.toolCalls t.results ++ t.injected

def Turn.messages (t : Turn) : List Message := assistantMsg t.response :: t.rest

/-- What was injected is no answer of the model and no result of a tool call. -/
def Turn.Plain (t : Turn) : Prop :=
  ∀ m ∈ t.injected, m.isAssistant = false ∧ m.isTool = false

theorem isAssistant_assistantMsg (r : ChatResponse) : (assistantMsg r).isAssistant = true := rfl

theorem mem_toolMessages {calls : List ToolCall} {results : Nat → String} {m : Message}
    (h : m ∈ toolMessages calls results) :
    m.isAssistant = false ∧ m.isTool = true ∧ ∃ call ∈ calls, call.id = m.toolCallID := by
  obtain ⟨⟨call, i⟩, hcall, rfl⟩ := List.mem_map.mp h
  exact ⟨rfl, rfl, call, List.fst_mem_of_mem_zipIdx hcall, rfl⟩

theorem map_toolCallID_toolMessages (calls : List ToolCall) (results : Nat → String) :
    (toolMessages calls results).map Message.toolCallID = calls.map ToolCall.id := by
  have hfst : (calls.zipIdx.map Prod.fst) = calls := List.zipIdx_map_fst 0 calls
  calc (toolMessages calls results).map Message.toolCallID
      = (calls.zipIdx.map Prod.fst).map ToolCall.id := by
        simp only [toolMessages, List.map_map]
        rfl
    _ = calls.map ToolCall.id := by rw [hfst]

namespace Turn

theorem Plain.rest {t : Turn} (h : t.Plain) {m : Message} (hm : m ∈ t.rest) :
    m.isAssistant = false := by
  rcases List.mem_append.mp hm with hm | hm
  · exact (mem_toolMessages hm).1
  · exact (h m hm).1

theorem Plain.tool {t : Turn} (h : t.Plain) {m : Message} (hm : m ∈ t.rest)
    (ht : m.isTool = true) : ∃ call ∈ t.response.toolCalls, call.id = m.toolCallID := by
  rcases List.mem_append.mp hm with hm | hm
  · exact (mem_toolMessages hm).2.2
  · rw [(h m hm).2] at ht
    cases ht

theorem Plain.results {t : Turn} (h : t.Plain) :
    (t.rest.filter Message.isTool).map Message.toolCallID =
      t.response.toolCalls.map ToolCall.id := by
  have htools : (toolMessages t.response.toolCalls t.results).filter Message.isTool =
      toolMessages t.response.toolCalls t.results :=
    List.filter_eq_self.mpr fun m hm => (mem_toolMessages hm).2.1
  have hinjected : t.injected.filter Message.isTool = [] :=
    List.filter_eq_nil_iff.mpr fun m hm => by simp [(h m hm).2]
  rw [Turn.rest, List.filter_append, htools, hinjected, List.append_nil,
    map_toolCallID_toolMessages]

end Turn

def conversationOf (turns : List Turn) : List Message := turns.flatMap Turn.messages

theorem conversationOf_cons (t : Turn) (turns : List Turn) :
    conversationOf (t :: turns) = assistantMsg t.response :: (t.rest ++ conversationOf turns) := rfl

theorem startsAtAssistant_conversationOf (turns : List Turn) :
    StartsAtAssistant (conversationOf turns) := by
  intro m hm
  cases turns with
  | nil => simp [conversationOf] at hm
  | cons t turns =>
    rw [conversationOf_cons, List.head?_cons] at hm
    obtain rfl := Option.some.inj hm
    exact isAssistant_assistantMsg t.response

theorem suffix_turns {turns : List Turn} (hplain : ∀ t ∈ turns, t.Plain) {shown : List Message}
    (hsuffix : shown <:+ conversationOf turns) (hstart : StartsAtAssistant shown) :
    ∃ last, last <:+ turns ∧ shown = conversationOf last := by
  induction turns with
  | nil =>
    refine ⟨[], List.suffix_rfl, ?_⟩
    exact List.suffix_nil.mp hsuffix
  | cons t turns ih =>
    rw [conversationOf_cons, List.suffix_cons_iff] at hsuffix
    rcases hsuffix with hall | hsuffix
    · exact ⟨t :: turns, List.suffix_rfl, hall⟩
    -- what follows the answer of this turn is no answer: the part starts behind the turn
    obtain ⟨cut, hcut⟩ := hsuffix
    have hbehind : shown <:+ conversationOf turns := by
      rcases List.append_eq_append_iff.mp hcut with ⟨as, hrest, hshown⟩ | ⟨bs, hrest, hshown⟩
      · cases as with
        | nil => exact ⟨[], by simpa using hshown⟩
        | cons m as =>
          have hm : m ∈ t.rest := by simp [hrest]
          have hno := (hplain t List.mem_cons_self).rest hm
          rw [hstart m (by rw [hshown]; rfl)] at hno
          cases hno
      · exact ⟨bs, hshown.symm⟩
    obtain ⟨last, hlast, hshown⟩ := ih (fun t ht => hplain t (List.mem_cons_of_mem _ ht)) hbehind
    exact ⟨last, hlast.trans (List.suffix_cons t turns), hshown⟩

/-- Every tool message answers a call of an earlier answer, and the calls of every answer are
answered one by one before the next. -/
structure Answered (messages : List Message) : Prop where
  earlier : ∀ before m after, messages = before ++ m :: after → m.isTool = true →
    ∃ a ∈ before, a.isAssistant = true ∧ ∃ call ∈ a.toolCalls, call.id = m.toolCallID
  once : ∀ before a after, messages = before ++ a :: after → a.isAssistant = true →
    ((after.takeWhile fun m => !m.isAssistant).filter Message.isTool).map Message.toolCallID =
      a.toolCalls.map ToolCall.id

theorem takeWhile_rest {t : Turn} (ht : t.Plain) (turns : List Turn) :
    (t.rest ++ conversationOf turns).takeWhile (fun m => !m.isAssistant) = t.rest := by
  rw [List.takeWhile_append_of_pos fun m hm => by simp [ht.rest hm]]
  have hnext : (conversationOf turns).takeWhile (fun m => !m.isAssistant) = [] := by
    cases turns with
    | nil => rfl
    | cons t turns =>
      rw [conversationOf_cons, List.takeWhile_cons_of_neg]
      simp [isAssistant_assistantMsg]
  rw [hnext, List.append_nil]

/-- Where a message of some turns stands: it is the first answer, it follows that within the turn,
or it is a message of the turns behind. -/
theorem split_conversation {t : Turn} {turns : List Turn} {before after : List Message}
    {m : Message} (h : conversationOf (t :: turns) = before ++ m :: after) :
    (m = assistantMsg t.response ∧ after = t.rest ++ conversationOf turns) ∨
    (m ∈ t.rest ∧ assistantMsg t.response ∈ before) ∨
    (∃ before', before' ⊆ before ∧ conversationOf turns = before' ++ m :: after) := by
  rw [conversationOf_cons] at h
  cases before with
  | nil =>
    obtain ⟨rfl, rfl⟩ := List.cons.inj h
    exact Or.inl ⟨rfl, rfl⟩
  | cons b before =>
    obtain ⟨rfl, htail⟩ := List.cons.inj h
    refine Or.inr ?_
    rcases List.append_eq_append_iff.mp htail with ⟨as, rfl, hturns⟩ | ⟨bs, hrest, hturns⟩
    · exact Or.inr ⟨as, fun x hx => by simp [hx], hturns⟩
    · cases bs with
      | nil => exact Or.inr ⟨[], List.nil_subset _, hturns.symm⟩
      | cons m' bs =>
        obtain ⟨rfl, -⟩ := List.cons.inj hturns
        exact Or.inl ⟨by simp [hrest], List.mem_cons_self⟩

theorem answered_conversationOf {turns : List Turn} (hplain : ∀ t ∈ turns, t.Plain) :
    Answered (conversationOf turns) := by
  induction turns with
  | nil => constructor <;> simp [conversationOf]
  | cons t turns ih =>
    have ht := hplain t List.mem_cons_self
    have ih := ih fun t ht => hplain t (List.mem_cons_of_mem _ ht)
    refine ⟨fun before m after heq hm => ?_, fun before a after heq ha => ?_⟩
    · rcases split_conversation heq with ⟨rfl, -⟩ | ⟨hmem, hanswer⟩ | ⟨before', hsub, hturns⟩
      · cases hm
      · exact ⟨_, hanswer, isAssistant_assistantMsg _, ht.tool hmem hm⟩
      · obtain ⟨a, ha, hcall⟩ := ih.earlier before' m after hturns hm
        exact ⟨a, hsub ha, hcall⟩
    · rcases split_conversation heq with ⟨rfl, rfl⟩ | ⟨hmem, -⟩ | ⟨before', -, hturns⟩
      · rw [takeWhile_rest ht]
        exact ht.results
      · rw [ht.rest hmem] at ha
        cases ha
      · exact ih.once before' a after hturns ha

/-! ### Runs -/

section runs

variable {Tool Temperature : Type}

/-- The conversation is made of turns that injected what some turn's input brought. -/
def Recorded (inputs : Nat → TurnInput) (conversation : List Message) : Prop :=
  ∃ turns, conversation = conversationOf turns ∧
    ∀ t ∈ turns, ∃ i, t.injected = (inputs i).injected

theorem Recorded.next {inputs : Nat → TurnInput} {system task : Message}
    {conversation : List Message} (h : Recorded inputs conversation) {s : LoopState}
    (hs : s.allMessages = system :: task :: conversation) (r : ChatResponse) (turn : Nat) :
    ∃ conversation', Recorded inputs conversation' ∧
      ((s.answered r).next r (inputs turn)).allMessages = system :: task :: conversation' := by
  obtain ⟨turns, rfl, hfrom⟩ := h
  let t : Turn := ⟨r, (inputs turn).results, (inputs turn).injected⟩
  refine ⟨conversationOf (turns ++ [t]), ⟨turns ++ [t], rfl, ?_⟩, ?_⟩
  · intro t' ht'
    rcases List.mem_append.mp ht' with ht' | ht'
    · exact hfrom t' ht'
    · obtain rfl := List.mem_singleton.mp ht'
      exact ⟨turn, rfl⟩
  · have hlast : conversationOf (turns ++ [t]) = conversationOf turns ++ t.messages := by
      simp [conversationOf]
    rw [hlast]
    simp [LoopState.next, LoopState.answered, hs, t, Turn.messages, Turn.rest]

theorem turnsFrom_recorded {cfg : LoopConfig Tool Temperature} {inputs : Nat → TurnInput}
    {system task : Message} {n turn : Nat} {s : LoopState} {conversation : List Message}
    (hrec : Recorded inputs conversation) (hs : s.allMessages = system :: task :: conversation)
    {sent : Sent Tool Temperature} (h : sent ∈ (turnsFrom cfg inputs n turn s).1) :
    sent.request.messages = buildContextWindow sent.recorded sent.memoryWindow ∧
      ∃ conversation, sent.recorded = system :: task :: conversation ∧
        Recorded inputs conversation := by
  induction n generalizing turn s conversation with
  | zero => cases h
  | succ n ih =>
    have hnow {now : Sent Tool Temperature}
        (hreq : now.request.messages = buildContextWindow s.allMessages s.memoryWindow)
        (hmsgs : now.recorded = s.allMessages) (hwin : now.memoryWindow = s.memoryWindow) :
        now.request.messages = buildContextWindow now.recorded now.memoryWindow ∧
          ∃ conversation, now.recorded = system :: task :: conversation ∧
            Recorded inputs conversation := by
      rw [hmsgs, hwin]
      exact ⟨hreq, conversation, hs, hrec⟩
    simp only [turnsFrom] at h
    split at h
    next e he =>
      obtain rfl := List.mem_singleton.mp h
      exact hnow rfl rfl rfl
    next r hr =>
      split at h
      next hdone =>
        obtain rfl := List.mem_singleton.mp h
        exact hnow rfl rfl rfl
      next hdone =>
        rcases List.mem_cons.mp h with rfl | h
        · exact hnow rfl rfl rfl
        · obtain ⟨conversation', hrec', hs'⟩ := hrec.next hs r turn
          exact ih hrec' hs' h

/-- Every request is the system prompt, the task and a window of what was recorded; where nothing
but messages of users is injected, the tool calls in it are answered. -/
theorem runLoop_windows (benchTools : List Tool) (cfg : LoopConfig Tool Temperature)
    (inputs : Nat → TurnInput) (sent : Sent Tool Temperature)
    (h : sent ∈ (runLoop benchTools cfg inputs).1) :
    ∃ conversation shown,
      sent.recorded =
        { role := "system", content := cfg.systemPrompt } ::
          { role := "user", content := cfg.taskPrompt } :: conversation ∧
      sent.request.messages =
        { role := "system", content := cfg.systemPrompt } ::
          { role := "user", content := cfg.taskPrompt } :: shown ∧
      Shows conversation shown sent.memoryWindow ∧
      ((∀ i, ∀ m ∈ (inputs i).injected, m.role ≠ "assistant" ∧ m.role ≠ "tool") →
        Answered shown) := by
  have hnone : Recorded inputs [] := ⟨[], rfl, by simp⟩
  obtain ⟨hreq, conversation, hconv, turns, rfl, hfrom⟩ := turnsFrom_recorded hnone rfl h
  obtain ⟨shown, hshown, hwindow⟩ := buildContextWindow_shows _ _
    (startsAtAssistant_conversationOf turns) sent.memoryWindow
  refine ⟨conversationOf turns, shown, hconv, ?_, hwindow, fun huser => ?_⟩
  · rw [hreq, hconv]
    exact hshown
  · have hplain : ∀ t ∈ turns, t.Plain := by
      intro t ht m hm
      obtain ⟨i, hi⟩ := hfrom t ht
      have hrole := huser i m (hi ▸ hm)
      exact ⟨decide_eq_false hrole.1, decide_eq_false hrole.2⟩
    obtain ⟨last, hlast, rfl⟩ := suffix_turns hplain hwindow.suffix hwindow.starts
    exact answered_conversationOf fun t ht => hplain t (hlast.subset ht)

/-! ### What a run leaves -/

/-- What a turn adds to the history; a turn that ends the run runs no tools. -/
def TurnInput.recorded (input : TurnInput) : List Message :=
  match input.chat with
  | .error _ => []
  | .ok r =>
      assistantMsg r ::
        if r.done then [] else toolMessages r.toolCalls input.results ++ input.injected

/-- The count after a turn. -/
def Usage.after (u : Usage) (input : TurnInput) : Usage :=
  match input.chat with
  | .error _ => u
  | .ok r => ⟨u.promptTokens + r.usage.promptTokens, u.completionTokens + r.usage.completionTokens⟩

end runs

/-- Two turns with a call each and a goal that is injected, after which the window is one answer. -/
def shrinkingInputs (i : Nat) : TurnInput :=
  if i < 2 then
    { chat := .ok { toolCalls := [⟨toString i, "run_command", ""⟩] }
      injected := [{ role := "user", content := "goal" }]
      window := some 1 }
  else { chat := .ok { content := "done" } }

def shrinkingConfig : LoopConfig String Nat where
  model := "m"
  maxTurns := 0
  memoryWindow := -1
  temperature := 0
  maxTokens := 0
  systemPrompt := "s"
  taskPrompt := "t"

/-- The third request shows the second turn only. -/
theorem runLoop_windows_shrunk :
    ∃ sent ∈ (runLoop ["run_command"] shrinkingConfig shrinkingInputs).1,
      sent.request.messages.length = 5 ∧
      ∃ conversation shown,
        sent.recorded =
          { role := "system", content := "s" } :: { role := "user", content := "t" } ::
            conversation ∧
        sent.request.messages =
          { role := "system", content := "s" } :: { role := "user", content := "t" } :: shown ∧
        Shows conversation shown sent.memoryWindow ∧ Answered shown := by
  have huser : ∀ i, ∀ m ∈ (shrinkingInputs i).injected,
      m.role ≠ "assistant" ∧ m.role ≠ "tool" := by
    intro i m hm
    simp only [shrinkingInputs] at hm
    split at hm
    · obtain rfl := List.mem_singleton.mp hm
      decide
    · cases hm
  have hthird : 2 < (runLoop ["run_command"] shrinkingConfig shrinkingInputs).1.length := by
    decide
  have hmem := List.getElem_mem hthird
  obtain ⟨conversation, shown, hrec, hreq, hwindow, hanswered⟩ :=
    runLoop_windows ["run_command"] shrinkingConfig shrinkingInputs _ hmem
  exact ⟨_, hmem, rfl, conversation, shown, hrec, hreq, hwindow, hanswered huser⟩

end EvidraBench.Agent
