import TrustForge.Rpc.Interleaving

/-!
# Delivery of client items

From the first run of a call's task on, the items of the call go through its pipe to the
handler: what has been handed over and what is still in the pipe is together all that has
arrived.  What arrives before the task has run, or after it is done, is lost.
-/

namespace TrustForge.Rpc

open AssocMap HandlerKind ServerState List Option
open Session (SessionFrame)

/-! ## Delivery -/

/-- What a pump makes of the messages, up to the first that stops it. -/
def HandlerKind.handOn (kind : HandlerKind) (chain : List String) : List InflightMsg → List Inbound
  | [] => []
  | msg :: rest => kind.forward chain msg ++ if msg.stops then [] else handOn kind chain rest

theorem handOn_append_of_stops (kind : HandlerKind) (chain : List String)
    {msgs : List InflightMsg} (stopped : ∃ msg ∈ msgs, msg.stops = true)
    (later : List InflightMsg) : kind.handOn chain (msgs ++ later) = kind.handOn chain msgs := by
  induction msgs with
  | nil =>
    rcases stopped with ⟨msg, member, -⟩
    cases member
  | cons msg msgs ih =>
    rw [cons_append, handOn, handOn]
    by_cases stops : msg.stops = true
    · rw [if_pos stops, if_pos stops]
    · rw [if_neg stops, if_neg stops, ih]
      rcases stopped with ⟨found, member, stop⟩
      rcases mem_cons.mp member with rfl | member
      · exact absurd stop stops
      · exact ⟨found, member, stop⟩

theorem handOn_prefix_append (kind : HandlerKind) (chain : List String)
    (msgs later : List InflightMsg) :
    kind.handOn chain msgs <+: kind.handOn chain (msgs ++ later) := by
  induction msgs with
  | nil => exact nil_prefix
  | cons msg msgs ih =>
    rw [cons_append, handOn, handOn, prefix_append_right_inj]
    split
    · exact prefix_rfl
    · exact ih

namespace Task

/-- What the handler has got and gets from the pipe and from later messages. -/
def outcome (task : Task) (later : List InflightMsg) : List Inbound :=
  task.delivered ++
    if task.pumping then task.kind.handOn task.initialChain (task.pipe ++ later) else []

/-- The end of the stream is in the pipe, or the pump has seen it. -/
def Closed (task : Task) : Prop :=
  task.pumping = false ∨ ∃ msg ∈ task.pipe, msg.stops = true

variable {task : Task}

theorem outcome_of_closed (closed : task.Closed) (later : List InflightMsg) :
    task.outcome later = task.outcome [] := by
  unfold outcome
  rcases closed with stopped | stops
  · rw [stopped]
    rfl
  · rw [handOn_append_of_stops _ _ stops, append_nil]

theorem outcome_push (task : Task) (msg : InflightMsg) (later : List InflightMsg) :
    (task.push msg).outcome later = task.outcome (msg :: later) := by
  rw [outcome, outcome, push, append_assoc, singleton_append]

theorem closed_push (closed : task.Closed) (msg : InflightMsg) : (task.push msg).Closed := by
  refine closed.imp id ?_
  rintro ⟨found, member, stops⟩
  exact ⟨found, mem_append_left _ member, stops⟩

/-- A turn of the pump changes nothing for a handler that listens. -/
theorem outcome_pumped {msg : InflightMsg} {rest : List InflightMsg}
    (listening : task.listening = true) (pumping : task.pumping = true)
    (pipe : task.pipe = msg :: rest) (later : List InflightMsg) :
    (task.pumped msg rest).outcome later = task.outcome later := by
  rw [outcome, outcome, pumping, pipe, cons_append, handOn]
  cases stops : msg.stops <;> simp [pumped, listening, stops, forward]

theorem closed_pumped {msg : InflightMsg} {rest : List InflightMsg} (pipe : task.pipe = msg :: rest)
    (closed : task.Closed) (pumping : task.pumping = true) : (task.pumped msg rest).Closed := by
  rcases closed with stopped | ⟨found, member, stops⟩
  · exact absurd (pumping.symm.trans stopped) (by decide)
  · rw [pipe] at member
    rcases mem_cons.mp member with rfl | member
    · left
      simp [pumped, stops]
    · exact .inr ⟨found, member, stops⟩

end Task

/-- The client-stream frame of a call that arrives with an action. -/
def clientItem (callId : String) : Action → Option (StreamItem UInt64)
  | .arrive frame =>
    (clientFrame frame).bind fun item => if item.callId = callId then some item else none
  | _ => none

def clientItems (callId : String) (actions : List Action) : List (StreamItem UInt64) :=
  actions.filterMap (clientItem callId)

/-- The handler is to get `whole later`.  As long as the pipe is installed or not needed any more
nothing is lost; otherwise the dispatcher is done, and only a beginning comes. -/
def Kept (callId : String) (k : Nat) (whole : List InflightMsg → List Inbound) (s : ServerState)
    (task : Task) : Prop :=
  (get? callId s.inflight = some k ∨ task.Closed) ∧
      (task.listening = true → ∀ later, task.outcome later = whole later) ∨
    task.phase ≠ .running ∧ get? callId s.inflight ≠ some k ∧
      (task.listening = true → task.outcome [] <+: whole [])

/-- A task that serves a call. -/
structure Serving (callId : String) (k : Nat) (whole : List InflightMsg → List Inbound)
    (s : ServerState) (task : Task) : Prop where
  consistent : Consistent s
  owns : Owns callId (· = k) s
  here : s.tasks[k]? = some task
  own : task.callId = callId
  started : task.phase ≠ .spawned
  got : task.delivered <+: whole []
  kept : Kept callId k whole s task

section

variable {server : RpcServer} {callId : String} {k : Nat} {s t : ServerState} {task : Task}
  {action : Action} {whole : List InflightMsg → List Inbound}

/-- What the listener pushes into the pipe of a task during an action. -/
def ServerState.pushes (s : ServerState) (k : Nat) : Action → List InflightMsg
  | .arrive frame => (s.pushed k frame).toList
  | _ => []

/-- What an action brings for a call. -/
def messages (callId : String) (action : Action) : List InflightMsg :=
  ((clientItem callId action).bind inflightMsg).toList

theorem pumping_of_step (taken : step server s (.pump k) = some t)
    (here : s.tasks[k]? = some task) : task.pumping = true := by
  rcases step_pump_iff.mp taken with ⟨acting, _, _, found, -, pumping, -⟩
  cases some.inj (found.symm.trans here)
  exact pumping

namespace Change

variable {after : Task}

section

variable (change : Change s k task action after)

include change

/-- A handler that listens loses nothing of its pipe. -/
theorem outcome (taken : step server s action = some t) (here : s.tasks[k]? = some task)
    (listening : after.listening = true) (later : List InflightMsg) :
    after.outcome later = task.outcome (s.pushes k action ++ later) := by
  cases change with
  | nothing silent =>
    cases action with
    | arrive frame => exact absurd rfl (silent frame)
    | register | start | pump | deafen | finish => rfl
  | arrived frame =>
    rw [pushes]
    cases s.pushed k frame with
    | none => rfl
    | some msg => exact Task.outcome_push task msg later
  | started | finished => rfl
  | pumped pipe =>
    have listens : task.listening = true := listening
    exact Task.outcome_pumped listens (pumping_of_step taken here) pipe later
  | deafened => cases listening

/-- A handler that does not listen gets nothing. -/
theorem delivered (deaf : after.listening = false) :
    after.delivered = task.delivered := by
  cases change with
  | arrived frame => cases s.pushed k frame <;> rfl
  | nothing | started | deafened | finished => rfl
  | pumped pipe =>
    have deaf : task.listening = false := deaf
    simp [Task.pumped, deaf]

/-- A closed task stays closed. -/
theorem closed (taken : step server s action = some t)
    (here : s.tasks[k]? = some task) (closed : task.Closed) : after.Closed := by
  cases change with
  | nothing | started | deafened | finished => exact closed
  | arrived frame =>
    cases s.pushed k frame with
    | none => exact closed
    | some msg => exact Task.closed_push closed msg
  | pumped pipe => exact Task.closed_pumped pipe closed (pumping_of_step taken here)

theorem listened (listening : after.listening = true) :
    task.listening = true := by
  cases change with
  | arrived frame =>
    revert listening
    cases s.pushed k frame <;> exact id
  | nothing | started | pumped | finished => exact listening
  | deafened => cases listening

end

end Change

/-- What a handler that listens has got and gets from its pipe. -/
theorem Kept.part (kept : Kept callId k whole s task) (listening : task.listening = true) :
    task.delivered <+: whole [] := by
  rcases kept with ⟨-, all⟩ | ⟨-, -, part⟩
  · rw [← all listening]
    exact prefix_append _ _
  · exact (prefix_append _ _).trans (part listening)

namespace Serving

variable (serving : Serving callId k whole s task)

include serving

/-- Only a frame of the own call reaches a pipe. -/
theorem pushed_eq (frame : SessionFrame) :
    s.pushed k frame = if get? callId s.inflight = some k then
      (clientItem callId (.arrive frame)).bind inflightMsg else none := by
  rw [pushed, clientItem]
  cases clientFrame frame with
  | none => simp
  | some item =>
    simp only [bind_some]
    by_cases own : item.callId = callId
    · rw [own, if_pos rfl, bind_some]
    · have other : ¬get? item.callId s.inflight = some k := by
        intro elsewhere
        rcases serving.consistent.routes _ k elsewhere with ⟨found, there, same, -⟩
        cases some.inj (there.symm.trans serving.here)
        exact own (same.symm.trans serving.own)
      rw [if_neg own, if_neg other, bind_none, ite_self]

theorem pushes_eq (action : Action) :
    s.pushes k action =
      if get? callId s.inflight = some k then messages callId action else [] := by
  cases action with
  | arrive frame =>
    rw [pushes, serving.pushed_eq, messages]
    split <;> rfl
  | register | start | pump | deafen | finish => exact (ite_self []).symm

theorem not_start : step server s (.start k) ≠ some t := by
  intro taken
  rcases step_start_iff.mp taken with ⟨other, found, spawned, -⟩
  cases some.inj (found.symm.trans serving.here)
  exact serving.started spawned

variable (taken : step server s action = some t)

include taken

/-- The map keeps the pipe of a call until its own task is done with it. -/
theorem routed_step (running : (s.taskAfter k task action).phase = .running) :
    get? callId t.inflight = get? callId s.inflight ∨
      action = .pump k ∧ ∃ msg rest, task.pipe = msg :: rest ∧ msg.stops = true := by
  rcases step_inflight taken callId with same | ⟨j, acting, here, own, change⟩
  · exact .inl same
  · cases serving.owns j acting here own
    cases some.inj (here.symm.trans serving.here)
    rcases change with ⟨rfl, -⟩ | ⟨-, rfl | pumps⟩
    · exact absurd taken serving.not_start
    · rw [taskAfter, if_pos rfl] at running
      cases running
    · exact .inr pumps

/-- A task that has started and runs after a step has run before it. -/
theorem running_before
    (running : (s.taskAfter k task action).phase = .running) : task.phase = .running := by
  rcases (change_taskAfter s k task action).phase with same | ⟨rfl, -⟩ | ⟨-, finished⟩
  · exact same.symm.trans running
  · exact absurd taken serving.not_start
  · exact absurd (finished.symm.trans running) (by decide)

/-- A pipe that is gone does not come back. -/
theorem unrouted_step (unrouted : get? callId s.inflight ≠ some k) :
    get? callId t.inflight ≠ some k := by
  rcases step_inflight taken callId with same | ⟨j, acting, here, own, change⟩
  · rwa [same]
  · cases serving.owns j acting here own
    rcases change with ⟨rfl, -⟩ | ⟨gone, -⟩
    · exact absurd taken serving.not_start
    · simp [gone]

theorem kept_step (grows : ∀ msgs later, whole msgs <+: whole (msgs ++ later)) :
    Kept callId k (fun later => whole (messages callId action ++ later)) t
      (s.taskAfter k task action) := by
  have change := change_taskAfter s k task action
  rcases serving.kept with ⟨mine, all⟩ | ⟨done, unrouted, part⟩
  · have outcome (listening : (s.taskAfter k task action).listening = true)
        (later : List InflightMsg) : (s.taskAfter k task action).outcome later =
          whole (messages callId action ++ later) := by
      rw [change.outcome taken serving.here listening, ← all (change.listened listening)]
      rcases mine with routed | closed
      · rw [serving.pushes_eq, if_pos routed]
      · rw [Task.outcome_of_closed closed,
          Task.outcome_of_closed closed (messages callId action ++ later)]
    rcases mine with routed | closed
    · by_cases still : get? callId t.inflight = some k
      · exact .inl ⟨.inl still, outcome⟩
      · by_cases running : (s.taskAfter k task action).phase = .running
        · rcases serving.routed_step taken running with same | ⟨rfl, msg, rest, pipe, stops⟩
          · exact absurd (same.trans routed) still
          · refine .inl ⟨.inr (.inl ?_), outcome⟩
            rw [taskAfter_pump s k pipe]
            simp [Task.pumped, stops]
        · refine .inr ⟨running, still, fun listening => ?_⟩
          exact outcome listening [] ▸ prefix_rfl
    · exact .inl ⟨.inr (change.closed taken serving.here closed), outcome⟩
  · refine .inr ⟨fun running => done (serving.running_before taken running),
      serving.unrouted_step taken unrouted, fun listening => ?_⟩
    rw [change.outcome taken serving.here listening, serving.pushes_eq, if_neg unrouted]
    exact (part (change.listened listening)).trans (grows [] _)

theorem serving_step (fresh : ∀ frame, action = .arrive frame → opens frame ≠ some callId)
    (grows : ∀ msgs later, whole msgs <+: whole (msgs ++ later)) :
    Serving callId k (fun later => whole (messages callId action ++ later)) t
      (s.taskAfter k task action) where
  consistent := consistent_step taken serving.consistent
  owns := owns_step taken fresh serving.owns
  here := step_task taken serving.here
  own := (change_taskAfter s k task action).call.1.trans serving.own
  started := (change_taskAfter s k task action).runs serving.started
  got := by
    cases listening : (s.taskAfter k task action).listening with
    | true => exact (serving.kept_step taken grows).part listening
    | false =>
      rw [(change_taskAfter s k task action).delivered listening]
      exact serving.got.trans (grows [] _)
  kept := serving.kept_step taken grows

end Serving

/-- The messages of a whole interleaving for a call. -/
def allMessages (callId : String) (actions : List Action) : List InflightMsg :=
  actions.flatMap (messages callId)

theorem serving_run {actions : List Action} (serving : Serving callId k whole s task)
    (ran : run server s actions = some t)
    (fresh : ∀ frame, .arrive frame ∈ actions → opens frame ≠ some callId)
    (grows : ∀ msgs later, whole msgs <+: whole (msgs ++ later)) :
    ∃ last, Serving callId k (fun later => whole (allMessages callId actions ++ later)) t last := by
  induction actions generalizing s task whole with
  | nil =>
    cases ran
    exact ⟨task, serving⟩
  | cons action actions ih =>
    rcases run_cons_iff.mp ran with ⟨next, taken, rest⟩
    have served := serving.serving_step taken (by
      rintro frame rfl
      exact fresh frame mem_cons_self) grows
    simp only [allMessages, flatMap_cons, append_assoc]
    refine ih served rest (fun frame member => fresh frame (mem_cons_of_mem _ member)) ?_
    intro msgs later
    rw [← append_assoc]
    exact grows _ _

/-- A task that starts serves its call from then on. -/
theorem serving_start (taken : step server s (.start k) = some t) (consistent : Consistent s)
    (owns : Owns callId (· = k) s) (here : s.tasks[k]? = some task) (own : task.callId = callId)
    (items : task.takesItems = true) :
    Serving callId k (task.kind.handOn task.initialChain) t (s.taskAfter k task (.start k)) := by
  rcases step_start_iff.mp taken with ⟨other, found, spawned, rfl⟩
  cases some.inj (found.symm.trans here)
  have new := consistent.fresh k task here spawned
  have granted : task.refused = false := by
    have parts := Bool.and_eq_true_iff.mp items
    simpa using parts.1
  refine ⟨consistent_step taken consistent, owns_step taken ?_ owns, step_task taken here,
    (change_taskAfter s k task _).call.1.trans own, ?_, ?_, .inl ⟨.inl ?_, fun _ later => ?_⟩⟩
  · rintro frame ⟨⟩
  · simp [taskAfter, granted]
  · simp [taskAfter, new.delivered]
  · simp [start, granted, items, get?_insert, own]
  · simp [taskAfter, Task.outcome, new.pumping, new.delivered, new.pipe]

end

/-! ## The stream of a call -/

/-- The frame that ends the stream of a client. -/
def StreamItem.ends (item : StreamItem UInt64) : Bool :=
  item.error.isSome || !item.more

def upToEnd (items : List (StreamItem UInt64)) : List (StreamItem UInt64) :=
  items.takeWhile (!·.ends)

def endOf (items : List (StreamItem UInt64)) : List (StreamItem UInt64) :=
  ((items.dropWhile (!·.ends)).head?).toList

/-- What the pump makes of a frame. -/
def Task.handed (task : Task) (item : StreamItem UInt64) : List Inbound :=
  (inflightMsg item).toList.flatMap task.forward

/-- Every item up to the end of the stream reaches the handler once, and in order; after them
comes what the pump makes of the end. -/
def Task.Delivers (task : Task) (items : List (StreamItem UInt64)) : Prop :=
  ∃ got, Forall₂ (fun item inbound => task.handed item = [inbound]) (upToEnd items) got ∧
    task.outcome [] = got ++ (endOf items).flatMap task.handed

/-- The handler has got a beginning of that. -/
def Task.DeliversPart (task : Task) (items : List (StreamItem UInt64)) : Prop :=
  ∃ got, Forall₂ (fun item inbound => task.handed item = [inbound]) (upToEnd items) got ∧
    task.delivered <+: got ++ (endOf items).flatMap task.handed

theorem inflightMsg_of_ends {item : StreamItem UInt64} (ends : item.ends = true) :
    ∃ msg, inflightMsg item = some msg ∧ msg.stops = true := by
  unfold inflightMsg
  cases error : item.error with
  | some e => exact ⟨.error e, rfl, rfl⟩
  | none =>
    have last : item.more = false := by simpa [StreamItem.ends, error] using ends
    exact ⟨.done, by simp [last], rfl⟩

theorem not_stops_of_not_ends {item : StreamItem UInt64} (goesOn : item.ends = false)
    {msg : InflightMsg} (read : inflightMsg item = some msg) : msg.stops = false := by
  have parts : item.error = none ∧ item.more = true := by
    simpa [StreamItem.ends] using goesOn
  rw [inflightMsg, parts.1, parts.2] at read
  rcases map_eq_some_iff.mp read with ⟨v, -, rfl⟩
  rfl

theorem handOn_filterMap (task : Task) (items : List (StreamItem UInt64)) :
    task.kind.handOn task.initialChain (items.filterMap inflightMsg) =
      (upToEnd items).flatMap task.handed ++ (endOf items).flatMap task.handed := by
  induction items with
  | nil => rfl
  | cons item items ih =>
    cases ends : item.ends with
    | true =>
      rcases inflightMsg_of_ends ends with ⟨msg, read, stops⟩
      simp [upToEnd, endOf, ends, read, stops, handOn, Task.handed, Task.forward]
    | false =>
      have later : upToEnd (item :: items) = item :: upToEnd items ∧
          endOf (item :: items) = endOf items := by
        simp [upToEnd, endOf, ends]
      rw [later.1, later.2, flatMap_cons, append_assoc, ← ih]
      cases read : inflightMsg item with
      | none => simp [read, Task.handed]
      | some msg =>
        have goesOn := not_stops_of_not_ends ends read
        simp [read, goesOn, handOn, Task.handed, Task.forward]

theorem allMessages_eq (callId : String) (actions : List Action) :
    allMessages callId actions = (clientItems callId actions).filterMap inflightMsg := by
  induction actions with
  | nil => rfl
  | cons action actions ih =>
    rw [allMessages, flatMap_cons, ← allMessages, ih, messages, clientItems, clientItems]
    cases read : clientItem callId action with
    | none => simp [read]
    | some item => cases made : inflightMsg item <;> simp [read, made]

/-- Items that the pump hands on one by one are matched by what it hands on. -/
theorem forall₂_flatMap_handed (task : Task) {items : List (StreamItem UInt64)}
    (accepted : ∀ item ∈ items, ∃ inbound, task.handed item = [inbound]) :
    Forall₂ (fun item inbound => task.handed item = [inbound]) items
      (items.flatMap task.handed) := by
  induction items with
  | nil => exact Forall₂.nil
  | cons item items ih =>
    rcases accepted item mem_cons_self with ⟨inbound, single⟩
    rw [flatMap_cons, single]
    exact Forall₂.cons single (ih fun other member =>
      accepted other (mem_cons_of_mem _ member))

/-- A call's task delivers the items that arrive after the call if it has run before the first of
them arrives, no other call has the id, every item is one that the pump hands on, and, up to
the moment that is looked at, the dispatcher is not done and the handler keeps its receiver.

Without the last condition the handler has got a beginning of them, once each and in order. -/
theorem client_items_delivered {server : RpcServer} {before early late : List Action}
    {frame : SessionFrame} {callId : String} {opened final : ServerState} {task : Task}
    (reached : run server {} before = some opened)
    (ran : run server (opened.listen server frame)
      (early ++ .start opened.tasks.length :: late) = some final)
    (here : final.tasks[opened.tasks.length]? = some task) (own : task.callId = callId)
    (items : task.takesItems = true)
    (unique : ∀ other, .arrive other ∈ before ++ early ++ late → opens other ≠ some callId)
    (inTime : clientItems callId early = [])
    (accepted : ∀ item ∈ upToEnd (clientItems callId late),
      ∃ inbound, task.handed item = [inbound]) :
    task.DeliversPart (clientItems callId (early ++ .start opened.tasks.length :: late)) ∧
      (task.phase = .running → task.listening = true →
        task.Delivers (clientItems callId (early ++ .start opened.tasks.length :: late))) := by
  have fresh (actions : List Action) (part : actions ⊆ before ++ early ++ late) (other : SessionFrame)
      (member : .arrive other ∈ actions) : opens other ≠ some callId :=
    unique other (part member)
  have arrived : step server opened (.arrive frame) = some (opened.listen server frame) := rfl
  -- Up to the start: the state is consistent, and the task is the only one of its call.
  have unused : Owns callId (fun _ => False) opened :=
    owns_run reached (fresh before (by simp)) (by rintro j other ⟨⟩)
  rcases run_append_iff.mp ran with ⟨middle, waited, rest⟩
  rcases run_cons_iff.mp rest with ⟨started, taken, served⟩
  have consistent : Consistent middle :=
    consistent_run waited (consistent_step arrived (consistent_run reached consistent_initial))
  have owns : Owns callId (· = opened.tasks.length) middle :=
    owns_run waited (fresh early (by simp)) (owns_listen unused)
  rcases step_start_iff.mp taken with ⟨first, found, -, -⟩
  have same := call_run rest found here
  -- From the start on: the pipe is installed, and nothing is lost.
  have takes : first.takesItems = true := by
    rw [← items, Task.takesItems, Task.takesItems, Task.refused, Task.refused, same.2.1, same.2.2.2]
  have start := serving_start taken consistent owns found (same.1.symm.trans own) takes
  rcases serving_run start served (fresh late (by simp)) (handOn_prefix_append _ _) with
    ⟨last, serving⟩
  cases some.inj (serving.here.symm.trans here)
  have arrivals : clientItems callId (early ++ .start opened.tasks.length :: late) =
      clientItems callId late := by
    rw [clientItems, filterMap_append, ← clientItems, inTime]
    rfl
  have due : first.kind.handOn first.initialChain (allMessages callId late ++ []) =
      (upToEnd (clientItems callId late)).flatMap task.handed ++
        (endOf (clientItems callId late)).flatMap task.handed := by
    rw [append_nil, allMessages_eq, ← same.2.1, ← same.2.2.1, handOn_filterMap]
  have each := forall₂_flatMap_handed task accepted
  rw [arrivals]
  refine ⟨⟨_, each, due ▸ serving.got⟩, fun running listening => ⟨_, each, ?_⟩⟩
  rcases serving.kept with ⟨-, all⟩ | ⟨done, -⟩
  · exact (all listening []).trans due
  · exact absurd running done

/-- A server that sums up the items of a client stream. -/
def sumServer : RpcServer where
  callerActor := "tf:actor:service:example.com/peer"
  check := fun _ _ _ => .allow

def sumHandler : Action :=
  .register "sum" ⟨.clientStream, "sum.call"⟩

def sumCall : SessionFrame :=
  encodeRpc (.rpcCall "c" "sum" .null (some { methodKind := some .clientStreaming }))

def sumItem : StreamItem UInt64 where
  callId := "c"
  seq := 0
  more := true
  value := some (.string "a")
  error := none
  ext := none

def sumOpened : ServerState where
  handlers := [("sum", ⟨.clientStream, "sum.call"⟩)]

def sumTask : Task where
  callId := "c"
  kind := .clientStream
  initialChain := []
  expectedHash := none

def sumArrives : Action :=
  .arrive (encodeRpc (.rpcClientStream sumItem))

/-- The server after the call, after the task has started, and with the item in the pipe. -/
def sumCalled : ServerState :=
  { sumOpened with tasks := [sumTask] }

def sumStarted : ServerState :=
  { sumOpened with tasks := [{ sumTask with phase := .running }], inflight := [("c", 0)] }

def sumServed : ServerState :=
  { sumStarted with
    tasks := [{ sumTask with phase := .running, pipe := [.value (.string "a") none] }] }

theorem listen_sumCall : sumOpened.listen sumServer sumCall = sumCalled := by
  simp [ServerState.listen, sumCall, decodeRpc_encodeRpc, RpcFrame.received, accept,
    sumOpened, sumServer, get?, sumTask, sumCalled]

theorem step_sumArrives (s : ServerState) :
    step sumServer s sumArrives = some (s.route sumItem) := by
  rw [sumArrives, step, ServerState.listen, decodeRpc_encodeRpc]
  rfl

theorem clientItem_sumArrives : clientItem "c" sumArrives = some sumItem := by
  rw [sumArrives, clientItem, clientFrame, decodeRpc_encodeRpc]
  rfl

theorem start_sumTask (s : ServerState) (called : s = sumCalled) :
    step sumServer s (.start 0) = some sumStarted := by
  simp [called, step, start, sumTask, Task.refused, Task.takesItems, sumStarted,
    sumCalled, sumOpened, AssocMap.insert]

theorem run_sumArrives : run sumServer sumStarted [sumArrives] = some sumServed := by
  refine run_cons_iff.mpr ⟨_, step_sumArrives _, ?_⟩
  simp [run, route, sumStarted, sumServed, get?, sumItem, inflightMsg, Task.push, sumTask]

/-- The item arrives after the start. -/
theorem client_items_delivered_sum :
    { sumTask with phase := .running, pipe := [.value (.string "a") none] : Task }.Delivers
      (clientItems "c" ([] ++ .start 0 :: [sumArrives])) := by
  refine (@client_items_delivered sumServer [sumHandler] [] [sumArrives] sumCall "c" sumOpened
    sumServed _ rfl ?_ rfl rfl rfl ?_ rfl ?_).2 rfl rfl
  · rw [listen_sumCall]
    exact run_cons_iff.mpr ⟨_, start_sumTask _ rfl, run_sumArrives⟩
  · intro other member
    have item : other = encodeRpc (.rpcClientStream sumItem) := by
      simpa [sumHandler, sumArrives] using member
    rw [item, opens, decodeRpc_encodeRpc]
    exact some_ne_none _ ∘ Eq.symm
  · rw [clientItems, filterMap_cons, clientItem_sumArrives]
    intro item member
    cases mem_singleton.mp member
    exact ⟨.value (.ok (.string "a")), rfl⟩

/-- In every interleaving a pipe of the map leads to a task of its call id that has run. -/
theorem routed_of_run {server : RpcServer} {actions : List Action} {s : ServerState}
    (ran : run server {} actions = some s) {callId : String} {k : Nat}
    (routed : get? callId s.inflight = some k) :
    ∃ task, s.tasks[k]? = some task ∧ task.callId = callId ∧ task.phase ≠ .spawned :=
  (consistent_run ran consistent_initial).routes callId k routed

theorem routed_of_run_sum :
    ∃ task, sumStarted.tasks[0]? = some task ∧ task.callId = "c" ∧ task.phase ≠ .spawned := by
  refine @routed_of_run sumServer [sumHandler, .arrive sumCall, .start 0] sumStarted ?_ "c" 0 rfl
  exact run_cons_iff.mpr ⟨sumOpened, rfl, run_cons_iff.mpr ⟨_, rfl,
    run_cons_iff.mpr ⟨_, start_sumTask _ listen_sumCall, rfl⟩⟩⟩

/-- An item that arrives before the start is lost, though the handler listens. -/
theorem early_item_lost :
    run sumServer (sumOpened.listen sumServer sumCall) ([sumArrives] ++ .start 0 :: []) =
        some sumStarted ∧
      ¬{ sumTask with phase := .running : Task }.Delivers
        (clientItems "c" ([sumArrives] ++ .start 0 :: [])) := by
  constructor
  · rw [listen_sumCall]
    refine run_cons_iff.mpr ⟨_, step_sumArrives _, ?_⟩
    exact run_cons_iff.mpr ⟨_, start_sumTask _ rfl, rfl⟩
  · rintro ⟨got, each, outcome⟩
    have items : clientItems "c" ([sumArrives] ++ .start 0 :: []) = [sumItem] := by
      rw [clientItems, singleton_append, filterMap_cons, clientItem_sumArrives]
      rfl
    rw [items] at each outcome
    cases each with
    | cons one rest => cases outcome

end TrustForge.Rpc
