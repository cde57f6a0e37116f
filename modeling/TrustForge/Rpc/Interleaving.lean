import TrustForge.Rpc.Server

/-!
# Interleavings of the server's tasks

What each action does to one task and to the map of the pipes, and what whole interleavings
keep: a pipe in the map belongs to a task of its call that has run, a task that has not run is
as the listener has made it, and a task serves one call.
-/

namespace TrustForge.Rpc

open AssocMap ServerState Option List
open Session (SessionFrame)

/-! ## What a step does -/

/-- The client-stream frame that arrives, if it is one. -/
def clientFrame (frame : SessionFrame) : Option (StreamItem UInt64) :=
  match decodeRpc frame with
  | some (.rpcClientStream item) => some item
  | _ => none

/-- What the listener pushes into the pipe of a task. -/
def ServerState.pushed (s : ServerState) (k : Nat) (frame : SessionFrame) : Option InflightMsg :=
  (clientFrame frame).bind fun item =>
    if get? item.callId s.inflight = some k then inflightMsg item else none

/-- A task after an action. -/
def ServerState.taskAfter (s : ServerState) (k : Nat) (task : Task) : Action → Task
  | .register _ _ => task
  | .arrive frame => (s.pushed k frame).elim task task.push
  | .start j =>
    if j = k then { task with phase := if task.refused then .finished else .running } else task
  | .pump j =>
    if j = k then
      match task.pipe with
      | msg :: rest => task.pumped msg rest
      | [] => task
    else task
  | .deafen j => if j = k then { task with listening := false } else task
  | .finish j => if j = k then { task with phase := .finished } else task

variable {task : Task}

theorem taskAfter_pump (s : ServerState) (k : Nat) {msg : InflightMsg} {rest : List InflightMsg}
    (pipe : task.pipe = msg :: rest) : s.taskAfter k task (.pump k) = task.pumped msg rest := by
  rw [taskAfter, if_pos rfl, pipe]

theorem getElem?_modify {tasks : List Task} {k : Nat} (here : tasks[k]? = some task) (j : Nat)
    (f : Task → Task) : (tasks.modify j f)[k]? = some (if j = k then f task else task) := by
  rw [List.getElem?_modify, here]
  rfl

section

variable {server : RpcServer} {s t : ServerState} {action : Action} {k : Nat} {task : Task}

theorem step_start_iff : step server s (.start k) = some t ↔
    ∃ task, s.tasks[k]? = some task ∧ task.phase = .spawned ∧ s.start k task = t := by
  simp [step, bind_eq_some_iff]

theorem step_pump_iff : step server s (.pump k) = some t ↔
    ∃ task msg rest, s.tasks[k]? = some task ∧ task.phase ≠ .spawned ∧ task.pumping = true ∧
      task.pipe = msg :: rest ∧ s.pump k task msg rest = t := by
  constructor
  · intro taken
    rcases bind_eq_some_iff.mp taken with ⟨task, here, taken⟩
    rcases ite_none_right_eq_some.mp taken with ⟨⟨started, pumping⟩, taken⟩
    cases pipe : task.pipe with
    | nil =>
      rw [pipe] at taken
      cases taken
    | cons msg rest =>
      rw [pipe] at taken
      exact ⟨task, msg, rest, here, started, pumping, pipe, some.inj taken⟩
  · rintro ⟨task, msg, rest, here, started, pumping, pipe, rfl⟩
    simp [step, here, started, pumping, pipe]

theorem step_deafen_iff : step server s (.deafen k) = some t ↔
    ∃ task, s.tasks[k]? = some task ∧ task.phase ≠ .spawned ∧
      { s with tasks := s.tasks.modify k ({ · with listening := false }) } = t := by
  simp [step, bind_eq_some_iff]

theorem step_finish_iff : step server s (.finish k) = some t ↔
    ∃ task, s.tasks[k]? = some task ∧ task.phase = .running ∧ s.finish k task = t := by
  simp [step, bind_eq_some_iff]

theorem listen_task (here : s.tasks[k]? = some task) (frame : SessionFrame) :
    (s.listen server frame).tasks[k]? = some ((s.pushed k frame).elim task task.push) := by
  cases decoded : decodeRpc frame with
  | none => simpa [ServerState.listen, pushed, clientFrame, decoded] using here
  | some rpc =>
    cases rpc with
    | rpcResponse | rpcStream =>
      simpa [ServerState.listen, pushed, clientFrame, decoded] using here
    | rpcCall callId method request ext =>
      simp only [ServerState.listen, pushed, clientFrame, decoded, accept]
      split
      · exact here
      · split
        · exact here
        · exact List.getElem?_append_left (List.getElem?_eq_some_iff.mp here).1 ▸ here
    | rpcClientStream item =>
      simp only [ServerState.listen, pushed, clientFrame, decoded, route, bind_some]
      cases routed : get? item.callId s.inflight with
      | none => simpa using here
      | some j =>
        cases read : inflightMsg item with
        | none => simpa using here
        | some msg =>
          simp only [getElem?_modify here]
          by_cases own : j = k
          · simp [own]
          · simp [own]

theorem step_task (taken : step server s action = some t) (here : s.tasks[k]? = some task) :
    t.tasks[k]? = some (s.taskAfter k task action) := by
  cases action with
  | register method handler =>
    cases taken
    exact here
  | arrive frame =>
    cases taken
    exact listen_task here frame
  | start j =>
    rcases step_start_iff.mp taken with ⟨started, found, -, rfl⟩
    by_cases own : j = k
    · subst own
      cases some.inj (found.symm.trans here)
      by_cases refused : task.refused = true
      · simp [start, send, taskAfter, refused, getElem?_modify here]
      · simp [start, taskAfter, refused, getElem?_modify here]
    · by_cases refused : started.refused = true
      · simp [start, send, taskAfter, refused, getElem?_modify here, own]
      · simp [start, taskAfter, refused, getElem?_modify here, own]
  | pump j =>
    rcases step_pump_iff.mp taken with ⟨pumped, msg, rest, found, -, -, pipe, rfl⟩
    by_cases own : j = k
    · subst own
      cases some.inj (found.symm.trans here)
      simp [pump, taskAfter, getElem?_modify here, pipe]
    · simp [pump, taskAfter, getElem?_modify here, own]
  | deafen j =>
    rcases step_deafen_iff.mp taken with ⟨_, -, -, rfl⟩
    simp [taskAfter, getElem?_modify here]
  | finish j =>
    rcases step_finish_iff.mp taken with ⟨_, -, -, rfl⟩
    simp [finish, taskAfter, getElem?_modify here]

theorem listen_inflight (server : RpcServer) (s : ServerState) (frame : SessionFrame) :
    (s.listen server frame).inflight = s.inflight := by
  unfold ServerState.listen
  split
  · unfold route
    split <;> rfl
  · unfold accept
    split
    · rfl
    · split <;> rfl
  · rfl

/-- The map changes under the call id of the task that acts. -/
theorem step_inflight (taken : step server s action = some t) (callId : String) :
    get? callId t.inflight = get? callId s.inflight ∨
      ∃ k task, s.tasks[k]? = some task ∧ task.callId = callId ∧
        (action = .start k ∧ get? callId t.inflight = some k ∨
          get? callId t.inflight = none ∧ (action = .finish k ∨
            action = .pump k ∧ ∃ msg rest, task.pipe = msg :: rest ∧ msg.stops = true)) := by
  cases action with
  | register method handler =>
    cases taken
    exact .inl rfl
  | arrive frame =>
    cases taken
    exact .inl (congrArg _ (listen_inflight server s frame))
  | start k =>
    rcases step_start_iff.mp taken with ⟨task, here, -, rfl⟩
    unfold start
    split
    · exact .inl rfl
    · by_cases items : task.takesItems = true
      · simp only [items, ↓reduceIte, get?_insert]
        by_cases own : task.callId = callId
        · exact .inr ⟨k, task, here, own, .inl ⟨rfl, if_pos own⟩⟩
        · exact .inl (if_neg own)
      · exact .inl (by simp [items])
  | pump k =>
    rcases step_pump_iff.mp taken with ⟨task, msg, rest, here, -, -, pipe, rfl⟩
    unfold pump
    by_cases last : task.kind = .httpBridge ∧ msg.stops = true
    · simp only [last, and_self, ↓reduceIte, get?_erase]
      by_cases own : task.callId = callId
      · exact .inr ⟨k, task, here, own,
          .inr ⟨if_pos own, .inr ⟨rfl, msg, rest, pipe, last.2⟩⟩⟩
      · exact .inl (if_neg own)
    · exact .inl (by simp [last])
  | deafen k =>
    rcases step_deafen_iff.mp taken with ⟨task, -, -, rfl⟩
    exact .inl rfl
  | finish k =>
    rcases step_finish_iff.mp taken with ⟨task, here, -, rfl⟩
    unfold finish
    by_cases items : task.takesItems = true
    · simp only [items, ↓reduceIte, get?_erase]
      by_cases own : task.callId = callId
      · exact .inr ⟨k, task, here, own, .inr ⟨if_pos own, .inl rfl⟩⟩
      · exact .inl (if_neg own)
    · exact .inl (by simp [items])

/-- The call that a frame opens. -/
def opens (frame : SessionFrame) : Option String :=
  match decodeRpc frame with
  | some (.rpcCall callId _ _ _) => some callId
  | _ => none

/-- A task that has not run yet is as the listener has made it. -/
structure Task.Unstarted (task : Task) : Prop where
  phase : task.phase = .spawned
  listening : task.listening = true
  pumping : task.pumping = true
  pipe : task.pipe = []
  delivered : task.delivered = []

theorem listen_new {frame : SessionFrame} (absent : s.tasks[k]? = none)
    (here : (s.listen server frame).tasks[k]? = some task) :
    task.Unstarted ∧ opens frame = some task.callId := by
  cases decoded : decodeRpc frame with
  | none => simp [ServerState.listen, decoded, absent] at here
  | some rpc =>
    cases rpc with
    | rpcResponse | rpcStream => simp [ServerState.listen, decoded, absent] at here
    | rpcClientStream item =>
      simp only [ServerState.listen, decoded, route] at here
      split at here
      · simp [List.getElem?_modify, absent] at here
      · simp [absent] at here
    | rpcCall callId method request ext =>
      simp only [ServerState.listen, decoded, accept] at here
      split at here
      · simp [send, absent] at here
      · split at here
        · simp [send, absent] at here
        · rw [List.getElem?_append_right (List.getElem?_eq_none_iff.mp absent)] at here
          have last := mem_singleton.mp (mem_of_getElem? here)
          subst last
          exact ⟨⟨rfl, rfl, rfl, rfl, rfl⟩, by rw [opens, decoded]⟩

/-- New tasks come from calls that arrive. -/
theorem step_new (taken : step server s action = some t) (absent : s.tasks[k]? = none)
    (here : t.tasks[k]? = some task) :
    task.Unstarted ∧ ∃ frame, action = .arrive frame ∧ opens frame = some task.callId := by
  have modified (j : Nat) (f : Task → Task) : ¬(s.tasks.modify j f)[k]? = some task := by
    simp [List.getElem?_modify, absent]
  cases action with
  | register method handler =>
    cases taken
    exact absurd (here.symm.trans absent) (some_ne_none task)
  | arrive frame =>
    cases taken
    refine (listen_new absent here).imp id fun opened => ⟨frame, rfl, opened⟩
  | start j =>
    rcases step_start_iff.mp taken with ⟨_, -, -, rfl⟩
    unfold start at here
    split at here
    · exact absurd here (modified _ _)
    · exact absurd here (modified _ _)
  | pump j =>
    rcases step_pump_iff.mp taken with ⟨_, _, _, -, -, -, -, rfl⟩
    exact absurd here (modified _ _)
  | deafen j =>
    rcases step_deafen_iff.mp taken with ⟨_, -, -, rfl⟩
    exact absurd here (modified _ _)
  | finish j =>
    rcases step_finish_iff.mp taken with ⟨_, -, -, rfl⟩
    exact absurd here (modified _ _)

/-- A task of the next state is a new one or comes from one of this state. -/
theorem step_task_cases (taken : step server s action = some t) (here : t.tasks[k]? = some task) :
    (∃ before, s.tasks[k]? = some before ∧ task = s.taskAfter k before action) ∨
      s.tasks[k]? = none ∧ task.Unstarted ∧
        ∃ frame, action = .arrive frame ∧ opens frame = some task.callId := by
  cases found : s.tasks[k]? with
  | none => exact .inr ⟨rfl, step_new taken found here⟩
  | some before =>
    have after := step_task taken found
    exact .inl ⟨before, rfl, some.inj (here.symm.trans after)⟩

end

/-! ## Invariants -/

/-- What an action makes of one task. -/
inductive Change (s : ServerState) (k : Nat) (task : Task) : Action → Task → Prop where
  | nothing {action : Action} (silent : ∀ frame, action ≠ .arrive frame) :
      Change s k task action task
  | arrived (frame : SessionFrame) :
      Change s k task (.arrive frame) ((s.pushed k frame).elim task task.push)
  | started {phase : Phase} (runs : phase ≠ .spawned) :
      Change s k task (.start k) { task with phase }
  | pumped {msg : InflightMsg} {rest : List InflightMsg} (pipe : task.pipe = msg :: rest) :
      Change s k task (.pump k) (task.pumped msg rest)
  | deafened : Change s k task (.deafen k) { task with listening := false }
  | finished : Change s k task (.finish k) { task with phase := .finished }

theorem change_taskAfter (s : ServerState) (k : Nat) (task : Task) (action : Action) :
    Change s k task action (s.taskAfter k task action) := by
  unfold taskAfter
  split
  · exact .nothing nofun
  · exact .arrived _
  · split
    · next own =>
      rw [own]
      cases task.refused <;> exact .started (by decide)
    · exact .nothing nofun
  · split
    · next own =>
      rw [own]
      split
      · next pipe => exact .pumped pipe
      · exact .nothing nofun
    · exact .nothing nofun
  · split
    · next own => exact own ▸ .deafened
    · exact .nothing nofun
  · split
    · next own => exact own ▸ .finished
    · exact .nothing nofun

namespace Change

variable {s : ServerState} {k : Nat} {task after : Task} {action : Action}

section

variable (change : Change s k task action after)

include change

/-- An action does not change what a task is for. -/
theorem call : after.callId = task.callId ∧
    after.kind = task.kind ∧ after.initialChain = task.initialChain ∧
    after.expectedHash = task.expectedHash := by
  cases change with
  | arrived frame => cases s.pushed k frame <;> exact ⟨rfl, rfl, rfl, rfl⟩
  | nothing | started | pumped | deafened | finished => exact ⟨rfl, rfl, rfl, rfl⟩

/-- Only `start` and `finish` change the phase. -/
theorem phase : after.phase = task.phase ∨
    action = .start k ∧ after.phase ≠ .spawned ∨ action = .finish k ∧ after.phase = .finished := by
  cases change with
  | arrived frame => cases s.pushed k frame <;> exact .inl rfl
  | nothing | pumped | deafened => exact .inl rfl
  | started runs => exact .inr (.inl ⟨rfl, runs⟩)
  | finished => exact .inr (.inr ⟨rfl, rfl⟩)

theorem runs (started : task.phase ≠ .spawned) :
    after.phase ≠ .spawned := by
  rcases change.phase with same | ⟨-, run⟩ | ⟨-, done⟩
  · rwa [same]
  · exact run
  · rw [done]
    decide

end

end Change

/-- A pipe of the map belongs to a task of its call id that has run; a task that has not run
is new. -/
structure Consistent (s : ServerState) : Prop where
  routes : ∀ callId k, get? callId s.inflight = some k →
    ∃ task, s.tasks[k]? = some task ∧ task.callId = callId ∧ task.phase ≠ .spawned
  fresh : ∀ (k : Nat) (task : Task),
    s.tasks[k]? = some task → task.phase = .spawned → task.Unstarted

section

variable {server : RpcServer} {s t : ServerState} {action : Action} {actions : List Action}

/-- Nothing is pushed for a task that has not run. -/
theorem pushed_of_spawned {k : Nat} (consistent : Consistent s) (here : s.tasks[k]? = some task)
    (spawned : task.phase = .spawned) (frame : SessionFrame) : s.pushed k frame = none := by
  unfold pushed
  cases clientFrame frame with
  | none => rfl
  | some item =>
    refine if_neg fun routed => ?_
    rcases consistent.routes _ k routed with ⟨other, found, -, started⟩
    cases some.inj (found.symm.trans here)
    exact started spawned

section

variable (taken : step server s action = some t)

include taken

/-- A task that does anything but start has run. -/
theorem phase_of_acts {k : Nat} (here : s.tasks[k]? = some task)
    (acts : action = .pump k ∨ action = .deafen k ∨ action = .finish k) :
    task.phase ≠ .spawned := by
  rcases acts with rfl | rfl | rfl
  · rcases step_pump_iff.mp taken with ⟨other, _, _, found, started, -⟩
    cases some.inj (found.symm.trans here)
    exact started
  · rcases step_deafen_iff.mp taken with ⟨other, found, started, -⟩
    cases some.inj (found.symm.trans here)
    exact started
  · rcases step_finish_iff.mp taken with ⟨other, found, running, -⟩
    cases some.inj (found.symm.trans here)
    rw [running]
    decide

/-- Only `start` touches a task that has not run. -/
theorem taskAfter_of_spawned {k : Nat}
    (consistent : Consistent s) (here : s.tasks[k]? = some task) (spawned : task.phase = .spawned) :
    s.taskAfter k task action = task ∨ action = .start k := by
  have idle := mt (phase_of_acts taken here) (not_not_intro spawned)
  have change := change_taskAfter s k task action
  generalize s.taskAfter k task action = after at change ⊢
  cases change with
  | nothing => exact .inl rfl
  | arrived frame =>
    rw [pushed_of_spawned consistent here spawned]
    exact .inl rfl
  | started => exact .inr rfl
  | pumped | deafened | finished => simp at idle

theorem consistent_step (consistent : Consistent s) :
    Consistent t where
  routes := by
    intro callId k routed
    rcases step_inflight taken callId with same | ⟨j, task, here, own, change⟩
    · rcases consistent.routes callId k (same.symm.trans routed) with ⟨task, here, own, started⟩
      refine ⟨_, step_task taken here, ?_, (change_taskAfter s k task action).runs started⟩
      rw [(change_taskAfter s k task action).call.1, own]
    · rcases change with ⟨rfl, now⟩ | ⟨gone, -⟩
      · cases some.inj (now.symm.trans routed)
        refine ⟨_, step_task taken here, ?_, ?_⟩
        · rw [(change_taskAfter s k task _).call.1, own]
        · rw [taskAfter, if_pos rfl]
          cases task.refused <;> simp
      · exact absurd (routed.symm.trans gone) (some_ne_none k)
  fresh := by
    intro k task here spawned
    rcases step_task_cases taken here with ⟨before, found, rfl⟩ | ⟨-, new, -⟩
    · have spawnedBefore : before.phase = .spawned := by
        by_contra started
        exact (change_taskAfter s k before action).runs started spawned
      rcases taskAfter_of_spawned taken consistent found spawnedBefore with same | rfl
      · rw [same]
        exact consistent.fresh k before found spawnedBefore
      · rw [taskAfter, if_pos rfl] at spawned
        cases refused : before.refused <;> simp [refused] at spawned
    · exact new

end

theorem run_cons_iff : run server s (action :: actions) = some t ↔
    ∃ next, step server s action = some next ∧ run server next actions = some t :=
  bind_eq_some_iff

theorem run_append_iff {first second : List Action} :
    run server s (first ++ second) = some t ↔
      ∃ middle, run server s first = some middle ∧ run server middle second = some t := by
  induction first generalizing s with
  | nil => simp [run]
  | cons action first ih =>
    rw [cons_append, run_cons_iff]
    constructor
    · rintro ⟨next, taken, rest⟩
      rcases ih.mp rest with ⟨middle, before, after⟩
      exact ⟨middle, run_cons_iff.mpr ⟨next, taken, before⟩, after⟩
    · rintro ⟨middle, before, after⟩
      rcases run_cons_iff.mp before with ⟨next, taken, rest⟩
      exact ⟨next, taken, ih.mpr ⟨middle, rest, after⟩⟩

/-- What every step keeps, every interleaving keeps. -/
theorem run_keeps {I : ServerState → Prop}
    (keep : ∀ s t, ∀ action ∈ actions, step server s action = some t → I s → I t)
    (ran : run server s actions = some t) (start : I s) : I t := by
  induction actions generalizing s with
  | nil =>
    cases ran
    exact start
  | cons action actions ih =>
    rcases run_cons_iff.mp ran with ⟨next, taken, rest⟩
    exact ih (fun s t a member => keep s t a (mem_cons_of_mem _ member)) rest
      (keep s next action mem_cons_self taken start)

theorem consistent_run (ran : run server s actions = some t) (consistent : Consistent s) :
    Consistent t :=
  run_keeps (fun _ _ _ _ => consistent_step) ran consistent

theorem consistent_initial : Consistent {} where
  routes := by
    intro callId k routed
    cases routed
  fresh := by
    intro k task here
    cases here

/-- The tasks of the call id are among those that are named. -/
def Owns (callId : String) (named : Nat → Prop) (s : ServerState) : Prop :=
  ∀ (j : Nat) (task : Task), s.tasks[j]? = some task → task.callId = callId → named j

theorem owns_step {callId : String} {named : Nat → Prop} (taken : step server s action = some t)
    (fresh : ∀ frame, action = .arrive frame → opens frame ≠ some callId)
    (owns : Owns callId named s) : Owns callId named t := by
  intro j task here own
  rcases step_task_cases taken here with ⟨before, found, rfl⟩ | ⟨-, -, frame, arrives, opened⟩
  · rw [(change_taskAfter s j before action).call.1] at own
    exact owns j before found own
  · rw [own] at opened
    exact absurd opened (fresh frame arrives)

theorem owns_run {callId : String} {named : Nat → Prop} (ran : run server s actions = some t)
    (fresh : ∀ frame, .arrive frame ∈ actions → opens frame ≠ some callId)
    (owns : Owns callId named s) : Owns callId named t := by
  refine run_keeps (fun s t action member taken => owns_step taken ?_) ran owns
  rintro frame rfl
  exact fresh frame member

theorem length_listen_le (server : RpcServer) (s : ServerState) (frame : SessionFrame) :
    (s.listen server frame).tasks.length ≤ s.tasks.length + 1 := by
  unfold ServerState.listen
  split
  · unfold route
    split <;> simp
  · unfold accept
    split
    · exact Nat.le_succ _
    · split
      · exact Nat.le_succ _
      · simp
  · exact Nat.le_succ _

/-- A call that arrives under a new id gets the next task, if it gets one. -/
theorem owns_listen {callId : String} {frame : SessionFrame}
    (none : Owns callId (fun _ => False) s) :
    Owns callId (· = s.tasks.length) (s.listen server frame) := by
  intro j task here own
  have taken : step server s (.arrive frame) = some (s.listen server frame) := rfl
  rcases step_task_cases taken here with ⟨before, found, rfl⟩ | ⟨absent, -⟩
  · rw [(change_taskAfter s j before _).call.1] at own
    exact (none j before found own).elim
  · have least := List.getElem?_eq_none_iff.mp absent
    have most := (List.getElem?_eq_some_iff.mp here).1
    have length := length_listen_le server s frame
    omega

/-- A task is for the same call throughout. -/
theorem call_run {k : Nat} {task last : Task} (ran : run server s actions = some t)
    (here : s.tasks[k]? = some task) (later : t.tasks[k]? = some last) :
    last.callId = task.callId ∧ last.kind = task.kind ∧ last.initialChain = task.initialChain ∧
      last.expectedHash = task.expectedHash := by
  have kept := run_keeps (I := fun s => ∃ found, s.tasks[k]? = some found ∧
      found.callId = task.callId ∧ found.kind = task.kind ∧
      found.initialChain = task.initialChain ∧ found.expectedHash = task.expectedHash)
    (by
      rintro s t action - taken ⟨found, here, callId, kind, chain, hash⟩
      have same := (change_taskAfter s k found action).call
      exact ⟨_, step_task taken here, same.1.trans callId, same.2.1.trans kind,
        same.2.2.1.trans chain, same.2.2.2.trans hash⟩)
    ran ⟨task, here, rfl, rfl, rfl, rfl⟩
  rcases kept with ⟨found, there, same⟩
  cases some.inj (there.symm.trans later)
  exact same

end

end TrustForge.Rpc
