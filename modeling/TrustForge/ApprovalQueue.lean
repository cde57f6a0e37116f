import Mathlib.Data.List.Nodup
import TrustForge.Foundation.AssocMap

/-!
# The approval queue

The queue of `approval.rs`.  A push leaves a record under the id of its request and waits;
`respond`, `drain_deny` and timers take records out and decide the pushes behind them.  A timer
belongs to a push, but takes whatever record it finds under the id; a record that is
overwritten drops its sender.
-/

namespace TrustForge.ApprovalQueue

open Option hiding map_map
open AssocMap List

inductive ApprovalDecision where
  | approve
  | deny

structure ApprovalResult where
  decision : ApprovalDecision
  note : Option String

inductive ApprovalError where
  | queueFull (pending : Nat)
  | channelClosed

/-- How a push that waits ends. -/
abbrev Outcome :=
  Except ApprovalError ApprovalResult

/-- The task with the timeout of a push.  It can be aborted while it sleeps. -/
inductive Timer where
  | sleeping
  | awake
  | done
  | aborted
  deriving DecidableEq

def Timer.abort : Timer → Timer
  | .sleeping => .aborted
  | timer => timer

section

variable {ρ : Type}

/-- A push that the queue has taken. -/
structure Push (ρ : Type) where
  request : ρ
  timer : Timer

/-- `ApprovalQueue`.  Pushes are known by their number; a record holds the sender and the timer of
its push. -/
structure State (ρ : Type) where
  pushes : List (Push ρ) := []
  pending : List (String × Nat) := []
  /-- What the waiting pushes have returned, in order. -/
  outcomes : List (Nat × Outcome) := []
  /-- The calls of `on_resolve`. -/
  resolved : List (ρ × ApprovalResult) := []

namespace State

variable (s : State ρ)

/-- The timers of some pushes are aborted. -/
def abortTimers (pushes : List Nat) : List (Push ρ) :=
  s.pushes.mapIdx fun p push =>
    if p ∈ pushes then { push with timer := push.timer.abort } else push

def setTimer (p : Nat) (timer : Timer) : List (Push ρ) :=
  s.pushes.mapIdx fun q push => if q = p then { push with timer } else push

/-- The requests of some pushes, as `on_resolve` gets them. -/
def requests (pushes : List Nat) : List ρ :=
  (pushes.filterMap (s.pushes[·]?)).map Push.request

/-- `ApprovalQueue::push` up to the point where it waits.  The record that was under the id is
overwritten: its sender is dropped, and its timer goes on. -/
def push (id : ρ → String) (maxPending : Nat) (request : ρ) : Except ApprovalError (State ρ) :=
  if maxPending ≤ s.pending.length then .error (.queueFull s.pending.length)
  else .ok { s with
    pushes := s.pushes ++ [⟨request, .sleeping⟩]
    pending := insert (id request) s.pushes.length s.pending
    outcomes := s.outcomes ++
      (get? (id request) s.pending).toList.map (·, .error .channelClosed) }

def respond (requestId : String) (decision : ApprovalDecision) (note : Option String) :
    Bool × State ρ :=
  match get? requestId s.pending with
  | none => (false, s)
  | some p =>
    (true, { s with
      pushes := s.abortTimers [p]
      pending := erase requestId s.pending
      outcomes := s.outcomes ++ [(p, .ok ⟨decision, note⟩)]
      resolved := s.resolved ++ (s.requests [p]).map (·, ⟨decision, note⟩) })

def drainDeny (reason : String) : State ρ :=
  let drained := s.pending.map Prod.snd
  { s with
    pushes := s.abortTimers drained
    pending := []
    outcomes := s.outcomes ++ drained.map (·, .ok ⟨.deny, some reason⟩)
    resolved := s.resolved ++ (s.requests drained).map (·, ⟨.deny, some reason⟩) }

end State

def timedOut : ApprovalResult where
  decision := .deny
  note := some "timeout"

/-- The timer of a push after its sleep: it takes the record under the id of its own request,
whoever's it is. -/
def State.fire (s : State ρ) (id : ρ → String) (p : Nat) (request : ρ) : State ρ :=
  let taken := (get? (id request) s.pending).toList
  { s with
    pushes := s.setTimer p .done
    pending := erase (id request) s.pending
    outcomes := s.outcomes ++ taken.map (·, .ok timedOut)
    resolved := s.resolved ++ taken.map fun _ => (request, timedOut) }

inductive Action (ρ : Type) where
  | push (request : ρ)
  /-- The sleep of a timer is over, and the task runs on; it cannot be aborted any more. -/
  | wake (p : Nat)
  /-- The task of a timer takes the lock. -/
  | fire (p : Nat)
  | respond (requestId : String) (decision : ApprovalDecision) (note : Option String)
  | drainDeny (reason : String)

variable (id : ρ → String) (maxPending : Nat)

/-- One action, if it can happen.  A push that finds the queue full returns at once. -/
def step (s : State ρ) : Action ρ → Option (State ρ)
  | .push request => some ((s.push id maxPending request).toOption.getD s)
  | .wake p => do
    let push ← s.pushes[p]?
    if push.timer = .sleeping then some { s with pushes := s.setTimer p .awake } else none
  | .fire p => do
    let push ← s.pushes[p]?
    if push.timer = .awake then some (s.fire id p push.request) else none
  | .respond requestId decision note => some (s.respond requestId decision note).2
  | .drainDeny reason => some (s.drainDeny reason)

def run : State ρ → List (Action ρ) → Option (State ρ)
  | s, [] => some s
  | s, action :: actions => do
    let t ← step id maxPending s action
    run t actions

/-! ## What a step does -/

/-- The pushes that an action takes out of the map. -/
def State.taken (s : State ρ) : Action ρ → List Nat
  | .push request =>
    if maxPending ≤ s.pending.length then [] else (get? (id request) s.pending).toList
  | .wake _ => []
  | .fire p => (s.pushes[p]?.bind fun push => get? (id push.request) s.pending).toList
  | .respond requestId _ _ => (get? requestId s.pending).toList
  | .drainDeny _ => s.pending.map Prod.snd

/-- What they get. -/
def Action.outcome : Action ρ → Outcome
  | .push _ => .error .channelClosed
  | .wake _ => .error .channelClosed
  | .fire _ => .ok timedOut
  | .respond _ decision note => .ok ⟨decision, note⟩
  | .drainDeny reason => .ok ⟨.deny, some reason⟩

variable {id : ρ → String} {maxPending : Nat} {s t : State ρ} {action : Action ρ}

variable {p : Nat}

theorem step_wake_iff : step id maxPending s (.wake p) = some t ↔
    ∃ push, s.pushes[p]? = some push ∧ push.timer = .sleeping ∧
      { s with pushes := s.setTimer p .awake } = t := by
  simp [step, bind_eq_some_iff]

theorem step_fire_iff : step id maxPending s (.fire p) = some t ↔
    ∃ push, s.pushes[p]? = some push ∧ push.timer = .awake ∧ s.fire id p push.request = t := by
  simp [step, bind_eq_some_iff]

theorem step_push (request : ρ) :
    step id maxPending s (.push request) = some t ↔
      maxPending ≤ s.pending.length ∧ s = t ∨
      s.pending.length < maxPending ∧ { s with
        pushes := s.pushes ++ [⟨request, .sleeping⟩]
        pending := insert (id request) s.pushes.length s.pending
        outcomes := s.outcomes ++
          (get? (id request) s.pending).toList.map (·, .error .channelClosed) } = t := by
  unfold step State.push
  by_cases full : maxPending ≤ s.pending.length
  · simp [full, Except.toOption, Nat.not_lt.mpr full]
  · simp [full, Except.toOption, Nat.lt_of_not_le full]

/-- A push that is taken out was pending. -/
theorem pending_of_mem_taken (distinct : (keys s.pending).Nodup)
    (member : p ∈ s.taken id maxPending action) : ∃ key, get? key s.pending = some p := by
  cases action with
  | push request =>
    rw [State.taken] at member
    split at member
    · cases member
    · exact ⟨_, mem_toList.mp member⟩
  | wake q => cases member
  | fire q =>
    rcases bind_eq_some_iff.mp (mem_toList.mp member) with ⟨push, -, found⟩
    exact ⟨_, found⟩
  | respond requestId decision note => exact ⟨requestId, mem_toList.mp member⟩
  | drainDeny reason =>
    rcases mem_map.mp member with ⟨⟨key, q⟩, listed, rfl⟩
    exact ⟨key, (get?_eq_some_iff_of_nodup _ distinct key q).mpr listed⟩

/-- The records that stay after one key is taken out. -/
theorem get?_erase_of_apart {pending : List (String × Nat)} {gone key : String}
    (apart : ∀ other q, get? key pending = some q → get? other pending = some q → key = other)
    (found : get? key (erase gone pending) = some p) :
    get? key pending = some p ∧ p ∉ (get? gone pending).toList := by
  rw [get?_erase] at found
  by_cases same : gone = key
  · rw [if_pos same] at found
    cases found
  · rw [if_neg same] at found
    refine ⟨found, fun member => same ?_⟩
    exact (apart gone p found (mem_toList.mp member)).symm

theorem map_request_mapIdx {f : Nat → Push ρ → Push ρ}
    (keeps : ∀ i push, (f i push).request = push.request) (pushes : List (Push ρ)) :
    (pushes.mapIdx f).map Push.request = pushes.map Push.request := by
  refine List.ext_getElem? fun i => ?_
  simp [List.getElem?_map, getElem?_mapIdx, Option.map_map, Function.comp_def, keeps]

theorem map_request_setTimer (p : Nat) (timer : Timer) :
    (s.setTimer p timer).map Push.request = s.pushes.map Push.request :=
  map_request_mapIdx (by intros; split <;> rfl) _

theorem map_request_abortTimers (pushes : List Nat) :
    (s.abortTimers pushes).map Push.request = s.pushes.map Push.request :=
  map_request_mapIdx (by intros; split <;> rfl) _

section

variable (stepped : step id maxPending s action = some t)

include stepped

/-- The pushes that are taken out get their outcome; no other push does. -/
theorem step_outcomes :
    t.outcomes = s.outcomes ++ (s.taken id maxPending action).map (·, action.outcome) := by
  cases action with
  | push request =>
    rcases (step_push request).mp stepped with ⟨full, rfl⟩ | ⟨room, rfl⟩
    · simp [State.taken, full]
    · simp [State.taken, Nat.not_le.mpr room, Action.outcome]
  | wake p =>
    rcases step_wake_iff.mp stepped with ⟨push, -, -, rfl⟩
    simp [State.taken]
  | fire p =>
    rcases step_fire_iff.mp stepped with ⟨push, found, -, rfl⟩
    simp [State.fire, State.taken, found, Action.outcome]
  | respond requestId decision note =>
    cases stepped
    cases found : get? requestId s.pending <;>
      simp [State.respond, State.taken, found, Action.outcome]
  | drainDeny reason =>
    cases stepped
    rfl

/-- A record after a step is that of the new push, or was there before and its push is not taken
out. -/
theorem step_pending {key : String}
    (apart : ∀ other q, get? key s.pending = some q → get? other s.pending = some q → key = other)
    (found : get? key t.pending = some p) :
    get? key s.pending = some p ∧ p ∉ s.taken id maxPending action ∨
      p = s.pushes.length ∧ ∃ request, action = .push request ∧ id request = key ∧
        s.pending.length < maxPending := by
  cases action with
  | push request =>
    rcases (step_push request).mp stepped with ⟨full, rfl⟩ | ⟨room, rfl⟩
    · exact .inl ⟨found, by simp [State.taken, full]⟩
    · rw [get?_insert] at found
      by_cases own : id request = key
      · rw [if_pos own, some.injEq] at found
        exact .inr ⟨found.symm, request, rfl, own, room⟩
      · rw [if_neg own] at found
        refine .inl ⟨found, ?_⟩
        rw [State.taken, if_neg (Nat.not_le.mpr room)]
        exact fun member => own (apart _ p found (mem_toList.mp member)).symm
  | wake q =>
    rcases step_wake_iff.mp stepped with ⟨push, -, -, rfl⟩
    exact .inl ⟨found, not_mem_nil⟩
  | fire q =>
    rcases step_fire_iff.mp stepped with ⟨push, here, -, rfl⟩
    rw [State.taken, here, bind_some]
    exact .inl (get?_erase_of_apart apart found)
  | respond requestId decision note =>
    cases stepped
    cases present : get? requestId s.pending with
    | none =>
      rw [State.respond, present] at found
      exact .inl ⟨found, by simp [State.taken, present]⟩
    | some q =>
      rw [State.respond, present] at found
      exact .inl (get?_erase_of_apart apart found)
  | drainDeny reason =>
    cases stepped
    cases found

/-- A push keeps its number and its request. -/
theorem requests_step :
    ∃ new, t.pushes.map Push.request = s.pushes.map Push.request ++ new := by
  cases action with
  | push request =>
    rcases (step_push request).mp stepped with ⟨-, rfl⟩ | ⟨-, rfl⟩
    · exact ⟨[], (append_nil _).symm⟩
    · exact ⟨_, map_append⟩
  | wake q =>
    rcases step_wake_iff.mp stepped with ⟨_, -, -, rfl⟩
    exact ⟨[], by rw [map_request_setTimer, append_nil]⟩
  | fire q =>
    rcases step_fire_iff.mp stepped with ⟨_, -, -, rfl⟩
    exact ⟨[], by rw [State.fire, map_request_setTimer, append_nil]⟩
  | respond requestId decision note =>
    cases stepped
    refine ⟨[], ?_⟩
    rw [State.respond, append_nil]
    split
    · rfl
    · exact map_request_abortTimers _
  | drainDeny reason =>
    cases stepped
    exact ⟨[], by rw [State.drainDeny, map_request_abortTimers, append_nil]⟩

theorem step_length :
    s.pushes.length ≤ t.pushes.length := by
  rcases requests_step stepped with ⟨new, same⟩
  have lengths := congrArg length same
  rw [length_append, length_map, length_map] at lengths
  omega

/-- A step takes records out of the map, or puts that of a new push in. -/
theorem pending_step :
    t.pending.Sublist s.pending ∨ ∃ request, s.pending.length < maxPending ∧
      t.pending = insert (id request) s.pushes.length s.pending := by
  cases action with
  | push request =>
    rcases (step_push request).mp stepped with ⟨-, rfl⟩ | ⟨room, rfl⟩
    · exact .inl (Sublist.refl _)
    · exact .inr ⟨request, room, rfl⟩
  | wake p =>
    rcases step_wake_iff.mp stepped with ⟨_, -, -, rfl⟩
    exact .inl (Sublist.refl _)
  | fire p =>
    rcases step_fire_iff.mp stepped with ⟨_, -, -, rfl⟩
    exact .inl filter_sublist
  | respond requestId decision note =>
    cases stepped
    rw [State.respond]
    split
    · exact .inl (Sublist.refl _)
    · exact .inl filter_sublist
  | drainDeny reason =>
    cases stepped
    exact .inl (nil_sublist _)

theorem step_distinct (distinct : (keys s.pending).Nodup) : (keys t.pending).Nodup := by
  rcases pending_step stepped with fewer | ⟨request, -, added⟩
  · exact (fewer.map Prod.fst).nodup distinct
  · rw [added]
    exact nodup_keys_insert _ _ distinct

theorem keys_outcomes_step :
    t.outcomes.map Prod.fst =
      s.outcomes.map Prod.fst ++ s.taken id maxPending action := by
  rw [step_outcomes stepped, map_append, map_map]
  exact congrArg _ (map_id _)

theorem step_pending_le
    (within : s.pending.length ≤ maxPending) : t.pending.length ≤ maxPending := by
  rcases pending_step stepped with fewer | ⟨request, room, added⟩
  · exact Nat.le_trans fewer.length_le within
  · rw [added]
    exact Nat.le_trans (length_insert_le _ _ _) room

end

/-! ## Invariants -/

structure Inv (id : ρ → String) (s : State ρ) : Prop where
  distinct : (keys s.pending).Nodup
  known : ∀ key p, get? key s.pending = some p →
    ∃ request, (s.pushes.map Push.request)[p]? = some request ∧ id request = key
  /-- A pending push has not returned. -/
  waiting : ∀ key p, get? key s.pending = some p → p ∉ s.outcomes.map Prod.fst
  past : ∀ p ∈ s.outcomes.map Prod.fst, p < s.pushes.length
  once : (s.outcomes.map Prod.fst).Nodup

/-- A push has at most one record. -/
theorem Inv.apart (inv : Inv id s) {key other : String} (left : get? key s.pending = some p)
    (right : get? other s.pending = some p) : key = other := by
  rcases inv.known key p left with ⟨request, found, same⟩
  rcases inv.known other p right with ⟨request', found', same'⟩
  cases some.inj (found.symm.trans found')
  exact same.symm.trans same'

theorem Inv.nodup_taken (inv : Inv id s) (action : Action ρ) :
    (s.taken id maxPending action).Nodup := by
  cases action with
  | push request =>
    rw [State.taken]
    split
    · exact nodup_nil
    · exact toList_nodup _
  | wake p => exact nodup_nil
  | fire | respond => exact toList_nodup _
  | drainDeny reason =>
    refine List.Nodup.map_on ?_ (inv.distinct.of_map Prod.fst)
    rintro ⟨key, p⟩ left ⟨other, q⟩ right rfl
    have read := get?_eq_some_iff_of_nodup _ inv.distinct
    cases inv.apart ((read key p).mpr left) ((read other p).mpr right)
    rfl

theorem Inv.lt_of_pending (inv : Inv id s) {key : String} (found : get? key s.pending = some p) :
    p < s.pushes.length := by
  rcases inv.known key p found with ⟨request, here, -⟩
  simpa using (List.getElem?_eq_some_iff.mp here).1

/-- What an action takes out has not returned. -/
theorem Inv.not_returned (inv : Inv id s) (taken : p ∈ s.taken id maxPending action) :
    p < s.pushes.length ∧ p ∉ s.outcomes.map Prod.fst := by
  rcases pending_of_mem_taken inv.distinct taken with ⟨key, found⟩
  exact ⟨inv.lt_of_pending found, inv.waiting key p found⟩

theorem inv_step (stepped : step id maxPending s action = some t) (inv : Inv id s) : Inv id t where
  distinct := step_distinct stepped inv.distinct
  known := by
    intro key p found
    rcases step_pending stepped (fun _ _ => inv.apart) found with
      ⟨earlier, -⟩ | ⟨rfl, request, rfl, rfl, room⟩
    · rcases inv.known key p earlier with ⟨request, here, own⟩
      rcases requests_step stepped with ⟨new, same⟩
      rw [same, getElem?_append_left (List.getElem?_eq_some_iff.mp here).1]
      exact ⟨request, here, own⟩
    · rcases (step_push request).mp stepped with ⟨full, -⟩ | ⟨-, rfl⟩
      · omega
      · exact ⟨request, by simp, rfl⟩
  waiting := by
    intro key p found
    rw [keys_outcomes_step stepped, mem_append, not_or]
    rcases step_pending stepped (fun _ _ => inv.apart) found with ⟨earlier, kept⟩ | ⟨rfl, -⟩
    · exact ⟨inv.waiting key p earlier, kept⟩
    · constructor
      · exact fun member => Nat.lt_irrefl _ (inv.past _ member)
      · exact fun taken => Nat.lt_irrefl _ (inv.not_returned taken).1
  past := by
    intro p member
    refine Nat.lt_of_lt_of_le ?_ (step_length stepped)
    rw [keys_outcomes_step stepped, mem_append] at member
    rcases member with earlier | now
    · exact inv.past p earlier
    · exact (inv.not_returned now).1
  once := by
    rw [keys_outcomes_step stepped, nodup_append]
    refine ⟨inv.once, inv.nodup_taken action, ?_⟩
    rintro p earlier q now rfl
    exact (inv.not_returned now).2 earlier

/-! ## Whole interleavings -/

/-- The action decides the push, which is pending: a response to its id, a drain, or its own
timer. -/
inductive Decides (s : State ρ) (p : Nat) : Action ρ → ApprovalResult → Prop where
  | respond {requestId : String} (decision : ApprovalDecision) (note : Option String)
      (pending : get? requestId s.pending = some p) :
      Decides s p (.respond requestId decision note) ⟨decision, note⟩
  | drain {key : String} (reason : String) (pending : get? key s.pending = some p) :
      Decides s p (.drainDeny reason) ⟨.deny, some reason⟩
  | timeout {key : String} (pending : get? key s.pending = some p) :
      Decides s p (.fire p) timedOut

/-- A push is taken only while nobody waits under its id, and a timer fires only while nobody or its
own push does. -/
def State.Orderly (s : State ρ) (id : ρ → String) (maxPending : Nat) : Action ρ → Prop
  | .push request => s.pending.length < maxPending → get? (id request) s.pending = none
  | .fire p => ∀ push, s.pushes[p]? = some push →
    ∀ q, get? (id push.request) s.pending = some q → q = p
  | .wake _ | .respond .. | .drainDeny _ => True

theorem mem_taken_of_decides (maxPending : Nat) (inv : Inv id s) {result : ApprovalResult}
    (decides : Decides s p action result) : p ∈ s.taken id maxPending action := by
  cases decides with
  | respond decision note pending => exact mem_toList.mpr pending
  | drain reason pending =>
    have listed := (get?_eq_some_iff_of_nodup _ inv.distinct _ p).mp pending
    exact mem_map_of_mem (f := Prod.snd) listed
  | timeout pending =>
    rcases inv.known _ p pending with ⟨request, here, rfl⟩
    rcases map_eq_some_iff.mp (List.getElem?_map ▸ here) with ⟨push, found, rfl⟩
    simp [State.taken, found, pending]

theorem orderly_iff (inv : Inv id s) (stepped : step id maxPending s action = some t) :
    s.Orderly id maxPending action ↔ ∀ p ∈ s.taken id maxPending action,
      ∃ result, action.outcome = .ok result ∧ Decides s p action result := by
  cases action with
  | push request =>
    by_cases full : maxPending ≤ s.pending.length
    · simp [State.Orderly, State.taken, full, Nat.not_lt.mpr full]
    · simp [State.Orderly, State.taken, full, Nat.lt_of_not_le full, Action.outcome,
        eq_none_iff_forall_ne_some]
  | wake q => simp [State.Orderly, State.taken]
  | fire q =>
    rcases step_fire_iff.mp stepped with ⟨push, here, -, -⟩
    simp only [State.Orderly, State.taken, here, bind_some, mem_toList]
    constructor
    · intro own p found
      cases own push rfl p found
      exact ⟨timedOut, rfl, .timeout found⟩
    · rintro decided other ⟨⟩ p found
      rcases decided p found with ⟨result, -, ⟨⟩⟩
      rfl
  | respond requestId decision note =>
    refine iff_of_true trivial fun p member => ?_
    exact ⟨⟨decision, note⟩, rfl, .respond decision note (mem_toList.mp member)⟩
  | drainDeny reason =>
    refine iff_of_true trivial fun p member => ?_
    rcases pending_of_mem_taken inv.distinct member with ⟨key, found⟩
    exact ⟨⟨.deny, some reason⟩, rfl, .drain reason found⟩

variable {actions : List (Action ρ)}

theorem run_concat_iff :
    run id maxPending s (actions ++ [action]) = some t ↔
      ∃ middle, run id maxPending s actions = some middle ∧
        step id maxPending middle action = some t := by
  induction actions generalizing s with
  | nil => simp [run]
  | cons first actions ih =>
    simp only [cons_append, run, bind_eq_bind, bind_eq_some_iff, ih]
    constructor
    · rintro ⟨next, stepped, middle, before, last⟩
      exact ⟨middle, ⟨next, stepped, before⟩, last⟩
    · rintro ⟨middle, ⟨next, stepped, before⟩, last⟩
      exact ⟨next, stepped, middle, before, last⟩

/-- Every action of a run is orderly where it happens. -/
def Tidy (id : ρ → String) (maxPending : Nat) : State ρ → List (Action ρ) → Prop
  | _, [] => True
  | s, action :: actions => s.Orderly id maxPending action ∧
    ∀ t, step id maxPending s action = some t → Tidy id maxPending t actions

theorem tidy_cons (orderly : s.Orderly id maxPending action)
    (stepped : step id maxPending s action = some t) (rest : Tidy id maxPending t actions) :
    Tidy id maxPending s (action :: actions) := by
  refine ⟨orderly, fun next taken => ?_⟩
  cases some.inj (stepped.symm.trans taken)
  exact rest

theorem tidy_concat_iff (ran : run id maxPending s actions = some t) :
    Tidy id maxPending s (actions ++ [action]) ↔
      Tidy id maxPending s actions ∧ t.Orderly id maxPending action := by
  induction actions generalizing s with
  | nil =>
    cases ran
    simp [Tidy]
  | cons first actions ih =>
    rcases bind_eq_some_iff.mp ran with ⟨next, stepped, rest⟩
    simp [Tidy, stepped, ih rest, and_assoc]

/-- The push was decided by one of the actions, at a moment when it was pending. -/
def Explained (id : ρ → String) (maxPending : Nat) (actions : List (Action ρ)) (p : Nat)
    (result : ApprovalResult) : Prop :=
  ∃ before action after s, actions = before ++ action :: after ∧
    run id maxPending {} before = some s ∧ Decides s p action result

theorem inv_initial : Inv id ({} : State ρ) where
  distinct := nodup_nil
  known := by rintro key p ⟨⟩
  waiting := by rintro key p ⟨⟩
  past := by rintro p ⟨⟩
  once := nodup_nil

/-- What holds at first and is kept by every action of a run holds after the run. -/
@[elab_as_elim]
theorem run_induction {P : List (Action ρ) → State ρ → Prop} (initial : P [] {})
    (next : ∀ actions s action t, run id maxPending {} actions = some s →
      step id maxPending s action = some t → P actions s → P (actions ++ [action]) t)
    (ran : run id maxPending {} actions = some s) : P actions s := by
  induction actions using reverseRecOn generalizing s with
  | nil =>
    cases ran
    exact initial
  | append_singleton actions action ih =>
    rcases run_concat_iff.mp ran with ⟨middle, before, stepped⟩
    exact next actions middle action s before stepped (ih before)

theorem inv_run (ran : run id maxPending {} actions = some s) : Inv id s :=
  run_induction inv_initial (fun _ _ _ _ _ => inv_step) ran

theorem explained_concat_iff (ran : run id maxPending {} actions = some s)
    {result : ApprovalResult} :
    Explained id maxPending (actions ++ [action]) p result ↔
      Explained id maxPending actions p result ∨ Decides s p action result := by
  constructor
  · rintro ⟨before, acting, after, middle, same, reached, decides⟩
    rcases eq_nil_or_concat after with rfl | ⟨rest, last, rfl⟩
    · rcases append_inj' same rfl with ⟨rfl, ⟨⟩⟩
      cases ran.symm.trans reached
      exact .inr decides
    · rw [concat_eq_append, ← cons_append, ← append_assoc] at same
      cases (append_inj' same rfl).1
      exact .inl ⟨before, acting, rest, middle, rfl, reached, decides⟩
  · rintro (⟨before, acting, after, middle, rfl, reached, decides⟩ | decides)
    · exact ⟨before, acting, after ++ [action], middle, by simp, reached, decides⟩
    · exact ⟨actions, action, [], s, rfl, ran, decides⟩

/-- A push that was decided has returned. -/
theorem Explained.returned {result : ApprovalResult}
    (explained : Explained id maxPending actions p result)
    (ran : run id maxPending {} actions = some s) : p ∈ s.outcomes.map Prod.fst := by
  revert explained
  refine run_induction ?_ ?_ ran
  · rintro ⟨before, _, _, _, same, -⟩
    cases before <;> cases same
  · intro actions middle action s before stepped ih explained
    rw [keys_outcomes_step stepped, mem_append]
    exact ((explained_concat_iff before).mp explained).imp ih
      (mem_taken_of_decides maxPending (inv_run before))

/-- Every outcome is explained exactly in tidy interleavings. -/
theorem explained_iff_tidy (ran : run id maxPending {} actions = some s) :
    (∀ p outcome, (p, outcome) ∈ s.outcomes →
      ∃ result, outcome = .ok result ∧ Explained id maxPending actions p result) ↔
      Tidy id maxPending {} actions := by
  refine run_induction ?_ ?_ ran
  · exact iff_of_true (by rintro p outcome ⟨⟩) trivial
  · intro actions middle action s before stepped ih
    have inv := inv_run before
    rw [tidy_concat_iff before, ← ih, orderly_iff inv stepped, step_outcomes stepped]
    -- What has returned is not pending any more, so the last action explains what it takes out
    -- and nothing else.
    constructor
    · intro all
      refine ⟨fun p outcome old => ?_, fun p taken => ?_⟩
      · rcases all p outcome (mem_append_left _ old) with ⟨result, same, explained⟩
        refine ⟨result, same, ((explained_concat_iff before).mp explained).resolve_right ?_⟩
        intro decides
        have taken := mem_taken_of_decides maxPending inv decides
        exact (inv.not_returned taken).2 (mem_map_of_mem old)
      · rcases all p _ (mem_append_right _ (mem_map_of_mem taken)) with ⟨result, same, explained⟩
        refine ⟨result, same, ((explained_concat_iff before).mp explained).resolve_left ?_⟩
        exact fun earlier => (inv.not_returned taken).2 (earlier.returned before)
    · rintro ⟨old, new⟩ p outcome member
      rcases mem_append.mp member with earlier | now
      · rcases old p outcome earlier with ⟨result, same, explained⟩
        exact ⟨result, same, (explained_concat_iff before).mpr (.inl explained)⟩
      · rcases mem_map.mp now with ⟨q, taken, ⟨⟩⟩
        rcases new p taken with ⟨result, same, decides⟩
        exact ⟨result, same, (explained_concat_iff before).mpr (.inr decides)⟩

/-- The map is never larger than the limit, whatever happens. -/
theorem run_pending_le (ran : run id maxPending {} actions = some s) :
    s.pending.length ≤ maxPending :=
  run_induction (Nat.zero_le _) (fun _ _ _ _ _ => step_pending_le) ran

/-- Every push returns at most once, and the limit is kept.  Every return is the decision of a
response, of a drain or of the push's own timer while it was pending, if and only if no push is
taken while another waits under its id, and no timer fires while another push does. -/
theorem queue_integrity (ran : run id maxPending {} actions = some s) :
    (s.outcomes.map Prod.fst).Nodup ∧
      ((∀ p outcome, (p, outcome) ∈ s.outcomes →
        ∃ result, outcome = .ok result ∧ Explained id maxPending actions p result) ↔
        Tidy id maxPending {} actions) ∧
      s.pending.length ≤ maxPending :=
  ⟨(inv_run ran).once, explained_iff_tidy ran, run_pending_le ran⟩

end

/-- A request is approved when its timer is awake already, pushed again and denied; the timer then
finds nothing, and the other request times out. -/
def busyActions : List (Action String) :=
  [.push "deploy", .push "rotate", .wake 0, .respond "deploy" .approve none, .push "deploy",
    .respond "deploy" .deny none, .fire 0, .wake 1, .fire 1]

def busyState : State String where
  pushes := [⟨"deploy", .done⟩, ⟨"rotate", .done⟩, ⟨"deploy", .aborted⟩]
  outcomes := [(0, .ok ⟨.approve, none⟩), (2, .ok ⟨.deny, none⟩), (1, .ok timedOut)]
  resolved := [("deploy", ⟨.approve, none⟩), ("deploy", ⟨.deny, none⟩), ("rotate", timedOut)]

theorem queue_integrity_busy :
    run id 2 {} busyActions = some busyState ∧
      ∀ p outcome, (p, outcome) ∈ busyState.outcomes → ∃ result, outcome = .ok result ∧
        Explained id 2 busyActions p result := by
  have ran : run id 2 {} busyActions = some busyState := rfl
  refine ⟨ran, (queue_integrity ran).2.1.mpr ?_⟩
  refine tidy_cons (fun _ => rfl) rfl (tidy_cons (fun _ => rfl) rfl (tidy_cons trivial rfl
    (tidy_cons trivial rfl (tidy_cons (fun _ => rfl) rfl (tidy_cons trivial rfl
    (tidy_cons ?_ rfl (tidy_cons trivial rfl (tidy_cons ?_ rfl trivial))))))))
  · rintro push ⟨⟩ q ⟨⟩
  · rintro push ⟨⟩ q ⟨⟩
    rfl

/-- The same request is pushed again: the first push ends with a closed channel, and its timer
denies the second one, whose own timer has not fired. -/
theorem repeated_push_breaks :
    run (fun request => request) 2 {}
        [.push "deploy", .push "deploy", .wake 0, .fire 0] = some {
      pushes := [⟨"deploy", .done⟩, ⟨"deploy", .sleeping⟩]
      outcomes := [(0, .error .channelClosed), (1, .ok timedOut)]
      resolved := [("deploy", timedOut)] } :=
  rfl

end TrustForge.ApprovalQueue
