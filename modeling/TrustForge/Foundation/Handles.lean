import Mathlib.Data.List.Induction
import Mathlib.Logic.Function.Basic

/-!
# Handles with private memories

Several handles on the same files.  A call changes the memory of its handle and may change
the files, but no handle looks at the files again.  What a handle remembers is therefore
what its own calls made of the memory it started with, and where calls write the whole
memory, the files are those of the handle that wrote last.
-/

namespace TrustForge.Handles

open List Option Function

variable {ι σ φ ψ Op : Type} [DecidableEq ι]

/-- The memories, and the files they share. -/
structure World (ι σ φ : Type) where
  memory : ι → σ
  files : φ

/-- A call of one handle. -/
def World.step (perform : Op → σ × φ → σ × φ) (world : World ι σ φ) (call : ι × Op) :
    World ι σ φ :=
  let after := perform call.2 (world.memory call.1, world.files)
  { memory := Function.update world.memory call.1 after.1
    files := after.2 }

/-- Calls in the order in which they are made. -/
def World.run (perform : Op → σ × φ → σ × φ) (world : World ι σ φ) (calls : List (ι × Op)) :
    World ι σ φ :=
  calls.foldl (World.step perform) world

/-- The calls of one handle. -/
def callsOf (handle : ι) (calls : List (ι × Op)) : List Op :=
  (calls.filter fun call => call.1 = handle).map Prod.snd

theorem callsOf_cons_self (call : ι × Op) (calls : List (ι × Op)) :
    callsOf call.1 (call :: calls) = call.2 :: callsOf call.1 calls := by
  simp [callsOf]

theorem callsOf_cons_of_ne {handle : ι} {call : ι × Op} (other : call.1 ≠ handle)
    (calls : List (ι × Op)) : callsOf handle (call :: calls) = callsOf handle calls := by
  simp [callsOf, other]

variable {calls : List (ι × Op)}

theorem mem_of_mem_callsOf {handle : ι} {op : Op} (member : op ∈ callsOf handle calls) :
    (handle, op) ∈ calls := by
  simpa [callsOf] using member

/-! ## Memories -/

/-- What a call makes of a memory does not depend on the files. -/
def Private (perform : Op → σ × φ → σ × φ) (update : Op → σ → σ) : Prop :=
  ∀ op memory files, (perform op (memory, files)).1 = update op memory

/-- What calls make of a memory. -/
def remember (update : Op → σ → σ) (memory : σ) (calls : List Op) : σ :=
  calls.foldl (fun known op => update op known) memory

theorem remember_append (update : Op → σ → σ) (memory : σ) (calls more : List Op) :
    remember update memory (calls ++ more) = remember update (remember update memory calls) more :=
  foldl_append

theorem remember_cons (update : Op → σ → σ) (memory : σ) (op : Op) (calls : List Op) :
    remember update memory (op :: calls) = remember update (update op memory) calls :=
  rfl

variable {perform : Op → σ × φ → σ × φ} {update : Op → σ → σ}

theorem step_memory (isolated : Private perform update) (world : World ι σ φ) (call : ι × Op) :
    (world.step perform call).memory =
      Function.update world.memory call.1 (update call.2 (world.memory call.1)) := by
  rw [World.step, isolated]

/-- A property of a memory that every allowed call keeps. -/
theorem remember_invariant {Allowed : Op → Prop} {Valid : σ → Prop}
    (valid : ∀ op memory, Allowed op → Valid memory → Valid (update op memory)) {memory : σ}
    {calls : List Op} (allowed : ∀ op ∈ calls, Allowed op) (start : Valid memory) :
    Valid (remember update memory calls) := by
  induction calls generalizing memory with
  | nil => exact start
  | cons op calls ih =>
    exact ih (fun later member => allowed later (mem_cons_of_mem op member))
      (valid op memory (allowed op mem_cons_self) start)

section

variable {τ : Type} {update : Op → σ → σ} (view : σ → τ)

/-- A view of the memory that has an update of its own. -/
theorem remember_view {updateView : Op → τ → τ}
    (commutes : ∀ op memory, view (update op memory) = updateView op (view memory)) (memory : σ)
    (calls : List Op) :
    view (remember update memory calls) = remember updateView (view memory) calls :=
  (foldl_hom view fun memory op => (commutes op memory).symm).symm

/-- A view of the memory that no call changes. -/
theorem remember_unchanged (kept : ∀ op memory, view (update op memory) = view memory)
    (memory : σ) (calls : List Op) : view (remember update memory calls) = view memory := by
  induction calls generalizing memory with
  | nil => rfl
  | cons op calls ih => exact (ih (update op memory)).trans (kept op memory)

end

/-! ## Maps -/

section

variable {κ α : Type} [DecidableEq κ]

/-- The last call about a key. -/
def lastAbout (about : Op → κ) (key : κ) (calls : List Op) : Option Op :=
  (calls.filter fun op => about op = key).getLast?

theorem lastAbout_eq_some_mem {about : Op → κ} {key : κ} {calls : List Op} {op : Op}
    (last : lastAbout about key calls = some op) : op ∈ calls ∧ about op = key := by
  have member := mem_of_getLast? last
  simpa using member

/-- Calls that set one key each leave a key as the last call about it did. -/
theorem remember_update (about : Op → κ) (value : Op → α) (map : κ → α) (calls : List Op)
    (key : κ) :
    remember (fun op map => Function.update map (about op) (value op)) map calls key =
      ((lastAbout about key calls).map value).getD (map key) := by
  induction calls using List.reverseRecOn with
  | nil => rfl
  | append_singleton calls op ih =>
    rw [remember_append, lastAbout, filter_append, List.getLast?_append]
    by_cases own : about op = key
    · subst own
      simp [remember]
    · have other : Function.update (remember
          (fun op map => Function.update map (about op) (value op)) map calls)
          (about op) (value op) key = _ := update_of_ne (Ne.symm own) _ _
      rw [remember, foldl_cons, foldl_nil, other, ih]
      simp [lastAbout, own]

end

/-! ## Snapshots -/

/-- Calls that write the whole memory, or nothing of what is looked at. -/
structure Snapshots (perform : Op → σ × φ → σ × φ) (update : Op → σ → σ)
    (persists : Op → σ → Bool) (view : φ → ψ) (snapshot : σ → ψ) : Prop where
  isolated : Private perform update
  writes : ∀ op memory files, persists op memory = true →
    view (perform op (memory, files)).2 = snapshot (update op memory)
  keeps : ∀ op memory files, persists op memory = false →
    view (perform op (memory, files)).2 = view files
  quiet : ∀ op memory, persists op memory = false →
    snapshot (update op memory) = snapshot memory

/-- The handle whose call was the last to write. -/
def lastWriter (update : Op → σ → σ) (persists : Op → σ → Bool) :
    (ι → σ) → List (ι × Op) → Option ι
  | _, [] => none
  | memory, call :: calls =>
    (lastWriter update persists
      (Function.update memory call.1 (update call.2 (memory call.1))) calls).or
      (if persists call.2 (memory call.1) then some call.1 else none)

section

variable {perform : Op → σ × φ → σ × φ} {update : Op → σ → σ} {persists : Op → σ → Bool}
  {view : φ → ψ} {snapshot : σ → ψ}

/-- Without a write, every memory is worth what it was. -/
theorem snapshot_of_lastWriter_none (snapshots : Snapshots perform update persists view snapshot)
    {memory : ι → σ} (none : lastWriter update persists memory calls = none) (handle : ι) :
    snapshot (remember update (memory handle) (callsOf handle calls)) =
      snapshot (memory handle) := by
  induction calls generalizing memory with
  | nil => rfl
  | cons call calls ih =>
    rw [lastWriter, or_eq_none_iff] at none
    have silent : persists call.2 (memory call.1) = false := by
      simpa using none.2
    have later := ih none.1
    by_cases own : call.1 = handle
    · subst own
      rw [update_self, snapshots.quiet call.2 _ silent] at later
      rw [callsOf_cons_self, remember_cons]
      exact later
    · rw [update_of_ne (Ne.symm own)] at later
      rw [callsOf_cons_of_ne own]
      exact later

/-- The files are those of the handle that wrote last, which knows its own calls only. -/
theorem view_run (snapshots : Snapshots perform update persists view snapshot)
    (world : World ι σ φ) (calls : List (ι × Op)) :
    view (world.run perform calls).files =
      ((lastWriter update persists world.memory calls).map fun handle =>
        snapshot (remember update (world.memory handle) (callsOf handle calls))).getD
          (view world.files) := by
  induction calls generalizing world with
  | nil => rfl
  | cons call calls ih =>
    have later := ih (world.step perform call)
    rw [step_memory snapshots.isolated] at later
    change view ((world.step perform call).run perform calls).files = _
    rw [later, lastWriter]
    cases writer : lastWriter update persists (Function.update world.memory call.1
        (update call.2 (world.memory call.1))) calls with
    | some handle =>
      rw [some_or, map_some, map_some, getD_some, getD_some]
      by_cases own : call.1 = handle
      · subst own
        rw [update_self, callsOf_cons_self, remember_cons]
      · rw [update_of_ne (Ne.symm own), callsOf_cons_of_ne own]
    | none =>
      rw [none_or, map_none, getD_none]
      cases wrote : persists call.2 (world.memory call.1) with
      | true =>
        have kept := snapshot_of_lastWriter_none snapshots writer call.1
        rw [update_self] at kept
        rw [if_pos rfl, map_some, getD_some, callsOf_cons_self, remember_cons, kept]
        exact snapshots.writes call.2 (world.memory call.1) world.files wrote
      | false =>
        rw [if_neg Bool.false_ne_true, map_none, getD_none]
        exact snapshots.keeps call.2 (world.memory call.1) world.files wrote

end

/-! ## Two kinds of files -/

/-- Worlds with the same memories stay related where every allowed call keeps their files
related. -/
theorem run_related {χ : Type} {other : Op → σ × χ → σ × χ} {Allowed : Op → Prop} {Valid : σ → Prop}
    {Related : φ → χ → Prop} (isolated : Private perform update) (isolated' : Private other update)
    (valid : ∀ op memory, Allowed op → Valid memory → Valid (update op memory))
    (related : ∀ op memory files files', Allowed op → Valid memory → Related files files' →
      Related (perform op (memory, files)).2 (other op (memory, files')).2) {world : World ι σ φ}
    {files : χ} (allowed : ∀ call ∈ calls, Allowed call.2)
    (start : ∀ handle, Valid (world.memory handle)) (before : Related world.files files) :
    Related (world.run perform calls).files
      (World.run other ⟨world.memory, files⟩ calls).files := by
  induction calls generalizing world files with
  | nil => exact before
  | cons call calls ih =>
    have here := allowed call mem_cons_self
    have same : World.step other ⟨world.memory, files⟩ call =
        ⟨(world.step perform call).memory, (other call.2 (world.memory call.1, files)).2⟩ := by
      rw [step_memory isolated, World.step, isolated']
    change Related ((world.step perform call).run perform calls).files
      ((World.step other ⟨world.memory, files⟩ call).run other calls).files
    rw [same]
    refine ih (fun later member => allowed later (mem_cons_of_mem call member)) ?_
      (related call.2 _ _ _ here (start call.1) before)
    intro handle
    rw [step_memory isolated]
    by_cases own : call.1 = handle
    · subst own
      rw [update_self]
      exact valid call.2 _ here (start call.1)
    · rw [update_of_ne (Ne.symm own)]
      exact start handle

end TrustForge.Handles
