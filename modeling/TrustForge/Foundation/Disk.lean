import TrustForge.Foundation.Text

/-!
# Files and crashes

An ideal file system.  Files are byte strings under paths, and a program is the list of its
steps on them; a step happens entirely or not at all.  A crash leaves what the steps before
it did.  A step changes only the paths it names, so what a program does is known from the
steps that name a path.
-/

namespace TrustForge.Disk

open Function List

/-- The files of a directory tree, by path. -/
abbrev Files (π : Type) := π → Option Bytes

/-- A step of a program on its files. -/
inductive Step (π : Type) where
  /-- Make a file with no bytes, also of one that exists. -/
  | create (path : π)
  /-- Make a file with no bytes, unless it exists. -/
  | touch (path : π)
  /-- Add bytes at the end of a file. -/
  | write (path : π) (bytes : Bytes)
  | rename (source target : π)
  /-- Ask for durability, which these files have anyway. -/
  | sync

variable {π : Type} [DecidableEq π]

namespace Step

def apply (files : Files π) : Step π → Files π
  | .create path => update files path (some [])
  | .touch path => update files path (some ((files path).getD []))
  | .write path bytes => update files path (some ((files path).getD [] ++ bytes))
  | .rename source target =>
    update (update files target (files source)) source none
  | .sync => files

/-- The paths that a step names. -/
def paths : Step π → List π
  | .create path => [path]
  | .touch path => [path]
  | .write path _ => [path]
  | .rename source target => [source, target]
  | .sync => []

theorem apply_of_not_mem (files : Files π) {step : Step π} {path : π}
    (other : path ∉ step.paths) : step.apply files path = files path := by
  cases step with
  | create | touch | write => exact update_of_ne (mt mem_singleton.mpr other) _ _
  | rename source target =>
    rw [paths, mem_cons, mem_singleton, not_or] at other
    rw [apply, update_of_ne other.1, update_of_ne other.2]
  | sync => rfl

end Step

/-- The files after the steps. -/
def run (steps : List (Step π)) (files : Files π) : Files π :=
  steps.foldl Step.apply files

theorem run_cons (step : Step π) (steps : List (Step π)) (files : Files π) :
    run (step :: steps) files = run steps (step.apply files) :=
  rfl

theorem run_append (first second : List (Step π)) (files : Files π) :
    run (first ++ second) files = run second (run first files) :=
  foldl_append

/-- Steps that do not name a path leave its file alone. -/
theorem run_of_not_mem {steps : List (Step π)} {path : π}
    (other : ∀ step ∈ steps, path ∉ step.paths) (files : Files π) :
    run steps files path = files path := by
  induction steps generalizing files with
  | nil => rfl
  | cons step steps ih =>
    rw [run_cons, ih fun later member => other later (mem_cons_of_mem _ member),
      Step.apply_of_not_mem files (other step mem_cons_self)]

/-! ## Writing a file -/

/-- The steps that add chunks to a file. -/
def writeAll (path : π) (chunks : List Bytes) : List (Step π) :=
  chunks.map fun bytes => .write path bytes

theorem run_writeAll (path : π) (chunks : List Bytes) {files : Files π} {bytes : Bytes}
    (present : files path = some bytes) :
    run (writeAll path chunks) files = update files path (some (bytes ++ chunks.flatten)) := by
  induction chunks generalizing files bytes with
  | nil =>
    rw [flatten_nil, append_nil, ← present, update_eq_self]
    rfl
  | cons chunk chunks ih =>
    have step : (Step.write path chunk).apply files =
        update files path (some (bytes ++ chunk)) := by
      rw [Step.apply, present, Option.getD_some]
    rw [writeAll, map_cons, run_cons, step, ← writeAll, ih (update_self path _ files), update_idem,
      flatten_cons, append_assoc]

/-- The steps that replace a file by way of a temporary one. -/
def replace (path tmp : π) (chunks : List Bytes) : List (Step π) :=
  .create tmp :: (writeAll tmp chunks ++ [.sync, .rename tmp path, .sync])

theorem run_replace {path tmp : π} (chunks : List Bytes) (files : Files π) :
    run (replace path tmp chunks) files =
      update (update files path (some chunks.flatten)) tmp none := by
  have written : run (writeAll tmp chunks) ((Step.create tmp).apply files) =
      update files tmp (some chunks.flatten) := by
    rw [Step.apply, run_writeAll tmp chunks (update_self tmp _ files), nil_append, update_idem]
  rw [replace, run_cons, run_append, written]
  funext other
  simp only [run_cons, Step.apply, update_self]
  change update (update (update files tmp (some chunks.flatten)) path
    (some chunks.flatten)) tmp none other = _
  by_cases isTmp : other = tmp
  · rw [isTmp, update_self, update_self]
  · rw [update_of_ne isTmp, update_of_ne isTmp]
    by_cases isPath : other = path
    · rw [isPath, update_self, update_self]
    · rw [update_of_ne isPath, update_of_ne isPath, update_of_ne isTmp]

end TrustForge.Disk
