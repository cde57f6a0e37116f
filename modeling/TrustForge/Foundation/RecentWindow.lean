import Mathlib.Data.List.Basic

/-!
# Windows of recent entries

A first-in first-out window holds the last entries of a log.  If every new entry is
absent from the window, equal entries of the log are at least a window apart.
-/

namespace TrustForge.RecentWindow

open List

variable {κ : Type} (n : Nat) (log : List κ)

/-- The last `n` entries of a log. -/
def recent : List κ :=
  log.drop (log.length - n)

/-- Add an entry and drop the oldest one if the window is full. -/
def push (window : List κ) (key : κ) : List κ :=
  (if n ≤ window.length then window.tail else window) ++ [key]

theorem length_recent : (recent n log).length = min n log.length := by
  rw [recent, length_drop]
  omega

/-- A window of no entries still keeps the newest one. -/
theorem push_recent (key : κ) :
    push n (recent (max n 1) log) key = recent (max n 1) (log ++ [key]) := by
  have length := length_recent (max n 1) log
  have appended : recent (max n 1) (log ++ [key]) =
      log.drop (log.length + 1 - max n 1) ++ [key] := by
    rw [recent, length_append, length_singleton, drop_append_of_le_length (by omega)]
  rw [appended, push]
  congr 1
  by_cases full : n ≤ (recent (max n 1) log).length
  · rw [if_pos full, recent, tail_drop]
    rcases Nat.lt_or_ge log.length (max n 1) with short | long
    · have empty : log.length = 0 := by omega
      rw [length_eq_zero_iff.mp empty, drop_nil, drop_nil]
    · congr 1
      omega
  · rw [if_neg full, recent]
    congr 1
    omega

/-- Equal entries have at least `n` others between them. -/
def Spaced : Prop :=
  ∀ i j key, i < j → log[i]? = some key → log[j]? = some key → i + n < j

theorem spaced_nil : Spaced n ([] : List κ) := by
  intro i j key _ found
  contradiction

theorem mem_recent_of_getElem? {n i : Nat} {log : List κ} {key : κ} (found : log[i]? = some key)
    (late : log.length ≤ i + n) : key ∈ recent n log := by
  apply mem_of_getElem? (i := i - (log.length - n))
  have inside := (List.getElem?_eq_some_iff.mp found).1
  rw [recent, List.getElem?_drop, show log.length - n + (i - (log.length - n)) = i by omega, found]

theorem Spaced.append {n : Nat} {log : List κ} {key : κ} (spaced : Spaced n log)
    (fresh : key ∉ recent n log) : Spaced n (log ++ [key]) := by
  intro i j other before atI atJ
  rcases Nat.lt_or_ge j log.length with old | new
  · rw [List.getElem?_append_left (Nat.lt_trans before old)] at atI
    rw [List.getElem?_append_left old] at atJ
    exact spaced i j other before atI atJ
  · -- The later of the two is the new entry.
    have last := (List.getElem?_eq_some_iff.mp atJ).1
    rw [length_append, length_singleton] at last
    rw [List.getElem?_append_right new, show j - log.length = 0 by omega,
      List.getElem?_cons_zero, Option.some.injEq] at atJ
    rw [List.getElem?_append_left (by omega), ← atJ] at atI
    refine Nat.lt_of_not_le fun late => fresh (mem_recent_of_getElem? atI ?_)
    omega

/-- The entries of a window are different. -/
theorem Spaced.nodup_recent {n : Nat} {log : List κ} (spaced : Spaced n log) :
    (recent n log).Nodup := by
  rw [nodup_iff_pairwise_ne, pairwise_iff_getElem]
  intro i j iInside jInside before same
  have far := spaced (log.length - n + i) (log.length - n + j) (recent n log)[i] (by omega)
    (by rw [← List.getElem?_drop]; exact getElem?_eq_getElem iInside)
    (by rw [← List.getElem?_drop, same]; exact getElem?_eq_getElem jInside)
  rw [length_recent] at jInside
  omega

end TrustForge.RecentWindow
