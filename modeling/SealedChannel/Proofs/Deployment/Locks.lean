import Mathlib.Data.List.Basic
import SealedChannel.Proofs.Deployment.Alone

/-!
# Locks in turns

Which locks a task holds can be read off its calls, and which task holds a lock can be read off the
log: it is the last one that took it.  So the log of a process, read by the takings of one lock,
falls into pieces of which each belongs to one task.

The takings of all locks together are the *lock order*.  It is an order of the tasks of a process in
which each task comes after every other one that has held one of its locks before.

## What is here

* `Exchange.heldAfter`, `Deployment.locks_of_run` — the locks that some calls leave their task with.
* `Deployment.log_of_step` — what a step adds to the log.
* `Deployment.acquisitions`, `Deployment.lockOrder` — the tasks that took locks, in order, with the
  locks and without.
* `Deployment.acquisitions_of_held` — whoever holds a lock is the last that took it.
* `Deployment.eq_of_held` — a lock is held by one task at most.
-/

set_option autoImplicit false
namespace SealedChannel

/-! ## Locks and calls -/

namespace Exchange

/-- The locks that a task holds after a call, given those that it held before; one that was cut off
has given them back. -/
def locksAfter : Exchange → List Nat → List Nat
  | ⟨c, some _⟩, locks => c.locksAfter locks
  | ⟨_, none⟩, _ => []

/-- The locks that some calls leave their task with. -/
def heldAfter (exchanges : List Exchange) : List Nat :=
  exchanges.foldl (fun locks e => e.locksAfter locks) []

/-- One more call. -/
theorem heldAfter_concat (exchanges : List Exchange) (e : Exchange) :
    heldAfter (exchanges ++ [e]) = e.locksAfter (heldAfter exchanges) := by
  rw [heldAfter, List.foldl_append]
  rfl

/-- The lock that a call has taken. -/
def acquired? : Exchange → Option Nat
  | ⟨.acquire lock, some _⟩ => some lock
  | _ => none

/-- A lock that is held after a call was held before, or the call took it. -/
theorem mem_locksAfter {e : Exchange} {locks : List Nat} {lock : Nat}
    (h : lock ∈ e.locksAfter locks) : lock ∈ locks ∨ e.acquired? = some lock := by
  obtain ⟨c, answer?⟩ := e
  cases answer? with
  | none => cases h
  | some answer =>
    cases c with
    | acquire other =>
      rcases List.mem_cons.1 h with rfl | h
      · exact .inr rfl
      · exact .inl h
    | release other => exact .inl (List.mem_of_mem_erase h)
    | _ => exact .inl h

/-- Calls that took no lock leave their task with none. -/
theorem heldAfter_of_acquired? {exchanges : List Exchange}
    (h : exchanges.filterMap acquired? = []) : heldAfter exchanges = [] := by
  induction exchanges using List.reverseRecOn with
  | nil => rfl
  | append_singleton before e ih =>
    rw [List.filterMap_append, List.append_eq_nil_iff] at h
    rw [heldAfter_concat, ih h.1, List.eq_nil_iff_forall_not_mem]
    intro lock hlock
    rcases mem_locksAfter hlock with hlock | hacquired
    · cases hlock
    · simp [hacquired] at h

/-- A call that took a lock is an answered one. -/
theorem acquired?_eq_some {e : Exchange} {lock : Nat} (h : e.acquired? = some lock) :
    e = ⟨.acquire lock, some ()⟩ := by
  obtain ⟨c, answer?⟩ := e
  cases c with
  | acquire other =>
    cases answer? with
    | none => cases h
    | some answer => cases h; rfl
  | _ => cases h

end Exchange

namespace Deployment

variable {ρ α : Type} {code : Nat → ρ → Program α} {w : World} {s s' : Deployment ρ α}
  {moves : List (Move ρ)} {move : Move ρ}

theorem mem_heldBy {process lock : Nat} :
    lock ∈ s.heldBy process ↔ ∃ t ∈ s.tasks, t.process = process ∧ lock ∈ t.locks := by
  simp [heldBy, and_assoc]

/-- **Locks and the log.**  A task holds the locks that its calls leave it with. -/
theorem locks_of_run (h : (idle w).run code moves = some s) {i : Nat} {t : Task ρ α}
    (ht : s.tasks[i]? = some t) : t.locks = Exchange.heldAfter (s.exchangesOf i) := by
  have hlocks := tasks_of_run (motive := fun t exchanges =>
    t.locks = Exchange.heldAfter exchanges) h
  refine (hlocks (fun _ _ => rfl) ?_ ?_).1 i t ht
  · intro t exchanges c next answer hlocks _ _
    rw [Exchange.heldAfter_concat, ← hlocks]
    rfl
  · intro t exchanges c next _ _ _
    rw [Exchange.heldAfter_concat]
    rfl

/-! ## One step of the log -/

/-- A step leaves the log as it is, or adds the next call of a task that is not cut off. -/
theorem log_of_step (h : s.step code move = some s') :
    s'.log = s.log ∨ ∃ (i : Nat) (t : Task ρ α) (c : Call) (next : c.Answer → Program α)
      (answer? : Option c.Answer), s.tasks[i]? = some t ∧ t.isCut = false ∧
      t.rest = .call c next ∧ s'.log = s.log ++ [(i, ⟨c, answer?⟩)] ∧
      ∀ answer, answer? = some answer → (s.view t.process).react c = .answered answer s'.world := by
  rcases step_cases h with ⟨process, request, -, rfl⟩ |
    ⟨i, t, c, next, answer, world, -, hi, hcut, hrest, hreact, rfl⟩ |
    ⟨i, t, c, next, -, hi, hcut, hrest, rfl⟩ | ⟨change, -, rfl⟩
  · exact .inl rfl
  · refine .inr ⟨i, t, c, next, some answer, hi, hcut, hrest, rfl, ?_⟩
    rintro _ ⟨⟩
    exact hreact
  · refine .inr ⟨i, t, c, next, none, hi, hcut, hrest, rfl, ?_⟩
    rintro _ ⟨⟩
  · exact .inl rfl

/-- A task belongs to the process that began it. -/
theorem process_of_run {process : Nat} (h : (idle w).run code moves = some s)
    (hone : ∀ other request, .start other request ∈ moves → other = process) :
    ∀ t ∈ s.tasks, t.process = process := by
  induction moves, s, h using run_induction with
  | nil => simp [idle]
  | @concat before s move s' _ _ ih hstep =>
    have hkept := ih fun other request hmem => hone other request (List.mem_append_left _ hmem)
    -- a task that was there before keeps its process
    have hset {i : Nat} {t u : Task ρ α} (hi : s.tasks[i]? = some t)
        (hu : u.process = t.process) : ∀ v ∈ s.tasks.set i u, v.process = process := by
      intro v hv
      rcases List.mem_or_eq_of_mem_set hv with hv | rfl
      · exact hkept v hv
      · rw [hu, hkept t (List.mem_of_getElem? hi)]
    rcases step_cases hstep with ⟨other, request, rfl, rfl⟩ |
      ⟨i, t, c, next, answer, world, -, hi, -, -, -, rfl⟩ | ⟨i, t, c, next, -, hi, -, -, rfl⟩ |
      ⟨change, -, rfl⟩
    · intro t ht
      rcases List.mem_append.1 ht with ht | ht
      · exact hkept t ht
      · obtain rfl := List.mem_singleton.1 ht
        exact hone other request (by simp)
    · exact hset hi rfl
    · exact hset hi rfl
    · exact hkept

/-! ## The lock order -/

/-- The tasks with the locks that they took, in the order in which they took them. -/
def acquisitions (s : Deployment ρ α) : List (Nat × Nat) :=
  s.log.filterMap fun entry => entry.2.acquired?.map fun lock => (entry.1, lock)

/-- One more call has taken a lock or not. -/
theorem acquisitions_concat {entry : Nat × Exchange} (hlog : s'.log = s.log ++ [entry]) :
    s'.acquisitions =
      s.acquisitions ++ (entry.2.acquired?.map fun lock => (entry.1, lock)).toList := by
  rw [acquisitions, hlog, List.filterMap_append, ← acquisitions]
  cases h : entry.2.acquired? <;> simp [h]

/-- The tasks in the order in which they took locks. -/
def lockOrder (s : Deployment ρ α) : List Nat :=
  s.acquisitions.map Prod.fst

theorem lockOrder_concat {entry : Nat × Exchange} (hlog : s'.log = s.log ++ [entry]) :
    s'.lockOrder = s.lockOrder ++ (entry.2.acquired?.map fun _ => entry.1).toList := by
  rw [lockOrder, acquisitions_concat hlog, List.map_append, ← lockOrder]
  cases entry.2.acquired? <;> rfl

/-- The takings of a task are those among its calls. -/
theorem acquisitions_filter (s : Deployment ρ α) (i : Nat) :
    (s.acquisitions.filter fun entry => entry.1 = i) =
      ((s.exchangesOf i).filterMap Exchange.acquired?).map fun lock => (i, lock) := by
  rw [acquisitions, exchangesOf, List.filter_filterMap, List.filterMap_filterMap,
    List.map_filterMap]
  refine List.filterMap_congr fun entry _ => ?_
  obtain ⟨j, e⟩ := entry
  by_cases hj : j = i
  · subst hj
    cases h : e.acquired? <;> simp [h]
  · cases e.acquired? <;> simp [hj]

/-- A task stands in the lock order as often as it took a lock. -/
theorem count_lockOrder (s : Deployment ρ α) (i : Nat) :
    s.lockOrder.count i = ((s.exchangesOf i).filterMap Exchange.acquired?).length := by
  have hown := congrArg List.length (acquisitions_filter s i)
  rw [List.length_map, ← List.countP_eq_length_filter] at hown
  rw [lockOrder, List.count, List.countP_map, ← hown]
  exact List.countP_congr fun entry _ => by simp

/-- A task in the lock order is one of the tasks. -/
theorem exists_task_of_mem_lockOrder (h : (idle w).run code moves = some s) {i : Nat}
    (hi : i ∈ s.lockOrder) : ∃ t, s.tasks[i]? = some t := by
  by_cases hlt : i < s.tasks.length
  · exact ⟨_, List.getElem?_eq_getElem hlt⟩
  · rw [← List.count_pos_iff, count_lockOrder,
      (follows_of_run h).2 i (Nat.le_of_not_lt hlt)] at hi
    exact absurd hi (Nat.lt_irrefl 0)

section OneProcess

variable {process : Nat} (h : (idle w).run code moves = some s)
  (hone : ∀ other request, .start other request ∈ moves → other = process)
include h hone

/-- **Whoever holds a lock took it last.** -/
theorem acquisitions_of_held {i lock : Nat} {t : Task ρ α} (ht : s.tasks[i]? = some t)
    (hlock : lock ∈ t.locks) :
    ∃ earlier later, s.acquisitions = earlier ++ (i, lock) :: later ∧
      ∀ entry ∈ later, entry.2 ≠ lock := by
  rw [locks_of_run h ht] at hlock
  clear ht
  induction moves, s, h using run_induction with
  | nil => cases hlock
  | @concat before s move s' hbefore _ ih hstep =>
    have hone' : ∀ other request, .start other request ∈ before → other = process :=
      fun other request hmem => hone other request (List.mem_append_left _ hmem)
    rcases log_of_step hstep with hlog | ⟨j, u, c, next, answer?, hj, -, -, hlog, hreact⟩
    · rw [exchangesOf, hlog] at hlock
      rw [acquisitions, hlog]
      exact ih hone' hlock
    · have hown := exchangesOf_concat hlog i
      have hmem : lock ∈ Exchange.heldAfter (s.exchangesOf i) ∨
          (j = i ∧ Exchange.acquired? ⟨c, answer?⟩ = some lock) := by
        by_cases hji : j = i
        · rw [hown, if_pos hji, Exchange.heldAfter_concat] at hlock
          exact (Exchange.mem_locksAfter hlock).imp_right fun hacquired => ⟨hji, hacquired⟩
        · rw [hown, if_neg hji, List.append_nil] at hlock
          exact .inl hlock
      rw [acquisitions_concat hlog]
      rcases hmem with hheld | ⟨rfl, hacquired⟩
      · obtain ⟨earlier, later, hsplit, hlater⟩ := ih hone' hheld
        refine ⟨earlier, later ++ ((Exchange.acquired? ⟨c, answer?⟩).map fun taken =>
          (j, taken)).toList, by rw [hsplit]; simp, ?_⟩
        intro entry hentry
        rcases List.mem_append.1 hentry with hentry | hentry
        · exact hlater entry hentry
        · -- the lock that is taken now was free, and the other one was not
          rintro rfl
          obtain ⟨taken, hacquired, rfl⟩ := by simpa using hentry
          cases Exchange.acquired?_eq_some hacquired
          have hlt : i < s.tasks.length := by
            by_contra hge
            rw [(follows_of_run hbefore).2 i (Nat.le_of_not_lt hge)] at hheld
            cases hheld
          have hi : s.tasks[i]? = some s.tasks[i] := List.getElem?_eq_getElem hlt
          refine World.free_of_react (hreact () rfl) (mem_heldBy.2 ⟨_, List.mem_of_getElem? hi, ?_⟩)
          have hprocess := process_of_run hbefore hone'
          rw [hprocess _ (List.mem_of_getElem? hi), hprocess u (List.mem_of_getElem? hj),
            locks_of_run hbefore hi]
          exact ⟨rfl, hheld⟩
      · rw [hacquired]
        exact ⟨s.acquisitions, [], rfl, by simp⟩

/-- **Mutual exclusion.**  A lock is held by one task at most. -/
theorem eq_of_held {i j lock : Nat} {t u : Task ρ α} (ht : s.tasks[i]? = some t)
    (hu : s.tasks[j]? = some u) (hi : lock ∈ t.locks) (hj : lock ∈ u.locks) : i = j := by
  have hlast {k : Nat} {v : Task ρ α} (hv : s.tasks[k]? = some v) (hk : lock ∈ v.locks) :
      (s.acquisitions.filter fun entry => entry.2 = lock).getLast? = some (k, lock) := by
    obtain ⟨earlier, later, hsplit, hlater⟩ := acquisitions_of_held h hone hv hk
    have hnone : (later.filter fun entry => entry.2 = lock) = [] := by
      rw [List.filter_eq_nil_iff]
      simpa using hlater
    rw [hsplit, List.filter_append, List.filter_cons_of_pos (by simp), hnone, List.getLast?_concat]
  have heq := (hlast ht hi).symm.trans (hlast hu hj)
  exact congrArg Prod.fst (Option.some.inj heq)

end OneProcess

end Deployment
end SealedChannel
