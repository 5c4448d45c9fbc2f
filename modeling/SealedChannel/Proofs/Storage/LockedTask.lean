import SealedChannel.Proofs.Deployment.InTurn
import SealedChannel.Proofs.Storage.LockedChange

/-!
# One change under a lock

One process changes modes in a store without compare-and-set, and its changes take turns.  What one
of them has done so far is told by its calls alone, whatever the others did in the meantime: whether
it holds its lock, whether it is in its store calls, and whether it has written.

## What is here

* `LockedRace.Inside` — a change in its store calls.
* `LockedRace.stage_of_run`, `LockedRace.calls_of_run` — how far a change has come.
* `LockedRace.locks_of_returned`, `LockedRace.writesOf_of_cut` — a change that is done or cut off
  holds no lock, and one that was cut off has written nothing.
* `LockedRace.eq_of_inside` — two changes of a channel are not in their store calls at once.
* `LockedRace.progress_of_run` — a race under way can go on.
-/

set_option autoImplicit false
namespace SealedChannel
namespace LockedRace

open Deployment

/-- A change under way. -/
abbrev ModeTask : Type :=
  Task ModeChange (Except StoreError Bool)

/-- The changes of a process. -/
abbrev code (m : Modes) : Nat → ModeChange → Program (Except StoreError Bool) :=
  ModeChange.program fun _ => m

/-- A task is between the beginning of its read and the end of its write. -/
def Inside (t : ModeTask) : Prop :=
  t.isCut = false ∧ ∃ limit c next, t.rest = .call (.store limit c) next

variable {m : Modes} {w : World} {moves : List (Move ModeChange)} {s : ModeRace}

section Task

variable (hatomic : m.atomic = false) (h : (idle w).run (code m) moves = some s)
include hatomic h

/-- How far a task has come; one that is cut off has one more call, without an answer. -/
theorem stage_of_run {i : Nat} {t : ModeTask} (ht : s.tasks[i]? = some t) :
    ∃ answered, m.Stage t.request.channelId t.request.mode answered t.rest ∧
      if t.isCut then ∃ c next, t.rest = .call c next ∧ s.exchangesOf i = answered ++ [⟨c, none⟩]
      else s.exchangesOf i = answered := by
  obtain ⟨answered, hleads, hown⟩ := (follows_of_run h).1 i t ht
  exact ⟨answered, Modes.stage_of_leads hatomic hleads, hown⟩

/-- A task that is not cut off is at a stage. -/
theorem stage_of_uncut {i : Nat} {t : ModeTask}
    (ht : s.tasks[i]? = some t) (hcut : t.isCut = false) :
    m.Stage t.request.channelId t.request.mode (s.exchangesOf i) t.rest := by
  obtain ⟨answered, hstage, hown⟩ := stage_of_run hatomic h ht
  rw [hcut, if_neg Bool.false_ne_true] at hown
  rwa [hown]

/-- The calls of a task are those of its change, and it takes the lock of its change once at
most. -/
theorem calls_of_run {i : Nat} {t : ModeTask} (ht : s.tasks[i]? = some t) :
    (∀ e ∈ s.exchangesOf i, e.call ∈ m.calls t.request.channelId t.request.mode) ∧
      ((s.exchangesOf i).filterMap Exchange.acquired? = [] ∨
        (s.exchangesOf i).filterMap Exchange.acquired? = [m.lockOf t.request.channelId]) := by
  obtain ⟨answered, hstage, hown⟩ := stage_of_run hatomic h ht
  split at hown
  · obtain ⟨c, next, hrest, hown⟩ := hown
    have hnone : Exchange.acquired? ⟨c, none⟩ = none := by cases c <;> rfl
    rw [hown, List.filterMap_append, List.filterMap_cons, hnone]
    refine ⟨fun e he => ?_, by simpa using hstage.acquired⟩
    rcases List.mem_append.1 he with he | he
    · exact hstage.call_mem e he
    · obtain rfl := List.mem_singleton.1 he
      rw [hrest] at hstage
      exact hstage.next_mem
  · rw [hown]
    exact ⟨hstage.call_mem, hstage.acquired⟩

/-- The calls of a task are about the key of its channel. -/
theorem key_of_isOn {i : Nat} {t : ModeTask}
    (ht : s.tasks[i]? = some t) {e : Exchange} (he : e ∈ s.exchangesOf i) {key : String}
    (hon : e.call.isOn key = true) : key = Key.mode t.request.channelId :=
  Modes.key_of_isOn ((calls_of_run hatomic h ht).1 e he) hon

/-- The takings of a task are those of its lock. -/
theorem lock_of_acquisition {i lock : Nat} {t : ModeTask}
    (ht : s.tasks[i]? = some t) (hmem : (i, lock) ∈ s.acquisitions) :
    lock = m.lockOf t.request.channelId := by
  have hown : (i, lock) ∈ s.acquisitions.filter fun entry => entry.1 = i :=
    List.mem_filter.2 ⟨hmem, decide_eq_true rfl⟩
  rw [acquisitions_filter] at hown
  rcases (calls_of_run hatomic h ht).2 with hnone | hone
  · simp [hnone] at hown
  · simpa [hone] using hown

/-- Each task takes its lock once at most. -/
theorem nodup_lockOrder : s.lockOrder.Nodup := by
  rw [List.nodup_iff_count]
  intro i
  rw [count_lockOrder]
  by_cases hlt : i < s.tasks.length
  · rcases (calls_of_run hatomic h (List.getElem?_eq_getElem hlt)).2 with hnone | hone
    · simp [hnone]
    · simp [hone]
  · simp [(follows_of_run h).2 i (Nat.le_of_not_lt hlt)]

/-- The calls of a task that is done. -/
theorem ending_of_run {i : Nat} {t : ModeTask}
    {r : Except StoreError Bool} (ht : s.tasks[i]? = some t) (hr : t.result? = some r) :
    ∃ calls, s.exchangesOf i = m.taken t.request.channelId :: calls ++
        [m.givenBack t.request.channelId] ∧
      m.Ending t.request.channelId t.request.mode calls r := by
  obtain ⟨answered, hstage, hown⟩ := stage_of_run hatomic h ht
  rw [Task.result?_eq_some_iff] at hr
  rw [hr] at hstage hown
  split at hown
  · obtain ⟨c, next, hcall, -⟩ := hown
    cases hcall
  · rw [hown]
    exact hstage.ending

/-- A task that is done or cut off holds no lock. -/
theorem locks_of_returned {i : Nat} {t : ModeTask}
    (ht : s.tasks[i]? = some t) (hreturned : ¬ t.IsUnderWay) : t.locks = [] := by
  rw [locks_of_run h ht]
  obtain ⟨answered, hstage, hown⟩ := stage_of_run hatomic h ht
  by_cases hcut : t.isCut = true
  · rw [if_pos hcut] at hown
    obtain ⟨c, next, -, hown⟩ := hown
    rw [hown, Exchange.heldAfter_concat]
    rfl
  · rw [if_neg hcut] at hown
    cases hrest : t.rest with
    | call c next =>
      exact absurd ⟨by rw [Task.result?, hrest], by simpa using hcut⟩ hreturned
    | done r =>
      rw [hrest] at hstage
      rw [hown]
      exact hstage.held

/-- A task that is done took its lock. -/
theorem mem_lockOrder_of_done {i : Nat} {t : ModeTask}
    {r : Except StoreError Bool} (ht : s.tasks[i]? = some t) (hr : t.result? = some r) :
    i ∈ s.lockOrder := by
  obtain ⟨calls, hcalls, -⟩ := ending_of_run hatomic h ht hr
  rw [← List.count_pos_iff, count_lockOrder, hcalls]
  exact Nat.succ_pos _

/-- A task that was cut off while it waited has written nothing. -/
theorem writesOf_of_cut (hwaiting : ∀ i lock, (i, ⟨.release lock, none⟩) ∉ s.log) {i : Nat}
    {t : ModeTask} (ht : s.tasks[i]? = some t)
    (hcut : t.isCut = true) : s.writesOf i = [] := by
  obtain ⟨answered, hstage, hown⟩ := stage_of_run hatomic h ht
  rw [if_pos hcut] at hown
  obtain ⟨c, next, hrest, hown⟩ := hown
  rw [hrest] at hstage
  obtain ⟨before, after, hlog, -⟩ := log_of_exchangesOf hown
  have hc : ∀ lock, c ≠ .release lock := by
    rintro lock rfl
    exact hwaiting i lock (by rw [hlog]; simp)
  have hnone : Exchange.write? ⟨c, none⟩ = none := by cases c <;> rfl
  rw [writesOf, hown, List.filterMap_append, hstage.writes hc, List.filterMap_cons, hnone]
  rfl

/-- Two tasks on one channel that are both in a store call are one task. -/
theorem eq_of_inside (hone : ∀ process request, .start process request ∈ moves → process = 0)
    {i j : Nat} {t u : ModeTask} (ht : s.tasks[i]? = some t)
    (hu : s.tasks[j]? = some u) (hchannel : t.request.channelId = u.request.channelId)
    (hi : Inside t) (hj : Inside u) : i = j := by
  have hheld {k : Nat} {v : ModeTask} (hv : s.tasks[k]? = some v)
      (hk : Inside v) : m.lockOf v.request.channelId ∈ v.locks := by
    obtain ⟨hcut, limit, c, next, hrest⟩ := hk
    have hstage := stage_of_uncut hatomic h hv hcut
    rw [hrest] at hstage
    rcases hstage.next_call with ⟨hcall, -⟩ | ⟨hheld, -⟩
    · cases hcall
    · rw [locks_of_run h hv, hheld]
      exact List.mem_singleton_self _
  exact eq_of_held h hone ht hu (hheld ht hi) (hchannel ▸ hheld hu hj)

/-- The tasks that were cut off while they waited have left nothing under any key. -/
theorem lastEffect?_accounts (hwaiting : ∀ i lock, (i, ⟨.release lock, none⟩) ∉ s.log)
    (order : List Nat) (key : String) :
    Exchange.lastEffect? key ((order.filterMap s.account?).flatMap Account.calls) =
      Exchange.lastEffect? key (order.flatMap s.exchangesOf) := by
  induction order with
  | nil => rfl
  | cons i order ih =>
    rw [List.flatMap_cons, Exchange.lastEffect?_append, ← ih, List.filterMap_cons, account?]
    cases htask : s.task? i with
    | some t => exact Exchange.lastEffect?_append ..
    | none =>
      have hnone : Exchange.lastEffect? key (s.exchangesOf i) = none := by
        by_cases hlt : i < s.tasks.length
        · have ht := List.getElem?_eq_getElem hlt
          have hcut : s.tasks[i].isCut = true := by
            by_contra huncut
            rw [task?_eq_some_iff.2 ⟨ht, by simpa using huncut⟩] at htask
            cases htask
          exact Exchange.lastEffect?_of_writes (writesOf_of_cut hatomic h hwaiting ht hcut) key
        · rw [(follows_of_run h).2 i (Nat.le_of_not_lt hlt)]
          rfl
      rw [hnone, Option.or_none]
      rfl

/-- A race under way can go on: some change can make its next call. -/
theorem progress_of_run (hsome : ∃ t ∈ s.tasks, t.IsUnderWay) :
    ∃ i s', s.step (code m) (.advance i) = some s' := by
  have hnext {i : Nat} {t : ModeTask} (ht : s.tasks[i]? = some t) (hunderWay : t.IsUnderWay)
      (hready : s.exchangesOf i ≠ [] ∨ s.heldBy t.process = []) :
      ∃ i s', s.step (code m) (.advance i) = some s' := by
    obtain ⟨c, next, hrest⟩ := hunderWay.exists_rest
    have hstage := stage_of_uncut hatomic h ht hunderWay.2
    rw [hrest] at hstage
    obtain ⟨answer, world, hreact⟩ :
        ∃ answer world, (s.view t.process).react c = .answered answer world := by
      rcases hready with hready | hfree
      · exact hstage.answered hready _
      · rcases hstage.next_call with ⟨rfl, -⟩ | ⟨hheld, -⟩
        · have hlock : m.lockOf t.request.channelId ∉ (s.view t.process).held := by
            rw [view, hfree]
            exact List.not_mem_nil
          exact ⟨(), _, World.react_acquire hlock⟩
        · refine hstage.answered ?_ _
          rintro hnil
          rw [hnil] at hheld
          cases hheld
    exact ⟨i, _, step_advance ht hunderWay.2 hrest hreact⟩
  by_cases hheld : ∃ t ∈ s.tasks, t.locks ≠ []
  · -- whoever holds a lock makes a store call next or gives it back
    obtain ⟨t, hmem, hlocks⟩ := hheld
    obtain ⟨i, ht⟩ := List.mem_iff_getElem?.1 hmem
    refine hnext ht (not_not.1 fun hreturned => ?_) (.inl fun hnone => ?_)
    · exact hlocks (locks_of_returned hatomic h ht hreturned)
    · rw [locks_of_run h ht, hnone] at hlocks
      exact hlocks rfl
  · obtain ⟨t, hmem, hunderWay⟩ := hsome
    obtain ⟨i, ht⟩ := List.mem_iff_getElem?.1 hmem
    refine hnext ht hunderWay (.inr (List.eq_nil_iff_forall_not_mem.2 fun lock hlock => ?_))
    obtain ⟨u, hu, -, hlock⟩ := mem_heldBy.1 hlock
    exact hheld ⟨u, hu, List.ne_nil_of_mem hlock⟩

end Task

end LockedRace
end SealedChannel
