import SealedChannel.Proofs.Storage.LockedTask

/-!
# Races under locks

One process changes modes in a store without compare-and-set, and nobody else writes to it.  A
change reads and writes in two calls, so that only its lock keeps another change of the channel from
coming between them.  Several channels may share a lock, and a change may fail, be too slow, find
nothing to do or be cut off at any point at which it waits.

The log of such a race is put in order task by task: the calls about one key are, in the log itself,
those of the first task of the lock order, then those of the second, and so on, because a task makes
its store calls while it is the last that took its lock.  So each answer is the one that the task
would have got if the earlier tasks of the lock order had come to their end before it began.

## What is here

* `LockedRace.Exclusive` — mutual exclusion.
* `LockedRace.about_of_run` — the calls about a key, task by task.
* `LockedRace.told_of_run` — what a task was told is what the earlier tasks have left.
* `LockedRace.Serializable`, `LockedRace.exists_served` — the tasks run one after another.
* `LockedRace.ChangedOnce`, `LockedRace.changedOnce_of_run` — one confirmed change of all.
* `LockedRace.setIfDifferent_inTurn` — all of these together.
-/

set_option autoImplicit false
namespace SealedChannel
namespace LockedRace

open Deployment

/-- No two changes of one channel are between the beginning of their read and the end of their
write. -/
def Exclusive (s : ModeRace) : Prop :=
  ∀ (i j : Nat) (t u : ModeTask), s.tasks[i]? = some t → s.tasks[j]? = some u →
    t.request.channelId = u.request.channelId → Inside t → Inside u → i = j

/-- The changes that were not cut off stand in the order in which they got their locks, each once.
Run one after another in this order, they make the same calls with the same answers, come to the
same results and leave the same store. -/
def Serializable (m : Modes) (w : World) (s : ModeRace) : Prop :=
  s.lockOrder.Nodup ∧ (∀ i, (s.task? i).isSome → i ∈ s.lockOrder) ∧
    ∃ s', InTurn (code m) 0 (idle w) ((s.lockOrder.filterMap s.account?).map Account.request) s' ∧
      s'.accounts = s.lockOrder.filterMap s.account? ∧
      ∀ key, s'.world.store.get? key = s.world.store.get? key

/-- The writes that some calls ask for. -/
def issued (exchanges : List Exchange) : List (String × Option Bytes) :=
  exchanges.filterMap fun e => e.call.target?

/-- If the channel had another mode at first, exactly one task is confirmed, and it issues the only
write; otherwise no task is confirmed, and none issues a write. -/
def ChangedOnce (w : World) (s : ModeRace) (channelId : String) (mode : Mode) : Prop :=
  if w.store.modeOf channelId = mode then
    (∀ t : ModeTask, t ∈ s.tasks → t.result? = some (.ok false)) ∧ issued (s.log.map Prod.snd) = []
  else ∃ i < s.tasks.length,
    (∀ j (t : ModeTask), s.tasks[j]? = some t → t.result? = some (.ok (decide (j = i)))) ∧
    issued (s.exchangesOf i) = [(Key.mode channelId, some mode.encode)] ∧
    issued (s.log.map Prod.snd) = [(Key.mode channelId, some mode.encode)]

variable {m : Modes} {w : World} {moves : List (Move ModeChange)} {s : ModeRace}

/-- The writes that are issued are those of one task, if no other one issues any. -/
theorem issued_log {i : Nat} (hothers : ∀ j, j ≠ i → issued (s.exchangesOf j) = []) :
    issued (s.log.map Prod.snd) = issued (s.exchangesOf i) := by
  rw [issued, issued, exchangesOf, List.filterMap_map, List.filterMap_filterMap]
  refine List.filterMap_congr fun entry hentry => ?_
  obtain ⟨j, e⟩ := entry
  rcases eq_or_ne j i with rfl | hne
  · simp
  · have hnone := hothers j hne
    rw [issued, List.filterMap_eq_nil_iff] at hnone
    simpa [hne] using hnone e (mem_exchangesOf.2 hentry)

/-! ## One key -/

/-- One more element in one of several lists in a row, after which there are only empty ones. -/
theorem flatMap_concat {α : Type} {f : Nat → List α} {earlier later : List Nat} {j : Nat} {a : α}
    (hnodup : (earlier ++ j :: later).Nodup) (hlater : ∀ i ∈ later, f i = []) :
    ((earlier ++ j :: later).flatMap fun i => f i ++ if j = i then [a] else []) =
      (earlier ++ j :: later).flatMap f ++ [a] := by
  rw [List.nodup_append, List.nodup_cons] at hnodup
  obtain ⟨-, ⟨hnotlater, -⟩, hnotearlier⟩ := hnodup
  have hsame {order : List Nat} (hj : j ∉ order) :
      (order.flatMap fun i => f i ++ if j = i then [a] else []) = order.flatMap f := by
    refine List.flatMap_congr fun i hi => ?_
    have hne : j ≠ i := by rintro rfl; exact hj hi
    rw [if_neg hne, List.append_nil]
  have hnone : later.flatMap f = [] := by simpa using hlater
  rw [List.flatMap_append, List.flatMap_cons, hsame hnotlater,
    hsame fun hj => hnotearlier j hj j List.mem_cons_self rfl, List.flatMap_append,
    List.flatMap_cons, hnone, if_pos rfl]
  simp

section OneProcess

variable (hatomic : m.atomic = false) (h : (idle w).run (code m) moves = some s)
  (hone : ∀ process request, .start process request ∈ moves → process = 0)
include hatomic h hone

/-- A task in a store call about a key holds its lock, and no task after it in the lock order has
made a call about the key. -/
theorem later_of_isOn {i : Nat} {t : ModeTask}
    (ht : s.tasks[i]? = some t) (hcut : t.isCut = false) {c : Call}
    {next : c.Answer → Program (Except StoreError Bool)} (hrest : t.rest = .call c next)
    {key : String} (hon : c.isOn key = true) :
    ∃ earlier later, s.lockOrder = earlier ++ i :: later ∧
      ∀ j ∈ later, Exchange.about key (s.exchangesOf j) = [] := by
  have hstage := stage_of_uncut hatomic h ht hcut
  rw [hrest] at hstage
  obtain rfl := Modes.key_of_isOn hstage.next_mem hon
  have hheld : m.lockOf t.request.channelId ∈ t.locks := by
    rcases hstage.next_call with ⟨rfl, -⟩ | ⟨hheld, -⟩
    · cases hon
    · rw [locks_of_run h ht, hheld]
      exact List.mem_singleton_self _
  obtain ⟨earlier, later, hsplit, hlater⟩ := acquisitions_of_held h hone ht hheld
  refine ⟨earlier.map Prod.fst, later.map Prod.fst, by rw [lockOrder, hsplit]; simp, ?_⟩
  intro j hj
  obtain ⟨⟨j, lock⟩, hmem, rfl⟩ := List.mem_map.1 hj
  rw [Exchange.about, List.filter_eq_nil_iff]
  intro e he honother
  by_cases hlt : j < s.tasks.length
  · -- a call about the key is one of a change of the same channel, whose lock is the same
    have hu := List.getElem?_eq_getElem hlt
    have hchannel := Key.mode_inj.1 (key_of_isOn hatomic h hu he honother)
    have hacquired : (j, lock) ∈ s.acquisitions := by
      rw [hsplit]
      exact List.mem_append_right _ (List.mem_cons_of_mem _ hmem)
    exact hlater _ hmem (by rw [lock_of_acquisition hatomic h hu hacquired, hchannel])
  · rw [(follows_of_run h).2 j (Nat.le_of_not_lt hlt)] at he
    cases he

/-- **One key, task by task.**  The calls about a key are those of the first task of the lock order,
then those of the second, and so on. -/
theorem about_of_run (key : String) :
    Exchange.about key (s.log.map Prod.snd) =
      Exchange.about key (s.lockOrder.flatMap s.exchangesOf) := by
  simp only [Exchange.about_flatMap]
  induction moves, s, h using run_induction with
  | nil => rfl
  | @concat before s move s' hbefore hrun ih hstep =>
    have hone' : ∀ process request, .start process request ∈ before → process = 0 :=
      fun process request hmem => hone process request (List.mem_append_left _ hmem)
    have hkept := ih hone'
    rcases log_of_step hstep with hlog | ⟨j, t, c, next, answer?, hj, hcut, hrest, hlog, -⟩
    · have hsame : s'.exchangesOf = s.exchangesOf := by
        funext i
        rw [exchangesOf, hlog, exchangesOf]
      rw [hlog, hsame, lockOrder, acquisitions, hlog]
      exact hkept
    · rw [lockOrder_concat hlog, hlog, List.map_append, Exchange.about_append, hkept]
      by_cases hon : c.isOn key = true
      · obtain ⟨earlier, later, hsplit, hlater⟩ :=
          later_of_isOn hatomic hbefore hone' hj hcut hrest hon
        have hnodup := nodup_lockOrder hatomic hbefore
        have hnone : Exchange.acquired? ⟨c, answer?⟩ = none := by
          cases c <;> first | rfl | cases hon
        have hown (i : Nat) : Exchange.about key (s'.exchangesOf i) =
            Exchange.about key (s.exchangesOf i) ++ if j = i then [⟨c, answer?⟩] else [] := by
          rw [exchangesOf_concat hlog, Exchange.about_append]
          split
          · rw [Exchange.about_singleton, if_pos hon]
          · rfl
        simp only [hown]
        rw [hsplit] at hnodup ⊢
        rw [hnone, Option.map_none, Option.toList_none, List.append_nil,
          flatMap_concat hnodup hlater, List.map_singleton, Exchange.about_singleton, if_pos hon]
      · have hown : (fun i => Exchange.about key (s'.exchangesOf i)) =
            fun i => Exchange.about key (s.exchangesOf i) := by
          funext i
          rw [exchangesOf_concat hlog, Exchange.about_append]
          split
          · rw [Exchange.about_singleton, if_neg hon, List.append_nil]
          · exact List.append_nil _
        rw [hown, List.flatMap_append, List.map_singleton, Exchange.about_singleton, if_neg hon]
        congr 1
        cases hacquired : Exchange.acquired? ⟨c, answer?⟩ with
        | none => rfl
        | some lock =>
          -- a task that takes its lock has made no call before
          have hstage := stage_of_uncut hatomic hbefore hj hcut
          rw [hrest] at hstage
          cases Exchange.acquired?_eq_some hacquired
          rcases hstage.next_call with ⟨-, hnone⟩ | ⟨-, hcall⟩
          · rw [Option.map_some, Option.toList_some, List.flatMap_singleton, hnone]
            rfl
          · simp at hcall

end OneProcess

/-! ## What a task was told -/

section Undisturbed

variable (hatomic : m.atomic = false) (hw : ∀ key, w.store.Spares key)
  (hone : ∀ process request, .start process request ∈ moves → process = 0)
  (hmoves : ∀ key, Spare moves key) (h : (idle w).run (code m) moves = some s)
include hatomic hw hone hmoves h

/-- **Answers in lock order.**  Each answer was given by a store that held under the key what the
earlier tasks of the lock order and the earlier calls of the task have left there. -/
theorem told_of_run {i : Nat} {earlier later : List Nat} (horder : s.lockOrder = earlier ++ i :: later)
    {before after : List Exchange} {limit : Duration} {c : StoreCall}
    {answer : Except StoreError c.Answer}
    (hcalls : s.exchangesOf i = before ++ ⟨.store limit c, some answer⟩ :: after) :
    ∃ store : Store, (store.call (some limit) c).1 = answer ∧ store.get? c.key =
      (Exchange.lastEffect? c.key (earlier.flatMap s.exchangesOf ++ before)).getD
        (w.store.get? c.key) := by
  have hon : (Call.store limit c).isOn c.key = true := decide_eq_true rfl
  have hall := about_of_run hatomic h hone c.key
  rw [horder, List.flatMap_append, List.flatMap_cons, hcalls, List.append_assoc, List.cons_append,
    ← List.append_assoc, Exchange.about_append, Exchange.about, Exchange.about, Exchange.about,
    List.filter_cons, if_pos hon] at hall
  -- the call stands in the log after the calls about its key that come before it here
  obtain ⟨first, rest, hlog, hfirst, hrest⟩ := List.filter_eq_append_iff.1 hall
  obtain ⟨skipped, last, rfl, hskipped, -, -⟩ := List.filter_eq_cons_iff.1 hrest
  rw [← List.append_assoc] at hlog
  obtain ⟨log₁, log₂, hsplit, hlog₁, hlog₂⟩ := List.map_eq_append_iff.1 hlog
  obtain ⟨⟨j, e⟩, log₃, rfl, rfl, -⟩ := List.map_eq_cons_iff.1 hlog₂
  obtain ⟨s₁, s₂, hmakes, hs₁, -, t, next, -, -, -, hreact⟩ := makes_of_log h hsplit
  obtain ⟨moves₁, moves₂, hmoves₁, hrun₁⟩ := hmakes.visits
  refine ⟨s₁.world.store, (World.react_store hreact).1, ?_⟩
  have hspare : Spare moves₁ c.key := fun change hchange =>
    hmoves c.key change (by rw [hmoves₁]; exact List.mem_append_left _ hchange)
  rw [get?_of_run hrun₁ (hw c.key) hspare, lastEffect?, hs₁, hlog₁, ← Exchange.lastEffect?_about,
    ← Exchange.lastEffect?_about c.key (_ ++ before), Exchange.about_append]
  have hnone : Exchange.about c.key skipped = [] := by
    rw [Exchange.about, List.filter_eq_nil_iff]
    simpa using hskipped
  rw [hnone, List.append_nil, Exchange.about, hfirst]
  rfl

/-- The calls of a task can be answered again after those of the earlier tasks of the lock
order. -/
theorem repeatable_of_run {i : Nat} {earlier later : List Nat}
    (horder : s.lockOrder = earlier ++ i :: later)
    {t : ModeTask} (ht : s.tasks[i]? = some t) :
    Repeatable w (earlier.flatMap s.exchangesOf) (s.exchangesOf i) := by
  intro before after c answer hpath v hheld hget
  obtain ⟨hcalls, hacquired⟩ := calls_of_run hatomic h ht
  have hmem := hcalls ⟨c, some answer⟩ (by rw [hpath]; simp)
  simp only [Modes.calls, List.mem_cons, List.not_mem_nil, or_false] at hmem
  rcases hmem with rfl | rfl | rfl | rfl
  · -- the task took no lock before this one
    have hnone : before.filterMap Exchange.acquired? = [] := by
      rw [hpath, List.filterMap_append, List.filterMap_cons] at hacquired
      rcases hacquired with hacquired | hacquired
      · exact (List.append_eq_nil_iff.1 hacquired).1
      · exact (List.append_eq_singleton_iff.1 hacquired).elim And.left fun hother => by
          cases hother.2
    rw [Exchange.heldAfter_of_acquired? hnone] at hheld
    have hfree : m.lockOf t.request.channelId ∉ (v.change (.faultsOf w.store)).held := by
      change _ ∉ v.held
      rw [hheld]
      exact List.not_mem_nil
    exact ⟨w.store, _, World.react_acquire hfree⟩
  · obtain ⟨store, rfl, hstore⟩ := told_of_run hatomic hw hone hmoves h horder hpath
    exact ⟨store, World.react_get_faultsOf ((hget _).trans hstore.symm) m.limit⟩
  · obtain ⟨store, rfl, -⟩ := told_of_run hatomic hw hone hmoves h horder hpath
    exact ⟨store, World.react_set_faultsOf v store m.limit _ _⟩
  · exact ⟨w.store, _, rfl⟩

/-- **One after another.**  The tasks of a beginning of the lock order that were not cut off can be
run one after another, and each makes the same calls with the same answers. -/
theorem exists_served (hwaiting : ∀ i lock, (i, ⟨.release lock, none⟩) ∉ s.log)
    (hreturned : ∀ t ∈ s.tasks, ¬ t.IsUnderWay) {earlier later : List Nat}
    (horder : s.lockOrder = earlier ++ later) :
    ∃ s', Served (code m) 0 w (earlier.filterMap s.account?) s' := by
  induction earlier using List.reverseRecOn generalizing later with
  | nil => exact ⟨idle w, .nil ..⟩
  | append_singleton earlier i ih =>
    rw [List.append_assoc, List.singleton_append] at horder
    obtain ⟨s₁, hserved⟩ := ih horder
    rw [List.filterMap_append, List.filterMap_cons, List.filterMap_nil, account?]
    cases htask : s.task? i with
    | none => exact ⟨s₁, by simpa using hserved⟩
    | some t =>
      obtain ⟨ht, hcut⟩ := task?_eq_some_iff.1 htask
      have hdone := hreturned t (List.mem_of_getElem? ht)
      cases hr : t.result? with
      | none => exact absurd ⟨hr, hcut⟩ hdone
      | some r =>
        have hrepeat := (repeatable_of_run hatomic hw hone hmoves h horder ht).congr fun key =>
          (lastEffect?_accounts hatomic h hwaiting earlier key).symm
        have hheld := (locks_of_run h ht).symm.trans (locks_of_returned hatomic h ht hdone)
        have hleads : (code m 0 t.request).Leads (s.exchangesOf i) (.done r) := leads_of_run h ht hr
        obtain ⟨s', hserved'⟩ := hserved.concat hw hleads hrepeat hheld
        exact ⟨s', by simpa [hr] using hserved'⟩

/-! ## One change of all -/

/-- What the earlier tasks of the lock order leave for the mode of a channel. -/
def modeAfter (s : ModeRace) (w : World) (channelId : String) (order : List Nat) : Mode :=
  Mode.current ((Exchange.lastEffect? (Key.mode channelId) (order.flatMap s.exchangesOf)).getD
    (w.store.get? (Key.mode channelId)))

/-- A change reads what the earlier tasks of the lock order have left. -/
theorem modeAfter_of_read {i : Nat} {earlier later : List Nat}
    (horder : s.lockOrder = earlier ++ i :: later) {channelId : String} {raw : Option Bytes}
    {calls : List Exchange}
    (hcalls : s.exchangesOf i = m.taken channelId :: m.wasRead channelId (.ok raw) :: calls) :
    modeAfter s w channelId earlier = Mode.current raw := by
  have hsplit : s.exchangesOf i =
      [m.taken channelId] ++ m.wasRead channelId (.ok raw) :: calls := hcalls
  obtain ⟨store, hanswer, hstore⟩ := told_of_run hatomic hw hone hmoves h horder hsplit
  rw [Exchange.lastEffect?_concat] at hstore
  exact congrArg Mode.current (hstore.symm.trans (Store.call_get hanswer).symm)

/-- A change that comes to its end without a failure is confirmed if and only if the earlier tasks
have left another mode; only then does it write, and in any case it leaves its own mode. -/
theorem settled_of_run {i : Nat} {earlier later : List Nat}
    (horder : s.lockOrder = earlier ++ i :: later)
    {t : ModeTask} (ht : s.tasks[i]? = some t)
    (hdone : t.result?.isSome) (hok : ∀ e ∈ s.exchangesOf i, e.succeeded = true) :
    (modeAfter s w t.request.channelId earlier = t.request.mode ∧
        t.result? = some (.ok false) ∧ issued (s.exchangesOf i) = [] ∨
      modeAfter s w t.request.channelId earlier ≠ t.request.mode ∧
        t.result? = some (.ok true) ∧ issued (s.exchangesOf i) =
          [(Key.mode t.request.channelId, some t.request.mode.encode)]) ∧
      modeAfter s w t.request.channelId (earlier ++ [i]) = t.request.mode := by
  obtain ⟨r, hr⟩ := Option.isSome_iff_exists.1 hdone
  obtain ⟨calls, hcalls, hending⟩ := ending_of_run hatomic h ht hr
  have hread {raw : Option Bytes} {calls : List Exchange}
      (hcalls : s.exchangesOf i = m.taken t.request.channelId ::
        m.wasRead t.request.channelId (.ok raw) :: calls) :=
    modeAfter_of_read hatomic hw hone hmoves h horder hcalls
  have hafter := congrArg (fun effect : Option (Option Bytes) =>
      Mode.current (effect.getD (w.store.get? (Key.mode t.request.channelId))))
    (Exchange.lastEffect?_append (Key.mode t.request.channelId) (earlier.flatMap s.exchangesOf)
      (s.exchangesOf i))
  rw [← List.flatMap_singleton s.exchangesOf, ← List.flatMap_append] at hafter
  rw [hr]
  rcases hending.of_succeeded fun e he => hok e (by rw [hcalls]; simp [he]) with
    ⟨raw, hraw, rfl, rfl⟩ | ⟨raw, hraw, rfl, rfl⟩
  · have hfound := (hread hcalls).trans hraw
    have hnone : (s.exchangesOf i).filterMap Exchange.write? = [] := by rw [hcalls]; rfl
    refine ⟨.inl ⟨hfound, rfl, by rw [hcalls]; rfl⟩, hafter.trans ?_⟩
    rw [List.flatMap_singleton, Exchange.lastEffect?_of_writes hnone, Option.none_or]
    exact hfound
  · refine ⟨.inr ⟨by rwa [hread hcalls], rfl, by rw [hcalls]; rfl⟩, hafter.trans ?_⟩
    rw [List.flatMap_singleton, hcalls, Modes.lastEffect?_written]
    exact Mode.current_encode _

section Agreed

variable {channelId : String} {mode : Mode}
  (hall : ∀ t ∈ s.tasks, t.request = ⟨channelId, mode⟩ ∧ t.result?.isSome)
  (hok : ∀ entry ∈ s.log, entry.2.succeeded = true)
include hall hok

/-- A change among others to the same mode. -/
theorem settled_of_agreed {i : Nat} {earlier later : List Nat}
    (horder : s.lockOrder = earlier ++ i :: later)
    {t : ModeTask} (ht : s.tasks[i]? = some t) :
    (modeAfter s w channelId earlier = mode ∧
        t.result? = some (.ok false) ∧ issued (s.exchangesOf i) = [] ∨
      modeAfter s w channelId earlier ≠ mode ∧ t.result? = some (.ok true) ∧
        issued (s.exchangesOf i) = [(Key.mode channelId, some mode.encode)]) ∧
      modeAfter s w channelId (earlier ++ [i]) = mode := by
  obtain ⟨hrequest, hdone⟩ := hall t (List.mem_of_getElem? ht)
  have hsettled := settled_of_run hatomic hw hone hmoves h horder ht hdone fun e he =>
    hok (i, e) (mem_exchangesOf.1 he)
  rwa [hrequest] at hsettled

/-- Once one of the changes has been made, the channel has the mode. -/
theorem modeAfter_of_agreed {earlier later : List Nat} (horder : s.lockOrder = earlier ++ later)
    (hne : earlier ≠ []) : modeAfter s w channelId earlier = mode := by
  obtain ⟨before, i, rfl⟩ := List.eq_nil_or_concat' earlier |>.resolve_left hne
  rw [List.append_assoc, List.singleton_append] at horder
  obtain ⟨t, ht⟩ := exists_task_of_mem_lockOrder h (i := i) (by rw [horder]; simp)
  exact (settled_of_agreed hatomic hw hone hmoves h hall hok horder ht).2

/-- **One change of all.**  Of some changes of one channel to one mode that all come to their end
without a failure, the first in the lock order is confirmed, and issues the only write, if the
channel had another mode; no other one is confirmed. -/
theorem changedOnce_of_run (hsome : s.tasks ≠ []) : ChangedOnce w s channelId mode := by
  obtain ⟨t₀, tasks, htasks⟩ := List.exists_cons_of_ne_nil hsome
  have hmem {i : Nat} {t : ModeTask} (ht : s.tasks[i]? = some t) :
      i ∈ s.lockOrder := by
    obtain ⟨r, hr⟩ := Option.isSome_iff_exists.1 (hall t (List.mem_of_getElem? ht)).2
    exact mem_lockOrder_of_done hatomic h ht hr
  obtain ⟨first, rest, horder⟩ := List.exists_cons_of_ne_nil
    (List.ne_nil_of_mem (hmem (i := 0) (t := t₀) (by rw [htasks]; rfl)))
  obtain ⟨t, ht⟩ := exists_task_of_mem_lockOrder h (i := first) (by rw [horder]; simp)
  have hsplit : s.lockOrder = [] ++ first :: rest := horder
  have hfirst := (settled_of_agreed hatomic hw hone hmoves h hall hok hsplit ht).1
  have hothers {j : Nat} {u : ModeTask} (hu : s.tasks[j]? = some u)
      (hne : j ≠ first) : u.result? = some (.ok false) ∧ issued (s.exchangesOf j) = [] := by
    have hj := hmem hu
    rw [horder] at hj
    obtain ⟨before, after, hsplit⟩ := List.append_of_mem ((List.mem_cons.1 hj).resolve_left hne)
    rw [hsplit, ← List.cons_append] at horder
    have hmode := modeAfter_of_agreed hatomic hw hone hmoves h hall hok horder (by simp)
    rcases (settled_of_agreed hatomic hw hone hmoves h hall hok horder hu).1 with hu | hu
    · exact hu.2
    · exact absurd hmode hu.1
  have hissued := issued_log (s := s) (i := first) fun j hne => by
    by_cases hlt : j < s.tasks.length
    · exact (hothers (List.getElem?_eq_getElem hlt) hne).2
    · rw [(follows_of_run h).2 j (Nat.le_of_not_lt hlt)]
      rfl
  have hinitial : modeAfter s w channelId [] = w.store.modeOf channelId := rfl
  rw [hinitial] at hfirst
  rw [ChangedOnce]
  rcases hfirst with ⟨hmode, hresult, hnone⟩ | ⟨hmode, hresult, hwrite⟩
  · rw [if_pos hmode]
    refine ⟨fun u hu => ?_, hissued.trans hnone⟩
    obtain ⟨j, hj⟩ := List.mem_iff_getElem?.1 hu
    rcases eq_or_ne j first with rfl | hne
    · rwa [Option.some.inj (hj.symm.trans ht)]
    · exact (hothers hj hne).1
  · rw [if_neg hmode]
    refine ⟨first, (List.getElem?_eq_some_iff.1 ht).1, ?_, hwrite, hissued.trans hwrite⟩
    intro j u hj
    rcases eq_or_ne j first with rfl | hne
    · rw [Option.some.inj (hj.symm.trans ht), hresult, decide_eq_true rfl]
    · rw [(hothers hj hne).1, decide_eq_false hne]

end Agreed

end Undisturbed

/-! ## Races -/

/-- **Changes under locks.**  One process makes any number of changes of modes, by reads and writes
alone, in a store that nobody else writes; their store calls take turns in any order, may fail or be
too slow, and a change may be cut off while it waits.  At no moment are two changes of one channel
in their store calls; a change that was cut off has written nothing, and whoever is done or cut off
holds no lock.  Once none is under way, the changes that were not cut off, run one after another in
the order in which they got their locks, make the same calls with the same answers, come to the same
results and leave the same store.  In particular, of some changes of one channel to one mode that
all come to their end without a failure, exactly one is confirmed, with the only write, if the mode
was another one, and none otherwise. -/
theorem setIfDifferent_inTurn (hatomic : m.atomic = false) (hw : ∀ key, w.store.Spares key)
    (hone : ∀ process request, .start process request ∈ moves → process = 0)
    (hmoves : ∀ key, Spare moves key) (h : (idle w).run (code m) moves = some s)
    (hwaiting : ∀ i lock, (i, ⟨.release lock, none⟩) ∉ s.log) :
    (∀ s₁, Visits (code m) (idle w) moves s₁ → Exclusive s₁) ∧
    (∀ (i : Nat) (t : ModeTask), s.tasks[i]? = some t →
      (t.isCut = true → s.writesOf i = []) ∧ (¬ t.IsUnderWay → t.locks = [])) ∧
    ((∀ t ∈ s.tasks, ¬ t.IsUnderWay) → Serializable m w s) ∧
    ∀ channelId mode, (∀ t ∈ s.tasks, t.request = ⟨channelId, mode⟩ ∧ t.result?.isSome) →
      s.tasks ≠ [] → (∀ entry ∈ s.log, entry.2.succeeded = true) →
      ChangedOnce w s channelId mode := by
  refine ⟨?_, ?_, ?_, ?_⟩
  · rintro s₁ ⟨before, after, rfl, hbefore⟩ i j t u ht hu hchannel hi hj
    exact eq_of_inside hatomic hbefore (fun process request hmem =>
      hone process request (List.mem_append_left _ hmem)) ht hu hchannel hi hj
  · intro i t ht
    exact ⟨writesOf_of_cut hatomic h hwaiting ht, locks_of_returned hatomic h ht⟩
  · intro hreturned
    refine ⟨nodup_lockOrder hatomic h, fun i hi => ?_, ?_⟩
    · obtain ⟨t, htask⟩ := Option.isSome_iff_exists.1 hi
      obtain ⟨ht, hcut⟩ := task?_eq_some_iff.1 htask
      obtain ⟨r, hr⟩ := Option.ne_none_iff_exists'.1 fun hnone =>
        hreturned t (List.mem_of_getElem? ht) ⟨hnone, hcut⟩
      exact mem_lockOrder_of_done hatomic h ht hr
    · obtain ⟨s', hserved⟩ := exists_served hatomic hw hone hmoves h hwaiting hreturned
        (List.append_nil _).symm
      refine ⟨s', hserved.inTurn, hserved.accounts, fun key => ?_⟩
      have hlast := lastEffect?_accounts hatomic h hwaiting s.lockOrder key
      have habout := congrArg (Exchange.lastEffect? key) (about_of_run hatomic h hone key)
      rw [Exchange.lastEffect?_about, Exchange.lastEffect?_about] at habout
      rw [hserved.get? (hw key), get?_of_run h (hw key) (hmoves key), hlast, lastEffect?, habout]
  · intro channelId mode hall hsome hok
    exact changedOnce_of_run hatomic hw hone hmoves h hall hok hsome

/-- A process with no locks of its own choice, which still has one. -/
def keeper : Modes :=
  ⟨.ofSeconds 5, false, 0, Modes.defaultSpread⟩

/-- A store without compare-and-set. -/
def plainStore : World :=
  .new (.new true false)

/-- Two switch one channel: the second gets the lock once the first has given it back. -/
def queue : List (Move ModeChange) :=
  [.start 0 ⟨"c", .p2p⟩, .start 0 ⟨"c", .p2p⟩, .advance 0, .advance 0, .advance 0, .advance 0,
    .advance 1, .advance 1, .advance 1]

/-- What the two have come to. -/
theorem run_queue :
    ((idle plainStore).run (code keeper) queue).map
        (fun s => (s.tasks.map fun t => (t.request, t.result?), s.log.map fun e => e.2.succeeded))
      = some ([(⟨"c", .p2p⟩, some (.ok true)), (⟨"c", .p2p⟩, some (.ok false))],
        List.replicate 7 true) := by
  rfl

/-- A third one, on another channel, is cut off while it waits for the lock of the first. -/
def queueCut : List (Move ModeChange) :=
  .start 0 ⟨"c", .p2p⟩ :: .advance 0 :: .start 0 ⟨"d", .p2p⟩ :: .drop 1 ::
    [.advance 0, .advance 0, .advance 0]

/-- What the first and the third have come to, and the calls of the log that were answered or are
waits for a lock. -/
theorem run_queueCut :
    ((idle plainStore).run (code keeper) queueCut).map (fun s =>
        (s.tasks.map fun t => (t.result?, t.isCut), s.log.map fun e =>
          e.2.answer?.isSome || e.2.call matches .acquire _))
      = some ([(some (.ok true), false), (none, true)], List.replicate 5 true) := by
  rfl

theorem setIfDifferent_queue :
    (∃ s, (idle plainStore).run (code keeper) queue = some s ∧
      ChangedOnce plainStore s "c" .p2p) ∧
    ∃ s, (idle plainStore).run (code keeper) queueCut = some s ∧ s.writesOf 1 = [] ∧
      Serializable keeper plainStore s := by
  have hw : ∀ key, plainStore.store.Spares key := Store.spares_new true false
  constructor
  · obtain ⟨s, hs, hseen⟩ := Option.map_eq_some_iff.1 run_queue
    obtain ⟨htasks, hlog⟩ := Prod.mk.inj hseen
    have hok : ∀ entry ∈ s.log, entry.2.succeeded = true := by
      intro entry hentry
      have hmem := List.mem_map_of_mem (f := fun e : Nat × Exchange => e.2.succeeded) hentry
      rw [hlog] at hmem
      exact List.eq_of_mem_replicate hmem
    have hall : ∀ t ∈ s.tasks, t.request = ⟨"c", .p2p⟩ ∧ t.result?.isSome := by
      intro t ht
      have hmem := List.mem_map_of_mem (f := fun t : ModeTask => (t.request, t.result?)) ht
      rw [htasks] at hmem
      simp only [List.mem_cons, Prod.mk.injEq, List.not_mem_nil, or_false] at hmem
      rcases hmem with ⟨hrequest, hresult⟩ | ⟨hrequest, hresult⟩
      · exact ⟨hrequest, by rw [hresult]; rfl⟩
      · exact ⟨hrequest, by rw [hresult]; rfl⟩
    refine ⟨s, hs, (setIfDifferent_inTurn rfl hw ?_ ?_ hs ?_).2.2.2 "c" .p2p hall ?_ hok⟩
    · simp [queue]
    · simp [Spare, queue]
    · intro i lock hmem
      exact absurd (hok _ hmem) (by simp [Exchange.succeeded])
    · rintro hnil
      rw [hnil] at htasks
      cases htasks
  · obtain ⟨s, hs, hseen⟩ := Option.map_eq_some_iff.1 run_queueCut
    obtain ⟨htasks, hlog⟩ := Prod.mk.inj hseen
    have hreturned : ∀ t ∈ s.tasks, ¬ t.IsUnderWay := by
      rintro t ht ⟨hnone, hcut⟩
      have hmem := List.mem_map_of_mem (f := fun t : ModeTask => (t.result?, t.isCut)) ht
      rw [htasks, hnone, hcut] at hmem
      simp at hmem
    have hwaiting : ∀ i lock, (i, ⟨.release lock, none⟩) ∉ s.log := by
      intro i lock hmem
      have hfalse := List.mem_map_of_mem (f := fun e : Nat × Exchange =>
        e.2.answer?.isSome || e.2.call matches .acquire _) hmem
      rw [hlog] at hfalse
      cases List.eq_of_mem_replicate hfalse
    obtain ⟨t₀, rest, hcons, -, hrest⟩ := List.map_eq_cons_iff.1 htasks
    obtain ⟨t₁, rest, rfl, h₁, -⟩ := List.map_eq_cons_iff.1 hrest
    have hone : ∀ process request, .start process request ∈ queueCut → process = 0 := by
      intro process request hmem
      simp only [queueCut, List.mem_cons, Move.start.injEq, reduceCtorEq, false_or, List.not_mem_nil,
        or_false] at hmem
      rcases hmem with ⟨rfl, -⟩ | ⟨rfl, -⟩ <;> rfl
    have hrace := setIfDifferent_inTurn rfl hw hone (by simp [Spare, queueCut]) hs hwaiting
    exact ⟨s, hs, (hrace.2.1 1 t₁ (by rw [hcons]; rfl)).1 (Prod.mk.inj h₁).2,
      hrace.2.2.1 hreturned⟩

end LockedRace
end SealedChannel
