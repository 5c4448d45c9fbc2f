import SealedChannel.Proofs.Program.Deadline
import SealedChannel.Proofs.Storage.ModeChange

/-!
# Changing a mode by a swap or by a plain write

A change of a mode is written by compare-and-set where the store offers it, and plainly elsewhere.
When nobody interferes, the two do the same: they give the same answers and errors, leave the same
store, and make the same numbers of reads and writes.

## What is here

* `Store.Undisturbed` — no foreign write is waiting in a store.
* `Modes.settled` — what a change makes of such a store, as a function.
* `Modes.run_setIfDifferent` — a change by either way is this function.
* `Store.offering`, `World.offering`, `Modes.swapping` — the same store and the same changes, with
  compare-and-set or without it.
* `Modes.runOver_agrees` — the two ways agree with each other and with a plain look at the mode.
-/

set_option autoImplicit false
namespace SealedChannel

/-! ## Calls to a store where nobody interferes -/

namespace Store

/-- No foreign write is waiting, neither armed nor in the queue. -/
structure Undisturbed (s : Store) : Prop where
  queued : s.queued = []
  armed : s.armed = none

/-- The store after one more read. -/
def countGet (s : Store) : Store :=
  { s with gets := s.gets + 1 }

/-- The store after one more write. -/
def countWrite (s : Store) : Store :=
  { s with writes := s.writes + 1 }

/-- A write that reaches the entries, unless writes are refused. -/
def write (s : Store) (key : String) (value : Bytes) : Except StoreError Unit × Store :=
  if s.refuseSets then (.error (.backend "injected set failure"), s.countWrite)
  else (.ok (), s.countWrite.seed key value)

variable {s : Store} {limit : Duration} {key : String} {value : Bytes}

/-- A call that is too slow and leaves no trace. -/
theorem call_of_exceeded {l : Duration} {c : StoreCall} (hqueued : s.queued = [])
    (hoffers : s.offers c = true) (hslow : s.exceeded? (some limit) = some l) :
    s.call (some limit) c = (.error (.timeout l), s) := by
  rw [call, if_pos hoffers, hslow, begin_of_queued hqueued]

theorem perform_get (s : Store) (key : String) : s.perform (.get key) =
    (if s.refuseGets then .error (.backend "injected get failure") else .ok (s.get? key),
      s.countGet) := by
  rw [perform]
  dsimp only
  split <;> rfl

/-- A call that is in time. -/
theorem call_of_inTime {c : StoreCall} (hqueued : s.queued = []) (hoffers : s.offers c = true)
    (hintime : s.exceeded? (some limit) = none) : s.call (some limit) c = s.perform c := by
  rw [call, if_pos hoffers, hintime, begin_of_queued hqueued]

namespace Undisturbed

variable (h : s.Undisturbed)
include h

theorem admitWrite : s.admitWrite =
    (if s.refuseSets then .error (.backend "injected set failure") else .ok (),
      s.countWrite) := by
  rw [Store.admitWrite, interfere, countWrite]
  cases s.refuseSets <;> simp [h.armed]

/-- A plain write. -/
theorem perform_set : s.perform (.set key value) = s.write key value := by
  rw [perform, h.admitWrite, write]
  cases s.refuseSets <;> rfl

/-- A swap over the value that the key holds is a write. -/
theorem perform_compareAndSet : s.perform (.compareAndSet key (s.get? key) value) =
    ((s.write key value).1.map fun _ => true, (s.write key value).2) := by
  rw [perform, h.admitWrite, write]
  cases s.refuseSets with
  | true => rfl
  | false => exact if_pos rfl

end Undisturbed
end Store

/-! ## Changes -/

namespace Modes

open Program

variable {m : Modes} {channelId : String} {mode : Mode} {w : World} {t : Moment}

/-- What the write of a mode makes of a store where nobody interferes. -/
def written (channelId : String) (mode : Mode) (s : Store) : Except StoreError Bool × Store :=
  ((s.write (Key.mode channelId) mode.encode).1.map fun _ => true,
    (s.write (Key.mode channelId) mode.encode).2)

/-- What a change makes of a store where nobody interferes. -/
def settled (m : Modes) (channelId : String) (mode : Mode) (s : Store) :
    Except StoreError Bool × Store :=
  match s.exceeded? (some m.limit) with
  | some limit => (.error (.timeout limit), s)
  | none =>
    if s.refuseGets then (.error (.backend "injected get failure"), s.countGet)
    else if s.modeOf channelId = mode then (.ok false, s.countGet)
    else written channelId mode s.countGet

/-- A result and a store were made of the store at an earlier moment, and nothing else has
changed since then. -/
def Made (make : Store → Except StoreError Bool × Store) (t : Moment)
    (result : Except StoreError Bool) (t' : Moment) : Prop :=
  make t.world.store = (result, t'.world.store) ∧
    t'.world = { t.world with store := t'.world.store }

/-- A read, and then what is to be done if the mode is another one. -/
theorem ensures_made {next : Option Bytes → Operation StoreError Bool}
    (h : t.world.store.Undisturbed)
    (hnext : ∀ t' : Moment, t'.world.store.Undisturbed →
      t'.world.store.atomic = t.world.store.atomic →
      t'.world.store.exceeded? (some m.limit) = none →
      (next (t'.world.store.get? (Key.mode channelId))).run.Ensures .calm none
        (Made (written channelId mode) t') (fun _ => False) t') :
    (do
      let raw : Option Bytes ← Operation.store m.limit (.get (Key.mode channelId))
      if Mode.current raw = mode then return false
      next raw : Operation StoreError Bool).run.Ensures .calm none (Made (m.settled channelId mode) t)
        (fun _ => False) t := by
  refine ensures_run_bind.2 (.run_store_calm (fun hover => by cases hover)
    fun answer store _ hcall => ?_)
  unfold Made
  rw [settled]
  cases hslow : t.world.store.exceeded? (some m.limit) with
  | some limit =>
    rw [Store.call_of_exceeded h.queued rfl hslow] at hcall
    cases hcall
    exact ⟨rfl, rfl⟩
  | none =>
    rw [Store.call_of_inTime h.queued rfl hslow, Store.perform_get] at hcall
    obtain ⟨rfl, rfl⟩ := Prod.ext_iff.1 hcall
    dsimp only
    by_cases hrefuse : t.world.store.refuseGets = true
    · rw [if_pos hrefuse]
      simp only [if_pos hrefuse]
      exact ⟨rfl, rfl⟩
    · rw [if_neg hrefuse]
      simp only [if_neg hrefuse]
      split
      · rename_i hsame
        exact ⟨if_pos hsame, rfl⟩
      · rename_i hother
        let t' : Moment := t.answered (.store m.limit (.get (Key.mode channelId)))
          (.ok (t.world.store.get? (Key.mode channelId)))
          { t.world with store := t.world.store.countGet }
        refine (hnext t' ⟨h.queued, h.armed⟩ rfl hslow).imp (fun result t'' hmade => ?_)
          fun _ hfalse => hfalse
        exact ⟨(if_neg hother).trans hmade.1, hmade.2⟩

/-- A change by a swap. -/
theorem ensures_exchange_made (h : t.world.store.Undisturbed)
    (hatomic : t.world.store.atomic = true) (attempts : Nat) :
    (m.exchange channelId mode (attempts + 1)).run.Ensures .calm none (Made (m.settled channelId mode) t)
      (fun _ => False) t := by
  refine ensures_made h fun t' h' hsame hintime => ?_
  refine ensures_run_bind.2 (.run_store_calm (fun hover => by cases hover)
    fun answer store _ hcall => ?_)
  have hoffers : t'.world.store.offers (.compareAndSet (Key.mode channelId)
      (t'.world.store.get? (Key.mode channelId)) mode.encode) = true := hsame.trans hatomic
  rw [Store.call_of_inTime h'.queued hoffers hintime, h'.perform_compareAndSet] at hcall
  obtain ⟨rfl, rfl⟩ := Prod.ext_iff.1 hcall
  cases hwrite : (t'.world.store.write (Key.mode channelId) mode.encode).1 with
  | error e => exact ⟨by rw [written, hwrite]; rfl, rfl⟩
  | ok done => exact ⟨by rw [written, hwrite]; rfl, rfl⟩

/-- A change by a plain write. -/
theorem ensures_replace_made (h : t.world.store.Undisturbed) :
    (m.replace channelId mode).run.Ensures .calm none (Made (m.settled channelId mode) t)
      (fun _ => False) t := by
  refine ensures_made h fun t' h' _ hintime => ?_
  refine ensures_run_bind.2 (.run_store_calm (fun hover => by cases hover)
    fun answer store _ hcall => ?_)
  rw [Store.call_of_inTime h'.queued rfl hintime, h'.perform_set] at hcall
  obtain ⟨rfl, rfl⟩ := Prod.ext_iff.1 hcall
  cases hwrite : (t'.world.store.write (Key.mode channelId) mode.encode).1 with
  | error e => exact ⟨by rw [written, hwrite]; rfl, rfl⟩
  | ok done => exact ⟨by rw [written, hwrite]; rfl, rfl⟩

/-- **A change as a function.**  Where nobody interferes, a change by either way makes of the store
what `settled` tells; if its lock is held, it waits for the lock and changes nothing. -/
theorem run_setIfDifferent (channelId : String) (mode : Mode) (h : w.store.Undisturbed)
    (hatomic : m.atomic = true → w.store.atomic = true) :
    (m.setIfDifferent channelId mode).run.run none w =
      if m.lockOf channelId ∈ w.held then (.stuck, w)
      else (.finished (m.settled channelId mode w.store).1,
        { w with store := (m.settled channelId mode w.store).2 }) := by
  split
  · rename_i hheld
    have hblocked : w.react (.acquire (m.lockOf channelId)) = .blocked :=
      if_pos (List.contains_iff_mem.2 hheld)
    simp [setIfDifferent, ExceptT.run_mk, locked_eq, run, runFrom, isOver, hblocked]
  · rename_i hfree
    have hends : (m.setIfDifferent channelId mode).run.Ensures .calm none
        (Made (m.settled channelId mode) (.start w)) (fun _ => False) (.start w) := by
      rw [setIfDifferent, ExceptT.run_mk]
      refine .locked_calm (fun h => ?_) fun _ => ?_
      · exact hfree (h.resolve_left (by rintro ⟨⟩))
      · let locked : Moment := (Moment.start w).answered (.acquire (m.lockOf channelId)) ()
          { w with held := m.lockOf channelId :: w.held }
        have hchange : (if m.atomic then (m.exchange channelId mode rounds).run
            else (m.replace channelId mode).run).Ensures .calm none
              (Made (m.settled channelId mode) locked) (fun _ => False) locked := by
          split
          · rename_i hswaps
            exact ensures_exchange_made h (hatomic hswaps) 7
          · exact ensures_replace_made h
        refine hchange.imp (fun result t hmade => ⟨rfl, hmade.1, ?_⟩) fun _ hfalse => hfalse
        rw [hmade.2]
        simp [Moment.answered, locked, Moment.start]
    obtain ⟨result, waited, hresult, hmade, hrest⟩ := hends.finishes
    dsimp only [Moment.start] at hmade hrest
    refine Prod.ext ?_ ?_
    · rw [hresult, hmade]
    · rw [hmade]
      exact hrest

/-- The same changes, with compare-and-set or without it. -/
def swapping (m : Modes) (atomic : Bool) : Modes :=
  { m with atomic := atomic }

end Modes

/-- The same store, with compare-and-set or without it. -/
def Store.offering (s : Store) (atomic : Bool) : Store :=
  { s with atomic := atomic }

/-- The same world, with compare-and-set or without it. -/
def World.offering (w : World) (atomic : Bool) : World :=
  { w with store := w.store.offering atomic }

namespace Modes

open Program

variable {m : Modes} {channelId : String} {mode : Mode} {w : World} {s : Store}

/-- What a change makes of a store does not depend on how it is written. -/
theorem settled_offering (m : Modes) (channelId : String) (mode : Mode) (s : Store)
    (atomic : Bool) : (m.swapping atomic).settled channelId mode (s.offering atomic) =
      ((m.settled channelId mode s).1, (m.settled channelId mode s).2.offering atomic) := by
  have hexceeded : (s.offering atomic).exceeded? (some (m.swapping atomic).limit) =
      s.exceeded? (some m.limit) := rfl
  have hmode : (s.offering atomic).modeOf channelId = s.modeOf channelId := rfl
  have hrefuse : (s.offering atomic).refuseGets = s.refuseGets := rfl
  rw [settled, settled, hexceeded, hmode, hrefuse]
  cases s.exceeded? (some m.limit) with
  | some limit => rfl
  | none =>
    dsimp only
    split
    · rfl
    · split
      · rfl
      · rw [written, written, Store.write, Store.write]
        have hsets : (s.offering atomic).countGet.refuseSets = s.countGet.refuseSets := rfl
        rw [hsets]
        split <;> rfl

/-- What a change that succeeds makes of a store. -/
theorem settled_ok {changed : Bool} {s' : Store}
    (h : m.settled channelId mode s = (.ok changed, s')) :
    s.exceeded? (some m.limit) = none ∧ s.refuseGets = false ∧
      (changed = true ↔ s.modeOf channelId ≠ mode) ∧
      s' = if changed then s.countGet.countWrite.seed (Key.mode channelId) mode.encode
        else s.countGet := by
  rw [settled] at h
  split at h
  · cases h
  · rename_i hintime
    split at h
    · cases h
    · rename_i hgets
      rw [Bool.not_eq_true] at hgets
      refine ⟨hintime, hgets, ?_⟩
      split at h
      · rename_i hsame
        cases h
        simp [hsame]
      · rename_i hother
        rw [written, Store.write] at h
        split at h
        · cases h
        · cases h
          exact ⟨iff_of_true rfl hother, rfl⟩

/-- What a look at the mode tells, if the read succeeds. -/
theorem run_get (m : Modes) (channelId : String)
    (hintime : w.store.exceeded? (some m.limit) = none) (hgets : w.store.refuseGets = false) :
    ((m.get channelId).run none w).1 = .finished (w.store.modeOf channelId) := by
  have hanswer := Store.answer_get w.store (some m.limit) (Key.mode channelId)
  rw [hintime, hgets] at hanswer
  rw [run_fst, get_eq, runFrom_store, hanswer]
  rfl

/-! ## The two ways compared -/

/-- The run of a change with compare-and-set or without it. -/
def runOver (m : Modes) (channelId : String) (mode : Mode) (w : World) (atomic : Bool) :
    Outcome (Except StoreError Bool) × World :=
  ((m.swapping atomic).setIfDifferent channelId mode).run.run none (w.offering atomic)

theorem runOver_eq (m : Modes) (channelId : String) (mode : Mode) (h : w.store.Undisturbed)
    (atomic : Bool) : m.runOver channelId mode w atomic =
      if m.lockOf channelId ∈ w.held then (.stuck, w.offering atomic)
      else (.finished (m.settled channelId mode w.store).1,
        { w with store := (m.settled channelId mode w.store).2.offering atomic }) := by
  have hundisturbed : (w.offering atomic).store.Undisturbed := ⟨h.queued, h.armed⟩
  have hsettled := Prod.ext_iff.1 (settled_offering m channelId mode w.store atomic)
  rw [runOver, run_setIfDifferent channelId mode hundisturbed fun hatomic => hatomic,
    World.offering, hsettled.1, hsettled.2]
  rfl

/-- **Swap or plain write.**  Where nobody interferes, the two ways to change a mode give the same
answer and leave the same store, its counters included.  A change that succeeds says whether a look
at the mode would have told another one; it has then written the new mode and nothing else, and
otherwise it has written nothing. -/
theorem runOver_agrees (m : Modes) (channelId : String) (mode : Mode) (w : World)
    (h : w.store.Undisturbed) :
    m.runOver channelId mode w true = ((m.runOver channelId mode w false).1,
      (m.runOver channelId mode w false).2.offering true) ∧
    ∀ atomic changed, (m.runOver channelId mode w atomic).1 = .finished (.ok changed) →
      ∃ found after,
        (((m.swapping atomic).get channelId).run none (w.offering atomic)).1 = .finished found ∧
        (m.runOver channelId mode w atomic).2 = { w with store := after } ∧
        (changed = true ↔ found ≠ mode) ∧
        (changed = false → after = { w.store with atomic := atomic, gets := w.store.gets + 1 }) ∧
        (changed = true → after.get? (Key.mode channelId) = some mode.encode ∧
          (∀ key, key ≠ Key.mode channelId → after.get? key = w.store.get? key) ∧
          after = { w.store with
            atomic := atomic
            gets := w.store.gets + 1
            writes := w.store.writes + 1
            entries := after.entries }) := by
  simp only [runOver_eq m channelId mode h]
  constructor
  · split <;> rfl
  · intro atomic changed hchanged
    split at hchanged
    · cases hchanged
    · rename_i hfree
      rw [if_neg hfree]
      have hsettled : m.settled channelId mode w.store =
          (.ok changed, (m.settled channelId mode w.store).2) :=
        Prod.ext (Outcome.finished.inj hchanged) rfl
      obtain ⟨hintime, hgets, hother, hstore⟩ := settled_ok hsettled
      refine ⟨w.store.modeOf channelId, _, ?_, rfl, hother, fun hno => ?_, fun hyes => ?_⟩
      · exact run_get (m.swapping atomic) channelId hintime hgets
      · rw [hstore, hno]
        rfl
      · rw [hstore, hyes, if_pos rfl]
        refine ⟨?_, fun key hkey => ?_, rfl⟩
        · simp [Store.get?, Store.offering, Store.seed]
        · simp [Store.get?, Store.offering, Store.seed, Store.countWrite, Store.countGet, hkey]

/-- A store in which the mode of a channel cannot be read, and reads and writes are not refused. -/
def unreadable : World :=
  World.new ((Store.new true false).seed (Key.mode "c") [0xff])

theorem runOver_unreadable :
    unreadable.store.Undisturbed ∧ ∃ after : Store,
      after.get? (Key.mode "c") = some Mode.p2p.encode ∧ after.gets = 1 ∧ after.writes = 1 ∧
      ((Modes.mk (.ofSeconds 1) false 1 Modes.defaultSpread).runOver "c" .p2p unreadable true).2
        = { unreadable with store := after } := by
  have h : unreadable.store.Undisturbed := ⟨rfl, rfl⟩
  have hchanged : ((Modes.mk (.ofSeconds 1) false 1 Modes.defaultSpread).runOver "c" .p2p
      unreadable true).1 = .finished (.ok true) := by
    decide +kernel
  obtain ⟨found, after, -, hafter, -, -, hwritten⟩ :=
    (runOver_agrees _ "c" .p2p unreadable h).2 true true hchanged
  obtain ⟨hmode, -, hstore⟩ := hwritten rfl
  exact ⟨h, after, hmode, by rw [hstore]; rfl, by rw [hstore]; rfl, hafter⟩

end Modes

end SealedChannel
