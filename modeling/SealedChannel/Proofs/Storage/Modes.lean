import SealedChannel.Proofs.Program.Path
import SealedChannel.Proofs.Storage.Key
import SealedChannel.Storage.Modes

/-!
# Changes of a mode

What a change of a mode does is read off the exchanges that lead through it, whatever happens to the
store between two of them: a confirmed change has swapped exactly once, and over a value that stands
for another mode.

## What is here

* `Store.modeOf` — the mode that the store holds for a channel.
* `Mode.ofRead`, `Modes.get_eq` — the mode that a look finds.
* `Modes.Ends` — what the exchanges of a change by compare-and-set have in common, by its result.
* `Modes.yields_setIfDifferent` — every change ends in this way.
* `Modes.swaps` — the contract of a change: it writes by a swap alone, over another mode.
-/

set_option autoImplicit false
namespace SealedChannel

namespace Mode

/-- Each mode is read back from its stored form. -/
@[simp]
theorem decode?_encode (m : Mode) : decode? m.encode = some m := by
  cases m <;> decide

@[simp]
theorem current_encode (m : Mode) : current (some m.encode) = m := by
  simp [current]

/-- The mode that a look finds.  A read that fails means no encryption. -/
def ofRead : Except StoreError (Option Bytes) → Mode
  | .error _ => .plain
  | .ok raw => current raw

end Mode

/-- The mode that a store holds for a channel. -/
def Store.modeOf (s : Store) (channelId : String) : Mode :=
  Mode.current (s.get? (Key.mode channelId))

namespace Modes

variable {channelId : String} {mode : Mode}

/-- A look at the mode is one read. -/
theorem get_eq (m : Modes) (channelId : String) : m.get channelId =
    .call (.store m.limit (.get (Key.mode channelId))) fun answer =>
      .done (Mode.ofRead answer) := by
  refine congrArg (Program.call _) (funext fun answer => ?_)
  cases answer <;> rfl

/-! ## Results -/

/-- What the exchanges of a change by compare-and-set have in common: one that is confirmed has
swapped once, over a value that stands for another mode; one that found the mode in place has read
it, and wrote nothing; one that failed wrote nothing. -/
def Ends (channelId : String) (mode : Mode) (exchanges : List Exchange) :
    Except StoreError Bool → Prop
  | .ok true => ∃ before after limit raw,
      exchanges = before ++
        ⟨.store limit (.compareAndSet (Key.mode channelId) raw mode.encode), some (.ok true)⟩ ::
          after ∧
      Mode.current raw ≠ mode ∧ before.filterMap Exchange.write? = [] ∧
      after.filterMap Exchange.write? = []
  | .ok false => exchanges.filterMap Exchange.write? = [] ∧ ∃ before after limit raw,
      exchanges = before ++ ⟨.store limit (.get (Key.mode channelId)), some (.ok raw)⟩ :: after ∧
      Mode.current raw = mode
  | .error _ => exchanges.filterMap Exchange.write? = []

/-- Exchanges that write nothing may come before and after. -/
theorem Ends.extend {exchanges : List Exchange} {r : Except StoreError Bool}
    (h : Ends channelId mode exchanges r) {first last : List Exchange}
    (hfirst : first.filterMap Exchange.write? = []) (hlast : last.filterMap Exchange.write? = []) :
    Ends channelId mode (first ++ exchanges ++ last) r := by
  cases r with
  | error e =>
    rw [Ends] at h ⊢
    simp [List.filterMap_append, hfirst, h, hlast]
  | ok changed =>
    cases changed with
    | true =>
      obtain ⟨before, after, limit, raw, rfl, hraw, hbefore, hafter⟩ := h
      refine ⟨first ++ before, after ++ last, limit, raw, by simp, hraw, ?_, ?_⟩
      · rw [List.filterMap_append, hfirst, hbefore, List.nil_append]
      · rw [List.filterMap_append, hafter, hlast, List.nil_append]
    | false =>
      obtain ⟨hnone, before, after, limit, raw, rfl, hraw⟩ := h
      refine ⟨?_, first ++ before, after ++ last, limit, raw, by simp, hraw⟩
      rw [List.filterMap_append, List.filterMap_append, hfirst, hnone, hlast]
      rfl

/-- A change by compare-and-set ends in this way, however many attempts it has. -/
theorem yields_exchange (m : Modes) (channelId : String) (mode : Mode) (attempts : Nat) :
    (m.exchange channelId mode attempts).run.Yields (Ends channelId mode) := by
  induction attempts with
  | zero => exact (rfl : List.filterMap Exchange.write? [] = [])
  | succ attempts ih =>
    rw [exchange, Program.yields_run_bind, Program.yields_run_store]
    rintro (e | raw)
    · exact (rfl : List.filterMap Exchange.write?
        [⟨.store m.limit (.get (Key.mode channelId)), some (.error e)⟩] = [])
    · let read : Exchange := ⟨.store m.limit (.get (Key.mode channelId)), some (.ok raw)⟩
      dsimp only
      split
      · rename_i hraw
        exact ⟨rfl, [], [], m.limit, raw, rfl, hraw⟩
      · rename_i hraw
        rw [Program.yields_run_bind, Program.yields_run_store]
        rintro (e | swapped)
        · exact (rfl : List.filterMap Exchange.write? [read, ⟨.store m.limit
            (.compareAndSet (Key.mode channelId) raw mode.encode), some (.error e)⟩] = [])
        · cases swapped with
          | true => exact ⟨[read], [], m.limit, raw, rfl, hraw, rfl, rfl⟩
          | false =>
            -- the swap failed and wrote nothing: the later attempts decide
            refine ih.imp fun exchanges r h => ?_
            have hfirst : List.filterMap Exchange.write? [read, ⟨.store m.limit
                (.compareAndSet (Key.mode channelId) raw mode.encode), some (.ok false)⟩] = [] :=
              rfl
            simpa using h.extend hfirst (rfl : List.filterMap Exchange.write? [] = [])

/-- **What a change has done.**  Every change of a mode by compare-and-set ends as its result
says. -/
theorem yields_setIfDifferent (m : Modes) (hatomic : m.atomic = true) (channelId : String)
    (mode : Mode) : (m.setIfDifferent channelId mode).run.Yields (Ends channelId mode) := by
  rw [setIfDifferent, ExceptT.run_mk, Program.yields_locked, hatomic, if_pos rfl]
  have hfirst : List.filterMap Exchange.write? [⟨.acquire (m.lockOf channelId), some ()⟩] = [] :=
    rfl
  have hlast : List.filterMap Exchange.write? [⟨.release (m.lockOf channelId), some ()⟩] = [] :=
    rfl
  exact (yields_exchange m channelId mode rounds).imp fun exchanges r h => h.extend hfirst hlast

/-! ## The calls of a change -/

/-- The contract of a change by compare-and-set: it writes by a swap alone, over a value that stands
for another mode. -/
def swaps (channelId : String) (mode : Mode) : Contract where
  allows c := ∀ key value, c.target? = some (key, value) → ∃ limit raw,
    c = .store limit (.compareAndSet (Key.mode channelId) raw mode.encode) ∧ Mode.current raw ≠ mode
  answers _ _ := True

theorem keeps_exchange (m : Modes) (channelId : String) (mode : Mode) (attempts : Nat) :
    (m.exchange channelId mode attempts).run.Keeps (swaps channelId mode) fun _ => True := by
  have hread : (swaps channelId mode).allows (.store m.limit (.get (Key.mode channelId))) := by
    intro key value htarget
    cases htarget
  induction attempts with
  | zero => exact trivial
  | succ attempts ih =>
    rw [exchange, Program.keeps_run_bind, Program.keeps_run_store]
    refine ⟨hread, ?_⟩
    rintro (e | raw) -
    · trivial
    · dsimp only
      split
      · trivial
      · rename_i hraw
        rw [Program.keeps_run_bind, Program.keeps_run_store]
        refine ⟨fun key value _ => ⟨m.limit, raw, rfl, hraw⟩, ?_⟩
        rintro (e | swapped) -
        · trivial
        · cases swapped with
          | true => trivial
          | false => exact ih

/-- Every change by compare-and-set keeps the contract, whether or not it comes to its end. -/
theorem keeps_setIfDifferent (m : Modes) (hatomic : m.atomic = true) (channelId : String)
    (mode : Mode) :
    (m.setIfDifferent channelId mode).run.Keeps (swaps channelId mode) fun _ => True := by
  have hlock : (swaps channelId mode).allows (.acquire (m.lockOf channelId)) := by
    intro key value htarget
    cases htarget
  have hunlock : (swaps channelId mode).allows (.release (m.lockOf channelId)) := by
    intro key value htarget
    cases htarget
  rw [setIfDifferent, ExceptT.run_mk, Program.keeps_locked, hatomic, if_pos rfl]
  refine ⟨hlock, fun _ => (keeps_exchange m channelId mode rounds).imp fun _ _ => ?_⟩
  exact ⟨hunlock, fun _ => trivial⟩

end Modes

end SealedChannel
