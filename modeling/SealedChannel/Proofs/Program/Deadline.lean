import SealedChannel.Proofs.Program.Transcript

/-!
# Runs under a limit

A limit on the time that a run may wait makes no difference to a run that waits for less.  A longer
run goes the same way up to the call in which the limit passes, and stops there: every call before
it has been answered as without a limit, and nothing comes after it.

## What is here

* `World.Agrees` — two worlds show the same entries, counts and logs.
* `Program.waiting` — how long a run without a limit waits in all.
* `Program.Reaches` — the calls answered on the way to a call, and the time waited for them.
* `Program.run_of_waiting_lt`, `Program.run_of_le_waiting` — a run that stays below its limit, and
  one that does not.
* `Program.run_of_crashed` — a run in which the platform crashes.
-/

set_option autoImplicit false
namespace SealedChannel

/-! ## Worlds -/

namespace World

/-- Two worlds show the same: the same entries and counts of the store, and the same platform and
key server with all that they have been asked for.  What lies ahead of the store may differ. -/
structure Agrees (w w' : World) : Prop where
  entries : w.store.entries = w'.store.entries
  gets : w.store.gets = w'.store.gets
  writes : w.store.writes = w'.store.writes
  host : w.host = w'.host
  keyServer : w.keyServer = w'.keyServer

variable {w w' : World}

/-- A call that has only begun has left no trace. -/
theorem agrees_begin (w : World) (c : Call) : (w.begin c).Agrees w := by
  cases c with
  | store limit c =>
    obtain ⟨queued, armed, hbegin⟩ := w.store.exists_begin_eq c
    rw [begin, hbegin]
    exact ⟨rfl, rfl, rfl, rfl, rfl⟩
  | _ => exact ⟨rfl, rfl, rfl, rfl, rfl⟩

/-- If no foreign write waits for its moment, a call that has only begun has done nothing. -/
theorem begin_of_queued (h : w.store.queued = []) (c : Call) : w.begin c = w := by
  cases c with
  | store limit c => rw [begin, Store.begin_of_queued h]
  | _ => rfl

/-- No answer to a call puts a foreign write into the queue. -/
theorem queued_react {c : Call} {answer : c.Answer}
    (h : w.react c = .answered answer w') (hw : w.store.queued = []) : w'.store.queued = [] := by
  cases c with
  | store limit c =>
    cases h
    exact Store.queued_call hw (some limit) c
  | _ =>
    rw [store_react (by rintro _ _ ⟨⟩) h]
    exact hw

end World

deriving instance DecidableEq for Outcome

namespace Program

variable {α : Type}

/-! ## Time -/

/-- How long a run waits in all, if nobody cuts it off. -/
def waiting : Program α → World → Duration
  | .done _, _ => ⟨0⟩
  | .call c next, w =>
    w.waitFor c + match w.react c with
      | .answered answer w' => (next answer).waiting w'
      | .crashed => ⟨0⟩
      | .blocked => ⟨0⟩

/-- A program that begins in a world reaches another one, which goes on in the world `w'`, once some
of its calls have been answered and it has waited for them. -/
inductive Reaches : Program α → World → List Exchange → Duration → Program α → World → Prop
  | refl (p : Program α) (w : World) : Reaches p w [] ⟨0⟩ p w
  | step {c : Call} {next : c.Answer → Program α} {answer : c.Answer} {w w₁ w' : World}
      {exchanges : List Exchange} {waited : Duration} {rest : Program α}
      (hreact : w.react c = .answered answer w₁)
      (h : Reaches (next answer) w₁ exchanges waited rest w') :
      Reaches (.call c next) w (⟨c, some answer⟩ :: exchanges) (w.waitFor c + waited) rest w'

namespace Reaches

variable {p rest : Program α} {w w' : World} {exchanges : List Exchange} {waited : Duration}

theorem queued (h : p.Reaches w exchanges waited rest w') (hw : w.store.queued = []) :
    w'.store.queued = [] := by
  induction h with
  | refl => exact hw
  | step hreact _ ih => exact ih (World.queued_react hreact hw)

end Reaches

/-! ## Runs from a moment on -/

variable {limit : Duration}

/-- A run that has waited for a while and stays below its limit goes as without a limit. -/
theorem runFrom_of_waiting_lt {p : Program α} {waited : Duration} {w : World}
    (h : waited + p.waiting w < limit) :
    p.runFrom (some limit) waited w = p.runFrom none waited w := by
  induction p generalizing waited w with
  | done a => rfl
  | call c next ih =>
    rw [waiting, ← Duration.add_assoc] at h
    have hintime : waited + w.waitFor c < limit :=
      Duration.lt_of_le_of_lt (Duration.le_add_right _ _) h
    rw [runFrom, runFrom, isOver, isOver, decide_eq_true hintime]
    cases hreact : w.react c with
    | answered answer w' =>
      rw [hreact] at h
      exact ih answer h
    | crashed => rfl
    | blocked => rfl

/-- A run that has waited for a while reaches the call in which its limit passes. -/
theorem runFrom_of_le_waiting {p : Program α} {waited : Duration} {w : World}
    (hwaited : waited < limit) (h : limit ≤ waited + p.waiting w) :
    ∃ exchanges d c next w', p.Reaches w exchanges d (.call c next) w' ∧ waited + d < limit ∧
      limit ≤ waited + d + w'.waitFor c ∧
      p.runFrom (some limit) waited w = (.expired, w'.begin c) := by
  induction p generalizing waited w with
  | done a => exact absurd hwaited (Duration.not_lt.2 h)
  | call c next ih =>
    rw [waiting, ← Duration.add_assoc] at h
    by_cases hintime : waited + w.waitFor c < limit
    · -- this call is answered in time, so the limit passes in one that follows
      have hrun : (Program.call c next).runFrom (some limit) waited w =
          match w.react c with
          | .answered answer w' => (next answer).runFrom (some limit) (waited + w.waitFor c) w'
          | .crashed => (.crashed, w)
          | .blocked => (.stuck, w) := by
        rw [runFrom, isOver, decide_eq_true hintime]
        rfl
      rw [hrun]
      cases hreact : w.react c with
      | answered answer w₁ =>
        rw [hreact] at h
        obtain ⟨exchanges, d, c', next', w', hreaches, hbefore, hafter, hcut⟩ := ih answer hintime h
        refine ⟨_, _, c', next', w', .step hreact hreaches, ?_, ?_, hcut⟩
        · rwa [← Duration.add_assoc]
        · rwa [← Duration.add_assoc]
      | crashed =>
        rw [hreact] at h
        exact absurd hintime (Duration.not_lt.2 h)
      | blocked =>
        rw [hreact] at h
        exact absurd hintime (Duration.not_lt.2 h)
    · refine ⟨[], ⟨0⟩, c, next, w, .refl _ _, hwaited, Duration.not_lt.1 hintime, ?_⟩
      rw [runFrom, isOver, decide_eq_false hintime]
      rfl

/-- A run in which the platform crashes reaches the call in which it does. -/
theorem runFrom_of_crashed {p : Program α} {waited : Duration} {w : World}
    (h : (p.runFrom none waited w).1 = .crashed) :
    ∃ exchanges d c next w', p.Reaches w exchanges d (.call c next) w' ∧
      w'.react c = .crashed ∧ p.runFrom none waited w = (.crashed, w') := by
  induction p generalizing waited w with
  | done a => cases h
  | call c next ih =>
    rw [runFrom, isOver] at h ⊢
    cases hreact : w.react c with
    | answered answer w₁ =>
      rw [hreact] at h
      obtain ⟨exchanges, d, c', next', w', hreaches, hcrashed, hrun⟩ := ih answer h
      exact ⟨_, _, c', next', w', .step hreact hreaches, hcrashed, hrun⟩
    | crashed => exact ⟨[], ⟨0⟩, c, next, w, .refl _ _, hreact, rfl⟩
    | blocked =>
      rw [hreact] at h
      cases h

/-- Without a limit, none passes. -/
theorem runFrom_none_ne_expired (p : Program α) (waited : Duration) (w : World) :
    (p.runFrom none waited w).1 ≠ .expired := by
  induction p generalizing waited w with
  | done a => rintro ⟨⟩
  | call c next ih =>
    rw [runFrom, isOver]
    cases w.react c with
    | answered answer w' => exact ih answer _ w'
    | crashed => rintro ⟨⟩
    | blocked => rintro ⟨⟩

/-! ## Whole runs -/

theorem run_none_ne_expired (p : Program α) (w : World) : (p.run none w).1 ≠ .expired := by
  rw [run_fst]
  exact runFrom_none_ne_expired p ⟨0⟩ w

variable {p : Program α} {w : World}

/-- **Below the limit.**  A limit makes no difference to a run that waits for less. -/
theorem run_of_waiting_lt (h : p.waiting w < limit) : p.run (some limit) w = p.run none w := by
  rw [run, run, runFrom_of_waiting_lt (by rwa [Duration.zero_add])]

/-- **At the limit.**  A run that waits longer stops in the call in which its limit passes, and all
calls before it have been answered as without a limit. -/
theorem run_of_le_waiting (hlimit : ⟨0⟩ < limit) (h : limit ≤ p.waiting w) :
    ∃ exchanges d c next w', p.Reaches w exchanges d (.call c next) w' ∧ d < limit ∧
      limit ≤ d + w'.waitFor c ∧
      p.run (some limit) w = (.expired, { w'.begin c with held := w.held }) := by
  rw [← Duration.zero_add (p.waiting w)] at h
  obtain ⟨exchanges, d, c, next, w', hreaches, hbefore, hafter, hrun⟩ :=
    runFrom_of_le_waiting hlimit h
  rw [Duration.zero_add] at hbefore hafter
  exact ⟨exchanges, d, c, next, w', hreaches, hbefore, hafter, by rw [run, hrun]⟩

/-- **A crash.**  A run in which the platform crashes has had all its calls before the crash
answered, and none after it. -/
theorem run_of_crashed (h : (p.run none w).1 = .crashed) :
    ∃ exchanges d c next w', p.Reaches w exchanges d (.call c next) w' ∧
      w'.react c = .crashed ∧ p.run none w = (.crashed, { w' with held := w.held }) := by
  rw [run_fst] at h
  obtain ⟨exchanges, d, c, next, w', hreaches, hcrashed, hrun⟩ := runFrom_of_crashed h
  exact ⟨exchanges, d, c, next, w', hreaches, hcrashed, by rw [run, hrun]⟩

end Program

end SealedChannel
