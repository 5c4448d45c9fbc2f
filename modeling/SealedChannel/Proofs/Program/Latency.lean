import SealedChannel.Proofs.Program.Transcript

/-!
# Slow stores

A store may answer every call late.  As long as it answers within the limit of the call, a program
runs as it does with a store that answers at once.

## What is here

* `Duration.Exceeds` — a wait takes longer on the clock than a limit.
* `World.withLatency` — a world whose store has another latency.
* `Program.Limited` — a program that makes every store call under one limit.
* `Limited.bind`, `Limited.run_bind` and the other rules — one for each way to put a program
  together.
* `Program.Unaffected`, `Program.Limited.unaffected` — runs that go as with a store that answers at
  once, and those of programs whose store answers within their limit.
-/

set_option autoImplicit false
namespace SealedChannel

/-! ## Latencies on the clock -/

namespace Duration

/-- A wait takes longer on the clock than a limit. -/
def Exceeds (latency limit : Duration) : Prop :=
  limit.onClock < latency.onClock

instance (latency limit : Duration) : Decidable (latency.Exceeds limit) :=
  inferInstanceAs (Decidable (limit.onClock < latency.onClock))

/-- Only a longer wait takes longer on the clock. -/
theorem not_exceeds_of_le {latency limit : Duration} (h : latency ≤ limit) :
    ¬ latency.Exceeds limit :=
  not_lt.2 (onClock_le_onClock h)

/-- Every wait that is longer than a limit of whole milliseconds takes longer on the clock, unless
the limit is the longest wait. -/
theorem exceeds_ofMillis {n : Nat} {latency : Duration} (h : ofMillis n < latency)
    (hlongest : ofMillis n < longestWait) : latency.Exceeds (ofMillis n) := by
  have hnanos : (ofMillis n).nanos = 1000000 * n := rfl
  change (ofMillis n).nanos < latency.nanos at h
  change (ofMillis n).nanos < 1000000000 * (30 * 365 * 86400) at hlongest
  change (ofMillis n).onClock.nanos < latency.onClock.nanos
  rw [nanos_onClock, nanos_onClock]
  omega

end Duration

/-! ## Stores with another latency -/

namespace Store

/-- A store with another latency. -/
def withLatency (s : Store) (latency : Duration) : Store :=
  { s with latency }

variable {s : Store} {latency other : Duration}

theorem arm_withLatency (s : Store) (latency : Duration) :
    (s.withLatency latency).arm = s.arm.withLatency latency := by
  cases hqueued : s.queued <;> simp [arm, withLatency, hqueued]

theorem begin_withLatency (s : Store) (latency : Duration) (c : StoreCall) :
    (s.withLatency latency).begin c = (s.begin c).withLatency latency := by
  cases c with
  | get key => rfl
  | delete key => rfl
  | set key value => exact s.arm_withLatency latency
  | compareAndSet key expected value =>
    cases hatomic : s.atomic
    · simp [begin, withLatency, hatomic]
    · have hatomic' : (s.withLatency latency).atomic = true := hatomic
      simp [begin, hatomic, hatomic', arm_withLatency]

theorem admitWrite_withLatency (s : Store) (latency : Duration) :
    (s.withLatency latency).admitWrite =
      (s.admitWrite.1, s.admitWrite.2.withLatency latency) := by
  cases hrefuse : s.refuseSets <;> cases harmed : s.armed <;>
    simp [admitWrite, interfere, withLatency, hrefuse, harmed]

theorem perform_withLatency (s : Store) (latency : Duration) (c : StoreCall) :
    (s.withLatency latency).perform c =
      ((s.perform c).1, (s.perform c).2.withLatency latency) := by
  cases c with
  | get key => cases hrefuse : s.refuseGets <;> simp [perform, withLatency, hrefuse]
  | delete key => cases hrefuse : s.refuseDeletes <;> simp [perform, withLatency, hrefuse]
  | set key value =>
    rw [perform, perform, admitWrite_withLatency]
    rcases s.admitWrite with ⟨result, s'⟩
    cases result <;> rfl
  | compareAndSet key expected value =>
    rw [perform, perform, admitWrite_withLatency]
    rcases s.admitWrite with ⟨result, s'⟩
    cases result with
    | error e => rfl
    | ok u => by_cases hfound : s'.entries.get? key = expected <;> simp [withLatency, hfound]

/-- Whether a call is too slow, by the latency of the store. -/
theorem exceeded?_eq (s : Store) (limit : Duration) :
    s.exceeded? (some limit) = if s.latency.Exceeds limit then some limit else none := by
  by_cases h : limit.onClock < s.latency.onClock <;> simp [exceeded?, Duration.Exceeds, h]

/-- A store that answers in time answers as it would with another latency. -/
theorem call_withLatency {limit : Duration} (h : ¬ latency.Exceeds limit)
    (hs : ¬ s.latency.Exceeds limit) (c : StoreCall) :
    (s.withLatency latency).call (some limit) c =
      ((s.call (some limit) c).1, (s.call (some limit) c).2.withLatency latency) := by
  have hintime : s.exceeded? (some limit) = none := (exceeded?_eq s limit).trans (if_neg hs)
  have hintime' : (s.withLatency latency).exceeded? (some limit) = none :=
    (exceeded?_eq _ limit).trans (if_neg h)
  have hoffers : (s.withLatency latency).offers c = s.offers c := by
    cases c <;> rfl
  cases hc : s.offers c
  · rw [call, call, hoffers, hc]
    rfl
  · rw [call, call, hoffers, hc, hintime, hintime', begin_withLatency, perform_withLatency]
    rfl

/-- A store that does not answer in time does nothing. -/
theorem call_of_exceeds {limit : Duration} (h : s.latency.Exceeds limit) {c : StoreCall}
    (hc : s.offers c = true) : s.call (some limit) c = (.error (.timeout limit), s.begin c) := by
  rw [call, if_pos hc, exceeded?_eq, if_pos h]

/-- No call changes the latency. -/
theorem latency_call (s : Store) (limit : Option Duration) (c : StoreCall) :
    (s.call limit c).2.latency = s.latency := by
  have hbegin (s : Store) : (s.begin c).latency = s.latency :=
    congrArg (fun s => s.latency) (s.begin_withLatency s.latency c)
  have hperform (s : Store) : (s.perform c).2.latency = s.latency :=
    congrArg (fun result => result.2.latency) (s.perform_withLatency s.latency c)
  rw [call]
  split
  · split
    · exact hbegin s
    · rw [hperform, hbegin]
  · rfl

end Store

/-! ## Worlds whose stores have another latency -/

/-- Whether a call is a call to the store. -/
def Call.isStore : Call → Bool
  | .store _ _ => true
  | _ => false

/-- A world whose store has another latency. -/
def World.withLatency (w : World) (latency : Duration) : World :=
  { w with store := w.store.withLatency latency }

/-- What becomes of a call, with another latency of the store. -/
def Reaction.withLatency {c : Call} (latency : Duration) : Reaction c → Reaction c
  | .answered answer w => .answered answer (w.withLatency latency)
  | .crashed => .crashed
  | .blocked => .blocked

namespace World

variable {w w' : World} {latency : Duration} {c : Call}

/-- Only calls to the store depend on its latency. -/
theorem react_withLatency (hc : c.isStore = false) :
    (w.withLatency latency).react c = (w.react c).withLatency latency := by
  cases c with
  | store limit c => cases hc
  | host c =>
    simp only [react, withLatency]
    cases w.host.call c <;> rfl
  | fetch target => rfl
  | acquire lock =>
    by_cases hheld : lock ∈ w.held <;>
      simp [react, withLatency, Reaction.withLatency, hheld]
  | release lock => rfl

/-- They do not depend on it either, as long as the store answers in time. -/
theorem react_store_withLatency {limit : Duration} (h : ¬ latency.Exceeds limit)
    (hw : ¬ w.store.latency.Exceeds limit) (c : StoreCall) :
    (w.withLatency latency).react (.store limit c) =
      (w.react (.store limit c)).withLatency latency := by
  simp only [react, withLatency, Store.call_withLatency h hw c]
  rfl

/-- No call changes the latency of the store. -/
theorem latency_react {answer : c.Answer} (h : w.react c = .answered answer w') :
    w'.store.latency = w.store.latency := by
  cases c with
  | store limit c =>
    cases h
    exact w.store.latency_call (some limit) c
  | _ => rw [store_react (by rintro _ _ ⟨⟩) h]

end World

/-! ## Programs with one limit -/

/-- Every store call is made under one limit. -/
def Contract.limited (limit : Duration) : Contract where
  allows c := ∀ other call, c = .store other call → other = limit
  answers _ _ := True

namespace Program

variable {α β ε ε' : Type} {limit latency : Duration} {p : Program α} {w : World}

/-- A program makes every store call under one limit. -/
def Limited (limit : Duration) (p : Program α) : Prop :=
  p.Keeps (.limited limit) fun _ => True

namespace Limited

theorem pure (a : α) : (Pure.pure a : Program α).Limited limit :=
  trivial

theorem bind {f : α → Program β} (hp : p.Limited limit) (hf : ∀ a, (f a).Limited limit) :
    (p >>= f).Limited limit :=
  keeps_bind.2 (hp.imp fun a _ => hf a)

theorem map {f : α → β} (hp : p.Limited limit) : (f <$> p).Limited limit :=
  keeps_map.2 hp

/-- A call to anything but the store. -/
theorem call {c : Call} {next : c.Answer → Program α} (hc : c.isStore = false)
    (hnext : ∀ answer, (next answer).Limited limit) : (Program.call c next).Limited limit := by
  refine ⟨?_, fun answer _ => hnext answer⟩
  rintro other call rfl
  cases hc

theorem locked {lock : Nat} (hp : p.Limited limit) : (Program.locked lock p).Limited limit := by
  rw [locked_eq]
  exact call rfl fun _ => bind hp fun a => call rfl fun _ => pure a

theorem run_pure (a : α) : (Pure.pure a : Operation ε α).run.Limited limit :=
  trivial

theorem run_throw (e : ε) : (throw e : Operation ε α).run.Limited limit :=
  trivial

theorem run_bind {op : Operation ε α} {f : α → Operation ε β} (hop : op.run.Limited limit)
    (hf : ∀ a, (f a).run.Limited limit) : (op >>= f).run.Limited limit :=
  Keeps.run_bind hop hf

theorem run_wrap {f : ε → ε'} {op : Operation ε α} (hop : op.run.Limited limit) :
    (Operation.wrap f op).run.Limited limit :=
  map hop

theorem run_attempt {op : Operation ε α} (hop : op.run.Limited limit) :
    (Operation.attempt op : Operation ε' (Except ε α)).run.Limited limit :=
  map hop

theorem run_lift (hp : p.Limited limit) : (ExceptT.lift p : Operation ε α).run.Limited limit :=
  map hp

/-- A call to the store under the limit. -/
theorem run_store (c : StoreCall) : (Operation.store limit c).run.Limited limit := by
  refine ⟨?_, fun _ _ => trivial⟩
  rintro _ _ ⟨⟩
  rfl

theorem run_host (c : HostCall) : (Operation.host c).run.Limited limit :=
  call rfl fun _ => pure _

end Limited

/-! ## Stores that answer in time -/

/-- A run goes as with a store that answers at once. -/
structure Unaffected (p : Program α) (w : World) (latency : Duration) : Prop where
  outcome : (p.run none (w.withLatency latency)).1 = (p.run none (w.withLatency ⟨0⟩)).1
  transcript :
    p.transcript none (w.withLatency latency) = p.transcript none (w.withLatency ⟨0⟩)
  world :
    (p.run none (w.withLatency latency)).2 = (p.run none (w.withLatency ⟨0⟩)).2.withLatency latency

/-- Without a limit on the whole run, a call goes on with its answer. -/
theorem runFrom_none_call (c : Call) (next : c.Answer → Program α) (waited : Duration) (w : World) :
    (Program.call c next).runFrom none waited w =
      match w.react c with
      | .answered answer w' => (next answer).runFrom none (waited + w.waitFor c) w'
      | .crashed => (.crashed, w)
      | .blocked => (.stuck, w) := by
  rw [runFrom]
  cases w.react c <;> rfl

theorem transcriptFrom_none_call (c : Call) (next : c.Answer → Program α) (waited : Duration)
    (w : World) :
    (Program.call c next).transcriptFrom none waited w =
      match w.react c with
      | .answered answer w' =>
        ⟨c, some answer⟩ :: (next answer).transcriptFrom none (waited + w.waitFor c) w'
      | .crashed => [⟨c, none⟩]
      | .blocked => [⟨c, none⟩] := by
  rw [transcriptFrom]
  cases w.react c <;> rfl

/-- A call that is not answered is the last one of a run. -/
theorem transcriptFrom_of_unanswered {c : Call} {next : c.Answer → Program α} {waited : Duration}
    (h : ¬ ∃ answer w', w.react c = .answered answer w') :
    (Program.call c next).transcriptFrom none waited w = [⟨c, none⟩] := by
  rw [transcriptFrom_none_call]
  cases hreact : w.react c with
  | answered answer w' => exact absurd ⟨answer, w', hreact⟩ h
  | crashed => rfl
  | blocked => rfl

/-- Two runs of a program go alike, but for the latency of the store. -/
structure Alike (p : Program α) (w : World) (latency waited waited' : Duration) : Prop where
  run : p.runFrom none waited (w.withLatency latency) =
    ((p.runFrom none waited' w).1, (p.runFrom none waited' w).2.withLatency latency)
  transcript : p.transcriptFrom none waited (w.withLatency latency) =
    p.transcriptFrom none waited' w

/-- Two runs go alike if their first call is answered alike and they go alike from there on. -/
theorem Alike.call {c : Call} {next : c.Answer → Program α} {waited waited' : Duration}
    (hreact : (w.withLatency latency).react c = (w.react c).withLatency latency)
    (hnext : ∀ answer w', w.react c = .answered answer w' →
      (next answer).Alike w' latency (waited + (w.withLatency latency).waitFor c)
        (waited' + w.waitFor c)) :
    (Program.call c next).Alike w latency waited waited' := by
  constructor
  · rw [runFrom_none_call, runFrom_none_call, hreact]
    cases hw : w.react c with
    | answered answer w' => exact (hnext answer w' hw).run
    | crashed => rfl
    | blocked => rfl
  · rw [transcriptFrom_none_call, transcriptFrom_none_call, hreact]
    cases hw : w.react c with
    | answered answer w' => exact congrArg _ (hnext answer w' hw).transcript
    | crashed => rfl
    | blocked => rfl

/-- Runs that go alike come to the same end. -/
theorem Alike.run_eq (h : p.Alike w latency ⟨0⟩ ⟨0⟩) :
    p.run none (w.withLatency latency) =
      ((p.run none w).1, (p.run none w).2.withLatency latency) := by
  rw [Program.run, Program.run, h.run]
  generalize p.runFrom none ⟨0⟩ w = ending
  obtain ⟨outcome, w'⟩ := ending
  cases outcome <;> rfl

theorem Alike.unaffected (h : p.Alike (w.withLatency ⟨0⟩) latency ⟨0⟩ ⟨0⟩) :
    p.Unaffected w latency := by
  have hrun : p.run none (w.withLatency latency) = _ := h.run_eq
  exact ⟨by rw [hrun], h.transcript, by rw [hrun]⟩

theorem Limited.alike (h : p.Limited limit)
    (hlatency : ¬ latency.Exceeds limit) (hw : ¬ w.store.latency.Exceeds limit)
    (waited waited' : Duration) : p.Alike w latency waited waited' := by
  induction p generalizing w waited waited' with
  | done a => exact ⟨rfl, rfl⟩
  | call c next ih =>
    refine .call ?_ fun answer w' hreact => ih answer (h.2 answer trivial) ?_ _ _
    · cases c with
      | store other c =>
        obtain rfl : other = limit := h.1 other c rfl
        exact World.react_store_withLatency hlatency hw c
      | _ => exact World.react_withLatency rfl
    · rwa [World.latency_react hreact]

/-- **In time.**  If the store answers within the limit of all its calls, a run goes as with a store
that answers at once. -/
theorem Limited.unaffected (h : p.Limited limit) (hlatency : ¬ latency.Exceeds limit) (w : World) :
    p.Unaffected w latency :=
  (h.alike hlatency (Duration.not_exceeds_of_le (Nat.zero_le _)) _ _).unaffected

-- the limit is told by the rules alone, never by running the program
attribute [irreducible] Limited

end Program

end SealedChannel
