import SealedChannel.Storage.Store

/-!
# What a store call does

A call that fails or comes too late leaves the entries alone, and one that is answered says with
its answer what it did.  So the value under a key can be followed through the answers, without a
look at the store.

## What is here

* `StoreCall.source?`, `StoreCall.target?` — the key that a call reads, and what it writes if it
  takes effect.
* `StoreCall.effectOn?` — what a call has put under a key, as its answer tells.
* `Store.Spares` — no foreign write to a key is waiting in the store.
* `Store.exists_begin_eq`, `Store.queued_call` — what happens to the foreign writes that wait.
* `Store.get?_call` — **the answer tells the effect**: after a call, a spared key holds what the
  answer says, or what it held before.
* `Store.call_get`, `Store.call_compareAndSet` — what the answers to a read and to a
  compare-and-set say about the value before the call.
-/

set_option autoImplicit false
namespace SealedChannel

/-! ## Effects -/

namespace StoreCall

/-- The key that a call is about. -/
def key : StoreCall → String
  | .get key | .set key _ | .delete key | .compareAndSet key _ _ => key

/-- The key that a call reads; a compare-and-set reads the key that it writes. -/
def source? : StoreCall → Option String
  | .get key => some key
  | .compareAndSet key _ _ => some key
  | _ => none

/-- What a call writes if it takes effect: a key, and its value then, `none` for a removal. -/
def target? : StoreCall → Option (String × Option Bytes)
  | .get _ => none
  | .set key value => some (key, some value)
  | .delete key => some (key, none)
  | .compareAndSet key _ value => some (key, some value)

/-- What a call may write is under its key. -/
theorem key_of_target? {c : StoreCall} {name : String} {value : Option Bytes}
    (h : c.target? = some (name, value)) : c.key = name := by
  cases c <;> cases h <;> rfl

/-- Whether a call took effect, as its answer tells. -/
def tookEffect : (c : StoreCall) → Except StoreError c.Answer → Bool
  | .get _, _ => false
  | .set _ _, answer => answer.isOk
  | .delete _, answer => answer.isOk
  | .compareAndSet _ _ _, .ok swapped => swapped
  | .compareAndSet _ _ _, .error _ => false

/-- What a call has put under a key, as its answer tells; `none` if it left the key alone. -/
def effectOn? (key : String) (c : StoreCall) (answer : Except StoreError c.Answer) :
    Option (Option Bytes) :=
  match c.target? with
  | some (name, value) => if name = key ∧ c.tookEffect answer then some value else none
  | none => none

/-- A call that failed took no effect. -/
@[simp]
theorem effectOn?_error (key : String) (c : StoreCall) (e : StoreError) :
    c.effectOn? key (.error e) = none := by
  cases c <;> simp [effectOn?, target?, tookEffect, Except.isOk, Except.toBool]

/-- An effect is the target of the call. -/
theorem target?_of_effectOn? {key : String} {c : StoreCall} {answer : Except StoreError c.Answer}
    {value : Option Bytes} (h : c.effectOn? key answer = some value) :
    c.target? = some (key, value) := by
  rw [effectOn?] at h
  split at h
  · rename_i name target htarget
    split at h
    · rename_i hname
      obtain ⟨rfl, -⟩ := hname
      rw [htarget, Option.some.inj h]
    · exact absurd h (by simp)
  · exact absurd h (by simp)

/-- A call with an effect took effect. -/
theorem tookEffect_of_effectOn? {key : String} {c : StoreCall}
    {answer : Except StoreError c.Answer} {value : Option Bytes}
    (h : c.effectOn? key answer = some value) : c.tookEffect answer = true := by
  rw [effectOn?] at h
  split at h
  · split at h
    · rename_i htook
      exact htook.2
    · cases h
  · cases h

/-- A swap took effect if and only if it says so. -/
theorem tookEffect_compareAndSet {key : String} {expected : Option Bytes} {value : Bytes}
    {answer : Except StoreError Bool} :
    (compareAndSet key expected value).tookEffect answer = true ↔ answer = .ok true := by
  cases answer <;> simp [tookEffect]

end StoreCall

/-! ## Foreign writes that wait -/

namespace Store

/-- No foreign write to a key is waiting, neither armed nor in the queue. -/
def Spares (s : Store) (key : String) : Prop :=
  ∀ write ∈ s.armed.toList ++ s.queued, write.key ≠ key

/-- In a new store no foreign write is waiting. -/
theorem spares_new (scripted atomic : Bool) (key : String) : (new scripted atomic).Spares key := by
  simp [Spares, new]

variable {s : Store} {key : String}

theorem arm_entries (s : Store) : s.arm.entries = s.entries := by
  rw [arm]
  split <;> rfl

theorem Spares.arm (h : s.Spares key) : s.arm.Spares key := by
  rw [Store.arm]
  split
  · exact h
  · rename_i write rest hq
    intro other hother
    refine h other ?_
    rw [hq]
    simp only [Option.toList_some, List.mem_append, List.mem_singleton] at hother
    rcases hother with rfl | hother
    · simp
    · simp [hother]

theorem begin_entries (s : Store) (c : StoreCall) : (s.begin c).entries = s.entries := by
  cases c with
  | get key => rfl
  | delete key => rfl
  | set key value => exact arm_entries s
  | compareAndSet key expected value =>
    rw [begin]
    split
    · exact arm_entries s
    · rfl

/-- A call that has only begun has changed no value. -/
@[simp]
theorem get?_begin (s : Store) (c : StoreCall) (key : String) :
    (s.begin c).get? key = s.get? key := by
  rw [get?, get?, begin_entries]

theorem Spares.begin (h : s.Spares key) (c : StoreCall) : (s.begin c).Spares key := by
  cases c with
  | get key => exact h
  | delete key => exact h
  | set key value => exact h.arm
  | compareAndSet key expected value =>
    rw [Store.begin]
    split
    · exact h.arm
    · exact h

/-- The armed foreign write takes place under another key. -/
theorem get?_interfere (h : s.Spares key) : s.interfere.get? key = s.get? key := by
  rw [interfere]
  split
  · rfl
  · rename_i write harmed
    have hne : write.key ≠ key := h write (by simp [harmed])
    simp [get?, Ne.symm hne]

theorem Spares.interfere (h : s.Spares key) : s.interfere.Spares key := by
  rw [Store.interfere]
  split
  · exact h
  · exact fun other hother => h other (by simpa using .inr (by simpa using hother))

/-- A call that has only begun has moved foreign writes and done nothing else. -/
theorem exists_begin_eq (s : Store) (c : StoreCall) :
    ∃ queued armed, s.begin c = { s with queued := queued, armed := armed } := by
  have harm : ∃ queued armed, s.arm = { s with queued := queued, armed := armed } := by
    rw [Store.arm]
    split
    · exact ⟨s.queued, s.armed, rfl⟩
    · exact ⟨_, _, rfl⟩
  cases c with
  | set key value => exact harm
  | compareAndSet key expected value =>
    rw [Store.begin]
    split
    · exact harm
    · exact ⟨s.queued, s.armed, rfl⟩
  | _ => exact ⟨s.queued, s.armed, rfl⟩

/-- If the queue is empty, it has done nothing at all. -/
theorem begin_of_queued (h : s.queued = []) (c : StoreCall) : s.begin c = s := by
  cases c <;> simp [Store.begin, Store.arm, h]

/-- A call puts no foreign write into the queue. -/
theorem queued_call (h : s.queued = []) (limit : Option Duration) (c : StoreCall) :
    (s.call limit c).2.queued = [] := by
  have hadmit : s.admitWrite.2.queued = [] := by
    rw [admitWrite, Store.interfere]
    split
    · exact h
    · split <;> exact h
  have hperform : (s.perform c).2.queued = [] := by
    cases c <;> grind [perform]
  rw [call, begin_of_queued h]
  split
  · split
    · exact h
    · exact hperform
  · exact h

/-! ## Performing a call -/

/-- Refused or not, a write that is only admitted has changed no spared value. -/
theorem get?_admitWrite (h : s.Spares key) : s.admitWrite.2.get? key = s.get? key := by
  rw [admitWrite]
  split
  · rfl
  · exact get?_interfere (s := { s with writes := s.writes + 1 }) h

theorem Spares.admitWrite (h : s.Spares key) : s.admitWrite.2.Spares key := by
  rw [Store.admitWrite]
  split
  · exact h
  · exact Spares.interfere (s := { s with writes := s.writes + 1 }) h

theorem get?_perform (h : s.Spares key) (c : StoreCall) :
    (s.perform c).2.get? key = (c.effectOn? key (s.perform c).1).getD (s.get? key) := by
  have hsame := get?_admitWrite h
  cases c with
  | get name =>
    rw [perform]
    split <;> rfl
  | delete name =>
    rw [perform]
    split
    · rw [StoreCall.effectOn?_error]; rfl
    · by_cases hname : name = key
      · simp [StoreCall.effectOn?, StoreCall.target?, StoreCall.tookEffect, Except.isOk,
          Except.toBool, get?, hname]
      · simp [StoreCall.effectOn?, StoreCall.target?, get?, hname, Ne.symm hname]
  | set name value =>
    rw [perform]
    generalize s.admitWrite = admitted at hsame ⊢
    obtain ⟨e | _, t⟩ := admitted
    · rw [StoreCall.effectOn?_error]; exact hsame
    · by_cases hname : name = key
      · simp [StoreCall.effectOn?, StoreCall.target?, StoreCall.tookEffect, Except.isOk,
          Except.toBool, get?, hname]
      · simpa [StoreCall.effectOn?, StoreCall.target?, get?, hname, Ne.symm hname] using hsame
  | compareAndSet name expected value =>
    rw [perform]
    generalize s.admitWrite = admitted at hsame ⊢
    obtain ⟨e | _, t⟩ := admitted
    · rw [StoreCall.effectOn?_error]; exact hsame
    · dsimp only
      split
      · by_cases hname : name = key
        · simp [StoreCall.effectOn?, StoreCall.target?, StoreCall.tookEffect, get?, hname]
        · simpa [StoreCall.effectOn?, StoreCall.target?, get?, hname, Ne.symm hname] using hsame
      · simpa [StoreCall.effectOn?, StoreCall.target?, StoreCall.tookEffect] using hsame

theorem Spares.perform (h : s.Spares key) (c : StoreCall) : (s.perform c).2.Spares key := by
  have hspares := h.admitWrite
  cases c with
  | get name =>
    rw [Store.perform]
    split <;> exact h
  | delete name =>
    rw [Store.perform]
    split <;> exact h
  | set name value =>
    rw [Store.perform]
    generalize s.admitWrite = admitted at hspares ⊢
    obtain ⟨e | _, t⟩ := admitted <;> exact hspares
  | compareAndSet name expected value =>
    rw [Store.perform]
    generalize s.admitWrite = admitted at hspares ⊢
    obtain ⟨e | _, t⟩ := admitted
    · exact hspares
    · dsimp only
      split <;> exact hspares

/-! ## Calls under a limit -/

/-- A call is refused unheard, comes too late after it has begun, or reaches the store. -/
theorem call_cases (s : Store) (limit : Option Duration) (c : StoreCall) :
    (∃ e, s.call limit c = (.error e, s)) ∨ (∃ e, s.call limit c = (.error e, s.begin c))
      ∨ s.call limit c = (s.begin c).perform c := by
  rw [call]
  split
  · split
    · exact .inr (.inl ⟨_, rfl⟩)
    · exact .inr (.inr rfl)
  · exact .inl ⟨_, rfl⟩

/-- **The answer tells the effect.**  After a call, a spared key holds what the answer says that
the call has put there, or what it held before. -/
theorem get?_call (h : s.Spares key) (limit : Option Duration) (c : StoreCall) :
    (s.call limit c).2.get? key = (c.effectOn? key (s.call limit c).1).getD (s.get? key) := by
  rcases s.call_cases limit c with ⟨e, hs⟩ | ⟨e, hs⟩ | hs
  · simp [hs]
  · simp [hs]
  · rw [hs, get?_perform (h.begin c), get?_begin]

/-- A call without an effect has changed no spared value. -/
theorem get?_call_of_none (h : s.Spares key) {limit : Option Duration} {c : StoreCall}
    {answer : Except StoreError c.Answer} {s' : Store} (hcall : s.call limit c = (answer, s'))
    (hnone : c.effectOn? key answer = none) : s'.get? key = s.get? key := by
  have hget := get?_call h limit c
  rw [hcall, hnone] at hget
  exact hget

theorem Spares.call (h : s.Spares key) (limit : Option Duration) (c : StoreCall) :
    (s.call limit c).2.Spares key := by
  rcases s.call_cases limit c with ⟨e, hs⟩ | ⟨e, hs⟩ | hs
  · rw [hs]; exact h
  · rw [hs]; exact h.begin c
  · rw [hs]; exact (h.begin c).perform c

/-- What a read answers is a matter of the faults and of the value under the key. -/
theorem answer_get (s : Store) (limit : Option Duration) (key : String) :
    (s.call limit (.get key)).1 = match s.exceeded? limit with
      | some limit => .error (.timeout limit)
      | none => if s.refuseGets then .error (.backend "injected get failure")
        else .ok (s.get? key) := by
  have hoffers : s.offers (.get key) = true := rfl
  rw [call, if_pos hoffers]
  cases s.exceeded? limit with
  | some limit => rfl
  | none =>
    dsimp only [begin]
    rw [perform]
    cases s.refuseGets <;> rfl

/-- What a write answers is a matter of the faults alone. -/
theorem answer_set (s : Store) (limit : Option Duration) (key : String) (value : Bytes) :
    (s.call limit (.set key value)).1 = match s.exceeded? limit with
      | some limit => .error (.timeout limit)
      | none => if s.refuseSets then .error (.backend "injected set failure") else .ok () := by
  have harm : s.arm.refuseSets = s.refuseSets := by
    rw [arm]
    split <;> rfl
  have hoffers : s.offers (.set key value) = true := rfl
  rw [call, if_pos hoffers]
  cases s.exceeded? limit with
  | some limit => rfl
  | none =>
    dsimp only [begin]
    rw [perform, admitWrite, harm]
    cases s.refuseSets <;> rfl

/-- A read changes no value, whether or not it succeeds. -/
theorem get?_call_get (s : Store) (limit : Option Duration) (key : String) :
    (s.call limit (.get key)).2.get? = s.get? := by
  rcases s.call_cases limit (.get key) with ⟨e, hs⟩ | ⟨e, hs⟩ | hs
  · rw [hs]
  · rw [hs]
    rfl
  · rw [hs, perform]
    split <;> rfl

/-- A read that succeeds answers the value under the key. -/
theorem call_get {limit : Option Duration} {raw : Option Bytes}
    (h : (s.call limit (.get key)).1 = .ok raw) : raw = s.get? key := by
  rcases s.call_cases limit (.get key) with ⟨e, hs⟩ | ⟨e, hs⟩ | hs
  · rw [hs] at h; cases h
  · rw [hs] at h; cases h
  · rw [hs, perform] at h
    split at h
    · cases h
    · cases h; rfl

/-- A compare-and-set that is not refused answers whether the key held the expected value. -/
theorem call_compareAndSet (hs : s.Spares key) {limit : Option Duration}
    {expected : Option Bytes} {value : Bytes} {swapped : Bool}
    (h : (s.call limit (.compareAndSet key expected value)).1 = .ok swapped) :
    swapped = true ↔ s.get? key = expected := by
  rcases s.call_cases limit (.compareAndSet key expected value) with ⟨e, hc⟩ | ⟨e, hc⟩ | hc
  · rw [hc] at h; cases h
  · rw [hc] at h; cases h
  · rw [hc, perform] at h
    have hsame := get?_admitWrite (hs.begin (.compareAndSet key expected value))
    rw [get?_begin] at hsame
    generalize (s.begin (.compareAndSet key expected value)).admitWrite = admitted at h hsame
    obtain ⟨e | _, t⟩ := admitted
    · cases h
    · rw [get?] at hsame
      dsimp only at h hsame
      rw [hsame] at h
      split at h
      · rename_i heq
        cases h
        exact ⟨fun _ => heq, fun _ => rfl⟩
      · rename_i hne
        cases h
        exact ⟨fun h => absurd h (by simp), fun h => absurd h hne⟩

end Store

end SealedChannel
