import SealedChannel.Proofs.Storage.SwapOrSet

/-!
# A change of a mode under contention

Just before each swap of a change, another process may write.  The swap is lost if that write has
put other bytes under the mode of the channel, be they for the same mode or not.  The change then
looks again, and gives up after eight swaps that were lost; it never writes over a value that it has
not read.

## What is here

* `Store.Ready` — a store with compare-and-set in which nothing fails.
* `Store.standing`, `Store.Overtaken`, `Store.Loses` — what a change reads in each round, and which
  rounds lose their swap.
* `Store.afterRound` — the store after a round without a swap.
* `Modes.Ended` — the three ways in which a change ends.
* `Modes.run_of_contention` — a change ends in one of them, and the foreign writes tell in which.
-/

set_option autoImplicit false
namespace SealedChannel

/-! ## Rounds -/

namespace Store

variable {s : Store} {limit : Duration} {channelId key : String} {mode : Mode} {value : Bytes}
  {n : Nat}

/-- A store with compare-and-set in which nothing fails and no foreign write is armed. -/
structure Ready (s : Store) (limit : Duration) : Prop where
  atomic : s.atomic = true
  gets : s.refuseGets = false
  sets : s.refuseSets = false
  inTime : s.latency ≤ limit
  armed : s.armed = none

/-- The value under a key at the beginning of a round, if a foreign write has put it there in each
round before. -/
def standing (s : Store) (key : String) : Nat → Option Bytes
  | 0 => s.get? key
  | i + 1 => (s.queued[i]?).map ForeignWrite.value

/-- The foreign write of a round puts other bytes under the key. -/
def Overtaken (s : Store) (key : String) (i : Nat) : Prop :=
  ∃ write, s.queued[i]? = some write ∧ write.key = key ∧ some write.value ≠ s.standing key i

/-- In each of the first rounds a change finds another mode and loses its swap. -/
def Loses (s : Store) (channelId : String) (mode : Mode) (n : Nat) : Prop :=
  ∀ i < n, Mode.current (s.standing (Key.mode channelId) i) ≠ mode ∧
    s.Overtaken (Key.mode channelId) i

theorem loses_zero : s.Loses channelId mode 0 :=
  fun i hi => absurd hi (Nat.not_lt_zero i)

/-- A change that looked in a round would not lose it. -/
def Stops (s : Store) (channelId : String) (mode : Mode) (i : Nat) : Prop :=
  Mode.current (s.standing (Key.mode channelId) i) = mode ∨
    ¬ s.Overtaken (Key.mode channelId) i

/-- No round stops a change before one that it gets to. -/
theorem Loses.le {i : Nat} (h : s.Loses channelId mode n) (hi : s.Stops channelId mode i) :
    n ≤ i := by
  by_contra hlt
  obtain ⟨hmode, hlost⟩ := h i (Nat.lt_of_not_le hlt)
  exact hi.elim hmode fun hkept => hkept hlost

/-- At most one round stops a change. -/
theorem Loses.unique {i j : Nat} (hi : s.Loses channelId mode i) (hj : s.Loses channelId mode j)
    (hstopi : s.Stops channelId mode i) (hstopj : s.Stops channelId mode j) : i = j :=
  Nat.le_antisymm (hi.le hstopj) (hj.le hstopi)

/-- All rounds are lost if and only if the first mode and those that the foreign writes bring before
the last round are other ones, and each foreign write changes the value. -/
theorem loses_iff : s.Loses channelId mode (n + 1) ↔ s.modeOf channelId ≠ mode ∧
    (∀ i < n + 1, s.Overtaken (Key.mode channelId) i) ∧
    ∀ i < n, Mode.current ((s.queued[i]?).map ForeignWrite.value) ≠ mode := by
  constructor
  · intro h
    exact ⟨(h 0 (Nat.succ_pos n)).1, fun i hi => (h i hi).2,
      fun i hi => (h (i + 1) (Nat.succ_lt_succ hi)).1⟩
  · rintro ⟨hfirst, hlost, hother⟩ i hi
    refine ⟨?_, hlost i hi⟩
    cases i with
    | zero => exact hfirst
    | succ i => exact hother i (Nat.lt_of_succ_lt_succ hi)

/-- The store after a round without a swap: a read and a write are counted, and the next foreign
write has come in between. -/
def afterRound (s : Store) : Store :=
  s.countGet.arm.countWrite.interfere

theorem afterRound_of_nil (harmed : s.armed = none) (hqueued : s.queued = []) :
    s.afterRound = s.countGet.countWrite := by
  simp [afterRound, countGet, arm, hqueued, countWrite, interfere, harmed]

theorem afterRound_of_cons {write : ForeignWrite} {rest : List ForeignWrite}
    (hqueued : s.queued = write :: rest) : s.afterRound =
      { s.countGet.countWrite with
        entries := s.entries.insert write.key write.value, queued := rest, armed := none } := by
  simp [afterRound, countGet, arm, hqueued, countWrite, interfere]

/-- A foreign write that changes the key leaves there what it has written. -/
theorem get?_afterRound (h : s.Overtaken key 0) :
    s.afterRound.get? key = s.standing key 1 ∧ s.afterRound.get? key ≠ s.get? key := by
  obtain ⟨write, hwrite, rfl, hne⟩ := h
  obtain ⟨rest, hqueued⟩ : ∃ rest, s.queued = write :: rest := by
    cases hqueued : s.queued with
    | nil => rw [hqueued] at hwrite; cases hwrite
    | cons first rest => rw [hqueued] at hwrite; cases hwrite; exact ⟨rest, rfl⟩
  have hget : s.afterRound.get? write.key = some write.value := by
    rw [afterRound_of_cons hqueued]
    simp [get?]
  rw [hget]
  exact ⟨by rw [standing, hwrite]; rfl, hne⟩

/-- Any other round leaves the key as it was. -/
theorem get?_afterRound_of_not (harmed : s.armed = none) (h : ¬ s.Overtaken key 0) :
    s.afterRound.get? key = s.get? key := by
  cases hqueued : s.queued with
  | nil => rw [afterRound_of_nil harmed hqueued]; rfl
  | cons write rest =>
    rw [afterRound_of_cons hqueued]
    by_cases hkey : write.key = key
    · have hsame : some write.value = s.get? key := Classical.byContradiction fun hne =>
        h ⟨write, by rw [hqueued]; rfl, hkey, hne⟩
      rw [← hsame, ← hkey]
      simp [get?]
    · simp [get?, Ne.symm hkey]

/-! ## Stores in which nothing fails -/

namespace Ready

variable (h : s.Ready limit)
include h

/-- A store whose latency is within the limit is never too slow. -/
theorem exceeded? : s.exceeded? (some limit) = none := by
  simp [Store.exceeded?, Duration.not_lt.2 (Duration.onClock_le_onClock h.inTime)]

theorem call_get : s.call (some limit) (.get key) = (.ok (s.get? key), s.countGet) := by
  have hoffers : s.offers (.get key) = true := rfl
  rw [call, if_pos hoffers, h.exceeded?]
  dsimp only [begin]
  rw [perform_get, h.gets, if_neg Bool.false_ne_true]

/-- A swap after the read is lost in a round in which the foreign write changes the key, and takes
place in any other. -/
theorem call_swap (key : String) (value : Bytes) :
    s.countGet.call (some limit) (.compareAndSet key (s.get? key) value) =
      if s.afterRound.get? key = s.get? key then (.ok true, s.afterRound.seed key value)
      else (.ok false, s.afterRound) := by
  have hoffers : s.countGet.offers (.compareAndSet key (s.get? key) value) = true := h.atomic
  have hbegin : s.countGet.begin (.compareAndSet key (s.get? key) value) = s.countGet.arm :=
    if_pos h.atomic
  have hintime : s.countGet.exceeded? (some limit) = none := h.exceeded?
  have hsets : s.countGet.arm.refuseSets = false := by
    rw [arm]
    split <;> exact h.sets
  have hadmit : s.countGet.arm.admitWrite = (.ok (), s.afterRound) :=
    if_neg (show ¬ s.countGet.arm.refuseSets = true by rw [hsets]; exact Bool.false_ne_true)
  rw [call, if_pos hoffers, hintime, hbegin]
  dsimp only
  rw [perform, hadmit]
  rfl

/-- After a round nothing fails either. -/
theorem afterRound : s.afterRound.Ready limit ∧ s.afterRound.queued = s.queued.tail ∧
    s.afterRound.gets = s.gets + 1 ∧ s.afterRound.writes = s.writes + 1 := by
  cases hqueued : s.queued with
  | nil =>
    rw [afterRound_of_nil h.armed hqueued]
    exact ⟨⟨h.atomic, h.gets, h.sets, h.inTime, h.armed⟩, hqueued, rfl, rfl⟩
  | cons write rest =>
    rw [afterRound_of_cons hqueued]
    exact ⟨⟨h.atomic, h.gets, h.sets, h.inTime, rfl⟩, rfl, rfl, rfl⟩

variable (hlost : s.Overtaken key 0)
include hlost

/-- After a round that was lost, the others come one round earlier. -/
theorem standing_afterRound (i : Nat) : s.afterRound.standing key i = s.standing key (i + 1) := by
  cases i with
  | zero => exact (get?_afterRound hlost).1
  | succ i => rw [standing, standing, h.afterRound.2.1, List.getElem?_tail]

theorem overtaken_afterRound (i : Nat) :
    s.afterRound.Overtaken key i ↔ s.Overtaken key (i + 1) := by
  rw [Overtaken, Overtaken, h.afterRound.2.1, List.getElem?_tail, h.standing_afterRound hlost]

end Ready

/-- One more round that was lost. -/
theorem loses_succ (h : s.Ready limit) (hmode : s.modeOf channelId ≠ mode)
    (hlost : s.Overtaken (Key.mode channelId) 0) (hrest : s.afterRound.Loses channelId mode n) :
    s.Loses channelId mode (n + 1) := by
  intro i hi
  cases i with
  | zero => exact ⟨hmode, hlost⟩
  | succ i =>
    have hround := hrest i (Nat.lt_of_succ_lt_succ hi)
    rwa [h.standing_afterRound hlost, h.overtaken_afterRound hlost] at hround

end Store

/-! ## Changes -/

namespace Modes

open Program

variable {m : Modes} {channelId : String} {mode : Mode} {s : Store} {n rounds : Nat}
  {result : Except StoreError Bool} {t : Moment}

/-- How a change with a number of attempts ends: the number of swaps, the result, and the value
that is left, by the store at the beginning. -/
inductive Ended (channelId : String) (mode : Mode) (s : Store) (n : Nat) :
    Nat → Except StoreError Bool → Option Bytes → Prop where
  /-- All swaps are lost. -/
  | beaten (h : s.Loses channelId mode n) :
      Ended channelId mode s n n (.error (.conflict (Key.mode channelId)))
        (s.standing (Key.mode channelId) n)
  /-- A read finds the mode in place. -/
  | found {lost : Nat} (hlost : lost < n) (h : s.Loses channelId mode lost)
      (hmode : Mode.current (s.standing (Key.mode channelId) lost) = mode) :
      Ended channelId mode s n lost (.ok false) (s.standing (Key.mode channelId) lost)
  /-- A swap is not lost. -/
  | won {lost : Nat} (hlost : lost < n) (h : s.Loses channelId mode lost)
      (hmode : Mode.current (s.standing (Key.mode channelId) lost) ≠ mode)
      (hkept : ¬ s.Overtaken (Key.mode channelId) lost) :
      Ended channelId mode s n (lost + 1) (.ok true) (some mode.encode)

/-- One more round that was lost. -/
theorem Ended.succ {value : Option Bytes} {limit : Duration} (hs : s.Ready limit)
    (hmode : s.modeOf channelId ≠ mode) (hlost : s.Overtaken (Key.mode channelId) 0)
    (h : Ended channelId mode s.afterRound n rounds result value) :
    Ended channelId mode s (n + 1) (rounds + 1) result value := by
  cases h with
  | beaten h =>
    rw [hs.standing_afterRound hlost]
    exact .beaten (Store.loses_succ hs hmode hlost h)
  | found hlt h hfound =>
    rw [hs.standing_afterRound hlost] at hfound ⊢
    exact .found (Nat.succ_lt_succ hlt) (Store.loses_succ hs hmode hlost h) hfound
  | won hlt h hother hkept =>
    rw [hs.standing_afterRound hlost] at hother
    rw [hs.overtaken_afterRound hlost] at hkept
    exact .won (Nat.succ_lt_succ hlt) (Store.loses_succ hs hmode hlost h) hother hkept

/-- The calls of a change: a read and a swap over the value that was read in each round, and one
more read if it finds the mode in place. -/
def attempts (m : Modes) (channelId : String) (mode : Mode) (s : Store) (rounds : Nat)
    (result : Except StoreError Bool) : List Call :=
  ((List.range rounds).flatMap fun i => [.store m.limit (.get (Key.mode channelId)),
    .store m.limit (.compareAndSet (Key.mode channelId) (s.standing (Key.mode channelId) i)
      mode.encode)]) ++
  if result = .ok false then [.store m.limit (.get (Key.mode channelId))] else []

theorem attempts_succ (hs : s.Ready m.limit) (hlost : s.Overtaken (Key.mode channelId) 0) :
    m.attempts channelId mode s (rounds + 1) result =
      .store m.limit (.get (Key.mode channelId)) ::
      .store m.limit (.compareAndSet (Key.mode channelId) (s.get? (Key.mode channelId))
        mode.encode) ::
      m.attempts channelId mode s.afterRound rounds result := by
  simp only [attempts, List.range_succ_eq_map, List.flatMap_cons, List.flatMap_map,
    hs.standing_afterRound hlost]
  rfl

/-- What is known when a change has come to its end under contention. -/
structure Contended (m : Modes) (channelId : String) (mode : Mode) (n : Nat) (t : Moment)
    (rounds : Nat) (result : Except StoreError Bool) (t' : Moment) : Prop where
  ended : Ended channelId mode t.world.store n rounds result
    (t'.world.store.get? (Key.mode channelId))
  calls : t'.made.map Exchange.call =
    t.made.map Exchange.call ++ m.attempts channelId mode t.world.store rounds result
  gets : t'.world.store.gets = t.world.store.gets + rounds + if result = .ok false then 1 else 0
  writes : t'.world.store.writes = t.world.store.writes + rounds
  rest : t'.world = { t.world with store := t'.world.store }

/-- One more round that was lost. -/
theorem Contended.succ {t₂ t' : Moment} (hs : t.world.store.Ready m.limit)
    (hmode : t.world.store.modeOf channelId ≠ mode)
    (hlost : t.world.store.Overtaken (Key.mode channelId) 0)
    (hworld : t₂.world = { t.world with store := t.world.store.afterRound })
    (hmade : t₂.made.map Exchange.call = t.made.map Exchange.call ++
      [.store m.limit (.get (Key.mode channelId)), .store m.limit (.compareAndSet
        (Key.mode channelId) (t.world.store.get? (Key.mode channelId)) mode.encode)])
    (h : m.Contended channelId mode n t₂ rounds result t') :
    m.Contended channelId mode (n + 1) t (rounds + 1) result t' := by
  obtain ⟨ended, calls, gets, writes, rest⟩ := h
  rw [hworld] at ended calls gets writes rest
  obtain ⟨-, -, hgets, hwrites⟩ := hs.afterRound
  refine ⟨ended.succ hs hmode hlost, ?_, ?_, ?_, rest⟩
  · rw [calls, hmade, attempts_succ hs hlost, List.append_assoc]
    rfl
  · rw [gets]
    dsimp only
    omega
  · rw [writes]
    dsimp only
    omega

theorem ensures_contended (h : t.world.store.Ready m.limit) (n : Nat) :
    (m.exchange channelId mode n).run.Ensures .calm none
      (fun result t' => ∃ rounds, m.Contended channelId mode n t rounds result t')
      (fun _ => False) t := by
  induction n generalizing t with
  | zero =>
    refine ⟨0, .beaten Store.loses_zero, ?_, rfl, rfl, rfl⟩
    simp [attempts]
  | succ n ih =>
    rw [exchange]
    refine ensures_run_bind.2 (.run_store_calm (fun hover => by cases hover)
      fun answer store _ hread => ?_)
    rw [h.call_get] at hread
    obtain ⟨rfl, rfl⟩ := Prod.ext_iff.1 hread
    dsimp only
    split
    · rename_i hsame
      refine ⟨0, .found (Nat.succ_pos n) Store.loses_zero hsame, ?_, rfl, rfl, rfl⟩
      simp [attempts, Moment.answered]
    · rename_i hother
      refine ensures_run_bind.2 (.run_store_calm (fun hover => by cases hover)
        fun answer store _ hcall => ?_)
      have hswap := hcall.symm.trans (h.call_swap (Key.mode channelId) mode.encode)
      by_cases hlost : t.world.store.Overtaken (Key.mode channelId) 0
      · rw [if_neg (Store.get?_afterRound hlost).2] at hswap
        cases hswap
        refine (ih h.afterRound.1).imp (fun result t' hends => ?_) fun _ hfalse => hfalse
        obtain ⟨rounds, hends⟩ := hends
        refine ⟨rounds + 1, hends.succ h hother hlost rfl ?_⟩
        simp [Moment.answered]
      · rw [if_pos (Store.get?_afterRound_of_not h.armed hlost)] at hswap
        cases hswap
        obtain ⟨-, -, hgets, hwrites⟩ := h.afterRound
        refine ⟨1, ?_, ?_, ?_, ?_, rfl⟩
        · have hwritten : (t.world.store.afterRound.seed (Key.mode channelId) mode.encode).get?
              (Key.mode channelId) = some mode.encode := by
            simp [Store.seed, Store.get?]
          exact hwritten ▸ .won (Nat.succ_pos n) Store.loses_zero hother hlost
        · simp [attempts, Moment.answered, Store.standing]
        · exact hgets
        · exact hwrites

/-! ## Results -/

namespace Ended

variable {value : Option Bytes} (h : Ended channelId mode s n rounds result value)
include h

theorem conflict_iff :
    result = .error (.conflict (Key.mode channelId)) ↔ s.Loses channelId mode n := by
  cases h with
  | beaten h => exact iff_of_true rfl h
  | found hlt h hmode =>
    exact iff_of_false (by rintro ⟨⟩) fun hn => Nat.not_le_of_lt hlt (hn.le (.inl hmode))
  | won hlt h hmode hkept =>
    exact iff_of_false (by rintro ⟨⟩) fun hn => Nat.not_le_of_lt hlt (hn.le (.inr hkept))

theorem ok_true_iff : result = .ok true ↔ ∃ lost < n, s.Loses channelId mode lost ∧
    Mode.current (s.standing (Key.mode channelId) lost) ≠ mode ∧
    ¬ s.Overtaken (Key.mode channelId) lost := by
  cases h with
  | beaten h =>
    refine iff_of_false (by rintro ⟨⟩) ?_
    rintro ⟨lost, hlt, -, -, hkept⟩
    exact Nat.not_le_of_lt hlt (h.le (.inr hkept))
  | found hlt h hmode =>
    refine iff_of_false (by rintro ⟨⟩) ?_
    rintro ⟨lost, -, hlost, hother, hkept⟩
    obtain rfl := h.unique hlost (.inl hmode) (.inr hkept)
    exact hother hmode
  | won hlt h hmode hkept => exact iff_of_true rfl ⟨_, hlt, h, hmode, hkept⟩

theorem ok_false_iff : result = .ok false ↔ ∃ lost < n, s.Loses channelId mode lost ∧
    Mode.current (s.standing (Key.mode channelId) lost) = mode := by
  cases h with
  | beaten h =>
    refine iff_of_false (by rintro ⟨⟩) ?_
    rintro ⟨lost, hlt, -, hmode⟩
    exact Nat.not_le_of_lt hlt (h.le (.inl hmode))
  | found hlt h hmode => exact iff_of_true rfl ⟨_, hlt, h, hmode⟩
  | won hlt h hmode hkept =>
    refine iff_of_false (by rintro ⟨⟩) ?_
    rintro ⟨lost, -, hlost, hsame⟩
    obtain rfl := h.unique hlost (.inr hkept) (.inl hsame)
    exact hmode hsame

end Ended

/-- **A change under contention.**  There are eight rounds at most.  The change conflicts exactly if
the first mode is another one, the first eight foreign writes all put other bytes under the mode,
and none of them but the last brings the mode that was asked for; that last one stands.  Otherwise
the first round without such a write, or with the mode in place, decides. -/
theorem run_of_contention (m : Modes) (channelId : String) (mode : Mode) (w : World)
    (hatomic : m.atomic = true) (hready : w.store.Ready m.limit)
    (hfree : m.lockOf channelId ∉ w.held) :
    ∃ rounds result after,
      (m.setIfDifferent channelId mode).run.run none w
        = (.finished result, { w with store := after }) ∧
      ((m.setIfDifferent channelId mode).run.transcript none w).map Exchange.call =
        .acquire (m.lockOf channelId) :: (m.attempts channelId mode w.store rounds result ++
          [.release (m.lockOf channelId)]) ∧
      after.gets = w.store.gets + rounds + (if result = .ok false then 1 else 0) ∧
      after.writes = w.store.writes + rounds ∧
      (result = .error (.conflict (Key.mode channelId)) ↔ w.store.modeOf channelId ≠ mode ∧
        (∀ i < 8, w.store.Overtaken (Key.mode channelId) i) ∧
        ∀ i < 7, Mode.current ((w.store.queued[i]?).map ForeignWrite.value) ≠ mode) ∧
      (result = .ok true ↔ ∃ lost < 8, w.store.Loses channelId mode lost ∧
        Mode.current (w.store.standing (Key.mode channelId) lost) ≠ mode ∧
        ¬ w.store.Overtaken (Key.mode channelId) lost) ∧
      (result = .ok false ↔ ∃ lost < 8, w.store.Loses channelId mode lost ∧
        Mode.current (w.store.standing (Key.mode channelId) lost) = mode) ∧
      match result with
      | .error e => e = .conflict (Key.mode channelId) ∧ rounds = 8 ∧
        after.get? (Key.mode channelId) = (w.store.queued[7]?).map ForeignWrite.value
      | .ok true => rounds ≤ 8 ∧ after.get? (Key.mode channelId) = some mode.encode
      | .ok false => rounds < 8 ∧
        after.get? (Key.mode channelId) = w.store.standing (Key.mode channelId) rounds := by
  let locked : Moment := (Moment.start w).answered (.acquire (m.lockOf channelId)) ()
    { w with held := m.lockOf channelId :: w.held }
  have hends : (m.setIfDifferent channelId mode).run.Ensures .calm none (fun result t => ∃ rounds t',
      m.Contended channelId mode 8 locked rounds result t' ∧
      t = t'.answered (.release (m.lockOf channelId)) ()
        { t'.world with held := t'.world.held.erase (m.lockOf channelId) })
      (fun _ => False) (.start w) := by
    rw [setIfDifferent, ExceptT.run_mk, hatomic, if_pos rfl]
    refine .locked_calm (fun h => hfree (h.resolve_left (by rintro ⟨⟩))) fun _ => ?_
    have hlocked : locked.world.store.Ready m.limit := hready
    refine (ensures_contended hlocked rounds).imp (fun result t' hends => ?_) fun _ hfalse => hfalse
    obtain ⟨rounds, hends⟩ := hends
    exact ⟨rfl, rounds, t', hends, rfl⟩
  obtain ⟨result, waited, hresult, rounds, t', ⟨ended, calls, gets, writes, rest⟩, hlast⟩ :=
    hends.finishes
  rw [Moment.answered, Moment.mk.injEq] at hlast
  obtain ⟨hmade, -, hworld⟩ := hlast
  refine ⟨rounds, result, t'.world.store, ?_, ?_, gets, writes, ?_, ended.ok_true_iff,
    ended.ok_false_iff, ?_⟩
  · refine Prod.ext hresult ?_
    rw [hworld, rest]
    simp [locked, Moment.answered]
  · rw [hmade, List.map_append, calls]
    simp [locked, Moment.answered, Moment.start]
  · rw [ended.conflict_iff]
    exact Store.loses_iff
  · generalize t'.world.store.get? (Key.mode channelId) = value at ended ⊢
    cases ended with
    | beaten h => exact ⟨rfl, rfl, rfl⟩
    | found hlt h hmode => exact ⟨hlt, rfl⟩
    | won hlt h hmode hkept => exact ⟨hlt, rfl⟩

/-- A store in which eight foreign writes wait for the mode of a channel, each for the same mode and
with other bytes than the one before. -/
def besieged : World :=
  World.new { (Store.new true true) with
    queued := (List.range 8).map fun i => ⟨Key.mode "c", [i.toUInt8]⟩ }

/-- The change gives up, and the last foreign write stands. -/
theorem run_besieged :
    besieged.store.Ready (.ofSeconds 1) ∧ ∃ after : Store,
      ((Modes.mk (.ofSeconds 1) true 1 Modes.defaultSpread).setIfDifferent "c" .p2p).run.run none
        besieged
          = (.finished (.error (.conflict (Key.mode "c"))), { besieged with store := after }) ∧
      after.gets = 8 ∧ after.writes = 8 ∧ after.get? (Key.mode "c") = some [7] := by
  have hready : besieged.store.Ready (.ofSeconds 1) := ⟨rfl, rfl, rfl, by decide, rfl⟩
  obtain ⟨rounds, result, after, hrun, -, hgets, hwrites, hconflict, -, -, hlast⟩ :=
    run_of_contention (Modes.mk (.ofSeconds 1) true 1 Modes.defaultSpread) "c" .p2p besieged rfl
      hready (by decide)
  have hwrite : ∀ i < 8, besieged.store.queued[i]? = some ⟨Key.mode "c", [i.toUInt8]⟩ ∧
      some [i.toUInt8] ≠ besieged.store.standing (Key.mode "c") i := by
    decide
  have hovertaken : ∀ i < 8, besieged.store.Overtaken (Key.mode "c") i := fun i hi =>
    ⟨_, (hwrite i hi).1, rfl, (hwrite i hi).2⟩
  obtain rfl := hconflict.2 ⟨by decide, hovertaken, by decide⟩
  obtain ⟨-, rfl, hvalue⟩ := hlast
  exact ⟨hready, after, hrun, hgets, hwrites, hvalue⟩

end Modes

end SealedChannel
