import Mathlib.Data.List.Chain
import SealedChannel.Proofs.Storage.Modes
import SealedChannel.Proofs.Deployment.Runs

/-!
# Races for a mode

Any number of processes share one store with compare-and-set, and each has any number of changes of
modes under way.  Their store calls take turns in any order, calls may fail, be too slow or be cut
off, and other parties may write any bytes under any key between two calls.

The value that a change has read may have been replaced, and even put back, before the change swaps;
a swap compares bytes, so what it needs is that the *current* bytes are those that were judged, and
that is what makes its result true.

## What is here

* `ModeChange` — a change that is asked for, and its program in each process.
* `ModeRace.Settled` — what a run has seen of a change, by the result of the change.
* `ModeRace.swapsOn` — the swaps on a channel in the order in which they took place.
* `ModeRace.setIfDifferent_race` — every result is true, and on a channel that nobody else writes
  the confirmed changes alternate between the two modes.
-/

set_option autoImplicit false
namespace SealedChannel

/-- A change of a mode that is asked for. -/
structure ModeChange where
  channelId : String
  mode : Mode
  deriving DecidableEq, Repr

/-- The change in a process. -/
def ModeChange.program (managers : Nat → Modes) (process : Nat) (r : ModeChange) :
    Program (Except StoreError Bool) :=
  ((managers process).setIfDifferent r.channelId r.mode).run

/-- Processes that change modes in one store. -/
abbrev ModeRace : Type :=
  Deployment ModeChange (Except StoreError Bool)

namespace ModeRace

open Deployment

/-- What a run has seen of a change, by the result of the change.  A confirmed change wrote exactly
once, at a step before which the channel had another mode and after which it had this one.  One that
was not needed wrote nothing, and the channel had the mode while the change was under way.  One that
failed wrote nothing. -/
def Settled (code : Nat → ModeChange → Program (Except StoreError Bool)) (s₀ : ModeRace)
    (moves : List (Move ModeChange)) (s : ModeRace) (i : Nat) (r : ModeChange) :
    Except StoreError Bool → Prop
  | .ok true => s.writesOf i = [(Key.mode r.channelId, some r.mode.encode)] ∧
      ∃ s₁ s₂, Makes code s₀ moves s₁ (.advance i) s₂ ∧
        s₁.writesOf i = [] ∧ s₂.writesOf i = [(Key.mode r.channelId, some r.mode.encode)] ∧
        s₁.world.store.modeOf r.channelId ≠ r.mode ∧ s₂.world.store.modeOf r.channelId = r.mode
  | .ok false => s.writesOf i = [] ∧
      ∃ s₁ t₁, Visits code s₀ moves s₁ ∧ s₁.tasks[i]? = some t₁ ∧ t₁.IsUnderWay ∧
        s₁.world.store.modeOf r.channelId = r.mode
  | .error _ => s.writesOf i = []

/-- The swaps on a channel, in the order in which they took place, each with its task and the mode
that it has put. -/
def swapsOn (s : ModeRace) (channelId : String) : List (Nat × Mode) :=
  s.log.filterMap fun entry =>
    (entry.2.effectOn? (Key.mode channelId)).map fun raw => (entry.1, Mode.current raw)

variable {managers : Nat → Modes} {w : World} {moves : List (Move ModeChange)} {s : ModeRace}

/-! ## One change -/

section Change

variable (hatomic : ∀ process, (managers process).atomic = true)
  (hw : ∀ channelId, w.store.Spares (Key.mode channelId))
  (h : (idle w).run (ModeChange.program managers) moves = some s)
include hatomic h

/-- The exchanges of a change that is done end as its result says. -/
theorem ends_of_run {i : Nat} {t : Task ModeChange (Except StoreError Bool)}
    {r : Except StoreError Bool} (ht : s.tasks[i]? = some t) (hr : t.result? = some r) :
    Modes.Ends t.request.channelId t.request.mode (s.exchangesOf i) r :=
  (Modes.yields_setIfDifferent _ (hatomic t.process) _ _).of_leads (leads_of_run h ht hr)

include hw

/-- Each result is true. -/
theorem settled_of_run {i : Nat} {t : Task ModeChange (Except StoreError Bool)}
    {r : Except StoreError Bool} (ht : s.tasks[i]? = some t) (hr : t.result? = some r) :
    Settled (ModeChange.program managers) (idle w) moves s i t.request r := by
  have hends := ends_of_run hatomic h ht hr
  cases r with
  | error e => exact hends
  | ok changed =>
    cases changed with
    | true =>
      obtain ⟨before, after, limit, raw, hown, hraw, hbefore, hafter⟩ := hends
      obtain ⟨earlier, later, hlog, hearlier⟩ := log_of_exchangesOf hown
      obtain ⟨s₁, s₂, hmakes, hs₁, hs₂, u, next, -, -, -, hreact⟩ := makes_of_log h hlog
      have hnone : s₁.writesOf i = [] := by
        rw [writesOf, exchangesOf, hs₁, hearlier, hbefore]
      have honce :
          s₂.writesOf i = [(Key.mode t.request.channelId, some t.request.mode.encode)] := by
        rw [writesOf, exchangesOf_concat hs₂, if_pos rfl, List.filterMap_append, ← writesOf, hnone]
        rfl
      have hspares : s₁.world.store.Spares (Key.mode t.request.channelId) :=
        spares_of_visits hmakes.visits (hw t.request.channelId)
      have hcurrent : s₁.world.store.get? (Key.mode t.request.channelId) = raw :=
        (Store.call_compareAndSet hspares (World.react_store hreact).1).1 rfl
      have hswap := Exchange.write?_eq_some_iff.1 (rfl : (⟨.store limit (.compareAndSet
        (Key.mode t.request.channelId) raw t.request.mode.encode), some (.ok true)⟩ :
          Exchange).write? = some (Key.mode t.request.channelId, some t.request.mode.encode))
      refine ⟨?_, s₁, s₂, hmakes, hnone, honce, ?_, ?_⟩
      · rw [writesOf, hown, List.filterMap_append, hbefore, List.filterMap_cons, hafter]
        rfl
      · rwa [Store.modeOf, hcurrent]
      · rw [Store.modeOf, World.get?_react hreact hspares, hswap, Option.getD_some,
          Mode.current_encode]
    | false =>
      obtain ⟨hnone, before, after, limit, raw, hown, hraw⟩ := hends
      obtain ⟨earlier, later, hlog, -⟩ := log_of_exchangesOf hown
      obtain ⟨s₁, s₂, hmakes, -, -, u, next, hu, hcut, hrest, hreact⟩ := makes_of_log h hlog
      have hread : raw = s₁.world.store.get? (Key.mode t.request.channelId) :=
        Store.call_get (World.react_store hreact).1
      refine ⟨hnone, s₁, u, hmakes.visits, hu, ⟨?_, hcut⟩, ?_⟩
      · rw [Task.result?, hrest]
      · rwa [Store.modeOf, ← hread]

end Change

/-! ## The swaps on a channel -/

/-- One more call is a swap, or leaves the swaps as they were. -/
theorem swapsOn_concat {s s' : ModeRace} {entry : Nat × Exchange}
    (hlog : s'.log = s.log ++ [entry]) (channelId : String) :
    swapsOn s' channelId = swapsOn s channelId ++
      ((entry.2.effectOn? (Key.mode channelId)).map fun raw =>
        (entry.1, Mode.current raw)).toList := by
  rw [swapsOn, hlog, List.filterMap_append, ← swapsOn]
  rfl

/-- Every call in a race is one that its change may make. -/
theorem orderly_of_race (hatomic : ∀ process, (managers process).atomic = true)
    (h : (idle w).run (ModeChange.program managers) moves = some s) :
    s.Orderly (fun r => Modes.swaps r.channelId r.mode) fun _ _ => True := by
  have hupheld (r : ModeChange) : (Modes.swaps r.channelId r.mode).Upheld fun _ => True :=
    ⟨fun _ _ => trivial, fun _ _ => trivial, fun _ _ _ => ⟨trivial, trivial⟩⟩
  have hcode (process : Nat) (r : ModeChange) :=
    Modes.keeps_setIfDifferent (managers process) (hatomic process) r.channelId r.mode
  exact (orderly_of_run h hcode hupheld trivial fun _ _ _ _ => trivial).1

/-- What a call of a change puts under the key of a mode is the mode of the change. -/
theorem eq_of_effectOn? {e : Exchange} {channelId : String} {r : ModeChange} {raw : Option Bytes}
    (hallows : (Modes.swaps r.channelId r.mode).allows e.call)
    (heffect : e.effectOn? (Key.mode channelId) = some raw) :
    raw = some r.mode.encode ∧ channelId = r.channelId := by
  have htarget := Exchange.target?_of_effectOn? heffect
  obtain ⟨limit, expected, hcall, -⟩ := hallows _ _ htarget
  rw [hcall] at htarget
  obtain ⟨hkey, rfl⟩ := Prod.mk.inj (Option.some.inj htarget)
  exact ⟨rfl, (Key.mode_inj.1 hkey).symm⟩

/-- A swap takes place over another mode. -/
theorem modeOf_ne_of_react {w w' : World} {c : Call} {answer : c.Answer} {r : ModeChange}
    {raw : Option Bytes} (hreact : w.react c = .answered answer w')
    (hw : w.store.Spares (Key.mode r.channelId))
    (hallows : (Modes.swaps r.channelId r.mode).allows c)
    (heffect : (⟨c, some answer⟩ : Exchange).effectOn? (Key.mode r.channelId) = some raw) :
    w.store.modeOf r.channelId ≠ r.mode := by
  obtain ⟨limit, expected, rfl, hne⟩ := hallows _ _ (Exchange.target?_of_effectOn? heffect)
  obtain rfl := StoreCall.tookEffect_compareAndSet.1 (StoreCall.tookEffect_of_effectOn? heffect)
  have hcurrent := (Store.call_compareAndSet hw (World.react_store hreact).1).1 rfl
  rwa [Store.modeOf, hcurrent]

/-- Modes that alternate, beginning with another one than `first`, so that the last is `current`. -/
def Alternate (first : Mode) (modes : List Mode) (current : Mode) : Prop :=
  List.IsChain (· ≠ ·) (first :: modes) ∧ current = modes.getLastD first

/-- A change to another mode, before those that follow. -/
theorem Alternate.cons {first next current : Mode} {modes : List Mode}
    (h : Alternate next modes current) (hnext : first ≠ next) :
    Alternate first (next :: modes) current :=
  ⟨List.isChain_cons_cons.2 ⟨hnext, h.1⟩, h.2.trans (List.getLastD_cons ..).symm⟩

/-- One more change to another mode. -/
theorem Alternate.concat {first current next : Mode} {modes : List Mode}
    (h : Alternate first modes current) (hnext : current ≠ next) :
    Alternate first (modes ++ [next]) next := by
  obtain ⟨hchain, rfl⟩ := h
  refine ⟨?_, by rw [List.getLastD_concat]⟩
  rw [← List.cons_append]
  refine hchain.append (.singleton next) fun x hx y hy => ?_
  rw [List.getLast?_cons, Option.mem_some_iff] at hx
  rw [List.head?_singleton, Option.mem_some_iff] at hy
  rwa [← hx, ← hy, ← List.getLastD_eq_getLast?]

/-- A step swaps the mode of a channel for another one, or leaves the mode and the swaps as they
are. -/
theorem swapsOn_step {s' : ModeRace} {move : Move ModeChange}
    (hatomic : ∀ process, (managers process).atomic = true)
    (hbefore : (idle w).run (ModeChange.program managers) moves = some s)
    (hstep : s.step (ModeChange.program managers) move = some s') {channelId : String}
    (hspares : s.world.store.Spares (Key.mode channelId))
    (hmove : ∀ change, move = .change change → change.Spares (Key.mode channelId)) :
    (swapsOn s' channelId = swapsOn s channelId ∧
        s'.world.store.modeOf channelId = s.world.store.modeOf channelId) ∨
      ∃ i mode, swapsOn s' channelId = swapsOn s channelId ++ [(i, mode)] ∧
        s.world.store.modeOf channelId ≠ mode ∧ s'.world.store.modeOf channelId = mode := by
  have hsame (hget : s'.world.store.get? (Key.mode channelId)
      = s.world.store.get? (Key.mode channelId)) :
      s'.world.store.modeOf channelId = s.world.store.modeOf channelId := by
    rw [Store.modeOf, Store.modeOf, hget]
  rcases step_cases hstep with ⟨process, request, -, rfl⟩ |
    ⟨i, t, c, next, answer, world, -, hi, -, hrest, hreact, hs'⟩ |
    ⟨i, t, c, next, -, -, -, -, hs'⟩ | ⟨change, hchange, rfl⟩
  · exact .inl ⟨rfl, rfl⟩
  · have hlog : s'.log = s.log ++ [(i, ⟨c, some answer⟩)] := by rw [hs']
    have hworld : s'.world = world := by rw [hs']
    have hget := World.get?_react hreact hspares
    cases heffect : (⟨c, some answer⟩ : Exchange).effectOn? (Key.mode channelId) with
    | none =>
      refine .inl ⟨?_, hsame (by rw [hworld, hget, heffect]; rfl)⟩
      rw [swapsOn_concat hlog, heffect]
      exact List.append_nil _
    | some raw =>
      have hallows : (Modes.swaps t.request.channelId t.request.mode).allows c := by
        have hkeeps := (orderly_of_race hatomic hbefore).tasks t (List.mem_of_getElem? hi)
        rw [hrest] at hkeeps
        exact hkeeps.1
      obtain ⟨rfl, rfl⟩ := eq_of_effectOn? hallows heffect
      have hne := modeOf_ne_of_react hreact hspares hallows heffect
      refine .inr ⟨i, t.request.mode, ?_, hne, ?_⟩
      · rw [swapsOn_concat hlog, heffect, Option.map_some, Mode.current_encode]
        rfl
      · rw [Store.modeOf, hworld, hget, heffect, Option.getD_some, Mode.current_encode]
  · have hlog : s'.log = s.log ++ [(i, ⟨c, none⟩)] := by rw [hs']
    refine .inl ⟨?_, hsame (by rw [hs', World.get?_begin])⟩
    rw [swapsOn_concat hlog, Exchange.effectOn?_none]
    exact List.append_nil _
  · exact .inl ⟨rfl, hsame (World.get?_change (hmove change hchange))⟩

/-- **Swaps alternate.**  On a channel that nobody writes from outside, at every moment, whether or
not the changes have returned, the swaps have alternated between the two modes, beginning with the
one that the channel did not have at first, and the channel has the mode of the last. -/
theorem alternate_of_run (hatomic : ∀ process, (managers process).atomic = true)
    (hw : ∀ channelId, w.store.Spares (Key.mode channelId))
    (h : (idle w).run (ModeChange.program managers) moves = some s) {channelId : String}
    (hmoves : Spare moves (Key.mode channelId)) :
    Alternate (w.store.modeOf channelId) ((swapsOn s channelId).map Prod.snd)
      (s.world.store.modeOf channelId) := by
  induction moves, s, h using run_induction with
  | nil => exact ⟨.singleton _, rfl⟩
  | @concat before s move s' hbefore _ ih hstep =>
    have hkept := ih fun change hmem => hmoves change (List.mem_append_left _ hmem)
    have hmove : ∀ change, move = .change change → change.Spares (Key.mode channelId) := by
      rintro change rfl
      exact hmoves change (by simp)
    rcases swapsOn_step hatomic hbefore hstep (spares_of_run hbefore (hw channelId)) hmove with
      ⟨hswaps, hmode⟩ | ⟨i, mode, hswaps, hne, hmode⟩
    · rwa [hswaps, hmode]
    · rw [hswaps, List.map_append, hmode]
      exact hkept.concat hne

/-! ## The changes behind the swaps -/

/-- A task has at most as many swaps on a channel as it has writes. -/
theorem count_swapsOn_le (s : ModeRace) (channelId : String) (i : Nat) :
    ((swapsOn s channelId).map Prod.fst).count i ≤ (s.writesOf i).length := by
  rw [swapsOn, writesOf, exchangesOf]
  induction s.log with
  | nil => simp
  | cons entry log ih =>
    obtain ⟨j, e⟩ := entry
    cases heffect : e.effectOn? (Key.mode channelId) with
    | none =>
      refine Nat.le_trans (by simpa [heffect] using ih) ?_
      rw [← List.singleton_append, List.filterMap_append, List.filterMap_append, List.length_append]
      exact Nat.le_add_left _ _
    | some raw =>
      rcases eq_or_ne j i with rfl | hne
      · simpa [heffect, Exchange.write?_eq_some_iff.2 heffect] using ih
      · simpa [heffect, hne] using ih

section Returned

variable (hatomic : ∀ process, (managers process).atomic = true)
  (h : (idle w).run (ModeChange.program managers) moves = some s)
include hatomic h

/-- The swaps on a channel are those of its confirmed changes, when all of its changes have
returned. -/
theorem mem_swapsOn_iff {channelId : String}
    (hreturned : ∀ t ∈ s.tasks, t.request.channelId = channelId → t.result?.isSome) {i : Nat}
    {mode : Mode} : (i, mode) ∈ swapsOn s channelId ↔ ∃ t, s.tasks[i]? = some t ∧
      t.request = ⟨channelId, mode⟩ ∧ t.result? = some (.ok true) := by
  constructor
  · intro hmem
    obtain ⟨⟨j, e⟩, hentry, hswap⟩ := List.mem_filterMap.1 hmem
    obtain ⟨raw, heffect, hraw⟩ := Option.map_eq_some_iff.1 hswap
    obtain ⟨rfl, rfl⟩ := Prod.mk.inj hraw
    obtain ⟨t, ht, hallows, -⟩ := (orderly_of_race hatomic h).log _ hentry
    obtain ⟨rfl, rfl⟩ := eq_of_effectOn? hallows heffect
    obtain ⟨r, hr⟩ := Option.isSome_iff_exists.1 (hreturned t (List.mem_of_getElem? ht) rfl)
    have hown : (Key.mode t.request.channelId, some t.request.mode.encode) ∈ s.writesOf j :=
      List.mem_filterMap.2 ⟨e, List.mem_filterMap.2 ⟨(j, e), hentry, if_pos rfl⟩,
        Exchange.write?_eq_some_iff.2 heffect⟩
    have hends := ends_of_run hatomic h ht hr
    refine ⟨t, ht, by rw [Mode.current_encode], hr.trans (congrArg some ?_)⟩
    -- a change that returned anything else wrote nothing
    match r with
    | .ok true => rfl
    | .ok false => rw [writesOf, hends.1] at hown; cases hown
    | .error e => rw [writesOf, hends] at hown; cases hown
  · rintro ⟨t, ht, hrequest, hr⟩
    obtain ⟨before, after, limit, raw, hown, -⟩ := ends_of_run hatomic h ht hr
    obtain ⟨earlier, later, hlog, -⟩ := log_of_exchangesOf hown
    rw [hrequest] at hlog
    have hwrite : (⟨.store limit (.compareAndSet (Key.mode channelId) raw mode.encode),
        some (.ok true)⟩ : Exchange).write? = some (Key.mode channelId, some mode.encode) := rfl
    rw [swapsOn, hlog, List.mem_filterMap]
    refine ⟨_, List.mem_append_right _ List.mem_cons_self, ?_⟩
    rw [Exchange.write?_eq_some_iff.1 hwrite, Option.map_some, Mode.current_encode]

end Returned

/-! ## Races -/

/-- **Races for a mode.**  Whatever turns the changes take, each result is true.  On a channel that
nobody writes from outside, once its changes have returned, the confirmed ones, in the order of
their swaps, alternate between the two modes, beginning with another one than the first mode of the
channel, and the last is the mode of the channel. -/
theorem setIfDifferent_race (hatomic : ∀ process, (managers process).atomic = true)
    (hw : ∀ channelId, w.store.Spares (Key.mode channelId))
    (h : (idle w).run (ModeChange.program managers) moves = some s) :
    (∀ i t r, s.tasks[i]? = some t → t.result? = some r →
      Settled (ModeChange.program managers) (idle w) moves s i t.request r) ∧
    ∀ channelId, Spare moves (Key.mode channelId) →
      (∀ t ∈ s.tasks, t.request.channelId = channelId → t.result?.isSome) →
      (∀ i mode, (i, mode) ∈ swapsOn s channelId ↔ ∃ t, s.tasks[i]? = some t ∧
        t.request = ⟨channelId, mode⟩ ∧ t.result? = some (.ok true)) ∧
      ((swapsOn s channelId).map Prod.fst).Nodup ∧
      Alternate (w.store.modeOf channelId) ((swapsOn s channelId).map Prod.snd)
        (s.world.store.modeOf channelId) := by
  refine ⟨fun i t r ht hr => settled_of_run hatomic hw h ht hr, ?_⟩
  intro channelId hmoves hreturned
  refine ⟨fun i mode => mem_swapsOn_iff hatomic h hreturned, ?_,
    alternate_of_run hatomic hw h hmoves⟩
  rw [List.nodup_iff_count]
  intro i
  by_cases hmem : i ∈ (swapsOn s channelId).map Prod.fst
  · obtain ⟨⟨j, mode⟩, hswap, rfl⟩ := List.mem_map.1 hmem
    obtain ⟨t, ht, -, hr⟩ := (mem_swapsOn_iff hatomic h hreturned).1 hswap
    have honce := (settled_of_run hatomic hw h ht hr).1
    exact Nat.le_trans (count_swapsOn_le s channelId j) (by rw [honce]; exact Nat.le_refl 1)
  · rw [List.count_eq_zero_of_not_mem hmem]
    exact Nat.zero_le 1

/-- Two processes with one lock each. -/
def duelists : Nat → Modes :=
  fun _ => ⟨.ofSeconds 5, true, 1, Modes.defaultSpread⟩

/-- Both switch one channel: both read it before one of them swaps, and another party writes
elsewhere in between. -/
def duel : List (Move ModeChange) :=
  [.start 0 ⟨"c", .p2p⟩, .start 1 ⟨"c", .p2p⟩, .advance 0, .advance 1, .advance 0, .advance 1,
    .change (.write ⟨"x", [1]⟩), .advance 0, .advance 1, .advance 0, .advance 1, .advance 1]

/-- What both have come to. -/
theorem results_of_duel :
    ((idle (.new .memory)).run (ModeChange.program duelists) duel).map
        (fun s => s.tasks.map fun t => (t.request, t.result?))
      = some [(⟨"c", .p2p⟩, some (.ok true)), (⟨"c", .p2p⟩, some (.ok false))] := by
  rfl

theorem setIfDifferent_duel :
    ∃ s, (idle (.new .memory)).run (ModeChange.program duelists) duel = some s ∧
      s.writesOf 0 = [(Key.mode "c", some (Mode.encode .p2p))] ∧ s.writesOf 1 = [] ∧
      Alternate .plain ((swapsOn s "c").map Prod.snd) (s.world.store.modeOf "c") := by
  obtain ⟨s, hs, hresults⟩ := Option.map_eq_some_iff.1 results_of_duel
  obtain ⟨t₀, rest, htasks, h₀, hrest⟩ := List.map_eq_cons_iff.1 hresults
  obtain ⟨t₁, rest, rfl, h₁, hnil⟩ := List.map_eq_cons_iff.1 hrest
  obtain rfl := List.map_eq_nil_iff.1 hnil
  obtain ⟨hrequest₀, hr₀⟩ := Prod.mk.inj h₀
  obtain ⟨hrequest₁, hr₁⟩ := Prod.mk.inj h₁
  have hspares (channelId : String) : (World.new .memory).store.Spares (Key.mode channelId) :=
    Store.spares_new false true _
  have hmoves : Spare duel (Key.mode "c") := by
    rintro change hchange write rfl
    obtain rfl : write = ⟨"x", [1]⟩ := by simpa [duel] using hchange
    decide
  have hreturned : ∀ t ∈ s.tasks, t.request.channelId = "c" → t.result?.isSome := by
    simp [htasks, hr₀, hr₁]
  obtain ⟨hsettled, halternate⟩ := setIfDifferent_race (fun _ => rfl) hspares hs
  have honce := (hsettled 0 t₀ _ (by rw [htasks]; rfl) hr₀).1
  have hnone := (hsettled 1 t₁ _ (by rw [htasks]; rfl) hr₁).1
  rw [hrequest₀] at honce
  exact ⟨s, hs, honce, hnone, (halternate "c" hmoves hreturned).2.2⟩

end ModeRace
end SealedChannel
