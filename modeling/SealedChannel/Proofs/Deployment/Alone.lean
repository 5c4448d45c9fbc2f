import SealedChannel.Proofs.Deployment.Runs

/-!
# Programs on their own

A deployment may do whatever a program does on its own: every whole run, under any limit, in any
weather, cut off or not, is one of the orders in which a deployment may take its steps, with the
changes of the weather between them.  So what holds in every run of every deployment holds of whole
runs, and of any number of them one after another.

## What is here

* `World.unlocked` — a world without the locks in it.
* `Move.IsAmid` — a step of a run in some weather.
* `Deployment.IsLast` — the last task is alone in its process, and what it can do.
* `Deployment.exists_moves_of_runAmid` — a run on its own as a run of a deployment.
-/

set_option autoImplicit false
namespace SealedChannel

namespace World

variable {w w' : World} {c : Call} {answer : c.Answer}

/-- A world in which no lock is held. -/
def unlocked (w : World) : World :=
  { w with held := [] }

/-- A call that is not answered begins with nothing. -/
theorem begin_eq_of_react (h : ∀ answer w', w.react c ≠ .answered answer w') : w.begin c = w := by
  cases c with
  | store limit c => exact absurd rfl (h _ _)
  | _ => rfl

end World

/-- A whole run leaves the world as the run from its first call does, up to the locks. -/
theorem Program.unlocked_runAmid {α : Type} (weather : Weather) (limit : Option Duration)
    (p : Program α) (w : World) :
    (p.runAmid weather limit w).2.unlocked = (p.runAmidFrom limit weather ⟨0⟩ w).2.unlocked := by
  rw [runAmid]
  split <;> simp_all [World.unlocked]

/-- A step of a run in some weather: only conditions change without a program, and only if there is
any weather. -/
def Move.IsAmid {ρ : Type} (weather : Weather) (move : Move ρ) : Prop :=
  ∀ change, move = .change change → weather ≠ [] ∧ ∀ write, change ≠ .write write

/-- What comes later is part of the weather. -/
theorem Move.IsAmid.of_tail {ρ : Type} {weather : Weather} {move : Move ρ}
    (h : move.IsAmid weather.tail) : move.IsAmid weather := by
  intro change hchange
  obtain ⟨htail, hwrite⟩ := h change hchange
  exact ⟨by rintro rfl; exact htail rfl, hwrite⟩

namespace Deployment

variable {ρ α : Type} (code : Nat → ρ → Program α)

/-- The locks in a process with one task. -/
theorem heldBy_concat {s : Deployment ρ α} {before : List (Task ρ α)} {t : Task ρ α}
    (htasks : s.tasks = before ++ [t]) (hfresh : ∀ u ∈ before, u.process ≠ t.process) :
    s.heldBy t.process = t.locks := by
  rw [heldBy, htasks, List.filter_append, List.filter_eq_nil_iff.2, List.nil_append]
  · simp
  · simpa using hfresh

/-- The last task goes on. -/
theorem set_last {s : Deployment ρ α} {before : List (Task ρ α)} {t : Task ρ α}
    (htasks : s.tasks = before ++ [t]) (t' : Task ρ α) :
    s.tasks.set before.length t' = before ++ [t'] := by
  rw [htasks, List.set_append_right _ _ (Nat.le_refl _), Nat.sub_self]
  rfl

/-- The last task is alone in its process and sees a world. -/
structure IsLast (s : Deployment ρ α) (before : List (Task ρ α)) (t : Task ρ α) (w : World) :
    Prop where
  tasks : s.tasks = before ++ [t]
  fresh : ∀ u ∈ before, u.process ≠ t.process
  uncut : t.isCut = false
  world : { s.world with held := t.locks } = w

namespace IsLast

variable {s : Deployment ρ α} {before : List (Task ρ α)} {t : Task ρ α} {w w' : World} {c : Call}
  {next : c.Answer → Program α} (h : s.IsLast before t w)
include h

theorem view : s.view t.process = w := by
  rw [Deployment.view, heldBy_concat h.tasks h.fresh, h.world]

theorem unlocked : s.world.unlocked = w.unlocked := by
  rw [← h.world]
  rfl

theorem getElem? : s.tasks[before.length]? = some t := by
  rw [h.tasks, List.getElem?_concat_length]

/-- It makes a call. -/
theorem exists_advance (hrest : t.rest = .call c next) {answer : c.Answer}
    (hreact : w.react c = .answered answer w') :
    ∃ s' t', s.step code (.advance before.length) = some s' ∧ s'.IsLast before t' w' ∧
      t'.rest = next answer := by
  refine ⟨_, { t with rest := next answer, locks := c.locksAfter t.locks },
    step_advance h.getElem? h.uncut hrest (h.view ▸ hreact),
    ⟨set_last h.tasks _, h.fresh, h.uncut, ?_⟩, rfl⟩
  have hlocks : c.locksAfter t.locks = w'.held := by
    rw [World.held_react hreact, ← h.world]
  dsimp only
  rw [hlocks]

/-- It is cut off in a call. -/
theorem exists_drop (hrest : t.rest = .call c next) :
    ∃ s' t', s.step code (.drop before.length) = some s' ∧
      s'.world.unlocked = (w.begin c).unlocked ∧ s'.tasks = before ++ [t'] ∧
      t'.result? = none := by
  refine ⟨_, { t with locks := [], isCut := true }, step_drop h.getElem? h.uncut hrest, ?_,
    set_last h.tasks _, by rw [Task.result?, hrest]⟩
  rw [← h.world]
  cases c <;> rfl

/-- The conditions change as the weather does. -/
theorem exists_moves_of_next (weather : Weather) :
    ∃ moves s', s.run code moves = some s' ∧ (∀ move ∈ moves, move.IsAmid weather) ∧
      s'.IsLast before t (weather.next w) := by
  obtain ⟨htasks, hfresh, hcut, rfl⟩ := h
  rcases weather with _ | ⟨_ | c, later⟩
  · exact ⟨[], s, rfl, by simp, htasks, hfresh, hcut, rfl⟩
  · exact ⟨[], s, rfl, by simp, htasks, hfresh, hcut, rfl⟩
  · refine ⟨[.change (.faults c.latency c.refuseGets c.refuseSets c.refuseDeletes),
      .change (.host (s.world.host.under c))], _, rfl, ?_, htasks, hfresh, hcut, rfl⟩
    simp [Move.IsAmid]

end IsLast

/-- A task that is alone in its process can go on as in a run on its own. -/
theorem exists_moves_of_runAmidFrom (limit : Option Duration) {p : Program α} (weather : Weather)
    (waited : Duration) {w : World} {s : Deployment ρ α} {before : List (Task ρ α)} {t : Task ρ α}
    (h : s.IsLast before t w) (hrest : t.rest = p) :
    ∃ moves s', s.run code moves = some s' ∧ (∀ move ∈ moves, move.IsAmid weather) ∧
      s'.world.unlocked = (p.runAmidFrom limit weather waited w).2.unlocked ∧
      ∃ t', s'.tasks = before ++ [t'] ∧
        t'.result? = (p.runAmidFrom limit weather waited w).1.value? := by
  induction p generalizing weather waited w s t with
  | done a =>
    exact ⟨[], s, rfl, by simp, h.unlocked, t, h.tasks, by rw [Task.result?, hrest]; rfl⟩
  | call c next ih =>
    obtain ⟨changes, s₀, hchanges, hamid, h₀⟩ := h.exists_moves_of_next code weather
    -- a run that is cut off is one whose task is dropped
    have hdrop : ∃ moves s', s.run code moves = some s' ∧
        (∀ move ∈ moves, move.IsAmid weather) ∧
        s'.world.unlocked = ((weather.next w).begin c).unlocked ∧
        ∃ t', s'.tasks = before ++ [t'] ∧ t'.result? = none := by
      obtain ⟨s', t', hstep, hworld, htasks, hnone⟩ := h₀.exists_drop code hrest
      refine ⟨changes ++ [.drop before.length], s', ?_, ?_, hworld, t', htasks, hnone⟩
      · rw [run_concat, hchanges]
        exact hstep
      · refine List.forall_mem_append.2 ⟨hamid, List.forall_mem_singleton.2 ?_⟩
        rintro change ⟨⟩
    rw [Program.runAmidFrom]
    split
    · exact hdrop
    · cases hreact : (weather.next w).react c with
      | answered answer w' =>
        obtain ⟨s₁, t₁, hstep, h₁, hrest₁⟩ := h₀.exists_advance code hrest hreact
        obtain ⟨moves, s', hrun, hlater, hresult⟩ :=
          ih answer weather.tail (waited + (weather.next w).waitFor c) h₁ hrest₁
        refine ⟨changes ++ .advance before.length :: moves, s', ?_, ?_, hresult⟩
        · rw [run_append, hchanges, Option.bind_some, run_cons, hstep]
          exact hrun
        · refine List.forall_mem_append.2 ⟨hamid, List.forall_mem_cons.2 ⟨?_, fun move hmove =>
            (hlater move hmove).of_tail⟩⟩
          rintro change ⟨⟩
      | crashed =>
        rwa [World.begin_eq_of_react (by rw [hreact]; rintro _ _ ⟨⟩)] at hdrop
      | blocked =>
        rwa [World.begin_eq_of_react (by rw [hreact]; rintro _ _ ⟨⟩)] at hdrop

/-- **A run on its own.**  A whole run of a program, under any limit and in any weather, is what a
deployment does when the program takes every turn in a process of its own, and only the conditions
change meanwhile, if there is any weather. -/
theorem exists_moves_of_runAmid (s : Deployment ρ α) {process : Nat}
    (hfresh : ∀ t ∈ s.tasks, t.process ≠ process) (request : ρ) (weather : Weather)
    (limit : Option Duration) :
    ∃ moves s', s.run code (.start process request :: moves) = some s' ∧
      (∀ move ∈ moves, move.IsAmid weather) ∧
      s'.world.unlocked
        = ((code process request).runAmid weather limit s.world.unlocked).2.unlocked ∧
      ∃ t, s'.tasks = s.tasks ++ [t] ∧
        t.result?
          = ((code process request).runAmid weather limit s.world.unlocked).1.value? := by
  let t : Task ρ α := ⟨process, request, code process request, [], false⟩
  obtain ⟨moves, s', hrun, hamid, hworld, t', htasks, hresult⟩ :=
    exists_moves_of_runAmidFrom code limit weather ⟨0⟩ (w := s.world.unlocked) (t := t)
      (s := { s with tasks := s.tasks ++ [t] }) ⟨rfl, hfresh, rfl, rfl⟩ rfl
  refine ⟨moves, s', by rw [run_cons]; exact hrun, hamid, ?_, t', htasks, ?_⟩
  · rw [hworld, Program.unlocked_runAmid]
  · rw [hresult, Program.runAmid_fst]

end Deployment
end SealedChannel
