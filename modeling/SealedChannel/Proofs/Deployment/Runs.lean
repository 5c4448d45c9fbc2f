import SealedChannel.Proofs.Deployment.Basic
import SealedChannel.Proofs.Program.Transcript

/-!
# Runs of a deployment

What every run of a deployment has in common, whichever programs take turns in it: the log tells
what each task has done, what the store holds, and at which step each call was answered.  What the
programs themselves do enters through their paths and their contracts alone.

## What is here

* `Deployment.tasks_of_run` — what every answer keeps holds of every task and its calls.
* `Deployment.follows_of_run`, `Deployment.leads_of_run` — the calls of a task lead through its
  program.
* `Deployment.get?_of_run` — a spared key holds what the log tells.
* `Deployment.Answers`, `Deployment.makes_of_log` — the step at which a call of the log was
  answered.
* `Deployment.orderly_of_run` — under an invariant of the world that the contracts uphold, every
  program keeps its contract.
-/

set_option autoImplicit false
namespace SealedChannel
namespace Deployment

variable {ρ α : Type} {code : Nat → ρ → Program α} {w : World} {s s' s₁ : Deployment ρ α}
  {moves : List (Move ρ)} {move : Move ρ}

/-! ## The log -/

/-- The calls of a task are those that the log names it for. -/
theorem mem_exchangesOf {i : Nat} {e : Exchange} : e ∈ s.exchangesOf i ↔ (i, e) ∈ s.log := by
  simp [exchangesOf]

/-- One more call belongs to one task. -/
theorem exchangesOf_concat {entry : Nat × Exchange} (hlog : s'.log = s.log ++ [entry]) (i : Nat) :
    s'.exchangesOf i = s.exchangesOf i ++ if entry.1 = i then [entry.2] else [] := by
  rw [exchangesOf, hlog, List.filterMap_append, ← exchangesOf]
  congr 1
  split <;> simp_all

/-- A call of one task changes nothing for the others. -/
theorem tasks_set {motive : Task ρ α → List Exchange → Prop} {j : Nat} {u u' : Task ρ α}
    {e : Exchange} (hj : s.tasks[j]? = some u) (htasks : s'.tasks = s.tasks.set j u')
    (hlog : s'.log = s.log ++ [(j, e)]) (hu' : motive u' (s.exchangesOf j ++ [e]))
    (h : ∀ i t, s.tasks[i]? = some t → motive t (s.exchangesOf i))
    (hnone : ∀ i, s.tasks.length ≤ i → s.exchangesOf i = []) :
    (∀ i t, s'.tasks[i]? = some t → motive t (s'.exchangesOf i)) ∧
      ∀ i, s'.tasks.length ≤ i → s'.exchangesOf i = [] := by
  have hlt : j < s.tasks.length := (List.getElem?_eq_some_iff.1 hj).1
  have hsame {i : Nat} (hne : j ≠ i) : s'.exchangesOf i = s.exchangesOf i := by
    simp [exchangesOf_concat hlog i, hne]
  rw [htasks]
  constructor
  · intro i t ht
    rcases eq_or_ne j i with rfl | hne
    · obtain rfl := Option.some.inj ((List.getElem?_set_self hlt).symm.trans ht)
      rwa [exchangesOf_concat hlog, if_pos rfl]
    · rw [List.getElem?_set_ne hne] at ht
      rw [hsame hne]
      exact h i t ht
  · intro i hi
    rw [List.length_set] at hi
    have hne : j ≠ i := by omega
    rw [hsame hne, hnone i hi]

/-- **Tasks and the log.**  What holds of a task that has just begun and made no call, and is kept
by each answer and by a cut, holds of every task and its calls after every run; and every call
belongs to a task. -/
theorem tasks_of_run {motive : Task ρ α → List Exchange → Prop}
    (h : (idle w).run code moves = some s)
    (start : ∀ process request, motive ⟨process, request, code process request, [], false⟩ [])
    (advance : ∀ (t : Task ρ α) (exchanges : List Exchange) (c : Call)
      (next : c.Answer → Program α) (answer : c.Answer), motive t exchanges → t.isCut = false →
      t.rest = .call c next → motive { t with rest := next answer, locks := c.locksAfter t.locks }
        (exchanges ++ [⟨c, some answer⟩]))
    (drop : ∀ (t : Task ρ α) (exchanges : List Exchange) (c : Call) (next : c.Answer → Program α),
      motive t exchanges → t.isCut = false → t.rest = .call c next →
      motive { t with locks := [], isCut := true } (exchanges ++ [⟨c, none⟩])) :
    (∀ i t, s.tasks[i]? = some t → motive t (s.exchangesOf i)) ∧
      ∀ i, s.tasks.length ≤ i → s.exchangesOf i = [] := by
  induction moves, s, h using run_induction with
  | nil => exact ⟨fun i t ht => by simp [idle] at ht, fun i _ => rfl⟩
  | @concat before s move s' _ _ ih hstep =>
    obtain ⟨htasks, hnone⟩ := ih
    rcases step_cases hstep with ⟨process, request, -, rfl⟩ |
      ⟨j, u, c, next, answer, world, -, hj, hcut, hrest, -, hs'⟩ |
      ⟨j, u, c, next, -, hj, hcut, hrest, hs'⟩ | ⟨change, -, rfl⟩
    · refine ⟨fun i t ht => ?_, fun i hi => hnone i (Nat.le_trans (by simp) hi)⟩
      rcases Nat.lt_or_ge i s.tasks.length with hi | hi
      · rw [List.getElem?_append_left hi] at ht
        exact htasks i t ht
      · obtain rfl := List.mem_singleton.1
          (List.mem_of_getElem? ((List.getElem?_append_right hi).symm.trans ht))
        exact (hnone i hi).symm ▸ start process request
    · exact tasks_set hj (by rw [hs']) (by rw [hs'])
        (advance u _ c next answer (htasks j u hj) hcut hrest) htasks hnone
    · exact tasks_set hj (by rw [hs']) (by rw [hs'])
        (drop u _ c next (htasks j u hj) hcut hrest) htasks hnone
    · exact ⟨htasks, hnone⟩

/-- The calls of a task lead from its program to what is left of it; if it was cut off, one more
call was not answered. -/
def Follows (code : Nat → ρ → Program α) (t : Task ρ α) (exchanges : List Exchange) : Prop :=
  ∃ answered, (code t.process t.request).Leads answered t.rest ∧
    if t.isCut then ∃ c next, t.rest = .call c next ∧ exchanges = answered ++ [⟨c, none⟩]
    else exchanges = answered

/-- **The log and the programs.**  After every run the calls of each task have led through its
program, and every call belongs to a task. -/
theorem follows_of_run (h : (idle w).run code moves = some s) :
    (∀ i t, s.tasks[i]? = some t → Follows code t (s.exchangesOf i)) ∧
      ∀ i, s.tasks.length ≤ i → s.exchangesOf i = [] := by
  refine tasks_of_run h (fun process request => ⟨[], .refl _, rfl⟩) ?_ ?_
  · intro t exchanges c next answer ⟨answered, hleads, hown⟩ hcut hrest
    rw [hrest] at hleads
    refine ⟨answered ++ [⟨c, some answer⟩], hleads.snoc answer, ?_⟩
    simp_all
  · intro t exchanges c next ⟨answered, hleads, hown⟩ hcut hrest
    refine ⟨answered, hleads, ?_⟩
    simp_all

/-- The calls of a task that is done lead from its program to its result. -/
theorem leads_of_run {i : Nat} {t : Task ρ α} {a : α} (h : (idle w).run code moves = some s)
    (ht : s.tasks[i]? = some t) (ha : t.result? = some a) :
    (code t.process t.request).Leads (s.exchangesOf i) (.done a) := by
  obtain ⟨answered, hleads, hown⟩ := (follows_of_run h).1 i t ht
  have hrest := Task.result?_eq_some_iff.1 ha
  rw [hrest] at hleads hown
  split at hown
  · obtain ⟨c, next, hcall, -⟩ := hown
    cases hcall
  · rwa [hown]

/-- A step answers a call of a task that is under way. -/
def Answers (s₁ s₂ : Deployment ρ α) (i : Nat) (c : Call) (answer : c.Answer) : Prop :=
  s₂.log = s₁.log ++ [(i, ⟨c, some answer⟩)] ∧
    ∃ t next, s₁.tasks[i]? = some t ∧ t.isCut = false ∧ t.rest = .call c next ∧
      (s₁.view t.process).react c = .answered answer s₂.world

/-- **The calls of the log.**  Each answered call of the log was answered at one step of the run. -/
theorem makes_of_log {i : Nat} {c : Call} {answer : c.Answer} {before after : List (Nat × Exchange)}
    (h : (idle w).run code moves = some s)
    (hlog : s.log = before ++ (i, ⟨c, some answer⟩) :: after) :
    ∃ s₁ s₂, Makes code (idle w) moves s₁ (.advance i) s₂ ∧ s₁.log = before ∧
      s₁.Answers s₂ i c answer := by
  induction moves, s, h using run_induction generalizing after with
  | nil => simp [idle] at hlog
  | @concat moves s move s' hbefore _ ih hstep =>
    -- the call was answered at the last step, or the log held it already
    have hearlier {after : List (Nat × Exchange)}
        (hlog : s.log = before ++ (i, ⟨c, some answer⟩) :: after) :
        ∃ s₁ s₂, Makes code (idle w) (moves ++ [move]) s₁ (.advance i) s₂ ∧ s₁.log = before ∧
          s₁.Answers s₂ i c answer := by
      obtain ⟨s₁, s₂, hmakes, hs⟩ := ih hlog
      exact ⟨s₁, s₂, hmakes.append [move], hs⟩
    have hlast {entry : Nat × Exchange} (hs' : s'.log = s.log ++ [entry]) :
        (entry = (i, ⟨c, some answer⟩) ∧ s.log = before) ∨
          ∃ after, s.log = before ++ (i, ⟨c, some answer⟩) :: after := by
      rw [hs'] at hlog
      rcases List.eq_nil_or_concat after with rfl | ⟨rest, last, rfl⟩
      · obtain ⟨hbefore, hentry⟩ := List.append_inj' hlog rfl
        exact .inl ⟨(List.cons.inj hentry).1, hbefore⟩
      · rw [List.concat_eq_append, ← List.cons_append, ← List.append_assoc] at hlog
        exact .inr ⟨rest, (List.append_inj' hlog rfl).1⟩
    rcases step_cases hstep with ⟨process, request, -, rfl⟩ |
      ⟨j, u, d, next, answer', world, hmove, hj, hcut, hrest, hreact, hs'⟩ |
      ⟨j, u, d, next, -, -, -, -, hs'⟩ | ⟨change, -, rfl⟩
    · exact hearlier hlog
    · have hlog' : s'.log = s.log ++ [(j, ⟨d, some answer'⟩)] := by rw [hs']
      rcases hlast hlog' with ⟨hentry, hs⟩ | ⟨after, hs⟩
      · cases hentry
        subst hmove
        exact ⟨s, s', ⟨moves, [], rfl, hbefore, hstep⟩, hs, hlog', u, next, hj, hcut, hrest,
          by rw [hs']; exact hreact⟩
      · exact hearlier hs
    · rcases @hlast (j, ⟨d, none⟩) (by rw [hs']) with ⟨hentry, -⟩ | ⟨after, hs⟩
      · cases hentry
      · exact hearlier hs
    · exact hearlier hlog

/-- A call of a task stands in the log, after the calls that the task made before. -/
theorem log_of_exchangesOf {i : Nat} {e : Exchange} {before after : List Exchange}
    (h : s.exchangesOf i = before ++ e :: after) :
    ∃ earlier later, s.log = earlier ++ (i, e) :: later ∧
      earlier.filterMap (fun entry => if entry.1 = i then some entry.2 else none) = before := by
  obtain ⟨earlier, rest, hlog, hearlier, hrest⟩ := List.filterMap_eq_append_iff.1 h
  obtain ⟨skipped, entry, later, rfl, hskipped, hentry, -⟩ := List.filterMap_eq_cons_iff.1 hrest
  obtain ⟨rfl, rfl⟩ : entry.1 = i ∧ entry.2 = e := by simpa using hentry
  refine ⟨earlier ++ skipped, later, by simp [hlog], ?_⟩
  rw [List.filterMap_append, hearlier, List.filterMap_eq_nil_iff.2 hskipped, List.append_nil]

/-! ## The store -/

/-- No step of a list writes to a key from outside. -/
def Spare (moves : List (Move ρ)) (key : String) : Prop :=
  ∀ change, .change change ∈ moves → change.Spares key

/-- What the log leaves under a key. -/
def lastEffect? (s : Deployment ρ α) (key : String) : Option (Option Bytes) :=
  Exchange.lastEffect? key (s.log.map Prod.snd)

/-- No foreign write waits in the store after a run, if none waited before. -/
theorem spares_of_run {key : String} {s₀ : Deployment ρ α} (h : s₀.run code moves = some s)
    (hw : s₀.world.store.Spares key) : s.world.store.Spares key := by
  induction moves, s, h using run_induction with
  | nil => exact hw
  | concat _ _ ih hstep =>
    rcases step_cases hstep with ⟨process, request, -, rfl⟩ |
      ⟨j, u, c, next, answer, world, -, -, -, -, hreact, rfl⟩ | ⟨j, u, c, next, -, -, -, -, rfl⟩ |
      ⟨change, -, rfl⟩
    · exact ih
    · exact World.spares_react hreact ih
    · exact World.spares_begin ih c
    · exact World.spares_change ih change

theorem spares_of_visits {key : String} {s₀ : Deployment ρ α} (h : Visits code s₀ moves s)
    (hw : s₀.world.store.Spares key) : s.world.store.Spares key := by
  obtain ⟨before, after, -, hbefore⟩ := h
  exact spares_of_run hbefore hw

/-- **The store and the log.**  A key that nobody else writes holds what the last call with an
effect on it has put there, and its first value if there was none. -/
theorem get?_of_run {key : String} (h : (idle w).run code moves = some s)
    (hw : w.store.Spares key) (hmoves : Spare moves key) :
    s.world.store.get? key = (s.lastEffect? key).getD (w.store.get? key) := by
  induction moves, s, h using run_induction with
  | nil => rfl
  | @concat moves s move s' hbefore _ ih hstep =>
    have hkept := ih fun change hchange => hmoves change (List.mem_append_left _ hchange)
    have hspares : s.world.store.Spares key := spares_of_run hbefore hw
    rcases step_cases hstep with ⟨process, request, -, rfl⟩ |
      ⟨j, u, c, next, answer, world, -, -, -, -, hreact, rfl⟩ | ⟨j, u, c, next, -, -, -, -, rfl⟩ |
      ⟨change, rfl, rfl⟩
    · exact hkept
    · rw [World.get?_react hreact hspares, view, hkept, lastEffect?, lastEffect?, List.map_append]
      rw [List.map_singleton, Exchange.lastEffect?_concat]
      cases Exchange.effectOn? key ⟨c, some answer⟩ <;> rfl
    · rw [World.get?_begin, hkept, lastEffect?, lastEffect?, List.map_append]
      rw [List.map_singleton, Exchange.lastEffect?_concat]
      cases c <;> rfl
    · rw [World.get?_change (hmoves change (by simp)), hkept]
      rfl

/-! ## Contracts -/

variable {k : ρ → Contract} {post : ρ → α → Prop} {invariant : World → Prop}

/-- The tasks keep their contracts, and the calls of the log are allowed by them. -/
structure Orderly (k : ρ → Contract) (post : ρ → α → Prop) (s : Deployment ρ α) : Prop where
  tasks : ∀ t ∈ s.tasks, t.rest.Keeps (k t.request) (post t.request)
  log : ∀ entry ∈ s.log, ∃ t, s.tasks[entry.1]? = some t ∧ (k t.request).allows entry.2.call ∧
    (k t.request).Trusts entry.2

/-- A call that its contract allows leaves the tasks orderly. -/
theorem Orderly.set {i : Nat} {t t' : Task ρ α} {e : Exchange}
    (h : s.Orderly k post) (ht : s.tasks[i]? = some t) (htasks : s'.tasks = s.tasks.set i t')
    (hlog : s'.log = s.log ++ [(i, e)]) (hrequest : t'.request = t.request)
    (hrest : t'.rest.Keeps (k t.request) (post t.request)) (hallows : (k t.request).allows e.call)
    (htrust : (k t.request).Trusts e) : s'.Orderly k post := by
  have hlt : i < s.tasks.length := (List.getElem?_eq_some_iff.1 ht).1
  have hself : s'.tasks[i]? = some t' := by rw [htasks, List.getElem?_set_self hlt]
  constructor
  · intro u hu
    rw [htasks] at hu
    rcases List.mem_or_eq_of_mem_set hu with hu | rfl
    · exact h.tasks u hu
    · rwa [hrequest]
  · intro entry hentry
    rw [hlog, List.mem_append, List.mem_singleton] at hentry
    rcases hentry with hentry | rfl
    · obtain ⟨u, hu, hok⟩ := h.log entry hentry
      rcases eq_or_ne i entry.1 with heq | hne
      · obtain rfl : t = u := Option.some.inj (ht.symm.trans (heq ▸ hu))
        exact ⟨t', heq ▸ hself, by rwa [hrequest]⟩
      · exact ⟨u, by rw [htasks, List.getElem?_set_ne hne, hu], hok⟩
    · exact ⟨t', hself, by rw [hrequest]; exact ⟨hallows, htrust⟩⟩

/-- **Contracts in turns.**  If every program keeps its contract and the contracts uphold an
invariant of the world, the invariant holds after every run, every call was allowed, and every
result is as promised. -/
theorem orderly_of_run (h : (idle w).run code moves = some s)
    (hcode : ∀ process request, (code process request).Keeps (k request) (post request))
    (hupheld : ∀ request, (k request).Upheld invariant) (hw : invariant w)
    (hchange : ∀ change, .change change ∈ moves → ∀ w, invariant w → invariant (w.change change)) :
    s.Orderly k post ∧ invariant s.world := by
  induction moves, s, h using run_induction with
  | nil => exact ⟨⟨by simp [idle], by simp [idle]⟩, hw⟩
  | @concat moves s move s' _ _ ih hstep =>
    obtain ⟨horderly, hworld⟩ :=
      ih fun change hmem => hchange change (List.mem_append_left _ hmem)
    rcases step_cases hstep with ⟨process, request, -, rfl⟩ |
      ⟨j, u, c, next, answer, world, -, hj, -, hrest, hreact, hs'⟩ |
      ⟨j, u, c, next, -, hj, -, hrest, hs'⟩ | ⟨change, rfl, rfl⟩
    · refine ⟨⟨?_, ?_⟩, hworld⟩
      · intro t ht
        rcases List.mem_append.1 ht with ht | ht
        · exact horderly.tasks t ht
        · obtain rfl := List.mem_singleton.1 ht
          exact hcode process request
      · intro entry hentry
        obtain ⟨t, ht, hok⟩ := horderly.log entry hentry
        exact ⟨t, by rw [List.getElem?_append_left (List.getElem?_eq_some_iff.1 ht).1, ht], hok⟩
    · have hkeeps := horderly.tasks u (List.mem_of_getElem? hj)
      rw [hrest] at hkeeps
      obtain ⟨hanswer, hworld'⟩ :=
        (hupheld u.request).react ((hupheld u.request).held _ hworld) hkeeps.1 hreact
      have hlog : s'.log = s.log ++ [(j, ⟨c, some answer⟩)] := by rw [hs']
      have htasks : s'.tasks = s.tasks.set j
          { u with rest := next answer, locks := c.locksAfter u.locks } := by rw [hs']
      refine ⟨horderly.set hj htasks hlog rfl (hkeeps.2 answer hanswer) hkeeps.1 ?_, by rwa [hs']⟩
      · intro other hother
        cases hother
        exact hanswer
    · have hkeeps := horderly.tasks u (List.mem_of_getElem? hj)
      have hallows : (k u.request).allows c := by
        rw [hrest] at hkeeps
        exact hkeeps.1
      have hlog : s'.log = s.log ++ [(j, ⟨c, none⟩)] := by rw [hs']
      have htasks : s'.tasks = s.tasks.set j { u with locks := [], isCut := true } := by rw [hs']
      refine ⟨horderly.set hj htasks hlog rfl hkeeps hallows ?_, ?_⟩
      · intro other hother
        cases hother
      · rw [hs']
        exact (hupheld u.request).begin hworld hallows
    · exact ⟨⟨horderly.tasks, horderly.log⟩, hchange change (by simp) s.world hworld⟩

end Deployment

end SealedChannel
