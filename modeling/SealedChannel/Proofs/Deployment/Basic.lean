import Mathlib.Data.List.Induction
import SealedChannel.Proofs.Program.Locks

/-!
# Programs in turns

Several processes share one store, and each has several programs under way.  A step answers one call
of one program, so that a run is an order of steps; that order is arbitrary.  Between two steps
anybody else may write to the store, and the platform, the key server and the faults of the store
may change in any way.

## What is here

* `Change`, `World.change` — what happens to the world without a program.
* `Task` — a program under way on behalf of a request, with the locks that it holds.
* `Deployment` — the world, the tasks, and the calls made so far in the order of their answers.
* `Move`, `Deployment.step`, `Deployment.run` — one step, and a run from state to state.
* `Deployment.Visits`, `Deployment.Makes` — the states and the steps of a run.
* `Deployment.step_cases` — everything that a step can do.
* `Deployment.run_induction` — what holds at first and is kept by every step holds after every run.
-/

set_option autoImplicit false
namespace SealedChannel

/-! ## The world without programs -/

/-- What happens to the world without a program. -/
inductive Change where
  /-- Another party writes a value into the store. -/
  | write (write : ForeignWrite)
  /-- The store has another latency and refuses other calls. -/
  | faults (latency : Duration) (refuseGets refuseSets refuseDeletes : Bool)
  /-- The chat platform is another one. -/
  | host (host : Host)
  /-- The key server is another one. -/
  | keyServer (server : KeyServer.Server)

namespace World

/-- The world after a change. -/
def change (w : World) : Change → World
  | .write write => { w with store := w.store.seed write.key write.value }
  | .faults latency refuseGets refuseSets refuseDeletes =>
    { w with store := { w.store with latency, refuseGets, refuseSets, refuseDeletes } }
  | .host host => { w with host }
  | .keyServer keyServer => { w with keyServer }

end World

/-- A change does not write to a key. -/
def Change.Spares (change : Change) (key : String) : Prop :=
  ∀ write, change = .write write → write.key ≠ key

theorem World.get?_change {w : World} {change : Change} {key : String} (h : change.Spares key) :
    (w.change change).store.get? key = w.store.get? key := by
  cases change with
  | write write =>
    have hne : key ≠ write.key := (h write rfl).symm
    simp [World.change, Store.seed, Store.get?, hne]
  | _ => rfl

theorem World.spares_change {w : World} {key : String} (h : w.store.Spares key)
    (change : Change) : (w.change change).store.Spares key := by
  cases change <;> exact h

/-! ## Tasks -/

/-- A program under way on behalf of a request. -/
structure Task (ρ α : Type) where
  process : Nat
  request : ρ
  /-- What is left to do. -/
  rest : Program α
  /-- The locks that it holds. -/
  locks : List Nat
  /-- Whether it was cut off while a call waited. -/
  isCut : Bool

namespace Task

variable {ρ α : Type}

/-- What a task has come to, if it is done. -/
def result? (t : Task ρ α) : Option α :=
  match t.rest with
  | .done a => some a
  | .call _ _ => none

theorem result?_eq_some_iff {t : Task ρ α} {a : α} : t.result? = some a ↔ t.rest = .done a := by
  rw [result?]
  split <;> simp_all

/-- Whether a task has begun and is neither done nor cut off. -/
def IsUnderWay (t : Task ρ α) : Prop :=
  t.result? = none ∧ t.isCut = false

/-- A task under way has a next call. -/
theorem IsUnderWay.exists_rest {t : Task ρ α} (h : t.IsUnderWay) : ∃ c next, t.rest = .call c next := by
  have hnone := h.1
  rw [result?] at hnone
  split at hnone
  · cases hnone
  · exact ⟨_, _, by assumption⟩

end Task

/-! ## Deployments -/

/-- Programs that take turns. -/
structure Deployment (ρ α : Type) where
  world : World
  tasks : List (Task ρ α)
  /-- The calls so far, each with the number of its task. -/
  log : List (Nat × Exchange)

/-- A step. -/
inductive Move (ρ : Type) where
  /-- A process takes a request. -/
  | start (process : Nat) (request : ρ)
  /-- The next call of a task is answered. -/
  | advance (task : Nat)
  /-- A task is cut off while its next call waits. -/
  | drop (task : Nat)
  /-- Something happens without a program. -/
  | change (change : Change)

namespace Deployment

variable {ρ α : Type}

/-- A deployment before any request. -/
def idle (w : World) : Deployment ρ α :=
  ⟨w, [], []⟩

/-- The locks that are held in a process. -/
def heldBy (s : Deployment ρ α) (process : Nat) : List Nat :=
  (s.tasks.filter fun t => t.process == process).flatMap Task.locks

/-- The world as a process sees it. -/
def view (s : Deployment ρ α) (process : Nat) : World :=
  { s.world with held := s.heldBy process }

/-- The next call of a task is answered. -/
def advance (s : Deployment ρ α) (i : Nat) (t : Task ρ α) : Option (Deployment ρ α) :=
  match t.rest with
  | .done _ => none
  | .call c next =>
    match (s.view t.process).react c with
    | .answered answer world =>
      some ⟨world, s.tasks.set i { t with rest := next answer, locks := c.locksAfter t.locks },
        s.log ++ [(i, ⟨c, some answer⟩)]⟩
    | _ => none

/-- A task is cut off while its next call waits; it gives its locks back. -/
def drop (s : Deployment ρ α) (i : Nat) (t : Task ρ α) : Option (Deployment ρ α) :=
  match t.rest with
  | .done _ => none
  | .call c _ =>
    some ⟨s.world.begin c, s.tasks.set i { t with locks := [], isCut := true },
      s.log ++ [(i, ⟨c, none⟩)]⟩

/-- The task of a number, unless it was cut off. -/
def task? (s : Deployment ρ α) (i : Nat) : Option (Task ρ α) :=
  s.tasks[i]?.filter fun t => !t.isCut

variable (code : Nat → ρ → Program α)

/-- One step, where `code` says which program a process runs on a request. -/
def step (s : Deployment ρ α) : Move ρ → Option (Deployment ρ α)
  | .start process request =>
    some { s with tasks := s.tasks ++ [⟨process, request, code process request, [], false⟩] }
  | .advance i => (s.task? i).bind (s.advance i)
  | .drop i => (s.task? i).bind (s.drop i)
  | .change change => some { s with world := s.world.change change }

/-- A run. -/
def run (s : Deployment ρ α) (moves : List (Move ρ)) : Option (Deployment ρ α) :=
  moves.foldlM (step code) s

/-- A run passes through a state. -/
def Visits (s₀ : Deployment ρ α) (moves : List (Move ρ)) (s : Deployment ρ α) : Prop :=
  ∃ before after, moves = before ++ after ∧ s₀.run code before = some s

/-- A run makes a step between two states. -/
def Makes (s₀ : Deployment ρ α) (moves : List (Move ρ)) (s : Deployment ρ α) (move : Move ρ)
    (s' : Deployment ρ α) : Prop :=
  ∃ before after, moves = before ++ move :: after ∧ s₀.run code before = some s ∧
    s.step code move = some s'

/-! ## What a deployment has done -/

/-- The calls that a task has made. -/
def exchangesOf (s : Deployment ρ α) (i : Nat) : List Exchange :=
  s.log.filterMap fun entry => if entry.1 = i then some entry.2 else none

/-- The keys that a task has written, with their values. -/
def writesOf (s : Deployment ρ α) (i : Nat) : List (String × Option Bytes) :=
  (s.exchangesOf i).filterMap Exchange.write?

/-! ## One step -/

variable {code} {s s' : Deployment ρ α} {move : Move ρ}

theorem task?_eq_some_iff {i : Nat} {t : Task ρ α} :
    s.task? i = some t ↔ s.tasks[i]? = some t ∧ t.isCut = false := by
  simp [task?, Option.filter_eq_some_iff]

/-- The next call of a task is answered. -/
theorem step_advance {i : Nat} {t : Task ρ α} {c : Call} {next : c.Answer → Program α}
    {answer : c.Answer} {world : World} (ht : s.tasks[i]? = some t) (hcut : t.isCut = false)
    (hrest : t.rest = .call c next)
    (hreact : (s.view t.process).react c = .answered answer world) :
    s.step code (.advance i) = some
      ⟨world, s.tasks.set i { t with rest := next answer, locks := c.locksAfter t.locks },
        s.log ++ [(i, ⟨c, some answer⟩)]⟩ := by
  rw [step, task?_eq_some_iff.2 ⟨ht, hcut⟩, Option.bind_some, advance, hrest]
  dsimp only
  rw [hreact]

/-- A task is cut off while its next call waits. -/
theorem step_drop {i : Nat} {t : Task ρ α} {c : Call} {next : c.Answer → Program α}
    (ht : s.tasks[i]? = some t) (hcut : t.isCut = false) (hrest : t.rest = .call c next) :
    s.step code (.drop i) = some
      ⟨s.world.begin c, s.tasks.set i { t with locks := [], isCut := true },
        s.log ++ [(i, ⟨c, none⟩)]⟩ := by
  rw [step, task?_eq_some_iff.2 ⟨ht, hcut⟩, Option.bind_some, drop, hrest]

/-- **Inversion of a step.**  Everything that a step can do. -/
theorem step_cases (h : s.step code move = some s') :
    (∃ process request, move = .start process request ∧ s' =
      { s with tasks := s.tasks ++ [⟨process, request, code process request, [], false⟩] }) ∨
    (∃ i t c next answer world, move = .advance i ∧ s.tasks[i]? = some t ∧ t.isCut = false ∧
      t.rest = .call c next ∧ (s.view t.process).react c = .answered answer world ∧ s' =
        ⟨world, s.tasks.set i { t with rest := next answer, locks := c.locksAfter t.locks },
          s.log ++ [(i, ⟨c, some answer⟩)]⟩) ∨
    (∃ i t c next, move = .drop i ∧ s.tasks[i]? = some t ∧ t.isCut = false ∧
      t.rest = .call c next ∧ s' =
        ⟨s.world.begin c, s.tasks.set i { t with locks := [], isCut := true },
          s.log ++ [(i, ⟨c, none⟩)]⟩) ∨
    (∃ change, move = .change change ∧ s' = { s with world := s.world.change change }) := by
  cases move with
  | start process request => exact .inl ⟨process, request, rfl, (Option.some.inj h).symm⟩
  | advance i =>
    obtain ⟨t, ht, hadvance⟩ := Option.bind_eq_some_iff.1 h
    obtain ⟨hi, hcut⟩ := task?_eq_some_iff.1 ht
    rw [advance] at hadvance
    split at hadvance
    · cases hadvance
    · rename_i c next hrest
      split at hadvance
      · rename_i answer world hreact
        exact .inr (.inl ⟨i, t, c, next, answer, world, rfl, hi, hcut, hrest, hreact,
          (Option.some.inj hadvance).symm⟩)
      · cases hadvance
  | drop i =>
    obtain ⟨t, ht, hdrop⟩ := Option.bind_eq_some_iff.1 h
    obtain ⟨hi, hcut⟩ := task?_eq_some_iff.1 ht
    rw [drop] at hdrop
    split at hdrop
    · cases hdrop
    · rename_i c next hrest
      exact .inr (.inr (.inl ⟨i, t, c, next, rfl, hi, hcut, hrest, (Option.some.inj hdrop).symm⟩))
  | change change => exact .inr (.inr (.inr ⟨change, rfl, (Option.some.inj h).symm⟩))

/-! ## Runs -/

variable {s₀ : Deployment ρ α} {moves : List (Move ρ)}

@[simp]
theorem run_nil : s₀.run code [] = some s₀ :=
  rfl

theorem run_cons :
    s₀.run code (move :: moves) = (s₀.step code move).bind fun s => s.run code moves := by
  rw [run, List.foldlM_cons]
  rfl

theorem run_append (before after : List (Move ρ)) :
    s₀.run code (before ++ after) = (s₀.run code before).bind fun s => s.run code after :=
  List.foldlM_append

theorem run_concat :
    s₀.run code (moves ++ [move]) = (s₀.run code moves).bind (step code · move) := by
  rw [run_append]
  exact congrArg _ (funext fun s => bind_pure (s.step code move))

/-- **Induction on runs.**  What holds at first and is kept by every step holds after every run. -/
theorem run_induction {motive : ∀ moves s, s₀.run code moves = some s → Prop}
    (nil : motive [] s₀ rfl)
    (concat : ∀ {before s move s'} (hbefore : s₀.run code before = some s)
      (h : s₀.run code (before ++ [move]) = some s'), motive before s hbefore →
      s.step code move = some s' → motive (before ++ [move]) s' h)
    (moves : List (Move ρ)) (s : Deployment ρ α) (h : s₀.run code moves = some s) :
    motive moves s h := by
  induction moves using List.reverseRecOn generalizing s with
  | nil => cases h; exact nil
  | append_singleton before move ih =>
    obtain ⟨s₁, hbefore, hstep⟩ := Option.bind_eq_some_iff.1 (run_concat.symm.trans h)
    exact concat hbefore h (ih s₁ hbefore) hstep

/-- The steps of a longer run. -/
theorem Makes.append {s₁ s₂ : Deployment ρ α} (h : Makes code s₀ moves s₁ move s₂)
    (later : List (Move ρ)) : Makes code s₀ (moves ++ later) s₁ move s₂ := by
  obtain ⟨before, after, rfl, hrun, hstep⟩ := h
  exact ⟨before, after ++ later, by simp, hrun, hstep⟩

/-- A run passes through the state before each of its steps. -/
theorem Makes.visits {s₁ s₂ : Deployment ρ α} (h : Makes code s₀ moves s₁ move s₂) :
    Visits code s₀ moves s₁ := by
  obtain ⟨before, after, rfl, hrun, -⟩ := h
  exact ⟨before, move :: after, rfl, hrun⟩

end Deployment

end SealedChannel
