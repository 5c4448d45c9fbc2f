import SealedChannel.Proofs.Deployment.Locks

/-!
# Programs one after another

A process that takes one request after the other, each with its program run to the end before the
next one begins, is a deployment like any other.  A path through a program can be walked again in
such a process if each of its calls can be answered again: a read must find what it found, a lock
must be free, and a call that failed must fail again, which is a matter of the faults in force.

## What is here

* `Deployment.InTurn` — requests are run one after another.
* `Deployment.Repeatable` — each call of a path can be answered again, after some calls before.
* `Deployment.exists_moves_of_leads` — a path whose calls can be answered again is walked again.
* `Deployment.Account`, `Deployment.Served` — requests that were run one after another, with what
  they came to and the calls that it took; `Deployment.Served.concat` adds one.
-/

set_option autoImplicit false
namespace SealedChannel

/-- The faults of a store come into force. -/
def Change.faultsOf (store : Store) : Change :=
  .faults store.latency store.refuseGets store.refuseSets store.refuseDeletes

namespace World

/-- A call to the store is answered as the store answers it. -/
theorem exists_react_store {w : World} {limit : Duration} {c : StoreCall}
    {answer : Except StoreError c.Answer} (h : (w.store.call (some limit) c).1 = answer) :
    ∃ w', w.react (.store limit c) = .answered answer w' := by
  subst h
  exact ⟨_, rfl⟩

/-- Under the faults of another store with the same value under the key, a read answers what it
answers there. -/
theorem react_get_faultsOf {w : World} {store : Store} {key : String}
    (h : w.store.get? key = store.get? key) (limit : Duration) :
    ∃ w', (w.change (.faultsOf store)).react (.store limit (.get key)) =
      .answered (store.call (some limit) (.get key)).1 w' := by
  have hget : (w.change (.faultsOf store)).store.get? key = store.get? key := h
  refine exists_react_store ?_
  rw [Store.answer_get, Store.answer_get, hget]
  rfl

/-- Under the faults of another store, a write answers what it answers there. -/
theorem react_set_faultsOf (w : World) (store : Store) (limit : Duration) (key : String)
    (value : Bytes) :
    ∃ w', (w.change (.faultsOf store)).react (.store limit (.set key value)) =
      .answered (store.call (some limit) (.set key value)).1 w' := by
  refine exists_react_store ?_
  rw [Store.answer_set, Store.answer_set]
  rfl

end World

namespace Deployment

variable {ρ α : Type}

/-! ## One after another -/

/-- A process takes requests one after another, from some state on: each is run to its end before
the next one begins, and between two calls only the faults of the store may change. -/
inductive InTurn (code : Nat → ρ → Program α) (process : Nat) (s₀ : Deployment ρ α) :
    List ρ → Deployment ρ α → Prop
  | nil : InTurn code process s₀ [] s₀
  | concat {requests : List ρ} {s s' : Deployment ρ α} {request : ρ} {moves : List (Move ρ)}
      {t : Task ρ α} (h : InTurn code process s₀ requests s)
      (hrun : s.run code (.start process request :: moves) = some s')
      (hmoves : ∀ move ∈ moves, move = .advance s.tasks.length ∨
        ∃ latency refuseGets refuseSets refuseDeletes,
          move = .change (.faults latency refuseGets refuseSets refuseDeletes))
      (htasks : s'.tasks = s.tasks ++ [t]) (hdone : t.result?.isSome) :
      InTurn code process s₀ (requests ++ [request]) s'

/-- Each answered call of a path can be answered again, after some calls before the path, in every
world in which the store holds what all these calls have left and the locks of the path are held. -/
def Repeatable (w : World) (earlier path : List Exchange) : Prop :=
  ∀ (before after : List Exchange) (c : Call) (answer : c.Answer),
    path = before ++ ⟨c, some answer⟩ :: after → ∀ v : World,
    v.held = Exchange.heldAfter before →
    (∀ key, v.store.get? key =
      (Exchange.lastEffect? key (earlier ++ before)).getD (w.store.get? key)) →
    ∃ store world, (v.change (.faultsOf store)).react c = .answered answer world

/-- What is left under the keys by the calls before is all that matters of them. -/
theorem Repeatable.congr {w : World} {earlier earlier' path : List Exchange}
    (h : Repeatable w earlier path)
    (hsame : ∀ key, Exchange.lastEffect? key earlier = Exchange.lastEffect? key earlier') :
    Repeatable w earlier' path := by
  intro before after c answer hpath v hheld hget
  refine h before after c answer hpath v hheld fun key => ?_
  rw [hget, Exchange.lastEffect?_append, Exchange.lastEffect?_append, hsame]

/-- What a request has come to, and the calls that it took. -/
structure Account (ρ α : Type) where
  request : ρ
  result? : Option α
  calls : List Exchange

/-- The account of a task, unless it was cut off. -/
def account? (s : Deployment ρ α) (i : Nat) : Option (Account ρ α) :=
  (s.task? i).map fun t => ⟨t.request, t.result?, s.exchangesOf i⟩

/-- The accounts of all tasks. -/
def accounts (s : Deployment ρ α) : List (Account ρ α) :=
  s.tasks.mapIdx fun i t => ⟨t.request, t.result?, s.exchangesOf i⟩

variable {code : Nat → ρ → Program α} {w : World} {s s' : Deployment ρ α}

/-- Some more calls of one task. -/
theorem exchangesOf_append {n : Nat} {calls : List Exchange}
    (hlog : s'.log = s.log ++ calls.map fun e => (n, e)) (i : Nat) :
    s'.exchangesOf i = s.exchangesOf i ++ if n = i then calls else [] := by
  rw [exchangesOf, hlog, List.filterMap_append, ← exchangesOf, List.filterMap_map]
  congr 1
  split
  · rename_i hn
    simp [hn]
  · rename_i hn
    simp [hn]

/-- One more task, with its calls. -/
theorem accounts_concat {t : Task ρ α} {calls : List Exchange}
    (htasks : s'.tasks = s.tasks ++ [t])
    (hlog : s'.log = s.log ++ calls.map fun e => (s.tasks.length, e))
    (hnone : s.exchangesOf s.tasks.length = []) :
    s'.accounts = s.accounts ++ [⟨t.request, t.result?, calls⟩] := by
  rw [accounts, htasks, List.mapIdx_concat, exchangesOf_append hlog, hnone, if_pos rfl,
    List.nil_append, accounts]
  congr 1
  refine List.mapIdx_eq_mapIdx_iff.2 fun i hi => ?_
  rw [exchangesOf_append hlog, if_neg (Nat.ne_of_gt hi), List.append_nil]

/-- The locks in a process in which one task at most holds locks. -/
theorem heldBy_of_free {others : List (Task ρ α)} {t : Task ρ α} (htasks : s.tasks = others ++ [t])
    (hfree : ∀ u ∈ others, u.locks = []) : s.heldBy t.process = t.locks := by
  have hnone : ((others.filter fun u => u.process == t.process).flatMap Task.locks) = [] := by
    rw [List.flatMap_eq_nil_iff]
    exact fun u hu => hfree u (List.mem_of_mem_filter hu)
  rw [heldBy, htasks, List.filter_append, List.flatMap_append, hnone]
  simp

/-- **Walking a path again.**  If each call of a path can be answered again, the last task can walk
the path, where no other task holds a lock. -/
theorem exists_moves_of_leads (hw : ∀ key, w.store.Spares key) {earlier path : List Exchange}
    (hpath : Repeatable w earlier path) {p rest : Program α} {calls : List Exchange}
    (hleads : p.Leads calls rest) {walked : List Exchange} (hwalked : walked ++ calls = path)
    {before : List (Move ρ)} (hbefore : (idle w).run code before = some s)
    (hspare : ∀ key, Spare before key) {others : List (Task ρ α)} {t : Task ρ α}
    (htasks : s.tasks = others ++ [t]) (hfree : ∀ u ∈ others, u.locks = []) (hcut : t.isCut = false)
    (hrest : t.rest = p) (hlocks : t.locks = Exchange.heldAfter walked)
    (hlog : s.log.map Prod.snd = earlier ++ walked) :
    ∃ moves s' t', s.run code moves = some s' ∧
      (∀ move ∈ moves, move = .advance others.length ∨
        ∃ latency refuseGets refuseSets refuseDeletes,
          move = .change (.faults latency refuseGets refuseSets refuseDeletes)) ∧
      s'.tasks = others ++ [t'] ∧ t'.request = t.request ∧ t'.rest = rest ∧
      t'.locks = Exchange.heldAfter path ∧
      s'.log = s.log ++ calls.map fun e => (others.length, e) := by
  induction hleads generalizing walked before s t with
  | refl p =>
    rw [List.append_nil] at hwalked
    exact ⟨[], s, t, rfl, by simp, htasks, rfl, hrest, by rw [hlocks, hwalked], by simp⟩
  | @step c next answer calls rest _ ih =>
    have hget (key : String) : (s.view t.process).store.get? key =
        (Exchange.lastEffect? key (earlier ++ walked)).getD (w.store.get? key) := by
      rw [← hlog]
      exact get?_of_run hbefore (hw key) (hspare key)
    obtain ⟨store, world, hreact⟩ := hpath walked calls c answer hwalked.symm (s.view t.process)
      ((heldBy_of_free htasks hfree).trans hlocks) hget
    -- the faults of the call come into force, and the call is answered
    let s₁ : Deployment ρ α := { s with world := s.world.change (.faultsOf store) }
    let t₂ : Task ρ α := { t with rest := next answer, locks := c.locksAfter t.locks }
    let s₂ : Deployment ρ α :=
      ⟨world, others ++ [t₂], s.log ++ [(others.length, ⟨c, some answer⟩)]⟩
    have hstep : s₁.step code (.advance others.length) = some s₂ := by
      rw [step_advance (s := s₁) (by rw [htasks, List.getElem?_concat_length]) hcut hrest hreact,
        set_last htasks]
    have htwo : s.run code [.change (.faultsOf store), .advance others.length] = some s₂ := by
      rw [run_cons, step, Option.bind_some, run_cons, hstep]
      rfl
    have hbefore₂ : (idle w).run code
        (before ++ [.change (.faultsOf store), .advance others.length]) = some s₂ := by
      rw [run_append, hbefore, Option.bind_some, htwo]
    have hspare₂ (key : String) :
        Spare (before ++ [.change (.faultsOf store), .advance others.length]) key := by
      intro change hchange
      rcases List.mem_append.1 hchange with hchange | hchange
      · exact hspare key change hchange
      · obtain rfl : change = .faultsOf store := by simpa using hchange
        rintro write ⟨⟩
    have hwalked₂ : walked ++ [⟨c, some answer⟩] ++ calls = path := by
      rw [← hwalked, List.append_assoc, List.singleton_append]
    obtain ⟨moves, s', t', hrun, hmoves, htasks', hrequest, hrest', hlocks', hlog'⟩ :=
      ih hwalked₂ hbefore₂ hspare₂ (t := t₂) rfl hcut rfl
        (by rw [Exchange.heldAfter_concat, ← hlocks]; rfl) (by rw [List.map_append, hlog]; simp)
    refine ⟨.change (.faultsOf store) :: .advance others.length :: moves, s', t', ?_, ?_, htasks',
      hrequest, hrest', hlocks', by rw [hlog']; simp [s₂]⟩
    · change s.run code ([.change (.faultsOf store), .advance others.length] ++ moves) = some s'
      rw [run_append, htwo]
      exact hrun
    · intro move hmove
      rcases List.mem_cons.1 hmove with rfl | hmove
      · exact .inr ⟨_, _, _, _, rfl⟩
      · rcases List.mem_cons.1 hmove with rfl | hmove
        · exact .inl rfl
        · exact hmoves move hmove

/-- A process has taken requests one after another, and these are their accounts. -/
structure Served (code : Nat → ρ → Program α) (process : Nat) (w : World)
    (accounts : List (Account ρ α)) (s : Deployment ρ α) : Prop where
  inTurn : InTurn code process (idle w) (accounts.map Account.request) s
  reached : ∃ moves, (idle w).run code moves = some s ∧ ∀ key, Spare moves key
  free : ∀ t ∈ s.tasks, t.locks = []
  log : s.log.map Prod.snd = accounts.flatMap Account.calls
  accounts : s.accounts = accounts

/-- No request has been taken. -/
theorem Served.nil (code : Nat → ρ → Program α) (process : Nat) (w : World) :
    Served code process w [] (idle w) :=
  ⟨.nil, ⟨[], rfl, by simp [Spare]⟩, by simp [idle], rfl, rfl⟩

/-- One more request is taken, whose calls are answered as they were before. -/
theorem Served.concat {process : Nat} {accounts : List (Account ρ α)}
    (h : Served code process w accounts s) (hw : ∀ key, w.store.Spares key) {request : ρ} {a : α}
    {path : List Exchange} (hleads : (code process request).Leads path (.done a))
    (hpath : Repeatable w (accounts.flatMap Account.calls) path)
    (hheld : Exchange.heldAfter path = []) :
    ∃ s', Served code process w (accounts ++ [⟨request, some a, path⟩]) s' := by
  obtain ⟨before, hrun, hspare⟩ := h.reached
  let t : Task ρ α := ⟨process, request, code process request, [], false⟩
  have hrun₁ : (idle w).run code (before ++ [.start process request]) =
      some { s with tasks := s.tasks ++ [t] } := by
    rw [run_concat, hrun]
    rfl
  have hspare₁ (key : String) : Spare (before ++ [.start process request]) key :=
    fun change hchange => hspare key change (by simpa using hchange)
  obtain ⟨moves, s', t', hrun', hmoves, htasks, hrequest, hrest, hlocks, hlog⟩ :=
    exists_moves_of_leads hw hpath hleads (List.nil_append _) hrun₁ hspare₁ (t := t) rfl h.free rfl
      rfl rfl (by rw [List.append_nil]; exact h.log)
  have hresult : t'.result? = some a := by rw [Task.result?, hrest]
  have hnone := (follows_of_run hrun).2 s.tasks.length (Nat.le_refl _)
  refine ⟨s', ?_, ⟨before ++ [.start process request] ++ moves, ?_, ?_⟩, ?_, ?_, ?_⟩
  · rw [List.map_append]
    refine h.inTurn.concat ?_ hmoves htasks (by rw [hresult]; rfl)
    rw [run_cons]
    exact hrun'
  · rw [run_append, hrun₁]
    exact hrun'
  · intro key change hchange
    rcases List.mem_append.1 hchange with hchange | hchange
    · exact hspare₁ key change hchange
    · rintro write rfl
      rcases hmoves _ hchange with hmove | ⟨_, _, _, _, hmove⟩ <;> cases hmove
  · intro u hu
    rw [htasks] at hu
    rcases List.mem_append.1 hu with hu | hu
    · exact h.free u hu
    · obtain rfl := List.mem_singleton.1 hu
      rw [hlocks, hheld]
  · rw [hlog, List.map_append, h.log]
    simp [Function.comp_def]
  · rw [accounts_concat htasks hlog hnone, h.accounts, hrequest, hresult]

/-- The store after requests that were taken one after another. -/
theorem Served.get? {process : Nat} {accounts : List (Account ρ α)}
    (h : Served code process w accounts s) {key : String} (hw : w.store.Spares key) :
    s.world.store.get? key =
      (Exchange.lastEffect? key (accounts.flatMap Account.calls)).getD (w.store.get? key) := by
  obtain ⟨moves, hrun, hspare⟩ := h.reached
  rw [get?_of_run hrun hw (hspare key), lastEffect?, h.log]

end Deployment
end SealedChannel
