import SealedChannel.Proofs.Deployment.Locks
import SealedChannel.Proofs.Storage.ModeRace

/-!
# A change under its lock

Without compare-and-set a change of a mode is four calls at most: it takes its lock, reads, writes
if the mode is another one, and gives the lock back.  Whatever the answers are, it makes its store
calls while it holds the lock, and it holds nothing before and after.

## What is here

* `Modes.reading`, `Modes.writing`, `Modes.leaving` — what is left of a change at its three stages
  under the lock; `Modes.setIfDifferent_eq` puts them together.
* `Modes.Ending` — the store calls of a change, by its result.
* `Modes.Stage` — how far a change has come, by its calls; `Modes.stage_of_leads` says that these
  are all the stages there are.
-/

set_option autoImplicit false
namespace SealedChannel
namespace Modes

variable (m : Modes) (channelId : String) (mode : Mode)

/-! ## Stages -/

/-- Gives the lock back. -/
def leaving (r : Except StoreError Bool) : Program (Except StoreError Bool) :=
  .call (.release (m.lockOf channelId)) fun _ => .done r

/-- Writes the mode. -/
def writing : Program (Except StoreError Bool) :=
  .call (.store m.limit (.set (Key.mode channelId) mode.encode)) fun
    | .ok () => m.leaving channelId (.ok true)
    | .error e => m.leaving channelId (.error e)

/-- Reads the mode. -/
def reading : Program (Except StoreError Bool) :=
  .call (.store m.limit (.get (Key.mode channelId))) fun
    | .ok raw =>
      if Mode.current raw = mode then m.leaving channelId (.ok false)
      else m.writing channelId mode
    | .error e => m.leaving channelId (.error e)

/-- Without compare-and-set, a change reads under its lock. -/
theorem setIfDifferent_eq (hatomic : m.atomic = false) :
    (m.setIfDifferent channelId mode).run =
      .call (.acquire (m.lockOf channelId)) fun _ => m.reading channelId mode := by
  rw [setIfDifferent, ExceptT.run_mk, hatomic, if_neg Bool.false_ne_true, Program.locked_eq]
  change Program.call _ (fun _ => Program.call _ fun answer => _) = Program.call _ fun _ =>
    Program.call _ _
  refine congrArg (Program.call _) (funext fun _ => congrArg (Program.call _) (funext ?_))
  rintro (e | raw)
  · rfl
  · change Program.andThen (ExceptT.run (if _ then _ else _)) _ = ite _ _ _
    split
    · rfl
    · refine congrArg (Program.call _) (funext ?_)
      rintro (e | _) <;> rfl

/-! ## The calls of a change -/

/-- The calls of a change. -/
def calls : List Call :=
  [.acquire (m.lockOf channelId), .store m.limit (.get (Key.mode channelId)),
    .store m.limit (.set (Key.mode channelId) mode.encode), .release (m.lockOf channelId)]

/-- The lock is taken. -/
def taken : Exchange :=
  ⟨.acquire (m.lockOf channelId), some ()⟩

/-- The lock is given back. -/
def givenBack : Exchange :=
  ⟨.release (m.lockOf channelId), some ()⟩

/-- The mode is read. -/
def wasRead (answer : Except StoreError (Option Bytes)) : Exchange :=
  ⟨.store m.limit (.get (Key.mode channelId)), some answer⟩

/-- The mode is written. -/
def wasWritten (answer : Except StoreError Unit) : Exchange :=
  ⟨.store m.limit (.set (Key.mode channelId) mode.encode), some answer⟩

/-- The store calls of a change, by its result. -/
inductive Ending : List Exchange → Except StoreError Bool → Prop
  | unread (e : StoreError) : Ending [m.wasRead channelId (.error e)] (.error e)
  | unneeded {raw : Option Bytes} (h : Mode.current raw = mode) :
    Ending [m.wasRead channelId (.ok raw)] (.ok false)
  | unwritten {raw : Option Bytes} (h : Mode.current raw ≠ mode) (e : StoreError) :
    Ending [m.wasRead channelId (.ok raw), m.wasWritten channelId mode (.error e)] (.error e)
  | written {raw : Option Bytes} (h : Mode.current raw ≠ mode) :
    Ending [m.wasRead channelId (.ok raw), m.wasWritten channelId mode (.ok ())] (.ok true)

/-- How far a change has come, by its calls. -/
inductive Stage : List Exchange → Program (Except StoreError Bool) → Prop
  | waiting : Stage [] (.call (.acquire (m.lockOf channelId)) fun _ => m.reading channelId mode)
  | reading : Stage [m.taken channelId] (m.reading channelId mode)
  | writing {raw : Option Bytes} (h : Mode.current raw ≠ mode) :
    Stage [m.taken channelId, m.wasRead channelId (.ok raw)] (m.writing channelId mode)
  | leaving {calls : List Exchange} {r : Except StoreError Bool}
      (h : m.Ending channelId mode calls r) :
    Stage (m.taken channelId :: calls) (m.leaving channelId r)
  | done {calls : List Exchange} {r : Except StoreError Bool}
      (h : m.Ending channelId mode calls r) :
    Stage (m.taken channelId :: calls ++ [m.givenBack channelId]) (.done r)

variable {m channelId mode} {exchanges : List Exchange} {r : Except StoreError Bool}
  {rest : Program (Except StoreError Bool)}

/-- A change without a failure. -/
theorem Ending.of_succeeded (h : m.Ending channelId mode exchanges r)
    (hok : ∀ e ∈ exchanges, e.succeeded = true) :
    (∃ raw, Mode.current raw = mode ∧ r = .ok false ∧
        exchanges = [m.wasRead channelId (.ok raw)]) ∨
      ∃ raw, Mode.current raw ≠ mode ∧ r = .ok true ∧
        exchanges = [m.wasRead channelId (.ok raw), m.wasWritten channelId mode (.ok ())] := by
  cases h with
  | unread e =>
    have hfailed := hok (m.wasRead channelId (.error e)) (by simp)
    cases hfailed
  | @unneeded raw h => exact .inl ⟨raw, h, rfl, rfl⟩
  | unwritten h e =>
    have hfailed := hok (m.wasWritten channelId mode (.error e)) (by simp)
    cases hfailed
  | @written raw h => exact .inr ⟨raw, h, rfl, rfl⟩

/-- A change that has written leaves its mode. -/
theorem lastEffect?_written (raw : Option Bytes) :
    Exchange.lastEffect? (Key.mode channelId) (m.taken channelId ::
      [m.wasRead channelId (.ok raw), m.wasWritten channelId mode (.ok ())] ++
        [m.givenBack channelId]) = some (some mode.encode) := by
  have hwritten : (m.wasWritten channelId mode (.ok ())).effectOn? (Key.mode channelId) =
      some (some mode.encode) :=
    Exchange.write?_eq_some_iff.1 rfl
  change Exchange.lastEffect? _ ([m.taken channelId, m.wasRead channelId (.ok raw)] ++
    [m.wasWritten channelId mode (.ok ())] ++ [m.givenBack channelId]) = _
  rw [Exchange.lastEffect?_concat, Exchange.lastEffect?_concat, hwritten]
  rfl

/-- One more answer leads to the next stage. -/
theorem Stage.step {c : Call} {next : c.Answer → Program (Except StoreError Bool)}
    (h : m.Stage channelId mode exchanges (.call c next)) (answer : c.Answer) :
    m.Stage channelId mode (exchanges ++ [⟨c, some answer⟩]) (next answer) := by
  generalize hrest : Program.call c next = rest at h
  cases h with
  | waiting =>
    cases hrest
    exact .reading
  | reading =>
    cases hrest
    match answer with
    | .error e => exact .leaving (.unread e)
    | .ok raw =>
      dsimp only
      split
      · rename_i hraw
        exact .leaving (.unneeded hraw)
      · rename_i hraw
        exact .writing hraw
  | writing hraw =>
    cases hrest
    match answer with
    | .error e => exact .leaving (.unwritten hraw e)
    | .ok () => exact .leaving (.written hraw)
  | leaving hending =>
    cases hrest
    exact .done hending
  | done hending => cases hrest

/-- These are all the stages there are. -/
theorem stage_of_leads (hatomic : m.atomic = false)
    (h : (m.setIfDifferent channelId mode).run.Leads exchanges rest) :
    m.Stage channelId mode exchanges rest := by
  rw [setIfDifferent_eq m channelId mode hatomic] at h
  have hstage (before : List Exchange) (p : Program (Except StoreError Bool))
      (hp : m.Stage channelId mode before p) (hleads : p.Leads exchanges rest) :
      m.Stage channelId mode (before ++ exchanges) rest := by
    clear h
    induction hleads generalizing before with
    | refl p => rwa [List.append_nil]
    | step _ ih =>
      rw [List.append_cons]
      exact ih _ (hp.step _)
  exact hstage [] _ .waiting h

/-- A change makes no other calls. -/
theorem Stage.call_mem (h : m.Stage channelId mode exchanges rest) :
    ∀ e ∈ exchanges, e.call ∈ m.calls channelId mode := by
  cases h with
  | leaving h => cases h <;> simp [calls, taken, wasRead, wasWritten]
  | done h => cases h <;> simp [calls, taken, givenBack, wasRead, wasWritten]
  | _ => simp [calls, taken, wasRead]

/-- A change is about the key of its channel. -/
theorem key_of_isOn {c : Call} (hc : c ∈ m.calls channelId mode) {key : String}
    (hon : c.isOn key = true) : key = Key.mode channelId := by
  simp only [calls, List.mem_cons, List.not_mem_nil, or_false] at hc
  rcases hc with rfl | rfl | rfl | rfl
  · cases hon
  · exact (of_decide_eq_true hon).symm
  · exact (of_decide_eq_true hon).symm
  · cases hon

/-- A change waits for its lock, makes a store call under its lock, or gives its lock back. -/
theorem Stage.next_call {c : Call} {next : c.Answer → Program (Except StoreError Bool)}
    (h : m.Stage channelId mode exchanges (.call c next)) :
    (c = .acquire (m.lockOf channelId) ∧ exchanges = []) ∨
    Exchange.heldAfter exchanges = [m.lockOf channelId] ∧
      (c = .store m.limit (.get (Key.mode channelId)) ∨
        c = .store m.limit (.set (Key.mode channelId) mode.encode) ∨
        c = .release (m.lockOf channelId)) := by
  generalize hrest : Program.call c next = rest at h
  cases h with
  | waiting => cases hrest; exact .inl ⟨rfl, rfl⟩
  | reading => cases hrest; exact .inr ⟨rfl, .inl rfl⟩
  | writing _ => cases hrest; exact .inr ⟨rfl, .inr (.inl rfl)⟩
  | leaving h => cases hrest; exact .inr ⟨by cases h <;> rfl, .inr (.inr rfl)⟩
  | done h => cases hrest

/-- A change that has made a call waits for no lock. -/
theorem Stage.answered {c : Call} {next : c.Answer → Program (Except StoreError Bool)}
    (h : m.Stage channelId mode exchanges (.call c next)) (hne : exchanges ≠ []) (w : World) :
    ∃ answer w', w.react c = .answered answer w' := by
  rcases h.next_call with ⟨-, hnil⟩ | ⟨-, rfl | rfl | rfl⟩
  · exact absurd hnil hne
  · exact ⟨_, _, rfl⟩
  · exact ⟨_, _, rfl⟩
  · exact ⟨_, _, rfl⟩

/-- What a change does next is one of its calls. -/
theorem Stage.next_mem {c : Call} {next : c.Answer → Program (Except StoreError Bool)}
    (h : m.Stage channelId mode exchanges (.call c next)) : c ∈ m.calls channelId mode := by
  rcases h.next_call with ⟨rfl, -⟩ | ⟨-, rfl | rfl | rfl⟩ <;> simp [calls]

/-- A change that waits has written nothing yet. -/
theorem Stage.writes {c : Call} {next : c.Answer → Program (Except StoreError Bool)}
    (h : m.Stage channelId mode exchanges (.call c next)) (hc : ∀ lock, c ≠ .release lock) :
    exchanges.filterMap Exchange.write? = [] := by
  generalize hrest : Program.call c next = rest at h
  cases h with
  | leaving h => cases hrest; exact absurd rfl (hc _)
  | done h => cases hrest
  | _ => rfl

/-- The calls of a change that is done. -/
theorem Stage.ending (h : m.Stage channelId mode exchanges (.done r)) :
    ∃ calls, exchanges = m.taken channelId :: calls ++ [m.givenBack channelId] ∧
      m.Ending channelId mode calls r := by
  generalize hrest : Program.done r = rest at h
  cases h with
  | done h => cases hrest; exact ⟨_, rfl, h⟩
  | _ => cases hrest

/-- A change that is done has given its lock back. -/
theorem Stage.held (h : m.Stage channelId mode exchanges (.done r)) :
    Exchange.heldAfter exchanges = [] := by
  obtain ⟨calls, rfl, hending⟩ := h.ending
  have hheld : Exchange.heldAfter (m.taken channelId :: calls) = [m.lockOf channelId] := by
    cases hending <;> rfl
  rw [Exchange.heldAfter_concat, hheld]
  exact List.erase_cons_head (a := m.lockOf channelId) (l := [])

/-- A change takes its lock once at most, and takes no other. -/
theorem Stage.acquired (h : m.Stage channelId mode exchanges rest) :
    exchanges.filterMap Exchange.acquired? = [] ∨
      exchanges.filterMap Exchange.acquired? = [m.lockOf channelId] := by
  cases h with
  | waiting => exact .inl rfl
  | leaving h => exact .inr (by cases h <;> rfl)
  | done h => exact .inr (by cases h <;> rfl)
  | _ => exact .inr rfl

end Modes
end SealedChannel
