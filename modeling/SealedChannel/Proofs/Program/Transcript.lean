import SealedChannel.Proofs.Program.Footprint
import SealedChannel.Proofs.Program.Path
import SealedChannel.Proofs.Program.Weather

/-!
# Transcripts of runs

The transcript of a run is the list of its exchanges; a run that was cut off ends in a call without
an answer.  What a run leaves in the store is told by its transcript, whatever the weather.

## What is here

* `Program.transcript`, `Program.transcriptAmid` — the exchanges of a run, as usual or in changing
  weather.
* `Program.runAmid_map`, `Program.transcriptAmid_map` — a run does not depend on what its value is
  used for.
* `Program.get?_runAmid`, `Program.exists_of_get?_runAmid_ne` — what a run leaves under a key.
* `Program.Keeps.runAmid` — a contract is kept in a run whose answers it relies on.
* `Contract.Upheld`, `Program.Keeps.trusts_run` — an invariant of the world that makes the answers
  such.
* `Reach.Preserves`, `Contract.upheld_within` — what is left alone by calls within a reach.
-/

set_option autoImplicit false
namespace SealedChannel

/-- The end of a run whose value is put to use. -/
def Outcome.map {α β : Type} (f : α → β) : Outcome α → Outcome β
  | .finished a => .finished (f a)
  | .expired => .expired
  | .crashed => .crashed
  | .stuck => .stuck

/-- An invariant of the world that is kept by the calls that a contract allows, and under which
their answers are those that the contract relies on. -/
structure Contract.Upheld (k : Contract) (invariant : World → Prop) : Prop where
  held : ∀ {w} locks, invariant w → invariant { w with held := locks }
  begin : ∀ {w c}, invariant w → k.allows c → invariant (w.begin c)
  react : ∀ {w c answer w'}, invariant w → k.allows c → w.react c = .answered answer w' →
    k.answers c answer ∧ invariant w'

/-- What a reach preserves: spared keys stay spared, and those that may not be written keep their
values. -/
def Reach.Preserves (r : Reach) (before : Store) (w : World) : Prop :=
  ∀ key, before.Spares key → w.store.Spares key ∧
    ((∀ value, ¬ r.writes key value) → w.store.get? key = before.get? key)

theorem Reach.preserves_self (r : Reach) (w : World) : r.Preserves w.store w :=
  fun _ hkey => ⟨hkey, fun _ => rfl⟩

/-- What a reach preserves is preserved under other conditions. -/
theorem Reach.Preserves.turns {r : Reach} {before : Store} {climate : Climate} {w w' : World}
    (h : r.Preserves before w) (hw : w.Turns climate w') : r.Preserves before w' := by
  intro key hkey
  obtain ⟨hspares, hget⟩ := h key hkey
  exact ⟨hw.spares hspares, fun hnone => (hw.get? key).trans (hget hnone)⟩

/-- Calls within a reach preserve what the reach preserves. -/
theorem Contract.upheld_within (r : Reach) (before : Store) :
    (Contract.within r).Upheld (r.Preserves before) where
  held _ h := h
  begin {w c} h _ key hkey := by
    obtain ⟨hspares, hget⟩ := h key hkey
    exact ⟨World.spares_begin hspares c, fun hnone => (World.get?_begin w c key).trans (hget hnone)⟩
  react {w c answer w'} h hc hreact := by
    refine ⟨trivial, fun key hkey => ?_⟩
    obtain ⟨hspares, hget⟩ := h key hkey
    refine ⟨World.spares_react hreact hspares, fun hnone => ?_⟩
    rw [World.get?_react hreact hspares]
    cases heffect : (⟨c, some answer⟩ : Exchange).effectOn? key with
    | none => exact hget hnone
    | some value =>
      exact absurd (hc.writes key value (Exchange.target?_of_effectOn? heffect)) (hnone value)

namespace Program

variable {α : Type} {k : Contract} {post : α → Prop} {key : String}

/-- The exchanges of a run of a program that has waited for a while already. -/
def transcriptFrom (limit : Option Duration) : Program α → Duration → World → List Exchange
  | .done _, _, _ => []
  | .call c next, waited, w =>
    let waited := waited + w.waitFor c
    if isOver limit waited then [⟨c, none⟩]
    else
      match w.react c with
      | .answered answer w => ⟨c, some answer⟩ :: (next answer).transcriptFrom limit waited w
      | .crashed => [⟨c, none⟩]
      | .blocked => [⟨c, none⟩]

/-- The exchanges of a whole run. -/
def transcript (limit : Option Duration) (p : Program α) (w : World) : List Exchange :=
  p.transcriptFrom limit ⟨0⟩ w

/-- The exchanges of a run in changing weather of a program that has waited for a while already. -/
def transcriptAmidFrom (limit : Option Duration) : Program α → Weather → Duration → World →
    List Exchange
  | .done _, _, _, _ => []
  | .call c next, weather, waited, w =>
    let w := weather.next w
    let waited := waited + w.waitFor c
    if isOver limit waited then [⟨c, none⟩]
    else
      match w.react c with
      | .answered answer w =>
        ⟨c, some answer⟩ :: (next answer).transcriptAmidFrom limit weather.tail waited w
      | .crashed => [⟨c, none⟩]
      | .blocked => [⟨c, none⟩]

/-- The exchanges of a whole run in changing weather. -/
def transcriptAmid (weather : Weather) (limit : Option Duration) (p : Program α) (w : World) :
    List Exchange :=
  p.transcriptAmidFrom limit weather ⟨0⟩ w

theorem transcriptAmidFrom_nil (limit : Option Duration) (p : Program α) (waited : Duration)
    (w : World) : p.transcriptAmidFrom limit [] waited w = p.transcriptFrom limit waited w := by
  induction p generalizing waited w with
  | done a => rfl
  | call c next ih =>
    simp only [transcriptAmidFrom, transcriptFrom, Weather.next_nil, List.tail_nil, ih]

@[simp]
theorem transcriptAmid_nil (limit : Option Duration) (p : Program α) (w : World) :
    p.transcriptAmid [] limit w = p.transcript limit w :=
  transcriptAmidFrom_nil limit p ⟨0⟩ w

/-- The four ways in which a run goes on from a call. -/
theorem runAmidFrom_call_cases (limit : Option Duration) (c : Call) (next : c.Answer → Program α)
    (weather : Weather) (waited : Duration) (w : World) :
    (∃ answer w', (weather.next w).react c = .answered answer w' ∧
      (Program.call c next).runAmidFrom limit weather waited w
        = (next answer).runAmidFrom limit weather.tail
            (waited + (weather.next w).waitFor c) w' ∧
      (Program.call c next).transcriptAmidFrom limit weather waited w
        = ⟨c, some answer⟩ :: (next answer).transcriptAmidFrom limit weather.tail
            (waited + (weather.next w).waitFor c) w') ∨
    (∃ outcome w', outcome.value? = none ∧ (w' = weather.next w ∨ w' = (weather.next w).begin c) ∧
      (Program.call c next).runAmidFrom limit weather waited w = (outcome, w') ∧
      (Program.call c next).transcriptAmidFrom limit weather waited w = [⟨c, none⟩]) := by
  rw [runAmidFrom, transcriptAmidFrom]
  generalize weather.next w = w₁
  split
  · exact .inr ⟨.expired, w₁.begin c, rfl, .inr rfl, rfl, rfl⟩
  · cases hreact : w₁.react c with
    | answered answer w' => exact .inl ⟨answer, w', rfl, rfl, rfl⟩
    | crashed => exact .inr ⟨.crashed, w₁, rfl, .inl rfl, rfl, rfl⟩
    | blocked => exact .inr ⟨.stuck, w₁, rfl, .inl rfl, rfl, rfl⟩

theorem runFrom_call_cases (limit : Option Duration) (c : Call) (next : c.Answer → Program α)
    (waited : Duration) (w : World) :
    (∃ answer w', w.react c = .answered answer w' ∧
      (Program.call c next).runFrom limit waited w
        = (next answer).runFrom limit (waited + w.waitFor c) w' ∧
      (Program.call c next).transcriptFrom limit waited w
        = ⟨c, some answer⟩ :: (next answer).transcriptFrom limit (waited + w.waitFor c) w') ∨
    (∃ outcome w', outcome.value? = none ∧ (w' = w ∨ w' = w.begin c) ∧
      (Program.call c next).runFrom limit waited w = (outcome, w') ∧
      (Program.call c next).transcriptFrom limit waited w = [⟨c, none⟩]) := by
  simpa only [runAmidFrom_nil, transcriptAmidFrom_nil, List.tail_nil, Weather.next_nil] using
    runAmidFrom_call_cases limit c next [] waited w

/-- A run without a limit gets an answer from the store. -/
theorem runFrom_store (limit : Duration) (c : StoreCall)
    (next : Except StoreError c.Answer → Program α) (waited : Duration) (w : World) :
    (Program.call (.store limit c) next).runFrom none waited w =
      (next (w.store.call (some limit) c).1).runFrom none
        (waited + w.waitFor (.store limit c)) { w with store := (w.store.call (some limit) c).2 } :=
  rfl

theorem transcriptFrom_store (limit : Duration) (c : StoreCall)
    (next : Except StoreError c.Answer → Program α) (waited : Duration) (w : World) :
    (Program.call (.store limit c) next).transcriptFrom none waited w =
      ⟨.store limit c, some (w.store.call (some limit) c).1⟩ ::
        (next (w.store.call (some limit) c).1).transcriptFrom none
          (waited + w.waitFor (.store limit c))
          { w with store := (w.store.call (some limit) c).2 } :=
  rfl

/-- The first call of a run whose calls all succeed. -/
theorem runFrom_of_succeeded {limit : Option Duration} {c : Call}
    {next : c.Answer → Program α} {waited : Duration} {w : World}
    (h : ∀ e ∈ (Program.call c next).transcriptFrom limit waited w, e.succeeded = true) :
    ∃ answer w', w.react c = .answered answer w' ∧
      (⟨c, some answer⟩ : Exchange).succeeded = true ∧
      (Program.call c next).runFrom limit waited w
        = (next answer).runFrom limit (waited + w.waitFor c) w' ∧
      ∀ e ∈ (next answer).transcriptFrom limit (waited + w.waitFor c) w', e.succeeded = true := by
  rcases runFrom_call_cases limit c next waited w with ⟨answer, w', hreact, hrun, htranscript⟩ |
    ⟨outcome, w', -, -, -, htranscript⟩
  · rw [htranscript, List.forall_mem_cons] at h
    exact ⟨answer, w', hreact, h.1, hrun, h.2⟩
  · rw [htranscript, List.forall_mem_singleton, Exchange.succeeded_none] at h
    cases h

/-! ## Runs and their transcripts -/

theorem spares_runAmidFrom {w : World} (hw : w.store.Spares key) (limit : Option Duration)
    (p : Program α) (weather : Weather) (waited : Duration) :
    (p.runAmidFrom limit weather waited w).2.store.Spares key := by
  induction p generalizing weather waited w with
  | done a => exact hw
  | call c next ih =>
    have hnext := weather.spares_next hw
    rcases runAmidFrom_call_cases limit c next weather waited w with
      ⟨answer, w', hreact, hrun, -⟩ | ⟨outcome, w', -, hw', hrun, -⟩
    · rw [hrun]
      exact ih answer (World.spares_react hreact hnext) _ _
    · rw [hrun]
      rcases hw' with rfl | rfl
      · exact hnext
      · exact World.spares_begin hnext c

theorem get?_runAmidFrom {w : World} (hw : w.store.Spares key) (limit : Option Duration)
    (p : Program α) (weather : Weather) (waited : Duration) :
    (p.runAmidFrom limit weather waited w).2.store.get? key =
      (Exchange.lastEffect? key (p.transcriptAmidFrom limit weather waited w)).getD
        (w.store.get? key) := by
  induction p generalizing weather waited w with
  | done a => rfl
  | call c next ih =>
    have hnext := weather.spares_next hw
    rcases runAmidFrom_call_cases limit c next weather waited w with
      ⟨answer, w', hreact, hrun, htranscript⟩ | ⟨outcome, w', -, hw', hrun, htranscript⟩
    · rw [hrun, htranscript, ih answer (World.spares_react hreact hnext),
        Exchange.lastEffect?_cons, World.get?_react hreact hnext, weather.get?_next]
      cases Exchange.lastEffect? key _ <;> rfl
    · rw [hrun, htranscript, Exchange.lastEffect?_singleton, Exchange.effectOn?_none]
      rcases hw' with rfl | rfl
      · exact weather.get?_next w key
      · exact (World.get?_begin _ c key).trans (weather.get?_next w key)

/-- A contract is kept in a run whose answers it relies on. -/
theorem Keeps.runAmidFrom {limit : Option Duration} {p : Program α} {weather : Weather}
    {waited : Duration} {w : World} (h : p.Keeps k post)
    (htrust : ∀ e ∈ p.transcriptAmidFrom limit weather waited w, k.Trusts e) :
    (∀ e ∈ p.transcriptAmidFrom limit weather waited w, k.allows e.call) ∧
      ∀ a, (p.runAmidFrom limit weather waited w).1 = .finished a → post a := by
  induction p generalizing weather waited w with
  | done a =>
    refine ⟨by simp [transcriptAmidFrom], fun b hb => ?_⟩
    cases hb
    exact h
  | call c next ih =>
    rcases runAmidFrom_call_cases limit c next weather waited w with
      ⟨answer, w', -, hrun, htranscript⟩ | ⟨outcome, w', houtcome, -, hrun, htranscript⟩
    · rw [htranscript, List.forall_mem_cons] at htrust
      obtain ⟨hallows, hpost⟩ := ih answer (h.2 answer (htrust.1 answer rfl)) htrust.2
      rw [hrun, htranscript]
      exact ⟨List.forall_mem_cons.2 ⟨h.1, hallows⟩, hpost⟩
    · rw [hrun, htranscript]
      refine ⟨by simpa using h.1, ?_⟩
      rintro a rfl
      cases houtcome

/-- An invariant that a contract upholds is kept in a run, and so every answer is one that the
contract relies on. -/
theorem Keeps.trusts_runFrom {invariant : World → Prop} {limit : Option Duration} {p : Program α}
    {waited : Duration} {w : World} (h : p.Keeps k post) (hk : k.Upheld invariant)
    (hw : invariant w) :
    (∀ e ∈ p.transcriptFrom limit waited w, k.Trusts e) ∧
      invariant (p.runFrom limit waited w).2 := by
  induction p generalizing waited w with
  | done a => exact ⟨by simp [transcriptFrom], hw⟩
  | call c next ih =>
    rcases runFrom_call_cases limit c next waited w with ⟨answer, w', hreact, hrun, htranscript⟩ |
      ⟨outcome, w', -, hw', hrun, htranscript⟩
    · obtain ⟨hanswer, hinv⟩ := hk.react hw h.1 hreact
      obtain ⟨htrust, hlast⟩ := ih answer (h.2 answer hanswer) hinv
      rw [hrun, htranscript]
      refine ⟨List.forall_mem_cons.2 ⟨fun other hother => ?_, htrust⟩, hlast⟩
      cases hother
      exact hanswer
    · rw [hrun, htranscript]
      refine ⟨List.forall_mem_singleton.2 fun other hother => (by cases hother), ?_⟩
      rcases hw' with rfl | rfl
      · exact hw
      · exact hk.begin hw h.1

/-! ## Whole runs -/

theorem runAmid_fst (weather : Weather) (limit : Option Duration) (p : Program α) (w : World) :
    (p.runAmid weather limit w).1 = (p.runAmidFrom limit weather ⟨0⟩ w).1 := by
  rw [runAmid]
  split <;> simp_all

theorem runAmid_store (weather : Weather) (limit : Option Duration) (p : Program α) (w : World) :
    (p.runAmid weather limit w).2.store = (p.runAmidFrom limit weather ⟨0⟩ w).2.store := by
  rw [runAmid]
  split <;> simp_all

theorem run_fst (limit : Option Duration) (p : Program α) (w : World) :
    (p.run limit w).1 = (p.runFrom limit ⟨0⟩ w).1 := by
  rw [← runAmid_nil, runAmid_fst, runAmidFrom_nil]

theorem spares_runAmid {w : World} (hw : w.store.Spares key) (weather : Weather)
    (limit : Option Duration) (p : Program α) :
    (p.runAmid weather limit w).2.store.Spares key := by
  rw [runAmid_store]
  exact spares_runAmidFrom hw limit p weather ⟨0⟩

/-- **Runs and the store.**  A run leaves under a spared key what its transcript tells. -/
theorem get?_runAmid {w : World} (hw : w.store.Spares key) (weather : Weather)
    (limit : Option Duration) (p : Program α) :
    (p.runAmid weather limit w).2.store.get? key =
      (Exchange.lastEffect? key (p.transcriptAmid weather limit w)).getD (w.store.get? key) := by
  rw [runAmid_store, get?_runAmidFrom hw]
  rfl

theorem runAmidFrom_map {β : Type} (limit : Option Duration) (p : Program α) (f : α → β)
    (weather : Weather) (waited : Duration) (w : World) :
    (f <$> p).runAmidFrom limit weather waited w =
      ((p.runAmidFrom limit weather waited w).1.map f,
        (p.runAmidFrom limit weather waited w).2) := by
  rw [← bind_pure_comp]
  change (p.andThen fun a => .done (f a)).runAmidFrom limit weather waited w = _
  induction p generalizing weather waited w with
  | done a => rfl
  | call c next ih =>
    rw [andThen, Program.runAmidFrom, Program.runAmidFrom]
    split
    · rfl
    · cases (weather.next w).react c with
      | answered answer w' => exact ih answer _ _ w'
      | crashed => rfl
      | blocked => rfl

/-- A run whose value is put to use. -/
theorem runAmid_map {β : Type} (weather : Weather) (limit : Option Duration) (p : Program α)
    (f : α → β) (w : World) : (f <$> p).runAmid weather limit w =
      ((p.runAmid weather limit w).1.map f, (p.runAmid weather limit w).2) := by
  rw [Program.runAmid, Program.runAmid, runAmidFrom_map]
  generalize p.runAmidFrom limit weather ⟨0⟩ w = ending
  obtain ⟨outcome, w'⟩ := ending
  cases outcome <;> rfl

theorem run_map {β : Type} (limit : Option Duration) (p : Program α) (f : α → β) (w : World) :
    (f <$> p).run limit w = ((p.run limit w).1.map f, (p.run limit w).2) := by
  simpa using runAmid_map [] limit p f w

theorem transcriptAmid_map {β : Type} (weather : Weather) (limit : Option Duration)
    (p : Program α) (f : α → β) (w : World) :
    (f <$> p).transcriptAmid weather limit w = p.transcriptAmid weather limit w := by
  rw [transcriptAmid, transcriptAmid, ← bind_pure_comp]
  change (p.andThen fun a => .done (f a)).transcriptAmidFrom limit weather ⟨0⟩ w = _
  generalize (⟨0⟩ : Duration) = waited
  induction p generalizing weather waited w with
  | done a => rfl
  | call c next ih =>
    rw [andThen, transcriptAmidFrom, transcriptAmidFrom]
    split
    · rfl
    · cases (weather.next w).react c with
      | answered answer w' => exact congrArg _ (ih answer _ w' _)
      | crashed => rfl
      | blocked => rfl

/-- A contract is kept in a whole run whose answers it relies on. -/
theorem Keeps.runAmid {weather : Weather} {limit : Option Duration} {p : Program α} {w : World}
    (h : p.Keeps k post) (htrust : ∀ e ∈ p.transcriptAmid weather limit w, k.Trusts e) :
    (∀ e ∈ p.transcriptAmid weather limit w, k.allows e.call) ∧
      ∀ a, (p.runAmid weather limit w).1 = .finished a → post a := by
  rw [runAmid_fst]
  exact h.runAmidFrom htrust

theorem Keeps.run {limit : Option Duration} {p : Program α} {w : World} (h : p.Keeps k post)
    (htrust : ∀ e ∈ p.transcript limit w, k.Trusts e) :
    (∀ e ∈ p.transcript limit w, k.allows e.call) ∧
      ∀ a, (p.run limit w).1 = .finished a → post a := by
  rw [← transcriptAmid_nil] at htrust ⊢
  rw [← runAmid_nil]
  exact h.runAmid htrust

theorem Keeps.trusts_run {invariant : World → Prop} {limit : Option Duration} {p : Program α}
    {w : World} (h : p.Keeps k post) (hk : k.Upheld invariant) (hw : invariant w) :
    ∀ e ∈ p.transcript limit w, k.Trusts e :=
  (h.trusts_runFrom hk hw).1

/-- A value that a run has changed is one that the transcript has put there by an allowed call, if
the answers are those that the contract relies on. -/
theorem exists_of_get?_runAmid_ne {weather : Weather} {limit : Option Duration} {p : Program α}
    {w : World} (h : p.Keeps k post) (hw : w.store.Spares key)
    (htrust : ∀ e ∈ p.transcriptAmid weather limit w, k.Trusts e)
    (hne : (p.runAmid weather limit w).2.store.get? key ≠ w.store.get? key) :
    ∃ e : Exchange, k.allows e.call ∧
      e.effectOn? key = some ((p.runAmid weather limit w).2.store.get? key) := by
  have hget := get?_runAmid hw weather limit p
  cases heffect : Exchange.lastEffect? key (p.transcriptAmid weather limit w) with
  | none =>
    rw [heffect] at hget
    exact absurd hget hne
  | some value =>
    rw [heffect] at hget
    obtain ⟨e, he, hvalue⟩ := Exchange.exists_of_lastEffect? heffect
    exact ⟨e, (h.runAmid htrust).1 e he, by rw [hvalue, hget]; rfl⟩

theorem exists_of_get?_run_ne {limit : Option Duration} {p : Program α} {w : World}
    (h : p.Keeps k post) (hw : w.store.Spares key)
    (htrust : ∀ e ∈ p.transcript limit w, k.Trusts e)
    (hne : (p.run limit w).2.store.get? key ≠ w.store.get? key) :
    ∃ e : Exchange, k.allows e.call ∧
      e.effectOn? key = some ((p.run limit w).2.store.get? key) := by
  rw [← transcriptAmid_nil] at htrust
  rw [← runAmid_nil] at hne ⊢
  exact exists_of_get?_runAmid_ne h hw htrust hne

/-- **Runs and footprints.**  A value that a run has changed is one that the program may write. -/
theorem Writes.of_get?_runAmid_ne {writes : String → Option Bytes → Prop} {weather : Weather}
    {limit : Option Duration} {p : Program α} {w : World} (h : p.Writes writes)
    (hw : w.store.Spares key)
    (hne : (p.runAmid weather limit w).2.store.get? key ≠ w.store.get? key) :
    writes key ((p.runAmid weather limit w).2.store.get? key) := by
  obtain ⟨e, hallows, heffect⟩ :=
    exists_of_get?_runAmid_ne h.keeps hw (fun _ _ _ _ => trivial) hne
  exact hallows key _ (Exchange.target?_of_effectOn? heffect)

theorem Writes.of_get?_run_ne {writes : String → Option Bytes → Prop} {limit : Option Duration}
    {p : Program α} {w : World} (h : p.Writes writes) (hw : w.store.Spares key)
    (hne : (p.run limit w).2.store.get? key ≠ w.store.get? key) :
    writes key ((p.run limit w).2.store.get? key) := by
  rw [← runAmid_nil] at hne ⊢
  exact h.of_get?_runAmid_ne hw hne

end Program

end SealedChannel
