import SealedChannel.Proofs.Program.Transcript

/-!
# Keys that are not read

A program that never reads a key behaves in the same way whatever is stored there: its calls take
the same time and get the same answers, and afterwards the two worlds still differ in nothing but
the value under that key.

## What is here

* `World.AgreesOff` — two worlds that differ in the value under one key at most.
* `Store.AgreesOff.call`, `World.AgreesOff.react` — a call that does not read the key keeps them
  alike, and is answered in the same way.
* `Contract.avoids` — the contract of a program that does not read the key.
* `Program.Keeps.runAmid_agreesOff` — two runs of such a program are alike.
-/

set_option autoImplicit false
namespace SealedChannel

/-! ## Worlds that differ under one key -/

/-- Two stores differ in the value under one key at most. -/
structure Store.AgreesOff (key : String) (s t : Store) : Prop where
  get? : ∀ other, other ≠ key → s.get? other = t.get? other
  rest : t = { s with entries := t.entries }

/-- Two worlds differ in the value under one key at most. -/
structure World.AgreesOff (key : String) (w w' : World) : Prop where
  store : w.store.AgreesOff key w'.store
  rest : w' = { w with store := w'.store }

/-- Two reactions to a call are alike. -/
inductive Reaction.AgreesOff (key : String) {c : Call} : Reaction c → Reaction c → Prop where
  | answered (answer : c.Answer) {w w' : World} (h : w.AgreesOff key w') :
      AgreesOff key (.answered answer w) (.answered answer w')
  | crashed : AgreesOff key .crashed .crashed
  | blocked : AgreesOff key .blocked .blocked

namespace Store

variable {s t : Store} {key : String}

/-- Stores that differ in their entries alone. -/
theorem agreesOff_entries {entries : Table Bytes}
    (h : ∀ other, other ≠ key → s.entries.get? other = entries.get? other) :
    s.AgreesOff key { s with entries } :=
  ⟨h, rfl⟩

theorem AgreesOff.exists_entries (h : s.AgreesOff key t) :
    ∃ entries, t = { s with entries } ∧
      ∀ other, other ≠ key → s.entries.get? other = entries.get? other :=
  ⟨t.entries, h.rest, h.get?⟩

/-- A write to any key, the one in question included, keeps stores alike. -/
theorem AgreesOff.seed (h : s.AgreesOff key t) (name : String) (value : Bytes) :
    (s.seed name value).AgreesOff key (t.seed name value) := by
  obtain ⟨entries, rfl, hentries⟩ := h.exists_entries
  refine agreesOff_entries (s := s.seed name value) fun other hother => ?_
  simp [Store.seed, hentries other hother]

theorem AgreesOff.erase (h : s.AgreesOff key t) (name : String) :
    ({ s with entries := s.entries.erase name } : Store).AgreesOff key
      { t with entries := t.entries.erase name } := by
  obtain ⟨entries, rfl, hentries⟩ := h.exists_entries
  refine agreesOff_entries (s := { s with entries := s.entries.erase name }) fun other hother => ?_
  simp [hentries other hother]

theorem AgreesOff.arm (h : s.AgreesOff key t) : s.arm.AgreesOff key t.arm := by
  obtain ⟨entries, rfl, hentries⟩ := h.exists_entries
  rw [Store.arm, Store.arm]
  dsimp only
  split
  · exact agreesOff_entries hentries
  · exact agreesOff_entries hentries

theorem AgreesOff.begin (h : s.AgreesOff key t) (c : StoreCall) :
    (s.begin c).AgreesOff key (t.begin c) := by
  have harm := h.arm
  obtain ⟨entries, rfl, -⟩ := h.exists_entries
  cases c with
  | get name => exact h
  | delete name => exact h
  | set name value => exact harm
  | compareAndSet name expected value =>
    rw [Store.begin, Store.begin]
    split
    · exact harm
    · exact h

theorem AgreesOff.interfere (h : s.AgreesOff key t) : s.interfere.AgreesOff key t.interfere := by
  have hseed := h.seed
  obtain ⟨entries, rfl, hentries⟩ := h.exists_entries
  rw [Store.interfere, Store.interfere]
  dsimp only
  split
  · exact agreesOff_entries hentries
  · rename_i write _
    exact agreesOff_entries (hseed write.key write.value).get?

/-- A write is admitted to both stores or to neither. -/
theorem AgreesOff.admitWrite (h : s.AgreesOff key t) :
    s.admitWrite.1 = t.admitWrite.1 ∧ s.admitWrite.2.AgreesOff key t.admitWrite.2 := by
  obtain ⟨entries, rfl, hentries⟩ := h.exists_entries
  have hcounted : ({ s with writes := s.writes + 1 } : Store).AgreesOff key
      { s with writes := s.writes + 1, entries } := agreesOff_entries hentries
  rw [Store.admitWrite, Store.admitWrite]
  dsimp only
  split
  · exact ⟨rfl, hcounted⟩
  · exact ⟨rfl, hcounted.interfere⟩

/-- A call that does not read the key is answered in the same way by both stores. -/
theorem AgreesOff.perform (h : s.AgreesOff key t) {c : StoreCall} (hc : c.source? ≠ some key) :
    (s.perform c).1 = (t.perform c).1 ∧ (s.perform c).2.AgreesOff key (t.perform c).2 := by
  have hadmit := h.admitWrite
  cases c with
  | get name =>
    have hname : s.get? name = t.get? name := h.get? name fun heq => hc (congrArg some heq)
    obtain ⟨entries, rfl, hentries⟩ := h.exists_entries
    rw [Store.perform, Store.perform]
    dsimp only
    split
    · exact ⟨rfl, agreesOff_entries hentries⟩
    · exact ⟨congrArg Except.ok hname, agreesOff_entries hentries⟩
  | delete name =>
    have herase := h.erase name
    obtain ⟨entries, rfl, hentries⟩ := h.exists_entries
    rw [Store.perform, Store.perform]
    split
    · exact ⟨rfl, h⟩
    · exact ⟨rfl, herase⟩
  | set name value =>
    rw [Store.perform, Store.perform]
    generalize s.admitWrite = first, t.admitWrite = second at hadmit ⊢
    obtain ⟨answer, s'⟩ := first
    obtain ⟨other, t'⟩ := second
    obtain ⟨hanswer, hafter⟩ := hadmit
    obtain rfl : answer = other := hanswer
    cases answer with
    | error e => exact ⟨rfl, hafter⟩
    | ok done => exact ⟨rfl, hafter.seed name value⟩
  | compareAndSet name expected value =>
    -- unlike a plain write, a swap also reads what it overwrites
    have hne : name ≠ key := fun heq => hc (congrArg some heq)
    rw [Store.perform, Store.perform]
    generalize s.admitWrite = first, t.admitWrite = second at hadmit ⊢
    obtain ⟨answer, s'⟩ := first
    obtain ⟨other, t'⟩ := second
    obtain ⟨hanswer, hafter⟩ := hadmit
    obtain rfl : answer = other := hanswer
    cases answer with
    | error e => exact ⟨rfl, hafter⟩
    | ok done =>
      have hname : s'.entries.get? name = t'.entries.get? name := hafter.get? name hne
      dsimp only
      rw [hname]
      split
      · exact ⟨rfl, hafter.seed name value⟩
      · exact ⟨rfl, hafter⟩

/-- **Calls and agreement.**  A call that does not read the key takes the same time and is answered
in the same way by both stores, and keeps them alike. -/
theorem AgreesOff.call (h : s.AgreesOff key t) {c : StoreCall} (hc : c.source? ≠ some key)
    (limit : Option Duration) :
    (s.call limit c).1 = (t.call limit c).1 ∧
      (s.call limit c).2.AgreesOff key (t.call limit c).2 := by
  have hbegin := h.begin c
  have hperform := hbegin.perform hc
  have hoffers : t.offers c = s.offers c := by rw [h.rest]; cases c <;> rfl
  have hexceeded : t.exceeded? limit = s.exceeded? limit := by rw [h.rest]; rfl
  rw [Store.call, Store.call, hoffers, hexceeded]
  split
  · split
    · exact ⟨rfl, hbegin⟩
    · exact hperform
  · exact ⟨rfl, h⟩

theorem AgreesOff.waitFor (h : s.AgreesOff key t) (limit : Option Duration) (c : StoreCall) :
    t.waitFor limit c = s.waitFor limit c := by
  rw [h.rest]
  cases c <;> rfl

end Store

namespace World

variable {w w' : World} {key : String}

/-- Worlds around stores that are alike. -/
theorem agreesOff_store {store : Store} (h : w.store.AgreesOff key store) :
    w.AgreesOff key { w with store } :=
  ⟨h, rfl⟩

theorem AgreesOff.exists_store (h : w.AgreesOff key w') :
    ∃ store, w' = { w with store } ∧ w.store.AgreesOff key store :=
  ⟨w'.store, h.rest, h.store⟩

theorem AgreesOff.waitFor (h : w.AgreesOff key w') (c : Call) : w'.waitFor c = w.waitFor c := by
  cases c with
  | store limit c => exact h.store.waitFor (some limit) c
  | _ => rfl

theorem AgreesOff.begin (h : w.AgreesOff key w') (c : Call) :
    (w.begin c).AgreesOff key (w'.begin c) := by
  obtain ⟨store, rfl, hstore⟩ := h.exists_store
  cases c with
  | store limit c => exact agreesOff_store (w := w.begin (.store limit c)) (hstore.begin c)
  | _ => exact h

/-- **Reactions and agreement.**  A call that does not read the key meets the same reaction in both
worlds. -/
theorem AgreesOff.react (h : w.AgreesOff key w') {c : Call} (hc : c.source? ≠ some key) :
    (w.react c).AgreesOff key (w'.react c) := by
  obtain ⟨store, rfl, hstore⟩ := h.exists_store
  cases c with
  | store limit c =>
    obtain ⟨hanswer, hafter⟩ := hstore.call hc (some limit)
    rw [World.react, World.react]
    dsimp only
    rw [← hanswer]
    exact .answered _ (agreesOff_store (w := { w with store := (w.store.call (some limit) c).2 })
      hafter)
  | host c =>
    rw [World.react, World.react]
    dsimp only
    split
    · exact .crashed
    · rename_i _ host _
      exact .answered _ (agreesOff_store (w := { w with host }) hstore)
  | fetch target =>
    exact .answered _ (agreesOff_store
      (w := { w with keyServer := (w.keyServer.answer target).2 }) hstore)
  | acquire lock =>
    rw [World.react, World.react]
    dsimp only
    split
    · exact .blocked
    · exact .answered _ (agreesOff_store (w := { w with held := lock :: w.held }) hstore)
  | release lock =>
    exact .answered _ (agreesOff_store (w := { w with held := w.held.erase lock }) hstore)

theorem AgreesOff.held (h : w.AgreesOff key w') (locks : List Nat) :
    ({ w with held := locks } : World).AgreesOff key { w' with held := locks } := by
  obtain ⟨store, rfl, hstore⟩ := h.exists_store
  exact agreesOff_store (w := { w with held := locks }) hstore

theorem AgreesOff.under (h : w.AgreesOff key w') (c : Conditions) :
    (w.under c).AgreesOff key (w'.under c) := by
  obtain ⟨store, rfl, hstore⟩ := h.exists_store
  obtain ⟨entries, rfl, hentries⟩ := hstore.exists_entries
  exact agreesOff_store (w := w.under c) (Store.agreesOff_entries (s := w.store.under c) hentries)

/-- The same weather keeps worlds alike. -/
theorem AgreesOff.next (h : w.AgreesOff key w') (weather : Weather) :
    (weather.next w).AgreesOff key (weather.next w') := by
  rcases weather with _ | ⟨_ | c, rest⟩
  · exact h
  · exact h
  · exact h.under c

end World

/-! ## Programs that do not read a key -/

/-- A key is never read; nothing is relied on. -/
def Contract.avoids (key : String) : Contract where
  allows c := c.source? ≠ some key
  answers _ _ := True

namespace Program

variable {α : Type} {p : Program α} {key : String} {w w' : World} {limit : Option Duration}

/-- What a program cannot read it does not read. -/
theorem Within.avoids {r : Reach} (h : p.Within r) (hkey : ¬ r.reads key) :
    p.Keeps (.avoids key) fun _ => True :=
  h.keeps.weaken (fun _ hc hsource => hkey (hc.reads key hsource)) fun _ _ _ => trivial

/-- Two runs of a program that does not read the key, from two worlds that are alike. -/
theorem Keeps.runAmidFrom_agreesOff {post : α → Prop} (hp : p.Keeps (.avoids key) post)
    (hw : w.AgreesOff key w') (limit : Option Duration) (weather : Weather) (waited : Duration) :
    p.transcriptAmidFrom limit weather waited w = p.transcriptAmidFrom limit weather waited w' ∧
      (p.runAmidFrom limit weather waited w).1 = (p.runAmidFrom limit weather waited w').1 ∧
      (p.runAmidFrom limit weather waited w).2.AgreesOff key
        (p.runAmidFrom limit weather waited w').2 := by
  induction p generalizing weather waited w w' with
  | done a => exact ⟨rfl, rfl, hw⟩
  | call c next ih =>
    obtain ⟨hc, hnext⟩ := hp
    have hturned := hw.next weather
    have hreaction := hturned.react hc
    rw [transcriptAmidFrom, transcriptAmidFrom, Program.runAmidFrom, Program.runAmidFrom,
      hturned.waitFor c]
    -- the time waited is the same, so the limit cuts off both runs or neither
    split
    · exact ⟨rfl, rfl, hturned.begin c⟩
    · generalize (weather.next w).react c = first, (weather.next w').react c = second at hreaction
      cases hreaction with
      | answered answer hafter =>
        obtain ⟨htranscript, hrun⟩ := ih answer (hnext answer trivial) hafter weather.tail
          (waited + (weather.next w).waitFor c)
        exact ⟨congrArg _ htranscript, hrun⟩
      | crashed => exact ⟨rfl, rfl, hturned⟩
      | blocked => exact ⟨rfl, rfl, hturned⟩

/-- **Runs that do not read a key.**  From two worlds that differ in the value under that key at
most, a program makes the same calls with the same answers, comes to the same end, and leaves the
worlds alike, in the same weather. -/
theorem Keeps.runAmid_agreesOff {post : α → Prop} (hp : p.Keeps (.avoids key) post)
    (hw : w.AgreesOff key w') (weather : Weather) (limit : Option Duration) :
    p.transcriptAmid weather limit w = p.transcriptAmid weather limit w' ∧
      (p.runAmid weather limit w).1 = (p.runAmid weather limit w').1 ∧
      (p.runAmid weather limit w).2.AgreesOff key (p.runAmid weather limit w').2 := by
  obtain ⟨htranscript, houtcome, hafter⟩ := hp.runAmidFrom_agreesOff hw limit weather ⟨0⟩
  refine ⟨htranscript, ?_⟩
  have hheld : w'.held = w.held := by rw [hw.rest]
  rw [Program.runAmid, Program.runAmid, hheld]
  generalize p.runAmidFrom limit weather ⟨0⟩ w = first,
    p.runAmidFrom limit weather ⟨0⟩ w' = second at houtcome hafter
  obtain ⟨outcome, v⟩ := first
  obtain ⟨other, v'⟩ := second
  obtain rfl : outcome = other := houtcome
  cases outcome with
  | finished a => exact ⟨rfl, hafter⟩
  | _ => exact ⟨rfl, hafter.held w.held⟩

end Program

end SealedChannel
