import SealedChannel.Proofs.Program.Transcript

/-!
# How runs end

A run comes to its end, or it is cut off: the limit passes, the platform crashes, or a lock is not
given back.  What holds in either case is computed along the program, call by call, from the calls
made so far, the time waited, and the world.  Between two calls the world may turn into another one
of a climate; in a calm climate it stays as it is.

## What is here

* `Moment` — how far a run has come.
* `Program.Ensures` — what holds when a run comes to its end, and what holds when it is cut off.
* `Program.ensures_bind`, `Program.Ensures.run_store`, `Program.Ensures.locked` and the other
  rules — one for each way to put a program together.
* `Program.Keeps.ensures` — a contract that upholds an invariant is kept to the end.
* `Program.Ensures.of_runAmid` — a run in weather of the climate ends as is ensured.
* `Program.get?_runAmid_bind` — what comes later does not count if it writes nothing.
-/

set_option autoImplicit false
namespace SealedChannel

/-! ## Moments -/

/-- A moment of a run: the calls made so far, the time waited, and the world. -/
structure Moment where
  made : List Exchange
  waited : Duration
  world : World

namespace Moment

/-- The moment at which a run begins. -/
def start (w : World) : Moment :=
  ⟨[], ⟨0⟩, w⟩

/-- The moment at which the world has turned into another one. -/
def turned (t : Moment) (w : World) : Moment :=
  { t with world := w }

/-- Whether the limit passes while a call waits. -/
def expires (t : Moment) (limit : Option Duration) (c : Call) : Bool :=
  Program.isOver limit (t.waited + t.world.waitFor c)

/-- The moment at which a call is answered. -/
def answered (t : Moment) (c : Call) (answer : c.Answer) (w : World) : Moment :=
  ⟨t.made ++ [⟨c, some answer⟩], t.waited + t.world.waitFor c, w⟩

/-- The moment at which a run is cut off in a call. -/
def cutIn (t : Moment) (c : Call) (w : World) : Moment :=
  ⟨t.made ++ [⟨c, none⟩], t.waited + t.world.waitFor c, w⟩

end Moment

/-- All calls between two moments of a run are allowed. -/
def Contract.AllowsBetween (k : Contract) (t t' : Moment) : Prop :=
  ∃ later, t'.made = t.made ++ later ∧ ∀ e ∈ later, k.allows e.call

namespace Program

variable {α β : Type} {climate : Climate} {limit : Option Duration} {t : Moment}
  {post : α → Moment → Prop} {cut : Moment → Prop}

/-- Only where there is a limit can it pass. -/
theorem ne_none_of_isOver {waited : Duration} (h : isOver limit waited = true) : limit ≠ none := by
  rintro rfl
  cases h

/-- A run that comes to its end satisfies `post`, of the value and the moment, and one that is cut
off satisfies `cut`, of the moment, however the climate turns the world before each call. -/
def Ensures (climate : Climate) (limit : Option Duration) : Program α → (α → Moment → Prop) →
    (Moment → Prop) → Moment → Prop
  | .done a, post, _, t => post a t
  | .call c next, post, cut, t => ∀ w, t.world.Turns climate w →
    if (t.turned w).expires limit c then cut ((t.turned w).cutIn c (w.begin c))
    else
      match w.react c with
      | .answered answer w' =>
        (next answer).Ensures climate limit post cut ((t.turned w).answered c answer w')
      | .crashed => cut ((t.turned w).cutIn c w)
      | .blocked => cut ((t.turned w).cutIn c w)

/-- A run from a moment on, in weather of the climate, ends as is ensured. -/
theorem Ensures.of_runAmidFrom {p : Program α} {weather : Weather}
    (h : p.Ensures climate limit post cut t) (hweather : ∀ c, weather.climate c → climate c) :
    (∀ a, (p.runAmidFrom limit weather t.waited t.world).1 = .finished a → ∃ waited,
      post a ⟨t.made ++ p.transcriptAmidFrom limit weather t.waited t.world, waited,
        (p.runAmidFrom limit weather t.waited t.world).2⟩) ∧
    ((p.runAmidFrom limit weather t.waited t.world).1.value? = none → ∃ waited,
      cut ⟨t.made ++ p.transcriptAmidFrom limit weather t.waited t.world, waited,
        (p.runAmidFrom limit weather t.waited t.world).2⟩) := by
  induction p generalizing t weather with
  | done a =>
    refine ⟨fun b hb => ?_, fun hnone => (by cases hnone)⟩
    cases hb
    refine ⟨t.waited, ?_⟩
    rw [transcriptAmidFrom, List.append_nil]
    exact h
  | call c next ih =>
    have hturned := h _ (weather.turns_next hweather t.world)
    rw [runAmidFrom, transcriptAmidFrom]
    generalize weather.next t.world = w at hturned
    split at hturned
    · rename_i hover
      change isOver limit (t.waited + w.waitFor c) = true at hover
      rw [if_pos hover, if_pos hover]
      exact ⟨fun a ha => (by cases ha), fun _ => ⟨_, hturned⟩⟩
    · rename_i hover
      change ¬ isOver limit (t.waited + w.waitFor c) = true at hover
      rw [if_neg hover, if_neg hover]
      cases hreact : w.react c with
      | answered answer w' =>
        rw [hreact] at hturned
        have hrest := ih answer hturned fun c hc => hweather c (Weather.climate_of_tail hc)
        rw [Moment.answered, List.append_assoc, List.singleton_append] at hrest
        exact hrest
      | crashed => rw [hreact] at hturned; exact ⟨fun a ha => (by cases ha), fun _ => ⟨_, hturned⟩⟩
      | blocked => rw [hreact] at hturned; exact ⟨fun a ha => (by cases ha), fun _ => ⟨_, hturned⟩⟩

/-! ## Programs put together -/

@[simp]
theorem ensures_pure {a : α} : (pure a : Program α).Ensures climate limit post cut t ↔ post a t :=
  Iff.rfl

/-- What is ensured of a single call. -/
theorem Ensures.call {c : Call} {next : c.Answer → Program α}
    (hover : ∀ w, t.world.Turns climate w → (t.turned w).expires limit c = true →
      cut ((t.turned w).cutIn c (w.begin c)))
    (hcut : ∀ w, t.world.Turns climate w → (∀ answer w', w.react c ≠ .answered answer w') →
      cut ((t.turned w).cutIn c w))
    (hnext : ∀ w answer w', t.world.Turns climate w → (t.turned w).expires limit c = false →
      w.react c = .answered answer w' →
        (next answer).Ensures climate limit post cut ((t.turned w).answered c answer w')) :
    (Program.call c next).Ensures climate limit post cut t := by
  intro w hw
  split
  · exact hover w hw ‹_›
  · rename_i hover'
    cases hreact : w.react c with
    | answered answer w' => exact hnext w answer w' hw (Bool.not_eq_true _ ▸ hover') hreact
    | crashed => exact hcut w hw (by rw [hreact]; rintro _ _ ⟨⟩)
    | blocked => exact hcut w hw (by rw [hreact]; rintro _ _ ⟨⟩)

@[simp]
theorem ensures_bind {post : β → Moment → Prop} {p : Program α} {f : α → Program β} :
    (p >>= f).Ensures climate limit post cut t ↔
      p.Ensures climate limit (fun a t => (f a).Ensures climate limit post cut t) cut t := by
  change (p.andThen f).Ensures climate limit post cut t ↔ _
  induction p generalizing t with
  | done a => rfl
  | call c next ih =>
    simp only [andThen, Ensures]
    refine forall₂_congr fun w _ => ?_
    split
    · rfl
    · cases w.react c with
      | answered answer w' => exact ih answer
      | crashed => rfl
      | blocked => rfl

@[simp]
theorem ensures_map {post : β → Moment → Prop} {p : Program α} {f : α → β} :
    (f <$> p).Ensures climate limit post cut t ↔
      p.Ensures climate limit (fun a => post (f a)) cut t := by
  rw [← bind_pure_comp, ensures_bind]
  rfl

/-- Weaker statements are ensured too. -/
theorem Ensures.imp {post' : α → Moment → Prop} {cut' : Moment → Prop} {p : Program α}
    (h : p.Ensures climate limit post cut t) (hpost : ∀ a t, post a t → post' a t)
    (hcut : ∀ t, cut t → cut' t) : p.Ensures climate limit post' cut' t := by
  induction p generalizing t with
  | done a => exact hpost a t h
  | call c next ih =>
    intro w hw
    have hturned := h w hw
    split at hturned
    · rename_i hover
      rw [if_pos hover]
      exact hcut _ hturned
    · rename_i hover
      rw [if_neg hover]
      cases hreact : w.react c with
      | answered answer w' => rw [hreact] at hturned; exact ih answer hturned
      | crashed => rw [hreact] at hturned; exact hcut _ hturned
      | blocked => rw [hreact] at hturned; exact hcut _ hturned

/-- Two statements are ensured together. -/
theorem Ensures.and {post' : α → Moment → Prop} {cut' : Moment → Prop} {p : Program α}
    (h : p.Ensures climate limit post cut t) (h' : p.Ensures climate limit post' cut' t) :
    p.Ensures climate limit (fun a t => post a t ∧ post' a t) (fun t => cut t ∧ cut' t) t := by
  induction p generalizing t with
  | done a => exact ⟨h, h'⟩
  | call c next ih =>
    intro w hw
    have hturned := h w hw
    have hturned' := h' w hw
    split at hturned
    · rename_i hover
      rw [if_pos hover] at hturned' ⊢
      exact ⟨hturned, hturned'⟩
    · rename_i hover
      rw [if_neg hover] at hturned' ⊢
      cases hreact : w.react c with
      | answered answer w' =>
        rw [hreact] at hturned hturned'
        exact ih answer hturned hturned'
      | crashed => rw [hreact] at hturned hturned'; exact ⟨hturned, hturned'⟩
      | blocked => rw [hreact] at hturned hturned'; exact ⟨hturned, hturned'⟩

/-- A lock is taken for no time.  A program that is within its limit when it gives the lock back is
not cut off any more. -/
theorem Ensures.locked {lock : Nat} {p : Program α}
    (hcut : ∀ w, t.world.Turns climate w → isOver limit t.waited = true ∨ lock ∈ w.held →
      cut ((t.turned w).cutIn (.acquire lock) w))
    (hp : ∀ w, t.world.Turns climate w → isOver limit t.waited = false → p.Ensures climate limit
      (fun a t' => isOver limit t'.waited = false ∧ ∀ w', t'.world.Turns climate w' →
        post a ((t'.turned w').answered (.release lock) () { w' with held := w'.held.erase lock }))
      cut ((t.turned w).answered (.acquire lock) () { w with held := lock :: w.held })) :
    (Program.locked lock p).Ensures climate limit post cut t := by
  rw [locked_eq]
  refine .call (fun w hw hover => hcut w hw (.inl hover))
    (fun w hw hblocked => hcut w hw (.inr ?_)) fun w _ w' hw hover hreact => ?_
  · refine Decidable.byContradiction fun hfree => ?_
    refine hblocked () { w with held := lock :: w.held } ?_
    rw [World.react, if_neg (by simpa using hfree)]
  · have hw' : w' = { w with held := lock :: w.held } := by
      rw [World.react] at hreact
      split at hreact
      · cases hreact
      · cases hreact; rfl
    refine ensures_bind.2 ?_
    rw [hw']
    refine (hp w hw hover).imp (fun a t' h => ?_) fun _ h => h
    obtain ⟨hover', hpost⟩ := h
    intro v hv
    -- giving the lock back takes no time, so there is still time left at the release
    have hrelease : (t'.turned v).expires limit (.release lock) = false := hover'
    rw [if_neg (by rw [hrelease]; exact Bool.false_ne_true)]
    exact hpost v hv

variable {ε ε' : Type}

@[simp]
theorem ensures_run_bind {post : Except ε β → Moment → Prop} {op : Operation ε α}
    {f : α → Operation ε β} :
    (op >>= f).run.Ensures climate limit post cut t ↔
      op.run.Ensures climate limit (fun r t =>
        match r with
        | .ok a => (f a).run.Ensures climate limit post cut t
        | .error e => post (.error e) t) cut t := by
  rw [ExceptT.run_bind, ensures_bind]
  refine ⟨fun h => h.imp (fun r t hr => ?_) fun _ h => h,
    fun h => h.imp (fun r t hr => ?_) fun _ h => h⟩ <;> cases r <;> exact hr

@[simp]
theorem ensures_run_wrap {post : Except ε' α → Moment → Prop} {f : ε → ε'} {op : Operation ε α} :
    (Operation.wrap f op).run.Ensures climate limit post cut t ↔
      op.run.Ensures climate limit (fun r => post (r.mapError f)) cut t := by
  rw [Operation.wrap, ExceptT.run_mk, ensures_map]

@[simp]
theorem ensures_run_attempt {post : Except ε' (Except ε α) → Moment → Prop}
    {op : Operation ε α} :
    (Operation.attempt op : Operation ε' (Except ε α)).run.Ensures climate limit post cut t ↔
      op.run.Ensures climate limit (fun r => post (.ok r)) cut t := by
  rw [Operation.attempt, ExceptT.run_mk, ensures_map]

/-- What is ensured of a call to the platform. -/
theorem Ensures.run_host {c : HostCall} {post : Except HostError c.Answer → Moment → Prop}
    (hcut : ∀ w, t.world.Turns climate w → isOver limit t.waited = true ∨ w.host.call c = none →
      cut ((t.turned w).cutIn (.host c) w))
    (hpost : ∀ w answer host, t.world.Turns climate w → isOver limit t.waited = false →
      w.host.call c = some (answer, host) →
        post answer ((t.turned w).answered (.host c) answer { w with host })) :
    (Operation.host c).run.Ensures climate limit post cut t := by
  refine .call (fun w hw hover => hcut w hw (.inl hover))
    (fun w hw hcrashed => hcut w hw (.inr ?_)) fun w answer w' hw hover hreact => ?_
  · cases hcall : w.host.call c with
    | none => rfl
    | some ending => exact absurd (by rw [World.react, hcall]) (hcrashed ending.1 _)
  · rw [World.react] at hreact
    split at hreact
    · cases hreact
    · rename_i hcall
      cases hreact
      exact hpost w _ _ hw hover hcall

/-- What is ensured of a call to the store. -/
theorem Ensures.run_store {l : Duration} {c : StoreCall}
    {post : Except StoreError c.Answer → Moment → Prop}
    (hcut : ∀ w, t.world.Turns climate w → (t.turned w).expires limit (.store l c) = true →
      cut ((t.turned w).cutIn (.store l c) (w.begin (.store l c))))
    (hpost : ∀ w answer store, t.world.Turns climate w →
      (t.turned w).expires limit (.store l c) = false → w.store.call (some l) c = (answer, store) →
        post answer ((t.turned w).answered (.store l c) answer { w with store })) :
    (Operation.store l c).run.Ensures climate limit post cut t := by
  refine .call hcut (fun w _ hnever => absurd rfl (hnever _ _)) fun w answer w' hw hover hreact => ?_
  cases hreact
  exact hpost w _ _ hw hover rfl

/-! ## Calm climates -/

/-- What is ensured of a call to the store in a calm climate. -/
theorem Ensures.run_store_calm {l : Duration} {c : StoreCall}
    {post : Except StoreError c.Answer → Moment → Prop}
    (hcut : t.expires limit (.store l c) = true →
      cut (t.cutIn (.store l c) (t.world.begin (.store l c))))
    (hpost : ∀ answer store, t.expires limit (.store l c) = false →
      t.world.store.call (some l) c = (answer, store) →
        post answer (t.answered (.store l c) answer { t.world with store })) :
    (Operation.store l c).run.Ensures .calm limit post cut t := by
  refine .run_store (fun w hw => ?_) fun w answer store hw => ?_
  · obtain rfl := hw.eq_of_calm
    exact hcut
  · obtain rfl := hw.eq_of_calm
    exact hpost answer store

/-- A lock is taken for no time in a calm climate. -/
theorem Ensures.locked_calm {lock : Nat} {p : Program α}
    (hcut : isOver limit t.waited = true ∨ lock ∈ t.world.held →
      cut (t.cutIn (.acquire lock) t.world))
    (hp : isOver limit t.waited = false → p.Ensures .calm limit
      (fun a t => isOver limit t.waited = false ∧ post a
        (t.answered (.release lock) () { t.world with held := t.world.held.erase lock })) cut
      (t.answered (.acquire lock) () { t.world with held := lock :: t.world.held })) :
    (Program.locked lock p).Ensures .calm limit post cut t := by
  refine .locked (fun w hw => ?_) fun w hw hin => ?_
  · obtain rfl := hw.eq_of_calm
    exact hcut
  · obtain rfl := hw.eq_of_calm
    refine (hp hin).imp (fun a t' h => ⟨h.1, fun w' hw' => ?_⟩) fun _ h => h
    obtain rfl := hw'.eq_of_calm
    exact h.2

/-! ## Contracts -/

/-- **Contracts to the end.**  A program that keeps a contract keeps the invariants that the
contract upholds, whether or not it comes to its end, as long as the climate does not break them. -/
theorem Keeps.ensures {k : Contract} {kept : α → Prop} {invariant : World → Prop} {p : Program α}
    (h : p.Keeps k kept) (hk : k.Upheld invariant)
    (hturns : ∀ {w w'}, invariant w → w.Turns climate w' → invariant w')
    (ht : invariant t.world) :
    p.Ensures climate limit (fun a t' => kept a ∧ invariant t'.world ∧ k.AllowsBetween t t')
      (fun t' => invariant t'.world ∧ k.AllowsBetween t t') t := by
  induction p generalizing t with
  | done a => exact ⟨h, ht, [], by simp, by simp⟩
  | call c next ih =>
    obtain ⟨hallows, hnext⟩ := h
    have hlast (w w' : World) : k.AllowsBetween t ((t.turned w).cutIn c w') :=
      ⟨[⟨c, none⟩], rfl, by simpa using hallows⟩
    refine .call (fun w hw _ => ⟨hk.begin (hturns ht hw) hallows, hlast _ _⟩)
      (fun w hw _ => ⟨hturns ht hw, hlast _ _⟩) fun w answer w' hw _ hreact => ?_
    obtain ⟨hanswer, hw'⟩ := hk.react (hturns ht hw) hallows hreact
    have hlater {t' : Moment}
        (hleads : k.AllowsBetween ((t.turned w).answered c answer w') t') :
        k.AllowsBetween t t' := by
      obtain ⟨later, hmade, hlater⟩ := hleads
      refine ⟨⟨c, some answer⟩ :: later, by simp [hmade, Moment.answered, Moment.turned], ?_⟩
      exact List.forall_mem_cons.2 ⟨hallows, hlater⟩
    exact (ih answer (hnext answer hanswer) hw').imp (fun a t' h => ⟨h.1, h.2.1, hlater h.2.2⟩)
      fun t' h => ⟨h.1, hlater h.2⟩

/-! ## Whole runs -/

variable {w : World}

/-- **Runs end as is ensured.**  So do runs in weather of the climate. -/
theorem Ensures.of_runAmid {p : Program α} {weather : Weather}
    (h : p.Ensures climate limit post cut (.start w))
    (hweather : ∀ c, weather.climate c → climate c) :
    (∀ a, (p.runAmid weather limit w).1 = .finished a → ∃ waited,
      post a ⟨p.transcriptAmid weather limit w, waited, (p.runAmid weather limit w).2⟩) ∧
    ((p.runAmid weather limit w).1.value? = none → ∃ waited w',
      cut ⟨p.transcriptAmid weather limit w, waited, w'⟩ ∧
        (p.runAmid weather limit w).2 = { w' with held := w.held }) := by
  obtain ⟨hpost, hcut⟩ := h.of_runAmidFrom hweather
  rw [Moment.start, List.nil_append] at hpost hcut
  rw [runAmid, transcriptAmid]
  generalize p.runAmidFrom limit weather ⟨0⟩ w = ending at hpost hcut
  obtain ⟨outcome, w'⟩ := ending
  cases outcome with
  | finished a => exact ⟨hpost, fun hnone => by cases hnone⟩
  | _ =>
    obtain ⟨waited, hcut⟩ := hcut rfl
    exact ⟨fun a ha => (by cases ha), fun _ => ⟨waited, w', hcut, rfl⟩⟩

theorem Ensures.of_run {p : Program α} (h : p.Ensures climate limit post cut (.start w)) :
    (∀ a, (p.run limit w).1 = .finished a → ∃ waited,
      post a ⟨p.transcript limit w, waited, (p.run limit w).2⟩) ∧
    ((p.run limit w).1.value? = none → ∃ waited w',
      cut ⟨p.transcript limit w, waited, w'⟩ ∧ (p.run limit w).2 = { w' with held := w.held }) := by
  rw [← transcriptAmid_nil, ← runAmid_nil]
  exact h.of_runAmid fun c hc => by cases hc

/-- What is ensured of every end of a run, as long as it does not depend on the locks. -/
theorem Ensures.at_end {p : Program α} (ends : List Exchange → World → Prop) {weather : Weather}
    (h : p.Ensures climate limit (fun _ t => ends t.made t.world) (fun t => ends t.made t.world)
      (.start w))
    (hweather : ∀ c, weather.climate c → climate c)
    (hheld : ∀ {made w} locks, ends made w → ends made { w with held := locks }) :
    ends (p.transcriptAmid weather limit w) (p.runAmid weather limit w).2 := by
  obtain ⟨hpost, hcut⟩ := h.of_runAmid hweather
  cases houtcome : (p.runAmid weather limit w).1 with
  | finished a =>
    obtain ⟨_, ha⟩ := hpost a houtcome
    exact ha
  | _ =>
    obtain ⟨_, w', hw', hrun⟩ := hcut (by rw [houtcome]; rfl)
    rw [hrun]
    exact hheld w.held hw'

/-- A run that is not cut off comes to its end as is ensured. -/
theorem Ensures.finishes {p : Program α}
    (h : p.Ensures climate limit post (fun _ => False) (.start w)) :
    ∃ a waited, (p.run limit w).1 = .finished a ∧
      post a ⟨p.transcript limit w, waited, (p.run limit w).2⟩ := by
  obtain ⟨hpost, hcut⟩ := h.of_run
  cases houtcome : (p.run limit w).1 with
  | finished a =>
    obtain ⟨waited, ha⟩ := hpost a houtcome
    exact ⟨a, waited, rfl, ha⟩
  | _ =>
    obtain ⟨_, _, hfalse, -⟩ := hcut (by rw [houtcome]; rfl)
    exact hfalse.elim

/-! ## What comes later -/

variable {key : String} {weather : Weather}

/-- A program that writes nothing leaves every value. -/
theorem Writes.get?_runAmidFrom {waited : Duration} {p : Program α}
    (h : p.Writes fun _ _ => False) (hw : w.store.Spares key) :
    (p.runAmidFrom limit weather waited w).2.store.get? key = w.store.get? key := by
  have hallows : ∀ e ∈ p.transcriptAmidFrom limit weather waited w,
      (Contract.writesOnly fun _ _ => False).allows e.call :=
    (h.keeps.runAmidFrom fun _ _ _ _ => trivial).1
  rw [Program.get?_runAmidFrom hw]
  cases heffect : Exchange.lastEffect? key (p.transcriptAmidFrom limit weather waited w) with
  | none => rfl
  | some value =>
    obtain ⟨e, he, hvalue⟩ := Exchange.exists_of_lastEffect? heffect
    exact (hallows e he key value (Exchange.target?_of_effectOn? hvalue)).elim

theorem get?_runAmidFrom_bind {waited : Duration} {p : Program α} {f : α → Program β}
    (hf : ∀ a, (f a).Writes fun _ _ => False) (hw : w.store.Spares key) :
    ((p >>= f).runAmidFrom limit weather waited w).2.store.get? key
      = (p.runAmidFrom limit weather waited w).2.store.get? key := by
  change ((p.andThen f).runAmidFrom limit weather waited w).2.store.get? key = _
  induction p generalizing weather waited w with
  | done a => exact (hf a).get?_runAmidFrom hw
  | call c next ih =>
    have hnext := weather.spares_next hw
    rw [andThen, runAmidFrom, runAmidFrom]
    split
    · rfl
    · cases hreact : (weather.next w).react c with
      | answered answer w' => exact ih answer (World.spares_react hreact hnext)
      | crashed => rfl
      | blocked => rfl

/-- **What comes later.**  If the second part of a program writes nothing, a run leaves what the
first part leaves; it does not matter whether the run comes to its end. -/
theorem get?_runAmid_bind {p : Program α} {f : α → Program β}
    (hf : ∀ a, (f a).Writes fun _ _ => False) (hw : w.store.Spares key) :
    ((p >>= f).runAmid weather limit w).2.store.get? key
      = (p.runAmid weather limit w).2.store.get? key := by
  rw [Program.runAmid_store, Program.runAmid_store, get?_runAmidFrom_bind hf hw]

theorem get?_runAmid_run_bind {op : Operation ε α} {f : α → Operation ε β}
    (hf : ∀ a, (f a).run.Writes fun _ _ => False) (hw : w.store.Spares key) :
    ((op >>= f).run.runAmid weather limit w).2.store.get? key
      = (op.run.runAmid weather limit w).2.store.get? key := by
  rw [ExceptT.run_bind]
  refine get?_runAmid_bind (fun r => ?_) hw
  cases r with
  | ok a => exact hf a
  | error e => exact .pure _

end Program

end SealedChannel
