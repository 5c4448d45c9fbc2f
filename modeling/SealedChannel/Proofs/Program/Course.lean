import SealedChannel.Proofs.Program.Ending

/-!
# Courses of calls

Many operations make one call after another and stop at the first that fails.  Their course is a
list of calls.  A run takes a part of it: every call has been made after all calls before it have
passed, and the operation succeeds if and only if the last call has passed.

## What is here

* `Stage`, `Course` — one call of a course, and the exchanges that take a course.
* `Course.passed_before`, `Course.succeeds_iff` — what comes before a call, and how a course ends.
* `Exchange.told_once` — what one call tells is told once.
* `Operation.Takes` — an operation takes a course, with one rule for each way to put an operation
  together.
* `Operation.Takes.of_runAmid` — so do its runs, in any weather of the climate.
-/

set_option autoImplicit false
namespace SealedChannel

/-! ## Courses -/

/-- One call of a course. -/
structure Stage where
  call : Call
  /-- Whether the course stops if the call fails.  If the call is not answered, it stops anyway. -/
  required : Bool

/-- An exchange passes a stage of a course. -/
def Stage.PassedBy (stage : Stage) (e : Exchange) : Prop :=
  e.call = stage.call ∧ if stage.required then e.succeeded = true else e.answer?.isSome = true

/-- A call that is not answered passes no stage. -/
theorem Stage.not_passedBy_none (stage : Stage) (c : Call) : ¬ stage.PassedBy ⟨c, none⟩ := by
  rintro ⟨-, h⟩
  split at h
  · rw [Exchange.succeeded_none] at h
    cases h
  · cases h

/-- The exchanges take a course as far as they go, and the course succeeds or does not. -/
inductive Course : List Stage → List Exchange → Bool → Prop
  | done : Course [] [] true
  | passed {stage : Stage} {stages : List Stage} {e : Exchange} {exchanges : List Exchange}
      {succeeds : Bool} (h : stage.PassedBy e) (hrest : Course stages exchanges succeeds) :
      Course (stage :: stages) (e :: exchanges) succeeds
  | stopped {stage : Stage} {stages : List Stage} {e : Exchange} (hcall : e.call = stage.call)
      (h : ¬ stage.PassedBy e) : Course (stage :: stages) [e] false

namespace Course

variable {stages later : List Stage} {exchanges more : List Exchange} {succeeds : Bool}

/-- A course that succeeds is followed by another one. -/
theorem append (h : Course stages exchanges true) (hlater : Course later more succeeds) :
    Course (stages ++ later) (exchanges ++ more) succeeds := by
  generalize hall : true = all at h
  induction h with
  | done => exact hlater
  | passed he _ ih => exact .passed he (ih hall)
  | stopped => cases hall

/-- After a course that does not succeed, nothing more is done. -/
theorem append_of_stopped (h : Course stages exchanges false) (later : List Stage) :
    Course (stages ++ later) exchanges false := by
  generalize hall : false = all at h ⊢
  induction h with
  | done => cases hall
  | passed he _ ih => exact .passed he (ih hall)
  | stopped hcall he => exact .stopped hcall he

/-- All calls are on the course. -/
theorem call_mem (h : Course stages exchanges succeeds) {e : Exchange} (he : e ∈ exchanges) :
    ∃ stage ∈ stages, e.call = stage.call := by
  induction h with
  | done => cases he
  | @passed stage stages first exchanges succeeds hfirst _ ih =>
    rcases List.mem_cons.1 he with rfl | he
    · exact ⟨stage, List.mem_cons_self, hfirst.1⟩
    · obtain ⟨other, hmem, hcall⟩ := ih he
      exact ⟨other, List.mem_cons_of_mem stage hmem, hcall⟩
  | @stopped stage stages first hcall _ =>
    obtain rfl := List.mem_singleton.1 he
    exact ⟨stage, List.mem_cons_self, hcall⟩

/-- The calls that were made are the first ones of the course. -/
theorem calls_prefix (h : Course stages exchanges succeeds) :
    exchanges.map Exchange.call <+: stages.map Stage.call := by
  induction h with
  | done => exact List.prefix_rfl
  | passed he _ ih =>
    rw [List.map_cons, List.map_cons, he.1]
    exact List.cons_prefix_cons.2 ⟨rfl, ih⟩
  | @stopped stage stages e hcall _ =>
    rw [List.map_cons, List.map_cons, hcall]
    exact List.cons_prefix_cons.2 ⟨rfl, List.nil_prefix⟩

/-- If all calls of a course are different, then no call is made twice. -/
theorem nodup (h : Course stages exchanges succeeds) (hstages : (stages.map Stage.call).Nodup) :
    (exchanges.map Exchange.call).Nodup :=
  hstages.sublist h.calls_prefix.sublist

/-- **What comes before.**  Once a call is made, all stages have been passed whose calls come before
it on the course. -/
theorem passed_before (stages : List Stage) (h : Course (stages ++ later) exchanges succeeds)
    {e : Exchange} (he : e ∈ exchanges) (hother : ∀ stage ∈ stages, e.call ≠ stage.call) :
    ∀ stage ∈ stages, ∃ earlier ∈ exchanges, stage.PassedBy earlier := by
  induction stages generalizing exchanges with
  | nil => intro stage hstage; cases hstage
  | cons first rest ih =>
    obtain ⟨hfirst, hrest⟩ := List.forall_mem_cons.1 hother
    cases h with
    | @passed _ _ e' exchanges _ hpassed h =>
      rcases List.mem_cons.1 he with rfl | he
      · exact absurd hpassed.1 hfirst
      · refine List.forall_mem_cons.2 ⟨⟨e', List.mem_cons_self, hpassed⟩, fun stage hstage => ?_⟩
        obtain ⟨earlier, hmem, hearlier⟩ := ih h he hrest stage hstage
        exact ⟨earlier, List.mem_cons_of_mem e' hmem, hearlier⟩
    | stopped hcall _ =>
      obtain rfl := List.mem_singleton.1 he
      exact absurd hcall hfirst

/-- **How a course ends.**  A course of different calls succeeds if and only if its last stage has
been passed, and then all of its stages have been passed. -/
theorem succeeds_iff (stages : List Stage) {last : Stage}
    (h : Course (stages ++ [last]) exchanges succeeds)
    (hnodup : ((stages ++ [last]).map Stage.call).Nodup) :
    succeeds = true ↔ ∃ e ∈ exchanges, last.PassedBy e := by
  induction stages generalizing exchanges with
  | nil =>
    cases h with
    | @passed _ _ e _ _ hpassed h =>
      cases h
      exact ⟨fun _ => ⟨e, List.mem_cons_self, hpassed⟩, fun _ => rfl⟩
    | stopped hcall hnot =>
      refine ⟨fun h => (by cases h), ?_⟩
      rintro ⟨e', he', hpassed⟩
      obtain rfl := List.mem_singleton.1 he'
      exact absurd hpassed hnot
  | cons first rest ih =>
    rw [List.cons_append, List.map_cons, List.nodup_cons] at hnodup
    -- the first stage and the last one have different calls, so the rest of the course decides
    have hne : last.call ≠ first.call := by
      intro heq
      exact hnodup.1 (by simp [← heq])
    cases h with
    | @passed _ _ e _ _ hpassed h =>
      rw [ih h hnodup.2]
      constructor
      · rintro ⟨e', he', hlast⟩
        exact ⟨e', List.mem_cons_of_mem e he', hlast⟩
      · rintro ⟨e', he', hlast⟩
        rcases List.mem_cons.1 he' with rfl | he'
        · exact absurd (hlast.1.symm.trans hpassed.1) hne
        · exact ⟨e', he', hlast⟩
    | stopped hcall _ =>
      refine ⟨fun h => (by cases h), ?_⟩
      rintro ⟨e', he', hlast⟩
      obtain rfl := List.mem_singleton.1 he'
      exact absurd (hlast.1.symm.trans hcall) hne

end Course

/-- If no call is made twice, what only one call can tell is told at most once. -/
theorem Exchange.told_once {β : Type} {tell : Exchange → Option β} {exchanges : List Exchange}
    (hnodup : (exchanges.map Exchange.call).Nodup)
    (htell : ∀ e ∈ exchanges, ∀ e' ∈ exchanges, ∀ b b', tell e = some b → tell e' = some b' →
      e.call = e'.call) :
    exchanges.filterMap tell = [] ∨
      ∃ e ∈ exchanges, ∃ b, tell e = some b ∧ exchanges.filterMap tell = [b] := by
  induction exchanges with
  | nil => exact .inl rfl
  | cons e rest ih =>
    rw [List.map_cons, List.nodup_cons] at hnodup
    cases hb : tell e with
    | none =>
      rw [List.filterMap_cons_none hb]
      have hrest := ih hnodup.2 fun e₁ he₁ e₂ he₂ =>
        htell e₁ (List.mem_cons_of_mem e he₁) e₂ (List.mem_cons_of_mem e he₂)
      refine hrest.imp_right ?_
      rintro ⟨e', he', h⟩
      exact ⟨e', List.mem_cons_of_mem e he', h⟩
    | some b =>
      -- whatever else tells something has the same call, which is not made again
      have hnone : rest.filterMap tell = [] := by
        refine List.filterMap_eq_nil_iff.2 fun e' he' => Option.eq_none_iff_forall_ne_some.2 ?_
        intro b' hb'
        refine hnodup.1 ?_
        rw [htell e List.mem_cons_self e' (List.mem_cons_of_mem e he') b b' hb hb']
        exact List.mem_map_of_mem he'
      rw [List.filterMap_cons_some hb, hnone]
      exact .inr ⟨e, List.mem_cons_self, b, hb, rfl⟩

/-! ## Operations -/

namespace Operation

open Program

variable {ε ε' α β : Type} {climate : Climate} {limit : Option Duration} {t : Moment}
  {stages later : List Stage}

/-- From a moment on, an operation takes a course, and a value that it comes to satisfies a
postcondition together with the world. -/
def Takes (climate : Climate) (limit : Option Duration) (stages : List Stage)
    (post : α → World → Prop) (op : Operation ε α) (t : Moment) : Prop :=
  op.run.Ensures climate limit
    (fun r t' => (∃ more, t'.made = t.made ++ more ∧ Course stages more r.isOk) ∧
      ∀ a, r = .ok a → post a t'.world)
    (fun t' => ∃ more, t'.made = t.made ++ more ∧ Course stages more false) t

/-- A value alone takes no call. -/
theorem takes_pure {post : α → World → Prop} {a : α} (h : post a t.world) :
    (pure a : Operation ε α).Takes climate limit [] post t :=
  ⟨⟨[], (List.append_nil _).symm, .done⟩, fun b hb => by cases hb; exact h⟩

/-- A weaker postcondition is satisfied too. -/
theorem Takes.imp {op : Operation ε α} {post post' : α → World → Prop}
    (h : op.Takes climate limit stages post t) (himp : ∀ a w, post a w → post' a w) :
    op.Takes climate limit stages post' t :=
  Ensures.imp h (fun _ _ hr => ⟨hr.1, fun a ha => himp a _ (hr.2 a ha)⟩) fun _ h => h

/-- An operation that is followed by another one takes both courses. -/
theorem Takes.bind {op : Operation ε α} {f : α → Operation ε β} {post : α → World → Prop}
    {post' : β → World → Prop} (h : op.Takes climate limit stages post t)
    (hf : ∀ a t', post a t'.world → (f a).Takes climate limit later post' t') :
    (op >>= f).Takes climate limit (stages ++ later) post' t := by
  refine ensures_run_bind.2 (Ensures.imp h (fun r t' hr => ?_) fun t' ht' => ?_)
  · obtain ⟨⟨made, hmade, hcourse⟩, hpost⟩ := hr
    cases r with
    | error e => exact ⟨⟨made, hmade, hcourse.append_of_stopped later⟩, by rintro b ⟨⟩⟩
    | ok a =>
      refine Ensures.imp (hf a t' (hpost a rfl)) (fun r' t'' hr' => ?_) fun t'' ht'' => ?_
      · obtain ⟨⟨more, hmore, hlater⟩, hpost'⟩ := hr'
        refine ⟨⟨made ++ more, ?_, hcourse.append hlater⟩, hpost'⟩
        rw [hmore, hmade, List.append_assoc]
      · obtain ⟨more, hmore, hlater⟩ := ht''
        refine ⟨made ++ more, ?_, hcourse.append hlater⟩
        rw [hmore, hmade, List.append_assoc]
  · obtain ⟨made, hmade, hcourse⟩ := ht'
    exact ⟨made, hmade, hcourse.append_of_stopped later⟩

/-- What makes no call adds nothing to the course. -/
theorem Takes.bind_nil {op : Operation ε α} {f : α → Operation ε β} {post : α → World → Prop}
    {post' : β → World → Prop} (h : op.Takes climate limit stages post t)
    (hf : ∀ a t', post a t'.world → (f a).Takes climate limit [] post' t') :
    (op >>= f).Takes climate limit stages post' t := by
  have hboth := h.bind hf
  rwa [List.append_nil] at hboth

/-- Errors of another kind change nothing. -/
theorem Takes.wrap {op : Operation ε α} {post : α → World → Prop}
    (h : op.Takes climate limit stages post t) (f : ε → ε') :
    (Operation.wrap f op).Takes climate limit stages post t := by
  refine ensures_run_wrap.2 (Ensures.imp h (fun r t' hr => ?_) fun _ h => h)
  cases r with
  | ok a =>
    refine ⟨hr.1, ?_⟩
    rintro b ⟨⟩
    exact hr.2 a rfl
  | error e => exact ⟨hr.1, by rintro a ⟨⟩⟩

/-- A call to the store that succeeds, in a world that the climate may have turned before. -/
def StoreAnswers (climate : Climate) (before : World) (l : Duration) (c : StoreCall)
    (answer : c.Answer) (after : World) : Prop :=
  ∃ w, before.Turns climate w ∧ after.host = w.host ∧
    w.store.call (some l) c = (.ok answer, after.store)

/-- A call to the platform that is answered, in a world that the climate may have turned before. -/
def HostAnswers (climate : Climate) (before : World) (c : HostCall)
    (answer : Except HostError c.Answer) (after : World) : Prop :=
  ∃ w, before.Turns climate w ∧ after.store = w.store ∧
    w.host.call c = some (answer, after.host)

/-- A call to the store. -/
theorem takes_store (climate : Climate) (limit : Option Duration) (t : Moment) (l : Duration)
    (c : StoreCall) : (Operation.store l c).Takes climate limit [⟨.store l c, true⟩]
      (StoreAnswers climate t.world l c) t := by
  refine .run_store (fun _ _ _ => ⟨_, rfl, .stopped rfl (Stage.not_passedBy_none _ _)⟩)
    fun w answer store hw _ hcall => ?_
  cases answer with
  | error e =>
    exact ⟨⟨_, rfl, .stopped rfl fun h => by cases h.2⟩, by rintro a ⟨⟩⟩
  | ok answer =>
    refine ⟨⟨_, rfl, .passed ⟨rfl, rfl⟩ .done⟩, ?_⟩
    rintro a ⟨⟩
    exact ⟨w, hw, rfl, hcall⟩

/-- A call to the platform. -/
theorem takes_host (climate : Climate) (limit : Option Duration) (t : Moment) (c : HostCall) :
    (Operation.host c).Takes climate limit [⟨.host c, true⟩]
      (fun answer => HostAnswers climate t.world c (.ok answer)) t := by
  refine .run_host (fun _ _ _ => ⟨_, rfl, .stopped rfl (Stage.not_passedBy_none _ _)⟩)
    fun w answer host hw _ hcall => ?_
  cases answer with
  | error e =>
    exact ⟨⟨_, rfl, .stopped rfl fun h => by cases h.2⟩, by rintro a ⟨⟩⟩
  | ok answer =>
    refine ⟨⟨_, rfl, .passed ⟨rfl, rfl⟩ .done⟩, ?_⟩
    rintro a ⟨⟩
    exact ⟨w, hw, rfl, hcall⟩

/-- A call to the platform that may fail. -/
theorem takes_attempt_host (climate : Climate) (limit : Option Duration) (t : Moment)
    (c : HostCall) :
    (Operation.attempt (.host c) : Operation ε (Except HostError c.Answer)).Takes climate limit
      [⟨.host c, false⟩] (HostAnswers climate t.world c) t := by
  refine ensures_run_attempt.2 (.run_host
    (fun _ _ _ => ⟨_, rfl, .stopped rfl (Stage.not_passedBy_none _ _)⟩)
    fun w answer host hw _ hcall => ?_)
  refine ⟨⟨_, rfl, .passed ⟨rfl, rfl⟩ .done⟩, ?_⟩
  rintro a ⟨⟩
  exact ⟨w, hw, rfl, hcall⟩

/-- **Runs take the course.**  A run takes the course of its operation, and comes to a value if and
only if the course succeeds. -/
theorem Takes.of_runAmid {op : Operation ε α} {post : α → World → Prop} {w : World}
    {weather : Weather} (h : op.Takes climate limit stages post (.start w))
    (hweather : ∀ c, weather.climate c → climate c) :
    ∃ succeeds, Course stages (op.run.transcriptAmid weather limit w) succeeds ∧
      (succeeds = true ↔ ∃ a, (op.run.runAmid weather limit w).1 = .finished (.ok a)) ∧
      ∀ a, (op.run.runAmid weather limit w).1 = .finished (.ok a) →
        post a (op.run.runAmid weather limit w).2 := by
  obtain ⟨hpost, hcut⟩ := Ensures.of_runAmid h hweather
  cases houtcome : (op.run.runAmid weather limit w).1 with
  | finished r =>
    obtain ⟨waited, ⟨made, hmade, hcourse⟩, hvalue⟩ := hpost r houtcome
    obtain rfl : op.run.transcriptAmid weather limit w = made := hmade
    refine ⟨r.isOk, hcourse, ?_, ?_⟩
    · cases r with
      | ok a => exact ⟨fun _ => ⟨a, rfl⟩, fun _ => rfl⟩
      | error e => exact ⟨fun h => (by cases h), by rintro ⟨a, ⟨⟩⟩⟩
    · rintro a ⟨⟩
      exact hvalue a rfl
  | _ =>
    obtain ⟨waited, w', ⟨made, hmade, hcourse⟩, -⟩ := hcut (by rw [houtcome]; rfl)
    obtain rfl : op.run.transcriptAmid weather limit w = made := hmade
    exact ⟨false, hcourse, ⟨fun h => (by cases h), by rintro ⟨a, ⟨⟩⟩⟩, by rintro a ⟨⟩⟩

end Operation

end SealedChannel
