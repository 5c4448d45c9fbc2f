import SealedChannel.Proofs.Session.Basic

/-!
# The account of the service in a session

## What is here

* `Session.activates?` — the account that an activation obtains.
* `Session.runAmid_activate` — an activation obtains an account, or changes nothing about the service.
* `Session.service_run` — after a session, the account is the first one that was obtained.
-/

set_option autoImplicit false
namespace SealedChannel
namespace Session

/-- The id of a bot account that the platform has answered. -/
def botOf? : Exchange → Option String
  | ⟨.host (.ensureBot _), some (.ok id)⟩ => some id
  | _ => none

/-- The id of the account that an activation obtains, if it succeeds. -/
def activates? (s : Session) : Step → Option String
  | .demand weather .activate =>
    match (s.service.activate.run.runAmid weather none s.world).1 with
    | .finished (.ok _) =>
      (s.service.activate.run.transcriptAmid weather none s.world).findSome? botOf?
    | _ => none
  | _ => none

/-! ## Activations -/

/-- An activation asks the platform twice. -/
theorem activate_eq (s : Service) : s.activate.run =
    .call (.host (.registerCommand Service.command)) fun
      | .error e => .done (.error (.host e))
      | .ok _ => .call (.host (.ensureBot Service.bot)) fun
        | .error e => .done (.error (.host e))
        | .ok id => .done (.ok { s with botId := some (s.botId.getD id) }) := by
  refine congrArg (Program.call _) (funext fun answer => ?_)
  cases answer with
  | error e => rfl
  | ok done =>
    refine congrArg (Program.call _) (funext fun answer => ?_)
    cases answer <;> rfl

/-- The platform gives no empty ids to bots. -/
theorem ne_empty_of_ensureBot {h h' : Host} {bot : BotSpec} {id : String}
    (hcall : h.call (.ensureBot bot) = some (.ok id, h')) : id ≠ "" := by
  rw [Host.call] at hcall
  split at hcall
  · cases hcall
  · cases hcall
  · cases hcall
    intro hempty
    have hchars := congrArg String.toList hempty
    rw [String.toList_append] at hchars
    exact absurd (List.append_eq_nil_iff.1 hchars).1 (by decide)

/-- How a run of an activation ends: it obtains an account, or it does not succeed. -/
theorem runAmid_activate (s : Service) (weather : Weather) (w : World) :
    (∃ id, id ≠ "" ∧
      (s.activate.run.runAmid weather none w).1 =
        .finished (.ok { s with botId := some (s.botId.getD id) }) ∧
      (s.activate.run.transcriptAmid weather none w).findSome? botOf? = some id) ∨
    ∀ service, (s.activate.run.runAmid weather none w).1 ≠ .finished (.ok service) := by
  rw [Program.runAmid_fst, Program.transcriptAmid, activate_eq]
  rcases Program.runAmidFrom_call_cases none _ _ weather ⟨0⟩ w with
    ⟨answer, w', -, hrun, htranscript⟩ | ⟨outcome, w', houtcome, -, hrun, -⟩
  · rw [hrun, htranscript]
    cases answer with
    | error e => exact .inr fun service h => by cases h
    | ok done =>
      dsimp only
      rcases Program.runAmidFrom_call_cases none (.host (.ensureBot Service.bot)) _ weather.tail _
          w' with ⟨answer, w'', hreact, hrun, htranscript⟩ | ⟨outcome, w'', houtcome, -, hrun, -⟩
      · rw [hrun, htranscript]
        cases answer with
        | error e => exact .inr fun service h => by cases h
        | ok id =>
          refine .inl ⟨id, ?_, rfl, rfl⟩
          rw [World.react] at hreact
          split at hreact
          · cases hreact
          · rename_i answer host hcall
            cases hreact
            exact ne_empty_of_ensureBot hcall
      · rw [hrun]
        refine .inr fun service h => ?_
        obtain rfl : outcome = .finished (.ok service) := h
        cases houtcome
  · rw [hrun]
    refine .inr fun service h => ?_
    obtain rfl : outcome = .finished (.ok service) := h
    cases houtcome

/-- An activation that succeeds obtains an account, which is kept from then on, and any other one
changes nothing about the service. -/
theorem activate_cases (s : Session) (weather : Weather) :
    (∃ id, id ≠ "" ∧ activates? s (.demand weather .activate) = some id ∧
      (s.meet weather .activate).service =
        { s.service with botId := some (s.service.botId.getD id) }) ∨
    (activates? s (.demand weather .activate) = none ∧
      (s.meet weather .activate).service = s.service) := by
  rcases runAmid_activate s.service weather s.world with ⟨id, hid, hrun, htranscript⟩ | hrun
  · refine .inl ⟨id, hid, by rw [activates?, hrun]; exact htranscript, ?_⟩
    rw [meet]
    split <;> simp_all
  · refine .inr ⟨?_, ?_⟩
    · rw [activates?]
      split
      · rename_i service h
        exact absurd h (hrun service)
      · rfl
    · rw [meet]
      split
      · rename_i service w h
        exact absurd (congrArg Prod.fst h) (hrun service)
      · rfl

/-- One step keeps the settings, and the account if it is known; otherwise the account is the one
that the step obtains. -/
theorem service_step (s : Session) (event : Step) :
    (s.step event).service =
      { s.service with botId := s.service.botId.or (activates? s event) } ∧
    ∀ id, activates? s event = some id → id ≠ "" := by
  cases event with
  | change change =>
    refine ⟨?_, fun id h => by cases h⟩
    rw [activates?, Option.or_none]
    · rfl
    · rintro weather ⟨⟩
  | demand weather d =>
    cases d with
    | activate =>
      rcases activate_cases s weather with ⟨id, hid, htell, hservice⟩ | ⟨htell, hservice⟩
      · constructor
        · rw [step, hservice, htell]
          cases s.service.botId <;> rfl
        · intro other h
          rw [htell] at h
          obtain rfl := Option.some.inj h
          exact hid
      · refine ⟨by rw [step, hservice, htell, Option.or_none], fun id h => ?_⟩
        rw [htell] at h
        cases h
    | _ => exact ⟨by simp [step, meet, activates?], fun id h => by cases h⟩

/-- **The account of the service.**  After a session the settings are the same, and the account is
the one that was known at first or, if there was none, the one that the first successful activation
obtained, whose id is not empty. -/
theorem service_run (s : Session) (steps : List Step) :
    (s.run steps).service =
      { s.service with botId := s.service.botId.or (s.history activates? steps).head? } ∧
    ∀ id ∈ s.history activates? steps, id ≠ "" := by
  induction steps generalizing s with
  | nil => exact ⟨by simp [run, history], by simp [history]⟩
  | cons event steps ih =>
    obtain ⟨hrest, hids⟩ := ih (s.step event)
    obtain ⟨hservice, hid⟩ := service_step s event
    constructor
    · refine hrest.trans ?_
      rw [hservice, history]
      cases activates? s event <;> simp
    · intro id hmem
      rw [history, List.mem_append, Option.mem_toList] at hmem
      rcases hmem with hmem | hmem
      · exact hid id hmem
      · exact hids id hmem

end Session

end SealedChannel
