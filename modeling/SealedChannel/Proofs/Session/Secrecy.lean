import SealedChannel.Proofs.Program.Secrecy
import SealedChannel.Proofs.Session.Basic

/-!
# Backups stay with their users

Nobody learns anything about the backup of another user.  Whether there is one, and which, makes no
difference to what anybody else is told, to what the platform and the key servers are asked for, or
to what is left in the store.  This holds when demands are met one after another as well as when
they take turns call by call, and whatever they fail of.

## What is here

* `Demand.avoids_program` — a demand does not read the backup of a user on whose behalf it is not.
* `Session.reply`, `Session.told` — what comes of a demand, and that with the calls behind it.
* `Session.run_agreesOff`, `Deployment.run_agreesOff` — two sessions, or two deployments, that
  differ in a backup alone go on alike.
* `Session.backup_secrecy` — both, from any two worlds that differ in a backup alone.
-/

set_option autoImplicit false
namespace SealedChannel

/-! ## Demands -/

namespace World

variable {w w' : World} {key : String}

/-- The same change to both worlds keeps them alike. -/
theorem AgreesOff.change (h : w.AgreesOff key w') (change : Change) :
    (w.change change).AgreesOff key (w'.change change) := by
  obtain ⟨store, rfl, hstore⟩ := h.exists_store
  cases change with
  | write write => exact agreesOff_store (hstore.seed write.key write.value)
  | faults latency refuseGets refuseSets refuseDeletes =>
    obtain ⟨entries, rfl, hentries⟩ := hstore.exists_entries
    exact agreesOff_store (Store.agreesOff_entries hentries)
  | host host => exact agreesOff_store (w := { w with host }) hstore
  | keyServer keyServer => exact agreesOff_store (w := { w with keyServer }) hstore

end World

/-- A demand does not read the backup of a user unless it is made on behalf of that user. -/
theorem Demand.avoids_program (s : Service) {d : Demand} {userId : String}
    (h : d.user? ≠ some userId) :
    (d.program s).Keeps (.avoids (Key.backup userId)) fun _ => True :=
  (d.within_program s).avoids fun hread => h (Key.openTo_backup_iff.1 hread)

/-- A request is answered in the same way in two worlds that differ in the backup of a user whom it
does not name. -/
theorem Http.response_agreesOff (weather : Weather) (s : Service) {r : Request} {userId : String}
    {w w' : World} (hr : r.user? ≠ some userId) (hw : w.AgreesOff (Key.backup userId) w') :
    (answerAmid weather s r w).1 = (answerAmid weather s r w').1 := by
  rw [answerAmid, answerAmid]
  cases hroute : Route.ofPath? r.path with
  | none => rfl
  | some route =>
    have havoids : (Api.respond s route r).Keeps (.avoids (Key.backup userId)) fun _ => True :=
      (Api.within_respond s hroute).avoids fun hread => hr (Key.openTo_backup_iff.1 hread)
    obtain ⟨-, houtcome, -⟩ := havoids.runAmid_agreesOff hw weather (some deadline)
    exact congrArg (fun outcome => finish route r (responseTo outcome)) houtcome

/-! ## One after another -/

namespace Session

open Program

/-- What comes of a demand.  A request always gets a response. -/
def reply (s : Session) (weather : Weather) : Demand → Outcome Reply
  | .answer request => .finished (.response (Http.answerAmid weather s.service request s.world).1)
  | d => ((d.program s.service).runAmid weather none s.world).1

/-- What a step tells: what comes of a demand, and the calls behind it. -/
def told (s : Session) : Step → Option (Outcome Reply × List Exchange)
  | .demand weather d => some (s.reply weather d, s.exchanges weather d)
  | .change _ => none

/-- Two sessions differ in the value under one key at most. -/
structure AgreesOff (key : String) (s s' : Session) : Prop where
  service : s'.service = s.service
  world : s.world.AgreesOff key s'.world

variable {s s' : Session} {userId : String}

/-- The service after a demand does not depend on the backup of a user on whose behalf the demand is
not made. -/
theorem service_meet_agreesOff (h : s.AgreesOff (Key.backup userId) s') (weather : Weather)
    (d : Demand) : (s'.meet weather d).service = (s.meet weather d).service := by
  cases d with
  -- no other demand leaves anything behind in the service
  | activate =>
    have havoids : s.service.activate.run.Keeps (.avoids (Key.backup userId)) fun _ => True :=
      (s.service.within_activate (r := Demand.activate.reach)).avoids fun hread =>
        nomatch (Key.openTo_backup_iff.1 hread : (none : Option String) = some userId)
    obtain ⟨-, hactivated, -⟩ := havoids.runAmid_agreesOff h.world weather none
    rw [meet, meet, h.service]
    generalize s.service.activate.run.runAmid weather none s.world = first,
      s.service.activate.run.runAmid weather none s'.world = second at hactivated
    obtain ⟨outcome, w⟩ := first
    obtain ⟨other, w'⟩ := second
    obtain rfl : outcome = other := hactivated
    cases outcome with
    | finished result => cases result <;> rfl
    | _ => rfl
  | _ => simpa only [meet] using h.service

/-- A demand that is not made on behalf of a user is met in the same way in two sessions that differ
in the backup of that user alone. -/
theorem meet_agreesOff (h : s.AgreesOff (Key.backup userId) s') (weather : Weather) {d : Demand}
    (hd : d.user? ≠ some userId) :
    s.reply weather d = s'.reply weather d ∧ s.exchanges weather d = s'.exchanges weather d ∧
      (s.meet weather d).AgreesOff (Key.backup userId) (s'.meet weather d) := by
  have hservice := service_meet_agreesOff h weather d
  obtain ⟨service, w'⟩ := s'
  obtain rfl : service = s.service := h.service
  obtain ⟨htranscript, houtcome, hafter⟩ :=
    (d.avoids_program s.service hd).runAmid_agreesOff h.world weather d.limit?
  refine ⟨?_, htranscript, hservice, ?_⟩
  · cases d with
    | answer request =>
      have hresponse := Http.response_agreesOff weather s.service hd h.world
      rw [reply, reply, hresponse]
    | _ => exact houtcome
  · rw [world_meet, world_meet]
    exact hafter

theorem step_agreesOff (h : s.AgreesOff (Key.backup userId) s') (event : Step)
    (hevent : ∀ weather d, event = .demand weather d → d.user? ≠ some userId) :
    told s event = told s' event ∧
      (s.step event).AgreesOff (Key.backup userId) (s'.step event) := by
  cases event with
  | demand weather d =>
    obtain ⟨hreply, hexchanges, hafter⟩ := meet_agreesOff h weather (hevent weather d rfl)
    exact ⟨by rw [told, told, hreply, hexchanges], hafter⟩
  | change change => exact ⟨rfl, h.service, h.world.change change⟩

/-- Two sessions that differ in the backup of a user alone go on alike as long as no demand is made
on behalf of that user. -/
theorem run_agreesOff (h : s.AgreesOff (Key.backup userId) s') {steps : List Step}
    (hsteps : ∀ weather d, .demand weather d ∈ steps → d.user? ≠ some userId) :
    s.history told steps = s'.history told steps ∧
      (s.run steps).AgreesOff (Key.backup userId) (s'.run steps) := by
  induction steps generalizing s s' with
  | nil => exact ⟨rfl, h⟩
  | cons event steps ih =>
    obtain ⟨htold, hafter⟩ := step_agreesOff h event fun weather d hd =>
      hsteps weather d (by rw [hd]; exact List.mem_cons_self)
    obtain ⟨hhistory, hlast⟩ := ih hafter fun weather d hd =>
      hsteps weather d (List.mem_cons_of_mem event hd)
    exact ⟨by rw [history, history, htold, hhistory], hlast⟩

end Session

/-! ## In turns -/

namespace Deployment

variable {ρ α : Type} {code : Nat → ρ → Program α} {key : String} {s s' t : Deployment ρ α}
  {w w' : World} {move : Move ρ} {moves : List (Move ρ)}

/-- Two deployments differ in the value under one key at most. -/
structure AgreesOff (key : String) (s t : Deployment ρ α) : Prop where
  world : s.world.AgreesOff key t.world
  tasks : t.tasks = s.tasks
  log : t.log = s.log

/-- No task reads a key any more. -/
def Avoids (key : String) (s : Deployment ρ α) : Prop :=
  ∀ u ∈ s.tasks, u.rest.Keeps (.avoids key) fun _ => True

/-- A step can be made in both of two deployments that differ under a key that no task reads, and
keeps them alike. -/
theorem step_agreesOff (h : s.AgreesOff key t) (hs : s.Avoids key)
    (hmove : ∀ process request, move = .start process request →
      (code process request).Keeps (.avoids key) fun _ => True)
    (hstep : s.step code move = some s') :
    ∃ t', t.step code move = some t' ∧ s'.AgreesOff key t' ∧ s'.Avoids key := by
  obtain ⟨world, tasks, log⟩ := t
  obtain ⟨hworld, htasks, hlog⟩ := h
  dsimp only at hworld htasks hlog
  subst htasks hlog
  rcases step_cases hstep with ⟨process, request, rfl, rfl⟩ |
    ⟨i, u, c, next, answer, after, rfl, hi, hcut, hrest, hreact, rfl⟩ |
    ⟨i, u, c, next, rfl, hi, hcut, hrest, rfl⟩ | ⟨change, rfl, rfl⟩
  · refine ⟨_, rfl, ⟨hworld, rfl, rfl⟩, fun u hu => ?_⟩
    rcases List.mem_append.1 hu with hu | hu
    · exact hs u hu
    · obtain rfl := List.mem_singleton.1 hu
      exact hmove process request rfl
  · have hkeeps := hs u (List.mem_of_getElem? hi)
    rw [hrest] at hkeeps
    obtain ⟨hallows, hnext⟩ := hkeeps
    -- a task meets the world with the locks of its own process
    have hreaction := (hworld.held (s.heldBy u.process)).react hallows
    change Reaction.AgreesOff key ((s.view u.process).react c) _ at hreaction
    rw [hreact] at hreaction
    generalize hother : World.react _ c = other at hreaction
    cases hreaction with
    | answered _ hafter =>
      refine ⟨_, step_advance hi hcut hrest hother, ⟨hafter, rfl, rfl⟩, fun v hv => ?_⟩
      rcases List.mem_or_eq_of_mem_set hv with hv | rfl
      · exact hs v hv
      · exact hnext answer trivial
  · refine ⟨_, step_drop hi hcut hrest, ⟨hworld.begin c, rfl, rfl⟩, fun v hv => ?_⟩
    rcases List.mem_or_eq_of_mem_set hv with hv | rfl
    · exact hs v hv
    · exact hs u (List.mem_of_getElem? hi)
  · exact ⟨_, rfl, ⟨hworld.change change, rfl, rfl⟩, hs⟩

/-- Two deployments that differ under a key go on alike as long as nobody starts a program that
reads the key. -/
theorem run_agreesOff (hw : w.AgreesOff key w')
    (hmoves : ∀ process request, .start process request ∈ moves →
      (code process request).Keeps (.avoids key) fun _ => True)
    (h : (idle w).run code moves = some s) :
    ∃ s', (idle w').run code moves = some s' ∧ s.AgreesOff key s' ∧ s.Avoids key := by
  induction moves, s, h using run_induction with
  | nil => exact ⟨idle w', rfl, ⟨hw, rfl, rfl⟩, fun u hu => by cases hu⟩
  | @concat before s move s₁ _ _ ih hstep =>
    obtain ⟨t, ht, hagree, havoids⟩ :=
      ih fun process request hmem => hmoves process request (List.mem_append_left _ hmem)
    have hmove (process : Nat) (request : ρ) (hstart : move = .start process request) :
        (code process request).Keeps (.avoids key) fun _ => True :=
      hmoves process request (by simp [hstart])
    obtain ⟨t', ht', hagree', havoids'⟩ := step_agreesOff hagree havoids hmove hstep
    exact ⟨t', by rw [run_concat, ht]; exact ht', hagree', havoids'⟩

end Deployment

/-! ## Secrecy -/

namespace Session

/-- **Backups stay with their users.**  Take two sessions that differ at most in the backup of one
user, and demands of which none is made on behalf of that user, in any weather.  Every demand comes
to the same and makes the same calls with the same answers, and afterwards the sessions differ in
that backup at most: what was mailed, posted and published is the same, and so is what the key
server was asked for.  The same holds if the demands take turns call by call and are cut off
anywhere. -/
theorem backup_secrecy {s s' : Session} {userId : String}
    (h : s.AgreesOff (Key.backup userId) s') :
    (∀ steps : List Step, (∀ weather d, .demand weather d ∈ steps → d.user? ≠ some userId) →
      s.history told steps = s'.history told steps ∧
        (s.run steps).AgreesOff (Key.backup userId) (s'.run steps)) ∧
    ∀ moves : List (Move Job),
      (∀ process job, .start process job ∈ moves → job.demand.user? ≠ some userId) →
        ∀ t, (Deployment.idle s.world).run Job.program moves = some t →
          ∃ t', (Deployment.idle s'.world).run Job.program moves = some t' ∧
            t.AgreesOff (Key.backup userId) t' := by
  refine ⟨fun steps hsteps => run_agreesOff h hsteps, fun moves hmoves t ht => ?_⟩
  have hprograms (process : Nat) (job : Job) (hstart : .start process job ∈ moves) :
      (job.program process).Keeps (.avoids (Key.backup userId)) fun _ => True :=
    job.demand.avoids_program job.service (hmoves process job hstart)
  obtain ⟨t', ht', hagree, -⟩ := Deployment.run_agreesOff h.world hprograms ht
  exact ⟨t', ht', hagree⟩

/-- A service whose store holds no backup. -/
def bareSession : Session :=
  ⟨.new .default true, { World.new .memory with host := (Host.new.addUser "u" "ann").2 }⟩

/-- The same with a backup of one user. -/
def backedSession : Session :=
  { bareSession with
    world := { bareSession.world with store := Store.memory.seed (Key.backup "v") [0x6B] } }

/-- Another user asks for a backup in every way that there is, under ids that look like keys. -/
def curiousSteps : List Step :=
  [.demand [] (.mailBackup "u"), .demand [] (.mailBackup "backup_gpg:v"),
    .demand [] (.keysOf ["v"]), .demand [] (.execute ⟨"u", "v", "/e2ee show_backup"⟩)]

theorem backup_secrecy_of_curiousSteps :
    bareSession.world.store.get? (Key.backup "v") ≠
        backedSession.world.store.get? (Key.backup "v") ∧
      bareSession.AgreesOff (Key.backup "v") backedSession ∧
      (∀ weather d, .demand weather d ∈ curiousSteps → d.user? ≠ some "v") ∧
      bareSession.history told curiousSteps = backedSession.history told curiousSteps := by
  have hentries : ∀ other, other ≠ Key.backup "v" → Store.memory.entries.get? other =
      (Store.memory.seed (Key.backup "v") [0x6B]).entries.get? other := by
    intro other hother
    simp [Store.seed, hother]
  have hagree : bareSession.AgreesOff (Key.backup "v") backedSession :=
    ⟨rfl, World.agreesOff_store (w := bareSession.world) (Store.agreesOff_entries hentries)⟩
  have hsteps : ∀ weather d, .demand weather d ∈ curiousSteps → d.user? ≠ some "v" := by
    intro weather d hd
    simp only [curiousSteps, List.mem_cons, List.not_mem_nil, or_false, Step.demand.injEq] at hd
    rcases hd with ⟨-, rfl⟩ | ⟨-, rfl⟩ | ⟨-, rfl⟩ | ⟨-, rfl⟩ <;> simp [Demand.user?]
  exact ⟨by decide +kernel, hagree, hsteps, ((backup_secrecy hagree).1 curiousSteps hsteps).1⟩

end Session

end SealedChannel
