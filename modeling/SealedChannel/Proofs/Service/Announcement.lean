import SealedChannel.Proofs.Program.Deadline
import SealedChannel.Proofs.Program.Lookup
import SealedChannel.Proofs.Service.ChangeEnds

/-!
# The announcement of a mode

A mode that was switched is announced by one post of the service.  After a switch to encryption the
post warns of the members who have no key yet: it names those of the first page of members for whom
nothing is stored, in the order in which they joined and as often as they joined.  A value that is
no key pair counts as a key.

## What is here

* `Service.keyless` — the members that a warning is about.
* `Service.noticeOf` — the text of an announcement, as a function of the platform and the store.
* `Service.finds_announcement` — an announcement that is made up has this text, and making it up
  changes nothing.
* `Service.HasAnnounced`, `Service.hasAnnounced_of_changed` — what a change that is told as one has
  announced, however the conditions change meanwhile.
* `Service.announced_switch` — what a switch has done when it is told as one.
-/

set_option autoImplicit false
namespace SealedChannel
namespace Service

open Program Operation

/-! ## The text -/

/-- The members of the first page of a channel under whose keys there is no value. -/
def keyless (host : Host) (values : String → Option Bytes) (channelId : String) : List String :=
  ((host.membersOf channelId).take host.teamLimit).filter fun userId =>
    (values (Key.pubkey userId)).isNone

/-- The end of encryption, announced on behalf of a user. -/
def plainNotice (user : User) : String :=
  "@all: messages on this channel **aren't encrypted anymore**. Set by @" ++ user.username

/-- The beginning of encryption, announced on behalf of a user. -/
def encryptedNotice (user : User) : String :=
  "@all: messages on this channel are now encrypted. Set by @" ++ user.username
    ++ ".\n**WARNING**: people not in this channel won't be able to read the backlog."

/-- The warning about users without a key; there is none if there are no such users. -/
def warningOf (users : List User) : String :=
  if users.isEmpty then ""
  else "\n**WARNING**: these people in the channel have not set up an encryption key, "
    ++ "and therefore won't be able to read messages:"
    ++ String.join (users.map fun user => " @" ++ user.username)

/-- The text that announces a mode, if all users whom it names have accounts. -/
def noticeOf (host : Host) (values : String → Option Bytes) (userId channelId : String) :
    Mode → Option String
  | .plain => do
    let user ← host.user? userId
    return plainNotice user
  | .p2p => do
    let user ← host.user? userId
    let missing ← (keyless host values channelId).mapM host.user?
    return encryptedNotice user ++ warningOf missing

variable {climate : Climate} {host : Host} {values : String → Option Bytes}

/-- The text does not depend on the conditions. -/
theorem noticeOf_turns {h : Host} (hturns : host.Turns climate h)
    (values : String → Option Bytes) (userId channelId : String) (mode : Mode) :
    noticeOf h values userId channelId mode = noticeOf host values userId channelId mode :=
  hturns.congr (f := fun h => noticeOf h values userId channelId mode) fun _ _ => by
    cases mode <;> rfl

/-! ## Making it up -/

theorem finds_has (l : Duration) (userId : String) :
    (PublicKeys.has l userId).Finds climate host values fun present =>
      present = (values (Key.pubkey userId)).isSome := by
  rw [PublicKeys.has, map_eq_pure_bind]
  refine (finds_get l _).bind fun raw hraw => finds_pure ?_
  rw [hraw]

/-- Of a list of users, those are found who have no value under their keys. -/
theorem finds_without (l : Duration) (userIds : List String) :
    (PublicKeys.without l userIds).Finds climate host values fun found =>
      found = userIds.filter fun userId => (values (Key.pubkey userId)).isNone := by
  induction userIds with
  | nil => exact finds_pure rfl
  | cons userId rest ih =>
    refine (finds_has l userId).bind fun present hpresent => ih.bind fun others hothers => ?_
    refine finds_pure ?_
    subst hpresent hothers
    cases hvalue : values (Key.pubkey userId) <;> simp [hvalue]

theorem finds_membersWithout (l : Duration) (channelId : String) :
    (PublicKeys.membersWithout l channelId).Finds climate host values fun found =>
      found = keyless host values channelId := by
  refine ((finds_host rfl).wrap _).bind fun perPage hperPage => ?_
  obtain ⟨h, _, hturns, hcall⟩ := hperPage
  have hlimit : perPage = host.teamLimit :=
    (Host.teamLimit_of_call hcall).trans (hturns.congr (f := Host.teamLimit) fun _ _ => rfl)
  subst hlimit
  refine ((finds_host rfl).wrap _).bind fun members hmembers => ?_
  obtain ⟨h', _, hturns', hcall'⟩ := hmembers
  have hmembersOf : h'.membersOf channelId = host.membersOf channelId :=
    hturns'.congr (f := fun h => h.membersOf channelId) fun _ _ => rfl
  refine ((finds_without l _).wrap _).imp fun found hfound => ?_
  rw [hfound, Host.userId_of_call hcall', hmembersOf, keyless]

theorem finds_getUser (userId : String) :
    (ask (.getUser userId)).Finds climate host values fun user => host.user? userId = some user := by
  refine (Finds.imp (finds_host rfl) fun user huser => ?_).wrap _
  obtain ⟨h, _, hturns, hcall⟩ := huser
  rw [← hturns.user? userId]
  exact Host.user?_of_call hcall

/-- The users whom a text mentions have accounts. -/
theorem finds_mentions (userIds : List String) :
    (mentions userIds).Finds climate host values fun text => ∃ users,
      userIds.mapM host.user? = some users ∧ users.isEmpty = userIds.isEmpty ∧
        text = String.join (users.map fun user => " @" ++ user.username) := by
  induction userIds with
  | nil => exact finds_pure ⟨[], rfl, rfl, rfl⟩
  | cons userId rest ih =>
    refine (finds_getUser userId).bind fun user huser => ih.bind fun others hothers => ?_
    obtain ⟨users, husers, -, rfl⟩ := hothers
    refine finds_pure ⟨user :: users, ?_, rfl, ?_⟩
    · rw [List.mapM_cons, huser, husers]
      rfl
    · rw [List.map_cons, String.join_cons]

theorem finds_missingKeysWarning (s : Service) (channelId : String) :
    (s.missingKeysWarning channelId).Finds climate host values fun warning => ∃ missing,
      (keyless host values channelId).mapM host.user? = some missing ∧
        warning = warningOf missing := by
  refine ((finds_membersWithout s.limit channelId).wrap _).bind fun userIds huserIds => ?_
  subst huserIds
  split
  · rename_i hempty
    rw [List.isEmpty_iff] at hempty
    refine finds_pure ⟨[], ?_, rfl⟩
    rw [hempty]
    rfl
  · rename_i hsome
    refine (finds_mentions _).bind fun mentioned hmentioned => ?_
    obtain ⟨missing, hmissing, hlength, rfl⟩ := hmentioned
    refine finds_pure ⟨missing, hmissing, ?_⟩
    rw [warningOf, hlength, if_neg hsome]

/-- **The text of an announcement.**  An announcement that is made up has the text that the platform
and the stored values tell, and making it up changes neither. -/
theorem finds_announcement (s : Service) (userId channelId : String) (mode : Mode) :
    (s.announcement userId channelId mode).Finds climate host values fun message =>
      noticeOf host values userId channelId mode = some message := by
  refine (finds_getUser userId).bind fun user huser => ?_
  cases mode with
  | plain =>
    refine finds_pure ?_
    rw [noticeOf, huser]
    rfl
  | p2p =>
    refine (s.finds_missingKeysWarning channelId).bind fun warning hwarning => ?_
    obtain ⟨missing, hmissing, rfl⟩ := hwarning
    refine finds_pure ?_
    rw [noticeOf, huser, hmissing]
    rfl

/-! ## Announcing a switch -/

variable {s : Service} {userId channelId message : String} {mode : Mode} {limit : Option Duration}
  {t : Moment}

/-- The platform after the event of a mode and a post of the service, which comes after the others
and under the next number. -/
def announcedOn (s : Service) (host : Host) (channelId : String) (mode : Mode)
    (message : String) : Host :=
  { host with
    events := host.events ++ eventsOf channelId mode host
    posts := host.posts ++
      [{ s.botPost channelId message with id := "post" ++ toString host.nextPost }]
    nextPost := host.nextPost + 1 }

/-- A mode has been announced by one post: its text is that of the platform as it was before and of
the values as they are, and nothing else has happened on the platform but the event, if it took it
at that moment. -/
def HasAnnounced (s : Service) (climate : Climate) (userId channelId : String) (mode : Mode)
    (before : Host) (after : World) : Prop :=
  ∃ message host, noticeOf before after.store.get? userId channelId mode = some message ∧
    before.Turns climate host ∧
      (s.announcedOn host channelId mode message).Turns climate after.host

/-- Conditions that came before are of no account. -/
theorem HasAnnounced.of_turns {before h : Host} {after : World} (hturns : before.Turns climate h)
    (hannounced : s.HasAnnounced climate userId channelId mode h after) :
    s.HasAnnounced climate userId channelId mode before after := by
  obtain ⟨message, host, hmessage, hhost, hafter⟩ := hannounced
  exact ⟨message, host, (noticeOf_turns hturns _ _ _ _).symm.trans hmessage, hturns.trans hhost,
    hafter⟩

/-- A switch that is told as one has been announced by one post. -/
theorem ensures_announceMode_posts (s : Service) (userId channelId : String) (mode : Mode) :
    (s.announceMode userId channelId mode true).run.Ensures climate limit
      (fun result t' => result = .ok true →
        s.HasAnnounced climate userId channelId mode t.world.host t'.world)
      (fun _ => True) t := by
  rw [announceMode, if_pos rfl, ensures_run_bind, ensures_run_attempt]
  refine .run_host (fun _ _ _ => trivial) fun w published host hw _ hpublish => ?_
  obtain rfl := eq_of_publishEvent hpublish
  let host := { w.host with events := w.host.events ++ eventsOf channelId mode w.host }
  let told : Moment := (t.turned w).answered (.host (.publishEvent (modeEvent channelId mode)))
    published { w with host }
  have hshows : told.Shows climate host w.store.get? := ⟨.refl climate _, rfl⟩
  have hfinds := s.finds_announcement userId channelId mode limit told hshows
  refine ensures_run_bind.2 (hfinds.imp (fun result t' hresult => ?_) fun _ => id)
  obtain ⟨hshows, hnotice⟩ := hresult
  cases result with
  | error e => rintro ⟨⟩
  | ok message =>
    refine ensures_run_bind.2 (ensures_run_wrap.2 ?_)
    refine .run_host (fun _ _ _ => trivial) fun w' created host' hw' _ hcreate => ?_
    cases created with
    | error e => rintro ⟨⟩
    | ok post =>
      intro _
      have hvalues : w'.store.get? = w.store.get? := (hshows.turned hw').values
      -- neither the event nor the post is seen by what the text is made of
      have hmessage : noticeOf t.world.host w'.store.get? userId channelId mode = some message := by
        rw [hvalues, ← hnotice message rfl, ← noticeOf_turns hw.host]
        cases mode <;> rfl
      refine ⟨message, w.host, hmessage, hw.host, ?_⟩
      rw [Host.eq_of_createPost hcreate]
      exact (hshows.turned hw').host.map (f := fun h => h.posted (s.botPost channelId message))
        fun _ _ => rfl

/-- The text of an announcement depends on the values under the keys of members alone. -/
theorem noticeOf_congr {values' : String → Option Bytes}
    (h : ∀ member ∈ host.membersOf channelId,
      values (Key.pubkey member) = values' (Key.pubkey member)) :
    noticeOf host values userId channelId mode = noticeOf host values' userId channelId mode := by
  have hkeyless : keyless host values channelId = keyless host values' channelId := by
    refine List.filter_congr fun member hmember => ?_
    rw [h member (List.mem_of_mem_take hmember)]
  cases mode with
  | plain => rfl
  | p2p => rw [noticeOf, noticeOf, hkeyless]

/-! ## The end of encryption -/

/-- The contract of a change that looks at one mode and at nobody's key: the store is called about
the mode alone, and the platform is not asked for a list of members. -/
def modeOnly (channelId : String) : Contract where
  allows
    | .store _ c => c.key = Key.mode channelId
    | .host .maxUsersPerTeam => False
    | .host (.getChannelMembers _ _ _) => False
    | _ => True
  answers _ _ := True

theorem ne_getChannelMembers_of_modeOnly {c : Call} (h : (modeOnly channelId).allows c)
    {channel : String} {page perPage : Nat} :
    c ≠ .host (.getChannelMembers channel page perPage) := by
  rintro rfl
  exact h

theorem isOn_pubkey_of_modeOnly {c : Call} (h : (modeOnly channelId).allows c) {other : String} :
    c.isOn (Key.pubkey other) = false := by
  cases c with
  | store l call =>
    have hkey : call.key = Key.mode channelId := h
    have hne : call.key ≠ Key.pubkey other := by
      rw [hkey]
      exact (Key.pubkey_ne_mode other channelId).symm
    exact decide_eq_false hne
  | _ => rfl

theorem keeps_exchange_modeOnly (m : Modes) (attempts : Nat) :
    (m.exchange channelId mode attempts).run.Keeps (modeOnly channelId) fun _ => True := by
  induction attempts with
  | zero => trivial
  | succ attempts ih =>
    refine .run_bind ⟨rfl, fun _ _ => trivial⟩ fun raw => ?_
    split
    · trivial
    · refine .run_bind ⟨rfl, fun _ _ => trivial⟩ fun swapped => ?_
      cases swapped with
      | true => trivial
      | false => exact ih

theorem keeps_replace_modeOnly (m : Modes) :
    (m.replace channelId mode).run.Keeps (modeOnly channelId) fun _ => True := by
  refine .run_bind ⟨rfl, fun _ _ => trivial⟩ fun raw => ?_
  split
  · trivial
  · exact .run_bind ⟨rfl, fun _ _ => trivial⟩ fun _ => trivial

/-- A call to the platform that does not ask for members. -/
theorem keeps_host_modeOnly {ε : Type} {c : HostCall} (f : HostError → ε)
    (hc : (modeOnly channelId).allows (.host c)) :
    (Operation.wrap f (.host c)).run.Keeps (modeOnly channelId) fun _ => True :=
  keeps_run_wrap.2 ⟨hc, fun _ _ => trivial⟩

/-- A change to plain text looks at nobody's key. -/
theorem keeps_changeMode_plain (s : Service) (userId channelId : String) :
    (s.changeMode userId channelId .plain).run.Keeps (modeOnly channelId) fun _ => True := by
  have hset : (s.modes.setIfDifferent channelId .plain).run.Keeps (modeOnly channelId)
      fun _ => True := by
    refine keeps_locked.2 ⟨trivial, fun _ => ?_⟩
    split
    · exact (keeps_exchange_modeOnly s.modes _).imp fun _ _ => ⟨trivial, fun _ => trivial⟩
    · exact (keeps_replace_modeOnly s.modes).imp fun _ _ => ⟨trivial, fun _ => trivial⟩
  have hmember : (requireMember userId channelId).run.Keeps (modeOnly channelId) fun _ => True :=
    .run_bind (keeps_host_modeOnly _ trivial) fun _ => trivial
  have hmessage : (s.announcement userId channelId .plain).run.Keeps (modeOnly channelId)
      fun _ => True :=
    .run_bind (keeps_host_modeOnly _ trivial) fun _ => trivial
  refine .run_bind hmember fun _ => .run_bind (keeps_run_wrap.2 hset) fun changed => ?_
  cases changed with
  | true =>
    refine .run_bind (keeps_run_attempt.2 ⟨trivial, fun _ _ => trivial⟩) fun _ => ?_
    refine .run_bind hmessage fun message => ?_
    exact .run_bind (keeps_host_modeOnly _ trivial) fun _ => trivial
  | false =>
    refine .run_bind (.run_bind (keeps_run_attempt.2 ⟨trivial, fun _ _ => trivial⟩) fun _ => ?_)
      fun _ => trivial
    trivial

/-! ## A change that is told as one -/

/-- A change that is told as one has been announced. -/
theorem hasAnnounced_of_changed {weather : Weather} {w : World}
    (h : ((s.changeMode userId channelId mode).run.runAmid weather limit w).1
      = .finished (.ok true)) :
    s.HasAnnounced weather.climate userId channelId mode w.host
      ((s.changeMode userId channelId mode).run.runAmid weather limit w).2 := by
  have hposts : (s.changeMode userId channelId mode).run.Ensures weather.climate limit
      (fun result t' => result = .ok true →
        s.HasAnnounced weather.climate userId channelId mode w.host t'.world)
      (fun _ => True) (.start w) := by
    rw [changeMode_eq]
    refine ensures_run_bind.2 ((ensures_switchMode_stored s.modes userId channelId mode).imp
      (fun result t' hresult => ?_) fun _ _ => trivial)
    obtain ⟨⟨-, hhost⟩, -⟩ := hresult
    rcases result with e | _ | _
    · rintro ⟨⟩
    · refine (s.ensures_announceMode_false userId channelId mode).imp (fun result t'' hend => ?_)
        fun _ _ => trivial
      rw [hend.1]
      rintro ⟨⟩
    · refine (s.ensures_announceMode_posts userId channelId mode).imp (fun result t'' hend => ?_)
        fun _ => id
      exact fun htrue => (hend htrue).of_turns hhost
  obtain ⟨_, hend⟩ := (hposts.of_runAmid fun _ => id).1 _ h
  exact hend rfl

/-- **A switch and its announcement.**  A change that is told as one has created one post, by the
service and in the channel.  Its text is told by the platform and the values that are stored then;
those are the values before the change, unless others write keys of members meanwhile.  The one
write of the change is the mode, so no other value changes that nobody else writes.  A change to
plain text neither asks for the members of a channel nor reads anybody's key. -/
theorem announced_switch {w w' : World}
    (h : (s.changeMode userId channelId mode).run.run limit w = (.finished (.ok true), w')) :
    (∃ message, noticeOf w.host w'.store.get? userId channelId mode = some message ∧
      ((∀ member ∈ w.host.membersOf channelId, w.store.Spares (Key.pubkey member)) →
        noticeOf w.host w.store.get? userId channelId mode = some message) ∧
      w'.host = s.announcedOn w.host channelId mode message) ∧
    ((s.changeMode userId channelId mode).run.transcript limit w).filterMap Exchange.write?
      = [(Key.mode channelId, some mode.encode)] ∧
    (∀ key, key ≠ Key.mode channelId → w.store.Spares key →
      w'.store.get? key = w.store.get? key) ∧
    (mode = .plain → ∀ e ∈ (s.changeMode userId channelId mode).run.transcript limit w,
      (∀ channel page perPage, e.call ≠ .host (.getChannelMembers channel page perPage)) ∧
      ∀ other, e.call.isOn (Key.pubkey other) = false) := by
  have hother (key : String) (hkey : key ≠ Key.mode channelId) (hspares : w.store.Spares key) :
      w'.store.get? key = w.store.get? key := by
    have hwrites : (s.changeMode userId channelId mode).run.Writes fun key _ =>
        key = Key.mode channelId :=
      (s.within_changeMode (r := ⟨fun _ => True, fun key _ => key = Key.mode channelId,
        fun _ => True⟩) userId trivial rfl (fun _ => trivial) trivial).writes
    by_contra hne
    have hchanged : ((s.changeMode userId channelId mode).run.run limit w).2.store.get? key ≠
        w.store.get? key := by
      rwa [h]
    exact hkey (hwrites.of_get?_run_ne hspares hchanged)
  have hamid : (s.changeMode userId channelId mode).run.runAmid [] limit w =
      (.finished (.ok true), w') := by
    rw [runAmid_nil, h]
  have hannounced := hasAnnounced_of_changed (congrArg Prod.fst hamid)
  rw [hamid, Weather.climate_nil] at hannounced
  obtain ⟨message, _, hmessage, hturns, hafter⟩ := hannounced
  obtain rfl := hturns.eq_of_calm
  have hhost := hafter.eq_of_calm
  refine ⟨⟨message, hmessage, fun hspares => ?_, hhost⟩, ?_, hother, ?_⟩
  · rw [← hmessage]
    refine noticeOf_congr fun member hmember => ?_
    exact (hother _ (Key.pubkey_ne_mode member channelId) (hspares member hmember)).symm
  · have hends : (s.changeMode userId channelId mode).run.Ensures .calm limit _ _ (.start w) :=
      s.ensures_changeMode_ends userId channelId mode
    obtain ⟨_, hend⟩ := hends.of_run.1 _ (congrArg Prod.fst h)
    obtain ⟨_, -, hdoes⟩ := hend.does
    exact hdoes.writes
  · rintro rfl e he
    have hallows := ((s.keeps_changeMode_plain userId channelId).run fun _ _ _ _ => trivial).1 e he
    exact ⟨fun channel page perPage => ne_getChannelMembers_of_modeOnly hallows,
      fun other => isOn_pubkey_of_modeOnly hallows⟩

/-- A channel whose first page has four entries: the first member, whose key is no key pair, the
second one twice, and the third one once.  The fourth member is not on the page. -/
def surveyedWorld : World :=
  { World.new (Store.memory.seed (Key.pubkey "u") [0x78]) with
    host := { (((Host.new.addUser "u" "ann").2.addUser "v" "ben").2.addUser "x" "cyd").2 with
      members := Table.empty.insert "c" ["u", "v", "x", "v", "y"]
      teamLimit := 4 } }

/-- The warning names the two members without a value, one of them twice. -/
theorem announced_switch_of_surveyedWorld :
    ∃ w', ((Service.new .default true).changeMode "u" "c" .p2p).run.run none surveyedWorld
        = (.finished (.ok true), w') ∧
      w'.host.posts = [{ Post.draft "" "c" ("@all: messages on this channel are now encrypted. "
        ++ "Set by @ann.\n**WARNING**: people not in this channel won't be able to read the backlog."
        ++ "\n**WARNING**: these people in the channel have not set up an encryption key, and "
        ++ "therefore won't be able to read messages: @ben @cyd @ben") with id := "post1" }] := by
  have hchanged : (((Service.new .default true).changeMode "u" "c" .p2p).run.run none
      surveyedWorld).1 = .finished (.ok true) := by
    decide +kernel
  have hspares (key : String) : surveyedWorld.store.Spares key :=
    Store.spares_new false true key
  have hrun : ((Service.new .default true).changeMode "u" "c" .p2p).run.run none surveyedWorld =
      (.finished (.ok true),
        (((Service.new .default true).changeMode "u" "c" .p2p).run.run none surveyedWorld).2) := by
    rw [← hchanged]
  obtain ⟨⟨message, -, hmessage, hhost⟩, -⟩ := announced_switch hrun
  have htext : noticeOf surveyedWorld.host surveyedWorld.store.get? "u" "c" .p2p = some
      ("@all: messages on this channel are now encrypted. "
        ++ "Set by @ann.\n**WARNING**: people not in this channel won't be able to read the backlog."
        ++ "\n**WARNING**: these people in the channel have not set up an encryption key, and "
        ++ "therefore won't be able to read messages: @ben @cyd @ben") := by
    decide +kernel
  obtain rfl := Option.some.inj ((hmessage fun _ _ => hspares _).symm.trans htext)
  refine ⟨_, hrun, ?_⟩
  rw [hhost]
  rfl

end Service
end SealedChannel
