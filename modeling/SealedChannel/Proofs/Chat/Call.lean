import SealedChannel.Proofs.Program.Exchange

/-!
# What a call to the platform does

The platform keeps lists of what it has been asked to deliver, and a call can only add to them.  It
answers about accounts and members as they are, and changes neither the members of a channel nor the
faults in force.

## What is here

* `Exchange.event?`, `Exchange.mail?` — what an exchange has published or mailed.
* `Host.Adds`, `Host.call_adds` — what a call leaves as it was, and what it adds.
* `Host.eq_of_asks`, `Host.eq_of_createPost`, `Host.posts_sendEphemeralPost` — the platform after a
  question, a post, and a notice to one user.
* `Host.user?_of_call`, `Host.mem_membersOf_of_call`, `Host.userId_of_call` — what answers say about
  accounts and members.
-/

set_option autoImplicit false
namespace SealedChannel

/-! ## Exchanges -/

namespace Exchange

/-- The event that an exchange has published. -/
def event? : Exchange → Option Event
  | ⟨.host (.publishEvent event), some (.ok _)⟩ => some event
  | _ => none

/-- The mail that an exchange has sent. -/
def mail? : Exchange → Option Mail
  | ⟨.host (.sendMail recipient subject body), some (.ok _)⟩ => some ⟨recipient, subject, body⟩
  | _ => none

theorem event?_none (c : Call) : event? ⟨c, none⟩ = none := by
  cases c with
  | host c => cases c <;> rfl
  | _ => rfl

theorem mail?_none (c : Call) : mail? ⟨c, none⟩ = none := by
  cases c with
  | host c => cases c <;> rfl
  | _ => rfl

/-- Only a call that sends a mail has sent it. -/
theorem call_of_mail? {e : Exchange} {mail : Mail} (h : e.mail? = some mail) :
    e.call = .host (.sendMail mail.recipient mail.subject mail.body) := by
  unfold mail? at h
  split at h
  · cases h; rfl
  · cases h

end Exchange

/-! ## Calls -/

/-- Whether a call only asks for something. -/
def HostCall.asks : HostCall → Bool
  | .getUser _ | .getChannelMember _ _ | .getChannelMembers _ _ _ | .maxUsersPerTeam => true
  | _ => false

namespace Host

/-- What a call to the platform leaves as it was, and what it adds to the lists of what was
delivered. -/
structure Adds (h : Host) (e : Exchange) (h' : Host) : Prop where
  members : h'.members = h.members
  faults : h'.faults = h.faults
  events : h'.events = h.events ++ e.event?.toList
  mails : h'.mails = h.mails ++ e.mail?.toList

variable {h h' : Host} {c : HostCall} {answer : Except HostError c.Answer}

/-- A call that meets no fault. -/
theorem perform_adds (h : Host) (c : HostCall) :
    h.Adds ⟨.host c, some (h.perform c).1⟩ (h.perform c).2 := by
  cases c with
  | getUser id =>
    rw [perform]
    split <;> constructor <;> simp [Exchange.event?, Exchange.mail?]
  | getChannelMember channelId userId =>
    rw [perform]
    split <;> constructor <;> simp [Exchange.event?, Exchange.mail?]
  | sendMail recipient subject body =>
    rw [perform]
    split <;> constructor <;> simp [Exchange.event?, Exchange.mail?]
  | createPost post =>
    rw [perform]
    split <;> constructor <;> simp [Exchange.event?, Exchange.mail?, assignId]
  | _ => constructor <;> simp [perform, Exchange.event?, Exchange.mail?, assignId]

/-- **Calls and the platform.**  So does any call. -/
theorem call_adds (hcall : h.call c = some (answer, h')) :
    h.Adds ⟨.host c, some answer⟩ h' := by
  rw [call] at hcall
  split at hcall
  · cases hcall
  · cases hcall
    cases c <;> constructor <;> simp [Exchange.event?, Exchange.mail?]
  · have hadds := h.perform_adds c
    rwa [Option.some.inj hcall] at hadds

/-- A call that succeeds has met no fault. -/
theorem perform_of_call {a : c.Answer} (hcall : h.call c = some (.ok a, h')) :
    h.perform c = (.ok a, h') := by
  rw [call] at hcall
  split at hcall
  · cases hcall
  · cases hcall
  · exact Option.some.inj hcall

/-- A call that only asks changes nothing. -/
theorem eq_of_asks (hc : c.asks = true) (hcall : h.call c = some (answer, h')) : h' = h := by
  have hperform : (h.perform c).2 = h := by
    cases c with
    | getUser userId =>
      rw [perform]
      split <;> rfl
    | getChannelMember channelId userId =>
      rw [perform]
      split <;> rfl
    | getChannelMembers channelId page perPage => rfl
    | maxUsersPerTeam => rfl
    | _ => cases hc
  rw [call] at hcall
  split at hcall
  · cases hcall
  · cases hcall
    rfl
  · rw [← hperform, Option.some.inj hcall]

/-- The platform with one more post, which comes after the others and under the next number. -/
def posted (h : Host) (post : Post) : Host :=
  { h with
    posts := h.posts ++ [{ post with id := "post" ++ toString h.nextPost }]
    nextPost := h.nextPost + 1 }

theorem eq_of_createPost {post created : Post}
    (hcall : h.call (.createPost post) = some (.ok created, h')) : h' = h.posted post := by
  have hperform := perform_of_call hcall
  rw [perform] at hperform
  split at hperform
  · cases hperform
  · cases hperform
    rfl

/-- A notice to one user is not among the posts. -/
theorem posts_sendEphemeralPost {userId : String} {post : Post} {answer : Except HostError Post}
    (hcall : h.call (.sendEphemeralPost userId post) = some (answer, h')) : h'.posts = h.posts := by
  rw [call] at hcall
  split at hcall
  · cases hcall
  · cases hcall; rfl
  · cases hcall; rfl

/-! ## Accounts -/

/-- An account that is looked up is the one that the platform has. -/
theorem user?_of_call {userId : String} {user : User}
    (hcall : h.call (.getUser userId) = some (.ok user, h')) : h.user? userId = some user := by
  have hperform := perform_of_call hcall
  rw [perform] at hperform
  split at hperform
  · rename_i found hfound
    cases hperform
    exact hfound
  · cases hperform

/-- An event that is published leaves the accounts as they were. -/
theorem user?_publishEvent {event : Event} {answer : Except HostError Unit}
    (hcall : h.call (.publishEvent event) = some (answer, h')) (userId : String) :
    h'.user? userId = h.user? userId := by
  rw [call] at hcall
  split at hcall
  · cases hcall
  · cases hcall; rfl
  · cases hcall; rfl

/-! ## Members -/

/-- No call changes who is a member of a channel. -/
theorem membersOf_call (hcall : h.call c = some (answer, h')) (channelId : String) :
    h'.membersOf channelId = h.membersOf channelId := by
  rw [membersOf, membersOf, (call_adds hcall).members]

/-- The platform confirms members only. -/
theorem mem_membersOf_of_call {channelId userId : String} {member : ChannelMember}
    (hcall : h.call (.getChannelMember channelId userId) = some (.ok member, h')) :
    userId ∈ h.membersOf channelId := by
  have hperform := perform_of_call hcall
  rw [perform] at hperform
  split at hperform
  · rename_i hmem
    exact List.contains_iff_mem.1 hmem
  · cases hperform

/-- The first page of the members of a channel holds the members who joined first. -/
theorem userId_of_call {channelId : String} {perPage : Nat} {members : List ChannelMember}
    (hcall : h.call (.getChannelMembers channelId 0 perPage) = some (.ok members, h')) :
    members.map ChannelMember.userId = (h.membersOf channelId).take perPage := by
  have hperform := perform_of_call hcall
  cases hperform
  simp [firstOfPage, Function.comp_def]

/-- The bound for a list of members is the one that the platform has. -/
theorem teamLimit_of_call {perPage : Nat}
    (hcall : h.call .maxUsersPerTeam = some (.ok perPage, h')) : perPage = h.teamLimit := by
  have hperform := perform_of_call hcall
  cases hperform
  rfl

/-- A question about a member of a channel changes nothing. -/
theorem eq_of_getChannelMember {channelId userId : String} {answer : Except HostError ChannelMember}
    (hcall : h.call (.getChannelMember channelId userId) = some (answer, h')) : h' = h :=
  eq_of_asks rfl hcall

end Host

end SealedChannel
