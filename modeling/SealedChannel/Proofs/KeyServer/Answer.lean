import SealedChannel.KeyServer.Index
import SealedChannel.KeyServer.Server
import SealedChannel.Proofs.KeyServer.Armor

/-!
# Answers of a key server

Two answers decide how a key is retrieved.  The first one selects a record, the second one delivers
a block, and either of them may make an error instead; some errors come of both.

## What is here

* `Reply.Succeeded`, `Refused` — the replies that are read, and the errors that an answer makes at
  once.
* `told`, `told_eq_some_iff`, `told_eq_none_iff`, `told_eq_error_iff` — what an answer tells.
* `Selects`, `SelectsNone`, `selected_eq_ok_iff`, `selected_eq_error_iff` — what the first answer
  selects.
* `delivered`, `delivered_eq_ok_iff`, `delivered_eq_error_iff` — what the second answer delivers.
-/

set_option autoImplicit false
namespace SealedChannel
namespace KeyServer

/-! ## Values that may be errors -/

section Bind

variable {ε α β : Type} {x : Except ε α} {f : α → Except ε β}

theorem bind_eq_ok_iff {b : β} : x >>= f = .ok b ↔ ∃ a, x = .ok a ∧ f a = .ok b := by
  cases x <;> simp [bind, Except.bind]

theorem bind_eq_error_iff {e : ε} :
    x >>= f = .error e ↔ x = .error e ∨ ∃ a, x = .ok a ∧ f a = .error e := by
  cases x <;> simp [bind, Except.bind]

end Bind

/-! ## Answers at large -/

/-- A reply of success. -/
def Reply.Succeeded (reply : Reply) : Prop :=
  200 ≤ reply.status ∧ reply.status < 300

/-- The body of a reply as text. -/
def Reply.text (reply : Reply) : String :=
  Utf8.decodeLossy reply.body

/-- No key is missing where there is a reply of success. -/
theorem Reply.Succeeded.status_ne {reply : Reply} (h : reply.Succeeded) : reply.status ≠ 404 := by
  obtain ⟨-, h⟩ := h
  omega

/-- An answer ends the search with an error, whatever was asked. -/
inductive Refused : Except String Reply → Error → Prop
  | transport (reason : String) : Refused (.error reason) (.transport reason)
  | status {reply : Reply} (h : ¬ reply.Succeeded) (hmissing : reply.status ≠ 404) :
    Refused (.ok reply) (.status reply.status)

@[simp]
theorem refused_transport_iff {answer : Except String Reply} {reason : String} :
    Refused answer (.transport reason) ↔ answer = .error reason := by
  constructor
  · rintro ⟨⟩
    rfl
  · rintro rfl
    exact .transport reason

@[simp]
theorem refused_status_iff {answer : Except String Reply} {status : Nat} :
    Refused answer (.status status) ↔
      ∃ reply, answer = .ok reply ∧ reply.status = status ∧ ¬ reply.Succeeded ∧ status ≠ 404 := by
  constructor
  · intro h
    cases h with
    | status hfailed hmissing => exact ⟨_, rfl, rfl, hfailed, hmissing⟩
  · rintro ⟨reply, rfl, rfl, hfailed, hmissing⟩
    exact .status hfailed hmissing

@[simp]
theorem not_refused_noValidKey {answer : Except String Reply} : ¬ Refused answer .noValidKey := by
  rintro ⟨⟩

@[simp]
theorem not_refused_invalidFormat {answer : Except String Reply} :
    ¬ Refused answer .invalidFormat := by
  rintro ⟨⟩

/-- What an answer tells: the text of a reply of success, `none` if there is no key. -/
def told : Except String Reply → Except Error (Option String)
  | .error reason => .error (.transport reason)
  | .ok reply =>
    if 200 ≤ reply.status ∧ reply.status < 300 then .ok (some reply.text)
    else if reply.status = 404 then .ok none
    else .error (.status reply.status)

variable {answer : Except String Reply} {text keyId : String} {e : Error}

theorem told_eq_some_iff :
    told answer = .ok (some text) ↔ ∃ reply, answer = .ok reply ∧ reply.Succeeded ∧
      reply.text = text := by
  cases answer with
  | error reason => simp [told]
  | ok reply =>
    simp only [told, Except.ok.injEq, exists_eq_left']
    split
    · rename_i h
      simp [Reply.Succeeded, h]
    · rename_i h
      split <;> simp [Reply.Succeeded, h]

theorem told_eq_none_iff :
    told answer = .ok none ↔ ∃ reply, answer = .ok reply ∧ reply.status = 404 := by
  cases answer with
  | error reason => simp [told]
  | ok reply =>
    simp only [told, Except.ok.injEq, exists_eq_left']
    split
    · rename_i h
      simpa using Reply.Succeeded.status_ne h
    · split <;> simpa

theorem told_eq_error_iff : told answer = .error e ↔ Refused answer e := by
  constructor
  · intro h
    rcases answer with reason | reply
    · cases h
      exact .transport reason
    · rw [told] at h
      split at h
      · cases h
      · rename_i hfailed
        split at h
        · cases h
        · rename_i hmissing
          cases h
          exact .status hfailed hmissing
  · rintro (reason | ⟨hfailed, hmissing⟩)
    · rfl
    · exact (if_neg hfailed).trans (if_neg hmissing)

/-! ## The first answer -/

/-- The first answer selects a record: the first usable one of the index. -/
def Selects (answer : Except String Reply) (l : Listing) : Prop :=
  ∃ reply before after, answer = .ok reply ∧ reply.Succeeded ∧
    Index.parse reply.text = before ++ l :: after ∧ (∀ other ∈ before, other.isUsable = false) ∧
    l.isUsable = true

/-- The first answer selects nothing: there is no index, or no record in it is usable. -/
def SelectsNone (answer : Except String Reply) : Prop :=
  ∃ reply, answer = .ok reply ∧
    (reply.status = 404 ∨ reply.Succeeded ∧ ∀ l ∈ Index.parse reply.text, l.isUsable = false)

/-- The id that the first answer selects. -/
def selected (answer : Except String Reply) : Except Error String :=
  told answer >>= fun body => Index.firstUsable ((body.map Index.parse).getD [])

theorem firstUsable_eq_ok_iff {listings : List Listing} :
    Index.firstUsable listings = .ok keyId ↔ ∃ before l after, listings = before ++ l :: after ∧
      (∀ other ∈ before, other.isUsable = false) ∧ l.isUsable = true ∧ l.keyId = keyId := by
  rw [Index.firstUsable]
  cases hfind : listings.find? Listing.isUsable with
  | none =>
    simp only [List.find?_eq_none] at hfind
    refine ⟨fun h => (by cases h), ?_⟩
    rintro ⟨before, l, after, rfl, -, hl, -⟩
    exact absurd hl (hfind l (by simp))
  | some l =>
    obtain ⟨hl, before, after, rfl, hbefore⟩ := List.find?_eq_some_iff_append.1 hfind
    simp only [Bool.not_eq_true'] at hbefore
    constructor
    · intro h
      cases h
      exact ⟨before, l, after, rfl, hbefore, hl, rfl⟩
    · rintro ⟨before', l', after', heq, hbefore', hl', rfl⟩
      have hfind' : (before' ++ l' :: after').find? Listing.isUsable = some l' :=
        List.find?_eq_some_iff_append.2 ⟨hl', before', after', rfl, by simpa using hbefore'⟩
      rw [← heq, hfind] at hfind'
      cases hfind'
      rfl

theorem firstUsable_eq_error_iff {listings : List Listing} :
    Index.firstUsable listings = .error e ↔
      e = .noValidKey ∧ ∀ l ∈ listings, l.isUsable = false := by
  rw [Index.firstUsable]
  cases hfind : listings.find? Listing.isUsable with
  | none =>
    simp only [List.find?_eq_none, Bool.not_eq_true] at hfind
    simp only [Except.error.injEq, eq_comm (a := Error.noValidKey)]
    exact ⟨fun h => ⟨h, hfind⟩, fun h => h.1⟩
  | some l =>
    refine ⟨fun h => (by cases h), fun h => ?_⟩
    obtain ⟨hl, before, after, rfl, -⟩ := List.find?_eq_some_iff_append.1 hfind
    rw [h.2 l (by simp)] at hl
    cases hl

theorem selected_eq_ok_iff :
    selected answer = .ok keyId ↔ ∃ l, Selects answer l ∧ l.keyId = keyId := by
  rw [selected, bind_eq_ok_iff]
  constructor
  · rintro ⟨_ | body, htold, hfirst⟩
    · cases hfirst
    · obtain ⟨reply, hreply, hsucceeded, rfl⟩ := told_eq_some_iff.1 htold
      obtain ⟨before, l, after, hparse, hbefore, hl, hid⟩ := firstUsable_eq_ok_iff.1 hfirst
      exact ⟨l, ⟨reply, before, after, hreply, hsucceeded, hparse, hbefore, hl⟩, hid⟩
  · rintro ⟨l, ⟨reply, before, after, hreply, hsucceeded, hparse, hbefore, hl⟩, hid⟩
    refine ⟨some reply.text, told_eq_some_iff.2 ⟨reply, hreply, hsucceeded, rfl⟩, ?_⟩
    exact firstUsable_eq_ok_iff.2 ⟨before, l, after, hparse, hbefore, hl, hid⟩

/-- No two ids are selected. -/
theorem Selects.keyId_eq {l l' : Listing} (h : Selects answer l) (h' : Selects answer l') :
    l.keyId = l'.keyId := by
  have hl : selected answer = .ok l.keyId := selected_eq_ok_iff.2 ⟨l, h, rfl⟩
  rw [selected_eq_ok_iff.2 ⟨l', h', rfl⟩] at hl
  exact (Except.ok.inj hl).symm

theorem selected_eq_error_iff :
    selected answer = .error e ↔ Refused answer e ∨ e = .noValidKey ∧ SelectsNone answer := by
  rw [selected, bind_eq_error_iff, told_eq_error_iff]
  refine or_congr_right ?_
  constructor
  · rintro ⟨_ | body, htold, hfirst⟩
    · obtain ⟨reply, hreply, hmissing⟩ := told_eq_none_iff.1 htold
      exact ⟨(firstUsable_eq_error_iff.1 hfirst).1, reply, hreply, .inl hmissing⟩
    · obtain ⟨reply, hreply, hsucceeded, rfl⟩ := told_eq_some_iff.1 htold
      obtain ⟨he, hnone⟩ := firstUsable_eq_error_iff.1 hfirst
      exact ⟨he, reply, hreply, .inr ⟨hsucceeded, hnone⟩⟩
  · rintro ⟨rfl, reply, hreply, hmissing | ⟨hsucceeded, hnone⟩⟩
    · exact ⟨none, told_eq_none_iff.2 ⟨reply, hreply, hmissing⟩, rfl⟩
    · refine ⟨some reply.text, told_eq_some_iff.2 ⟨reply, hreply, hsucceeded, rfl⟩, ?_⟩
      exact firstUsable_eq_error_iff.2 ⟨rfl, hnone⟩

/-- An answer that selects a record is not refused. -/
theorem Selects.not_refused {l : Listing} (h : Selects answer l) : ¬ Refused answer e := by
  intro he
  have hselected : selected answer = .error e := selected_eq_error_iff.2 (.inl he)
  rw [selected_eq_ok_iff.2 ⟨l, h, rfl⟩] at hselected
  cases hselected

/-! ## The second answer -/

/-- The key block that the second answer delivers. -/
def delivered (answer : Except String Reply) : Except Error String :=
  told answer >>= fun body => body.elim (.error .noValidKey) Armor.extract

theorem delivered_eq_ok_iff : delivered answer = .ok text ↔
    ∃ reply, answer = .ok reply ∧ reply.Succeeded ∧ Armor.extract reply.text = .ok text := by
  rw [delivered, bind_eq_ok_iff]
  constructor
  · rintro ⟨_ | body, htold, hblock⟩
    · cases hblock
    · obtain ⟨reply, hreply, hsucceeded, rfl⟩ := told_eq_some_iff.1 htold
      exact ⟨reply, hreply, hsucceeded, hblock⟩
  · rintro ⟨reply, hreply, hsucceeded, hblock⟩
    exact ⟨some reply.text, told_eq_some_iff.2 ⟨reply, hreply, hsucceeded, rfl⟩, hblock⟩

theorem delivered_eq_error_iff : delivered answer = .error e ↔ Refused answer e ∨
    ∃ reply, answer = .ok reply ∧ (e = .noValidKey ∧ reply.status = 404 ∨
      e = .invalidFormat ∧ reply.Succeeded ∧ ∀ block, Armor.extract reply.text ≠ .ok block) := by
  rw [delivered, bind_eq_error_iff, told_eq_error_iff]
  refine or_congr_right ?_
  constructor
  · rintro ⟨_ | body, htold, hblock⟩
    · obtain ⟨reply, hreply, hmissing⟩ := told_eq_none_iff.1 htold
      cases hblock
      exact ⟨reply, hreply, .inl ⟨rfl, hmissing⟩⟩
    · obtain ⟨reply, hreply, hsucceeded, rfl⟩ := told_eq_some_iff.1 htold
      obtain ⟨he, hnone⟩ := Armor.extract_eq_error_iff.1 hblock
      exact ⟨reply, hreply, .inr ⟨he, hsucceeded, hnone⟩⟩
  · rintro ⟨reply, hreply, ⟨rfl, hmissing⟩ | ⟨rfl, hsucceeded, hnone⟩⟩
    · exact ⟨none, told_eq_none_iff.2 ⟨reply, hreply, hmissing⟩, rfl⟩
    · refine ⟨some reply.text, told_eq_some_iff.2 ⟨reply, hreply, hsucceeded, rfl⟩, ?_⟩
      exact Armor.extract_eq_error_iff.2 ⟨rfl, hnone⟩

end KeyServer

end SealedChannel
