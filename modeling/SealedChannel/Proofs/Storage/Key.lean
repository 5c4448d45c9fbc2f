import SealedChannel.Storage.Key

/-!
# The three kinds of key

Ids may hold anything, a colon or the beginning of a key included.  The three kinds of key are
still kept apart, because they begin with different letters, and within a kind a key is the key of
one id only.

## What is here

* `Key.pubkey_inj`, `Key.backup_inj`, `Key.mode_inj` — a key has one id.
* `Key.pubkey_ne_backup`, `Key.pubkey_ne_mode`, `Key.backup_ne_mode` — a key is of one kind.
* `Key.OpenTo` — the keys that may be read on behalf of a user: all but the backups of others.
-/

set_option autoImplicit false
namespace SealedChannel
namespace Key

/-! ## One id -/

theorem append_right_inj {start a b : String} (h : start ++ a = start ++ b) : a = b := by
  have hchars := congrArg String.toList h
  rw [String.toList_append, String.toList_append] at hchars
  exact String.toList_inj.1 (List.append_cancel_left hchars)

@[simp]
theorem pubkey_inj {a b : String} : pubkey a = pubkey b ↔ a = b :=
  ⟨append_right_inj, congrArg pubkey⟩

@[simp]
theorem backup_inj {a b : String} : backup a = backup b ↔ a = b :=
  ⟨append_right_inj, congrArg backup⟩

@[simp]
theorem mode_inj {a b : String} : mode a = mode b ↔ a = b :=
  ⟨append_right_inj, congrArg mode⟩

/-! ## One kind -/

theorem head?_pubkey (id : String) : (pubkey id).toList.head? = some 'p' := by
  rw [pubkey, String.toList_append]
  rfl

theorem head?_backup (id : String) : (backup id).toList.head? = some 'b' := by
  rw [backup, String.toList_append]
  rfl

theorem head?_mode (id : String) : (mode id).toList.head? = some 'c' := by
  rw [mode, String.toList_append]
  rfl

@[simp]
theorem pubkey_ne_backup (a b : String) : pubkey a ≠ backup b := by
  intro h
  have hhead := head?_pubkey a
  rw [h, head?_backup] at hhead
  exact absurd hhead (by decide)

@[simp]
theorem pubkey_ne_mode (a b : String) : pubkey a ≠ mode b := by
  intro h
  have hhead := head?_pubkey a
  rw [h, head?_mode] at hhead
  exact absurd hhead (by decide)

@[simp]
theorem backup_ne_mode (a b : String) : backup a ≠ mode b := by
  intro h
  have hhead := head?_backup a
  rw [h, head?_mode] at hhead
  exact absurd hhead (by decide)

/-! ## Keys and their readers -/

/-- A key may be read on behalf of a user, or of nobody: the key of a key pair or of a mode, or the
key of the user's own backup. -/
def OpenTo (user? : Option String) (key : String) : Prop :=
  (∃ userId, key = pubkey userId) ∨ (∃ channelId, key = mode channelId) ∨
    ∃ userId, user? = some userId ∧ key = backup userId

variable {user? : Option String}

theorem openTo_pubkey (userId : String) : OpenTo user? (pubkey userId) :=
  .inl ⟨userId, rfl⟩

theorem openTo_mode (channelId : String) : OpenTo user? (mode channelId) :=
  .inr (.inl ⟨channelId, rfl⟩)

theorem openTo_backup (userId : String) : OpenTo (some userId) (backup userId) :=
  .inr (.inr ⟨userId, rfl, rfl⟩)

/-- The key of a backup is open to its user alone. -/
theorem openTo_backup_iff {userId : String} :
    OpenTo user? (backup userId) ↔ user? = some userId := by
  constructor
  · rintro (⟨other, h⟩ | ⟨channelId, h⟩ | ⟨owner, howner, h⟩)
    · exact absurd h.symm (pubkey_ne_backup other userId)
    · exact absurd h (backup_ne_mode userId channelId)
    · rw [howner, backup_inj.1 h]
  · rintro rfl
    exact openTo_backup userId

end Key

end SealedChannel
