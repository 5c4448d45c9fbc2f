import SealedChannel.KeyServer.Listing

/-!
# Short key ids

A key is asked for by the last eight bytes of its id.  They are an end of the id only if a character
begins there.

## What is here

* `KeyServer.byteLength_eq_length` — of ASCII characters, there are as many as bytes.
* `KeyServer.endWithin_append` — the end of a text that fills a number of bytes.
* `KeyServer.shortKeyId_of_suffix`, `KeyServer.shortKeyId_eq_self` — the end of an id that has eight
  bytes; the whole id if there is none.
* `KeyServer.shortKeyId_suffix`, `KeyServer.shortKeyId_of_ascii` — what is left of any id, and of an
  ASCII one.
-/

set_option autoImplicit false
namespace SealedChannel
namespace KeyServer

/-! ## Bytes and characters -/

@[simp]
theorem byteLength_nil : byteLength [] = 0 :=
  rfl

@[simp]
theorem byteLength_cons (c : Char) (cs : List Char) :
    byteLength (c :: cs) = c.utf8Size + byteLength cs := by
  simp [byteLength]

@[simp]
theorem byteLength_append (front back : List Char) :
    byteLength (front ++ back) = byteLength front + byteLength back := by
  simp [byteLength]

theorem byteLength_eq_length {cs : List Char} (h : ∀ c ∈ cs, c.toNat < 0x80) :
    byteLength cs = cs.length := by
  induction cs with
  | nil => rfl
  | cons c cs ih =>
    rw [List.forall_mem_cons] at h
    have hsize : c.utf8Size = 1 := Char.utf8Size_eq_one_iff.2 (Nat.le_of_lt_succ h.1)
    rw [byteLength_cons, hsize, ih h.2, List.length_cons, Nat.add_comm]

/-! ## Ends of a text -/

theorem endWithin_suffix (n total : Nat) (cs : List Char) : endWithin n total cs <:+ cs := by
  induction cs generalizing total with
  | nil => exact List.suffix_rfl
  | cons c cs ih =>
    rw [endWithin]
    split
    · exact List.suffix_rfl
    · exact (ih _).trans (List.suffix_cons c cs)

/-- The end that fills a number of bytes is the longest within it, for no character is empty. -/
theorem endWithin_append (front back : List Char) :
    endWithin (byteLength back) (byteLength (front ++ back)) (front ++ back) = back := by
  induction front with
  | nil => cases back <;> simp [endWithin]
  | cons c front ih =>
    have hsize := c.utf8Size_pos
    have hlong : ¬ byteLength (c :: front ++ back) ≤ byteLength back := by
      simp only [List.cons_append, byteLength_cons, byteLength_append]
      omega
    rw [List.cons_append, endWithin, ← List.cons_append, if_neg hlong, List.cons_append,
      byteLength_cons, String.length_utf8EncodeChar, Nat.add_sub_cancel_left]
    exact ih

/-! ## Short ids -/

variable {id : String}

/-- The end of an id that has eight bytes. -/
theorem shortKeyId_of_suffix {cs : List Char} (h : cs <:+ id.toList)
    (hlength : byteLength cs = shortLength) : shortKeyId id = String.ofList cs := by
  obtain ⟨front, hid⟩ := h
  rw [shortKeyId, ← hid, ← hlength, endWithin_append, if_pos rfl]

/-- An id of which no end has eight bytes is kept whole. -/
theorem shortKeyId_eq_self (h : ∀ cs, cs <:+ id.toList → byteLength cs ≠ shortLength) :
    shortKeyId id = id :=
  if_neg (h _ (endWithin_suffix _ _ _))

theorem shortKeyId_suffix (id : String) : (shortKeyId id).toList <:+ id.toList := by
  rw [shortKeyId]
  split
  · rw [String.toList_ofList]
    exact endWithin_suffix _ _ _
  · exact List.suffix_rfl

/-- Of an ASCII id, the last eight characters are kept, or all if there are fewer. -/
theorem shortKeyId_of_ascii (h : ∀ c ∈ id.toList, c.toNat < 0x80) :
    (shortKeyId id).toList = id.toList.drop (id.toList.length - min 8 id.toList.length) := by
  have hlength {cs : List Char} (hcs : cs <:+ id.toList) : byteLength cs = cs.length :=
    byteLength_eq_length fun c hc => h c (hcs.subset hc)
  rcases Nat.lt_or_ge id.toList.length 8 with hshort | hlong
  · rw [shortKeyId_eq_self, Nat.min_eq_right (Nat.le_of_lt hshort), Nat.sub_self, List.drop_zero]
    intro cs hcs
    rw [hlength hcs]
    exact Nat.ne_of_lt (Nat.lt_of_le_of_lt hcs.length_le hshort)
  · rw [Nat.min_eq_left hlong]
    rw [shortKeyId_of_suffix (List.drop_suffix (id.toList.length - 8) id.toList),
      String.toList_ofList]
    rw [hlength (List.drop_suffix _ _), List.length_drop, Nat.sub_sub_self hlong, shortLength]

end KeyServer

end SealedChannel
