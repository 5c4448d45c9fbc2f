import Mathlib.Data.List.TakeWhile
import Mathlib.Data.Nat.Find
import SealedChannel.Text.Blank
import SealedChannel.Text.Split

/-!
# Where a list is cut

A list is cut at a separator, at the first occurrence of a pattern, or after the blanks around it.
The first of these is what the standard library calls `List.splitOn`, and what is known of that is
used from here on.

## What is here

* `Text.splitOn_eq`, `Text.splitOn_append_cons`, `Text.splitOn_intercalate`,
  `Text.not_mem_of_mem_splitOn`, `Text.eq_or_mem_of_mem_intercalate` — the parts between separators.
* `Text.cutAt_append_cons` — what is before the first separator, and what is after it.
* `Text.OccursAt`, `Text.FirstAt` — where a pattern stands, and where it stands first.
* `Text.findTail?_eq_some_iff` — the search for a pattern finds the first occurrence if there is one.
* `Text.trim_pad`, `Text.trim_eq_self` — blanks around a text do not count.
-/

set_option autoImplicit false
namespace SealedChannel
namespace Text

/-! ## Occurrences of a pattern -/

section Occurrences

variable {α : Type}

/-- A pattern stands in a list after `n` items. -/
def OccursAt (pattern as : List α) (n : Nat) : Prop :=
  ∃ before after, before.length = n ∧ before ++ (pattern ++ after) = as

/-- A pattern stands in a list after `n` items, and nowhere before. -/
def FirstAt (pattern as : List α) (n : Nat) : Prop :=
  OccursAt pattern as n ∧ ∀ m < n, ¬ OccursAt pattern as m

variable {pattern as more : List α} {n m : Nat}

theorem occursAt_zero : OccursAt pattern as 0 ↔ pattern <+: as := by
  refine ⟨?_, fun ⟨after, h⟩ => ⟨[], after, rfl, h⟩⟩
  rintro ⟨before, after, hlength, h⟩
  obtain rfl := List.eq_nil_of_length_eq_zero hlength
  exact ⟨after, h⟩

/-- An occurrence lies within the list. -/
theorem OccursAt.length_le (h : OccursAt pattern as n) : n + pattern.length ≤ as.length := by
  obtain ⟨before, after, rfl, rfl⟩ := h
  simp only [List.length_append]
  omega

/-- What stands in a list stands in any longer one. -/
theorem OccursAt.append (h : OccursAt pattern as n) (more : List α) :
    OccursAt pattern (as ++ more) n := by
  obtain ⟨before, after, hlength, rfl⟩ := h
  exact ⟨before, after ++ more, hlength, by simp⟩

/-- What stands in a list and ends before its last part does not need that part. -/
theorem OccursAt.of_append (h : OccursAt pattern (as ++ more) n)
    (hend : n + pattern.length ≤ as.length) : OccursAt pattern as n := by
  obtain ⟨before, after, rfl, h⟩ := h
  have hprefix : before ++ pattern <+: as := by
    refine List.prefix_of_prefix_length_le ⟨after, ?_⟩ (List.prefix_append as more) ?_
    · rw [List.append_assoc, h]
    · rwa [List.length_append]
  obtain ⟨rest, rfl⟩ := hprefix
  exact ⟨before, rest, rfl, (List.append_assoc ..).symm⟩

/-- Occurrences after the first part of a list are those in the rest of it. -/
theorem occursAt_append_left (front : List α) :
    OccursAt pattern (front ++ as) (front.length + n) ↔ OccursAt pattern as n := by
  refine ⟨?_, ?_⟩
  · rintro ⟨before, after, hlength, h⟩
    have hprefix : front <+: before := by
      refine List.prefix_of_prefix_length_le (List.prefix_append front as) ⟨_, h⟩ ?_
      omega
    obtain ⟨between, rfl⟩ := hprefix
    rw [List.append_assoc, List.append_cancel_left_eq] at h
    rw [List.length_append, Nat.add_left_cancel_iff] at hlength
    exact ⟨between, after, hlength, h⟩
  · rintro ⟨before, after, rfl, rfl⟩
    exact ⟨front ++ before, after, List.length_append, List.append_assoc ..⟩

theorem occursAt_cons_succ {a : α} :
    OccursAt pattern (a :: as) (n + 1) ↔ OccursAt pattern as n := by
  rw [Nat.add_comm]
  exact occursAt_append_left [a]

/-- Where there is an occurrence, there is a first one. -/
theorem OccursAt.exists_firstAt (h : OccursAt pattern as n) : ∃ m ≤ n, FirstAt pattern as m := by
  classical
  have hex : ∃ m, OccursAt pattern as m := ⟨n, h⟩
  exact ⟨Nat.find hex, Nat.find_le h, Nat.find_spec hex, fun m hm => Nat.find_min hex hm⟩

/-- The first occurrence is no later than any other. -/
theorem FirstAt.le (h : FirstAt pattern as n) (hm : OccursAt pattern as m) : n ≤ m :=
  Nat.le_of_not_lt fun hlt => h.2 m hlt hm

theorem FirstAt.unique (h : FirstAt pattern as n) (h' : FirstAt pattern as m) : n = m :=
  Nat.le_antisymm (h.le h'.1) (h'.le h.1)

/-- What comes after the first occurrence does not count, be it there or not. -/
theorem firstAt_append_iff (h : n + pattern.length ≤ as.length) (more : List α) :
    FirstAt pattern (as ++ more) n ↔ FirstAt pattern as n := by
  refine and_congr ⟨fun ho => ho.of_append h, fun ho => ho.append more⟩ ?_
  refine forall_congr' fun m => imp_congr_right fun hm => not_congr ?_
  exact ⟨fun ho => ho.of_append (by omega), fun ho => ho.append more⟩

end Occurrences

section Cuts

variable {α : Type} [DecidableEq α]

/-! ## Separators -/

theorem splitOn_eq (sep : α) (as : List α) : splitOn sep as = as.splitOn sep := by
  induction as with
  | nil => rfl
  | cons a as ih =>
    rw [splitOn, ih, List.splitOn, List.splitOn, List.splitOnP_cons_eq_if_modifyHead]
    by_cases ha : a = sep
    · simp [ha]
    · rw [if_neg ha, if_neg (by simpa using ha)]
      cases hparts : as.splitOnP (· == sep) with
      | nil => exact absurd hparts (by simp)
      | cons part parts => rfl

/-- A separator ends what is before it. -/
theorem splitOn_append_cons (sep : α) (as bs : List α) :
    splitOn sep (as ++ sep :: bs) = splitOn sep as ++ splitOn sep bs := by
  rw [splitOn_eq, splitOn_eq, splitOn_eq]
  exact List.splitOnP_append_cons as bs (beq_self_eq_true sep)

/-- A list without separators is in one part. -/
theorem splitOn_eq_singleton {sep : α} {as : List α} (h : sep ∉ as) : splitOn sep as = [as] := by
  have hparts : ∀ part ∈ [as], sep ∉ part := by simpa using h
  have hsplit := List.splitOn_intercalate sep hparts (by simp)
  rwa [List.intercalate_singleton, ← splitOn_eq] at hsplit

theorem splitOn_intercalate {sep : α} {parts : List (List α)} (h : ∀ part ∈ parts, sep ∉ part)
    (hne : parts ≠ []) : splitOn sep ([sep].intercalate parts) = parts := by
  rw [splitOn_eq, List.splitOn_intercalate sep h hne]

theorem intercalate_splitOn (sep : α) (as : List α) : [sep].intercalate (splitOn sep as) = as := by
  rw [splitOn_eq, List.intercalate_splitOn]

/-- What is joined by separators holds them and the items of the parts. -/
theorem eq_or_mem_of_mem_intercalate {β : Type} {sep a : β} {parts : List (List β)}
    (h : a ∈ [sep].intercalate parts) : a = sep ∨ ∃ part ∈ parts, a ∈ part := by
  induction parts with
  | nil => cases h
  | cons part parts ih =>
    cases parts with
    | nil =>
      rw [List.intercalate_singleton] at h
      exact .inr ⟨part, List.mem_cons_self, h⟩
    | cons next parts =>
      rw [List.intercalate_cons_cons, List.append_assoc, List.mem_append, List.mem_append,
        List.mem_singleton] at h
      rcases h with h | h | h
      · exact .inr ⟨part, List.mem_cons_self, h⟩
      · exact .inl h
      · exact (ih h).imp_right fun ⟨other, hother, ha⟩ => ⟨other, List.mem_cons_of_mem _ hother, ha⟩

/-- No part holds a separator. -/
theorem not_mem_of_mem_splitOn {sep : α} {as part : List α} (h : part ∈ splitOn sep as) :
    sep ∉ part := by
  induction as generalizing part with
  | nil =>
    obtain rfl : part = [] := by simpa [splitOn] using h
    exact List.not_mem_nil
  | cons a as ih =>
    rw [splitOn] at h
    split at h
    · rcases List.mem_cons.1 h with rfl | h
      · exact List.not_mem_nil
      · exact ih h
    · rename_i ha
      split at h
      · obtain rfl : part = [a] := by simpa using h
        simpa using Ne.symm ha
      · rename_i first parts hparts
        rcases List.mem_cons.1 h with rfl | h
        · simpa [Ne.symm ha] using ih (hparts ▸ List.mem_cons_self)
        · exact ih (hparts ▸ List.mem_cons_of_mem _ h)

/-- A list is cut at the first separator. -/
theorem cutAt_append_cons {sep : α} {before : List α} (h : sep ∉ before) (after : List α) :
    cutAt sep (before ++ sep :: after) = (before, some after) := by
  have hbefore : (before ++ sep :: after).takeWhile (· ≠ sep) = before := by
    rw [List.takeWhile_append_of_pos, List.takeWhile_cons_of_neg (by simp), List.append_nil]
    rintro a ha
    exact decide_eq_true (ne_of_mem_of_not_mem ha h)
  rw [cutAt, hbefore, List.drop_left]

/-! ## The search for a pattern -/

variable {pattern as tail : List α}

/-- **The search for a pattern** gives the rest of the list from the first occurrence on. -/
theorem findTail?_eq_some_iff :
    findTail? pattern as = some tail ↔ ∃ n, FirstAt pattern as n ∧ as.drop n = tail := by
  induction as with
  | nil =>
    rw [findTail?]
    split
    · rename_i hempty
      obtain rfl := List.isEmpty_iff.1 hempty
      refine ⟨?_, ?_⟩
      · rintro ⟨⟩
        exact ⟨0, ⟨occursAt_zero.2 List.nil_prefix, by simp⟩, rfl⟩
      · rintro ⟨n, -, rfl⟩
        rw [List.drop_nil]
    · rename_i hne
      refine ⟨fun h => (by cases h), ?_⟩
      rintro ⟨n, hfirst, -⟩
      have hlength := hfirst.1.length_le
      rw [List.length_nil] at hlength
      exact absurd (List.isEmpty_iff_length_eq_zero.2 (by omega)) hne
  | cons a as ih =>
    rw [findTail?]
    split
    · rename_i hprefix
      have hzero : FirstAt pattern (a :: as) 0 :=
        ⟨occursAt_zero.2 (List.isPrefixOf_iff_prefix.1 hprefix), by simp⟩
      refine ⟨?_, ?_⟩
      · rintro ⟨⟩
        exact ⟨0, hzero, rfl⟩
      · rintro ⟨n, hfirst, rfl⟩
        rw [hfirst.unique hzero, List.drop_zero]
    · rename_i hprefix
      have hzero : ¬ OccursAt pattern (a :: as) 0 := fun h =>
        hprefix (List.isPrefixOf_iff_prefix.2 (occursAt_zero.1 h))
      rw [ih]
      refine ⟨?_, ?_⟩
      · rintro ⟨n, ⟨hn, hbefore⟩, rfl⟩
        refine ⟨n + 1, ⟨occursAt_cons_succ.2 hn, ?_⟩, rfl⟩
        rintro (_ | m) hm h
        · exact hzero h
        · exact hbefore m (by omega) (occursAt_cons_succ.1 h)
      · rintro ⟨_ | n, ⟨hn, hbefore⟩, rfl⟩
        · exact absurd hn hzero
        · refine ⟨n, ⟨occursAt_cons_succ.1 hn, fun m hm h => ?_⟩, rfl⟩
          exact hbefore (m + 1) (by omega) (occursAt_cons_succ.2 h)

end Cuts

/-! ## Blanks around a text -/

theorem trimStart_append {left : List Char} (h : ∀ c ∈ left, isBlank c = true) (cs : List Char) :
    trimStart (left ++ cs) = trimStart cs :=
  List.dropWhile_append_of_pos h

theorem trimEnd_append {right : List Char} (h : ∀ c ∈ right, isBlank c = true) (cs : List Char) :
    trimEnd (cs ++ right) = trimEnd cs := by
  rw [trimEnd, List.reverse_append, List.dropWhile_append_of_pos (by simpa using h), trimEnd]

/-- **Blanks around a text do not count.** -/
theorem trim_pad {left right : List Char} (hleft : ∀ c ∈ left, isBlank c = true)
    (hright : ∀ c ∈ right, isBlank c = true) (cs : List Char) :
    trim (left ++ cs ++ right) = trim cs := by
  rw [trim, trim, List.append_assoc, trimStart_append hleft, trimStart, trimStart,
    List.dropWhile_append]
  split
  · rename_i hblank
    -- a text of blanks: nothing is left, whether or not more blanks follow
    rw [List.isEmpty_iff.1 hblank, List.dropWhile_eq_nil_iff.2 hright]
  · exact trimEnd_append hright _

/-- A text that begins and ends with other characters than blanks is left as it is. -/
theorem trim_eq_self {first last : Char} {cs : List Char} (hfirst : cs.head? = some first)
    (hlast : cs.getLast? = some last) (hfirst' : isBlank first = false)
    (hlast' : isBlank last = false) : trim cs = cs := by
  have hstart : trimStart cs = cs := by
    cases cs with
    | nil => cases hfirst
    | cons c cs =>
      cases hfirst
      rw [trimStart, List.dropWhile_cons_of_neg (by simp [hfirst'])]
  rw [trim, hstart, trimEnd]
  cases hreverse : cs.reverse with
  | nil => rw [List.reverse_eq_nil_iff.1 hreverse]; rfl
  | cons c rest =>
    obtain rfl : c = last := by
      rw [List.getLast?_eq_head?_reverse, hreverse] at hlast
      exact Option.some.inj hlast
    rw [List.dropWhile_cons_of_neg (by simp [hlast']), ← hreverse, List.reverse_reverse]

end Text

end SealedChannel
