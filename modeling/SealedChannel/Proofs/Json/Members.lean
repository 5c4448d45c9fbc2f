import Mathlib.Data.List.Nodup
import SealedChannel.Json.Decode

/-!
# The members of an object

A structure can be read from an object if every name is text and none of the names that count is
repeated.  What is read of it is then told by the values that stand under each name.

## What is here

* `Json.valuesOf` — the values under a name, first to last.
* `Json.Record.exists_ofObject?_iff` — the objects that can be read.
* `Json.Record.get?_of_ofObject?` — what is read is the one value under the name, if there is one.
-/

set_option autoImplicit false
namespace SealedChannel
namespace Json

/-- The values under a name, first to last. -/
def valuesOf (name : String) (members : List (Bytes × Json)) : List Json :=
  members.filterMap fun member => if unescape? member.1 = some name then some member.2 else none

namespace Record

/-- A member with its name as text. -/
def named? (member : Bytes × Json) : Option (String × Json) :=
  (unescape? member.1).map fun name => (name, member.2)

theorem ofObject?_eq (names : List String) (members : List (Bytes × Json)) :
    ofObject? names members = (members.mapM named?).bind fun named =>
      let known := named.filter fun member => names.contains member.1
      if (known.map Prod.fst).Nodup then some ⟨false, known⟩ else none :=
  rfl

variable {names : List String} {members : List (Bytes × Json)} {named : List (String × Json)}
  {name : String}

/-! ## Names as text -/

theorem mapM_named?_cons {member : Bytes × Json} :
    (member :: members).mapM named? = some named ↔
      ∃ name rest, unescape? member.1 = some name ∧ members.mapM named? = some rest ∧
        named = (name, member.2) :: rest := by
  rw [List.mapM_cons]
  simp only [Option.bind_eq_bind, Option.bind_eq_some_iff, Option.pure_def, Option.some.injEq,
    named?, Option.map_eq_some_iff]
  refine ⟨?_, ?_⟩
  · rintro ⟨_, ⟨name, hname, rfl⟩, rest, hrest, rfl⟩
    exact ⟨name, rest, hname, hrest, rfl⟩
  · rintro ⟨name, rest, hname, hrest, rfl⟩
    exact ⟨_, ⟨name, hname, rfl⟩, rest, hrest, rfl⟩

/-- All members have names if every name is text. -/
theorem exists_named_iff :
    (∃ named, members.mapM named? = some named) ↔
      ∀ member ∈ members, (unescape? member.1).isSome = true := by
  induction members with
  | nil => exact ⟨fun _ => by simp, fun _ => ⟨[], rfl⟩⟩
  | cons member members ih =>
    rw [List.forall_mem_cons, ← ih, Option.isSome_iff_exists]
    simp only [mapM_named?_cons]
    refine ⟨?_, ?_⟩
    · rintro ⟨_, name, rest, hname, hrest, -⟩
      exact ⟨⟨name, hname⟩, rest, hrest⟩
    · rintro ⟨⟨name, hname⟩, rest, hrest⟩
      exact ⟨_, name, rest, hname, hrest, rfl⟩

theorem valuesOf_eq (h : members.mapM named? = some named) (name : String) :
    valuesOf name members = (named.filter (·.1 = name)).map Prod.snd := by
  induction members generalizing named with
  | nil => cases h; rfl
  | cons member members ih =>
    obtain ⟨first, rest, hfirst, hrest, rfl⟩ := mapM_named?_cons.1 h
    rw [valuesOf, List.filterMap_cons, hfirst, ← valuesOf, ih hrest, List.filter_cons]
    by_cases heq : first = name <;> simp [heq]

/-! ## Names that count -/

/-- The members that count, under a name that does. -/
theorem filter_known (hname : name ∈ names) :
    (named.filter fun member => names.contains member.1).filter (·.1 = name) =
      named.filter (·.1 = name) := by
  rw [List.filter_filter]
  refine List.filter_congr fun member _ => ?_
  rw [Bool.and_eq_left_iff_imp]
  intro heq
  rw [of_decide_eq_true heq]
  exact List.contains_iff_mem.2 hname

/-- No name that counts is repeated if and only if there is at most one value under each. -/
theorem nodup_known_iff (h : members.mapM named? = some named) :
    ((named.filter fun member => names.contains member.1).map Prod.fst).Nodup ↔
      ∀ name ∈ names, (valuesOf name members).length ≤ 1 := by
  have hcount (name : String) (list : List (String × Json)) :
      (list.map Prod.fst).count name = (list.filter (·.1 = name)).length := by
    rw [List.count, List.countP_map, List.countP_eq_length_filter]
    rfl
  rw [List.nodup_iff_count_le_one]
  refine ⟨fun hle name hname => ?_, fun hle name => ?_⟩
  · have hname' := hle name
    rwa [hcount, filter_known hname, ← List.length_map Prod.snd, ← valuesOf_eq h] at hname'
  · rw [hcount]
    by_cases hname : name ∈ names
    · rw [filter_known hname, ← List.length_map Prod.snd, ← valuesOf_eq h]
      exact hle name hname
    · rw [List.filter_filter, List.filter_eq_nil_iff.2 fun member _ hmember => ?_]
      · exact Nat.zero_le 1
      · rw [Bool.and_eq_true, decide_eq_true_iff, List.contains_iff_mem] at hmember
        exact hname (hmember.1 ▸ hmember.2)

/-- **Objects that can be read.**  Every name is text, and there is at most one value under each of
the names that count. -/
theorem exists_ofObject?_iff :
    (∃ r, ofObject? names members = some r) ↔
      (∀ member ∈ members, (unescape? member.1).isSome = true) ∧
        ∀ name ∈ names, (valuesOf name members).length ≤ 1 := by
  rw [← exists_named_iff]
  simp only [ofObject?_eq, Option.bind_eq_some_iff]
  refine ⟨?_, ?_⟩
  · rintro ⟨r, named, hnamed, hr⟩
    split at hr
    · rename_i hnodup
      exact ⟨⟨named, hnamed⟩, (nodup_known_iff hnamed).1 hnodup⟩
    · cases hr
  · rintro ⟨⟨named, hnamed⟩, hle⟩
    exact ⟨_, named, hnamed, if_pos ((nodup_known_iff hnamed).2 hle)⟩

theorem lookup_eq_head? (list : List (String × Json)) (name : String) :
    list.lookup name = ((list.filter (·.1 = name)).map Prod.snd).head? := by
  induction list with
  | nil => rfl
  | cons member list ih =>
    rw [List.lookup_cons, ih, List.filter_cons]
    by_cases heq : member.1 = name
    · simp [heq]
    · rw [beq_false_of_ne (Ne.symm heq), decide_eq_false heq]
      rfl

/-- **What is read of an object.**  Under a name that counts, it is the value that stands there. -/
theorem get?_of_ofObject? {r : Record} (h : ofObject? names members = some r)
    (hname : name ∈ names) : valuesOf name members = (r.get? name).toList := by
  have hlength := (exists_ofObject?_iff.1 ⟨r, h⟩).2 name hname
  simp only [ofObject?_eq, Option.bind_eq_some_iff] at h
  obtain ⟨named, hnamed, hr⟩ := h
  split at hr
  · cases hr
    rw [get?, lookup_eq_head?, filter_known hname, ← valuesOf_eq hnamed]
    generalize valuesOf name members = values at hlength
    match values with
    | [] => rfl
    | [value] => rfl
    | _ :: _ :: _ => simp at hlength
  · cases hr

end Record

end Json

end SealedChannel
