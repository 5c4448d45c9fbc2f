import Mathlib.Data.List.Nodup
import SealedChannel.Proofs.Json.Print

/-!
# Structures that are read back

A structure is written as an object with one member for each of its fields.  Its reader goes by the
names of the members and takes a default for some of those that are missing, so more objects than
the one that is written are read as the same value: the members may come in any order, and one that
holds its default may be left out.

## What is here

* `Json.WireForm` — how the values of a type are written and read.
* `Json.WireForm.Tells` — members that say as much as the members of a value.
* `Json.WireForm.ReadsBack` — every value is read back.
* `Tells.required`, `Tells.defaulted`, `Tells.optional` — one member is read back.
* `Json.WireForm.readsBack` — a structure whose members are read back is read back.
-/

set_option autoImplicit false
namespace SealedChannel
namespace Json

/-! ## Well-formed parts -/

@[simp]
theorem wellFormed_ofText (s : String) : WellFormed (.ofText s) :=
  isQuotable_escape s

@[simp]
theorem wellFormed_bool (b : Bool) : WellFormed (.bool b) :=
  trivial

theorem wellFormed_ofOption {α : Type} {toJson : α → Json} (h : ∀ a, WellFormed (toJson a))
    (value : Option α) : WellFormed (.ofOption toJson value) := by
  cases value with
  | none => trivial
  | some a => exact h a

theorem wellFormed_ofList {α : Type} {toJson : α → Json} (h : ∀ a, WellFormed (toJson a))
    (items : List α) : WellFormed (.ofList toJson items) := by
  rw [ofList, WellFormed]
  induction items with
  | nil => trivial
  | cons item items ih => exact ⟨h item, ih⟩

theorem wellFormed_record {members : List (String × Json)}
    (h : ∀ member ∈ members, WellFormed member.2) : WellFormed (.record members) := by
  rw [record, WellFormed]
  induction members with
  | nil => trivial
  | cons member members ih =>
    rw [List.forall_mem_cons] at h
    exact ⟨isQuotable_escape member.1, h.1, ih h.2⟩

/-! ## Scalars and lists -/

@[simp]
theorem bool?_bool (b : Bool) : bool? (.bool b) = some b :=
  rfl

theorem nullable?_ofText (value : Option String) :
    nullable? text? (.ofOption .ofText value) = some value := by
  cases value with
  | none => rfl
  | some s => exact congrArg (Option.map some) (text?_ofText s)

theorem list?_ofList {α : Type} {toJson : α → Json} {read : Json → Option α}
    (h : ∀ a, read (toJson a) = some a) (items : List α) :
    list? read (.ofList toJson items) = some items := by
  rw [ofList, list?]
  induction items with
  | nil => rfl
  | cons item items ih => simp [List.mapM_cons, h, ih]

/-! ## Wire forms -/

/-- The members of an object as they are read. -/
def Record.named (members : List (String × Json)) : Record :=
  ⟨false, members⟩

/-- How the values of a type are written and read. -/
structure WireForm (α : Type) where
  toJson : α → Json
  ofJson? : Json → Option α
  /-- The names of the members, in the order in which they are written. -/
  names : List String
  /-- The members that may be left out, with the value that is then taken. -/
  defaults : List (String × Json)

namespace WireForm

variable {α : Type} {f : WireForm α}

/-- The text of a value. -/
def encode (f : WireForm α) (a : α) : Bytes :=
  (f.toJson a).print

/-- The value of a text. -/
def decode? (f : WireForm α) (bs : Bytes) : Option α :=
  (parse? bs).bind f.ofJson?

/-- Members that say as much as those of a value: they are members of it, in any order, and a
member that is left out holds its default. -/
structure Tells (f : WireForm α) (members kept : List (String × Json)) : Prop where
  nodup : (kept.map Prod.fst).Nodup
  subset : ∀ member ∈ kept, member ∈ members
  dropped : ∀ member ∈ members, member ∈ kept ∨ member ∈ f.defaults

/-- Every value is read back from its text, which is an object with a member under each name, and
from the text of any members that say as much. -/
structure ReadsBack (f : WireForm α) : Prop where
  decode?_encode : ∀ a, f.decode? (f.encode a) = some a
  decode?_of_tells : ∀ a, ∃ members, f.toJson a = .record members ∧
    members.map Prod.fst = f.names ∧
      ∀ kept, f.Tells members kept → f.decode? (record kept).print = some a

/-! ## Reading the members that are kept -/

namespace Tells

variable {members kept : List (String × Json)} {name : String} {value : Json} {β : Type}

theorem refl (h : (members.map Prod.fst).Nodup) : f.Tells members members :=
  ⟨h, fun _ hmember => hmember, fun _ hmember => .inl hmember⟩

/-- The members that are kept are those that are read. -/
theorem ofJson?_record (h : f.Tells members kept) {names : List String}
    (hnames : members.map Prod.fst = names) :
    Record.ofJson? names (record kept) = some (.named kept) := by
  have hknown : kept.filter (fun member => names.contains member.1) = kept := by
    refine List.filter_eq_self.2 fun member hmember => ?_
    rw [List.contains_iff_mem, ← hnames]
    exact List.mem_map_of_mem (h.subset member hmember)
  rw [Record.ofJson?_record, hknown, if_pos h.nodup, Record.named]

/-- Under a name stands the value that was written there, or it is the default. -/
theorem get?_cases (h : f.Tells members kept) (hnodup : (members.map Prod.fst).Nodup)
    (hmember : (name, value) ∈ members) : (Record.named kept).get? name = some value ∨
      (Record.named kept).get? name = none ∧ (name, value) ∈ f.defaults := by
  rw [Record.get?, Record.named]
  cases hlookup : kept.lookup name with
  | none =>
    refine .inr ⟨rfl, (h.dropped _ hmember).resolve_left fun hkept => ?_⟩
    simpa using List.lookup_eq_none_iff.1 hlookup _ hkept
  | some other =>
    obtain ⟨before, after, rfl, -⟩ := List.lookup_eq_some_iff.1 hlookup
    have hother : (name, other) ∈ members := h.subset _ (by simp)
    obtain ⟨⟩ := List.inj_on_of_nodup_map hnodup hother hmember rfl
    exact .inl rfl

/-- A member that must be there is read back. -/
theorem required (h : f.Tells members kept) (hnodup : (members.map Prod.fst).Nodup)
    (hmember : (name, value) ∈ members) (hdefault : name ∉ f.defaults.map Prod.fst)
    {read : Json → Option β} {b : β} (hread : read value = some b) :
    (Record.named kept).required name read = some b := by
  rcases h.get?_cases hnodup hmember with hget | ⟨-, hdropped⟩
  · rw [Record.required, hget, Option.bind_some, hread]
  · exact absurd (List.mem_map_of_mem hdropped) hdefault

/-- So is a text. -/
theorem text (h : f.Tells members kept) (hnodup : (members.map Prod.fst).Nodup) {s : String}
    (hmember : (name, .ofText s) ∈ members) (hdefault : name ∉ f.defaults.map Prod.fst) :
    (Record.named kept).required name text? = some s :=
  h.required hnodup hmember hdefault (text?_ofText s)

/-- A member with a default is read back. -/
theorem defaulted (h : f.Tells members kept) (hnodup : (members.map Prod.fst).Nodup)
    (hmember : (name, value) ∈ members) {read : Json → Option β} {default b : β}
    (hdefault : ∀ value, (name, value) ∈ f.defaults → read value = some default)
    (hread : read value = some b) :
    (Record.named kept).defaulted name default read = some b := by
  rcases h.get?_cases hnodup hmember with hget | ⟨hget, hdropped⟩
  · rw [Record.defaulted, hget]
    exact hread
  · rw [Record.defaulted, hget, ← hdefault value hdropped, hread]

/-- A member that may be `null` is read back. -/
theorem optional (h : f.Tells members kept) (hnodup : (members.map Prod.fst).Nodup)
    (hmember : (name, value) ∈ members) {read : Json → Option β} {b : Option β}
    (hdefault : ∀ value, (name, value) ∈ f.defaults → value = .null)
    (hread : nullable? read value = some b) :
    (Record.named kept).optional name read = some b := by
  rcases h.get?_cases hnodup hmember with hget | ⟨hget, hdropped⟩
  · rw [Record.optional, hget]
    exact hread
  · rw [hdefault value hdropped] at hread
    rw [Record.optional, hget]
    exact hread

end Tells

/-- **Structures are read back.**  If the members of every value have a compact form, and every
choice of members that says as much is read as the value, then the values are read back from their
texts. -/
theorem readsBack {read : Record → Option α}
    (hofJson : ∀ value, f.ofJson? value = (Record.ofJson? f.names value).bind read)
    (members : α → List (String × Json)) (htoJson : ∀ a, f.toJson a = .record (members a))
    (hnames : ∀ a, (members a).map Prod.fst = f.names) (hnodup : f.names.Nodup)
    (hwf : ∀ a, ∀ member ∈ members a, WellFormed member.2)
    (hread : ∀ a kept, f.Tells (members a) kept → ((members a).map Prod.fst).Nodup →
      read (.named kept) = some a) : f.ReadsBack := by
  have hmembers (a : α) : ((members a).map Prod.fst).Nodup := by rwa [hnames]
  have htext (a : α) (kept : List (String × Json)) (h : f.Tells (members a) kept) :
      f.decode? (record kept).print = some a := by
    have hkept : WellFormed (record kept) :=
      wellFormed_record fun member hmember => hwf a member (h.subset member hmember)
    rw [decode?, parse?_print hkept, Option.bind_some, hofJson, h.ofJson?_record (hnames a),
      Option.bind_some, hread a kept h (hmembers a)]
  refine ⟨fun a => ?_, fun a => ⟨members a, htoJson a, hnames a, htext a⟩⟩
  rw [encode, htoJson]
  exact htext a _ (.refl (hmembers a))

end WireForm

end Json

end SealedChannel
