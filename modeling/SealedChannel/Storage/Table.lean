import SealedChannel.Bytes

/-!
# Tables

## What is here

* `Table` — a finite map from names to values.
* `Table.get?` — the view through which a table is described; `Table.get?_insert` and
  `Table.get?_erase` say what the operations do to it.
-/

set_option autoImplicit false
namespace SealedChannel

/-- A finite map from names to values; the first entry for a name counts. -/
structure Table (α : Type) where
  entries : List (String × α)
  deriving Repr

namespace Table

variable {α : Type}

/-- The table without entries. -/
def empty : Table α :=
  ⟨[]⟩

instance : Inhabited (Table α) :=
  ⟨empty⟩

/-- The value under a name. -/
def get? (t : Table α) (name : String) : Option α :=
  t.entries.lookup name

/-- The table with a new value under a name. -/
def insert (t : Table α) (name : String) (value : α) : Table α :=
  ⟨(name, value) :: t.entries.filter fun entry => entry.1 != name⟩

/-- The table without a name. -/
def erase (t : Table α) (name : String) : Table α :=
  ⟨t.entries.filter fun entry => entry.1 != name⟩

/-! ## The view -/

@[simp]
theorem get?_empty (name : String) : (empty : Table α).get? name = none :=
  rfl

/-- Looking up a name after entries were dropped by name. -/
theorem lookup_filter (keep : String → Bool) (name : String) (entries : List (String × α)) :
    (entries.filter fun entry => keep entry.1).lookup name
      = if keep name then entries.lookup name else none := by
  induction entries with
  | nil => simp
  | cons entry entries ih =>
    obtain ⟨key, value⟩ := entry
    rw [List.filter_cons]
    by_cases h : name = key
    · subst h
      cases hk : keep name <;> simp [hk, ih]
    · have hb : (name == key) = false := beq_eq_false_iff_ne.2 h
      cases keep key <;> simp [ih, List.lookup_cons, hb]

/-- An insertion changes one name. -/
@[simp]
theorem get?_insert (t : Table α) (name other : String) (value : α) :
    (t.insert name value).get? other = if other = name then some value else t.get? other := by
  by_cases h : other = name
  · subst h
    simp [get?, insert]
  · have hb : (other == name) = false := beq_eq_false_iff_ne.2 h
    simp [get?, insert, List.lookup_cons, hb, h, lookup_filter (fun key => key != name)]

/-- A removal changes one name. -/
@[simp]
theorem get?_erase (t : Table α) (name other : String) :
    (t.erase name).get? other = if other = name then none else t.get? other := by
  by_cases h : other = name <;> simp [get?, erase, h, lookup_filter (fun key => key != name)]

end Table

end SealedChannel
