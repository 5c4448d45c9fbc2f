import SealedChannel.Settings.Basic

/-!
# Settings by field

The environment and a document are two sources of settings.  A source may say nothing about a field,
or give it a value, or say something that is no value.  A source is followed field by field, in one
order, up to the first field about which it says something that is no value.

## What is here

* `Settings.Field` — the fields, in the order in which they are handled.
* `Settings.get`, `Settings.set` — settings by field.
* `Settings.Source` — what a source says about each field.
* `Source.follow` — the settings that a source makes of others.
* `Source.follow_cases` — how that ends.
-/

set_option autoImplicit false
namespace SealedChannel
namespace Settings

/-! ## Fields -/

/-- A field of settings. -/
inductive Field where
  | listenAddress
  | keyServer
  | botsMayPost
  | storeSeconds
  | requestSeconds
  | modeLocks
  deriving DecidableEq, Repr

namespace Field

/-- What stands in a field. -/
abbrev Value : Field → Type
  | .listenAddress => SocketAddress
  | .keyServer => String
  | .botsMayPost => Bool
  | .storeSeconds => Nat
  | .requestSeconds => Nat
  | .modeLocks => Nat

/-- The fields in the order in which they are handled. -/
def order : List Field :=
  [.listenAddress, .keyServer, .botsMayPost, .storeSeconds, .requestSeconds, .modeLocks]

theorem mem_order (f : Field) : f ∈ order := by
  cases f <;> decide

theorem exists_iff {p : Field → Prop} :
    (∃ f, p f) ↔ p .listenAddress ∨ p .keyServer ∨ p .botsMayPost ∨ p .storeSeconds ∨
      p .requestSeconds ∨ p .modeLocks := by
  constructor
  · rintro ⟨f, h⟩
    cases f <;> simp [h]
  · rintro (h | h | h | h | h | h) <;> exact ⟨_, h⟩

end Field

/-- What stands in a field of settings. -/
def get (s : Settings) : (f : Field) → f.Value
  | .listenAddress => s.listenAddress
  | .keyServer => s.keyServer
  | .botsMayPost => s.botsMayPost
  | .storeSeconds => s.storeSeconds
  | .requestSeconds => s.requestSeconds
  | .modeLocks => s.modeLocks

/-- Settings with another value in one field. -/
def set (s : Settings) : (f : Field) → f.Value → Settings
  | .listenAddress, a => { s with listenAddress := a }
  | .keyServer, text => { s with keyServer := text }
  | .botsMayPost, b => { s with botsMayPost := b }
  | .storeSeconds, n => { s with storeSeconds := n }
  | .requestSeconds, n => { s with requestSeconds := n }
  | .modeLocks, n => { s with modeLocks := n }

@[simp]
theorem get_set (s : Settings) (f : Field) (v : f.Value) : (s.set f v).get f = v := by
  cases f <;> rfl

theorem get_set_of_ne (s : Settings) {f g : Field} (v : f.Value) (h : g ≠ f) :
    (s.set f v).get g = s.get g := by
  cases f <;> cases g <;> first | rfl | exact absurd rfl h

/-- Settings are told by their fields. -/
theorem ext_get {s t : Settings} (h : ∀ f, s.get f = t.get f) : s = t := by
  cases s
  cases t
  rw [mk.injEq]
  exact ⟨h .listenAddress, h .keyServer, h .botsMayPost, h .storeSeconds, h .requestSeconds,
    h .modeLocks⟩

/-! ## Sources -/

/-- What is said about each field: nothing, or a value, or something that is no value. -/
abbrev Source := (f : Field) → Option (Except SettingsError f.Value)

namespace Source

variable (source : Source)

/-- The value that a field is given. -/
def value? (f : Field) : Option f.Value :=
  (source f).bind Except.toOption

/-- What is said about a field is a value, if anything is said. -/
def Sound (f : Field) : Prop :=
  ∀ e, source f ≠ some (.error e)

/-- Settings in which the values of some fields are taken from a source. -/
def overlay (s : Settings) : List Field → Settings
  | [] => s
  | f :: rest => overlay ((source.value? f).elim s (s.set f)) rest

/-- The settings that a source makes of others, and the error that stopped it. -/
def follow (s : Settings) : List Field → Settings × Option SettingsError
  | [] => (s, none)
  | f :: rest =>
    match source f with
    | none => follow s rest
    | some (.ok v) => follow (s.set f v) rest
    | some (.error e) => (s, some e)

variable {source} {s : Settings} {f g : Field} {fields : List Field}

theorem get_elim_set (s : Settings) (f : Field) :
    ((source.value? f).elim s (s.set f)).get f = (source.value? f).getD (s.get f) := by
  cases source.value? f <;> simp

theorem get_elim_set_of_ne (s : Settings) (h : g ≠ f) :
    ((source.value? f).elim s (s.set f)).get g = s.get g := by
  cases source.value? f with
  | none => rfl
  | some v => exact s.get_set_of_ne v h

theorem get_overlay_of_not_mem (h : g ∉ fields) : (source.overlay s fields).get g = s.get g := by
  induction fields generalizing s with
  | nil => rfl
  | cons f rest ih =>
    rw [List.mem_cons, not_or] at h
    rw [overlay, ih h.2, get_elim_set_of_ne s h.1]

/-- A field that is taken from a source holds what the source says, or what it held. -/
theorem get_overlay (h : g ∈ fields) :
    (source.overlay s fields).get g = (source.value? g).getD (s.get g) := by
  induction fields generalizing s with
  | nil => cases h
  | cons f rest ih =>
    rw [overlay]
    by_cases hrest : g ∈ rest
    · rw [ih hrest]
      by_cases hf : g = f
      · subst hf
        rw [get_elim_set]
        cases source.value? g <;> rfl
      · rw [get_elim_set_of_ne s hf]
    · rw [get_overlay_of_not_mem hrest]
      obtain rfl := (List.mem_cons.1 h).resolve_right hrest
      exact get_elim_set s g

theorem follow_of_sound (h : source.Sound f) :
    source.follow s (f :: fields) = source.follow ((source.value? f).elim s (s.set f)) fields := by
  rw [follow, value?]
  cases hsource : source f with
  | none => rfl
  | some result =>
    cases result with
    | ok v => rfl
    | error e => exact absurd hsource (h e)

/-- **How a source is followed.**  Either it is sound about every field and all of its values are
taken, or it stops at the first field about which it is not, with the values before that one. -/
theorem follow_cases (source : Source) (s : Settings) (fields : List Field) :
    (∀ f ∈ fields, source.Sound f) ∧ source.follow s fields = (source.overlay s fields, none) ∨
      ∃ before f after e, fields = before ++ f :: after ∧ (∀ g ∈ before, source.Sound g) ∧
        source f = some (.error e) ∧
        source.follow s fields = (source.overlay s before, some e) := by
  induction fields generalizing s with
  | nil => exact .inl ⟨fun _ h => absurd h List.not_mem_nil, rfl⟩
  | cons f rest ih =>
    by_cases hf : source.Sound f
    · rw [follow_of_sound hf]
      rcases ih ((source.value? f).elim s (s.set f)) with ⟨hall, hfollow⟩ |
        ⟨before, g, after, e, rfl, hbefore, hg, hfollow⟩
      · exact .inl ⟨List.forall_mem_cons.2 ⟨hf, hall⟩, hfollow⟩
      · exact .inr ⟨f :: before, g, after, e, rfl, List.forall_mem_cons.2 ⟨hf, hbefore⟩, hg,
          hfollow⟩
    · obtain ⟨e, he⟩ := Classical.not_forall_not.1 hf
      refine .inr ⟨[], f, rest, e, rfl, fun _ h => absurd h List.not_mem_nil, he, ?_⟩
      rw [follow, he]
      rfl

end Source

end Settings

end SealedChannel
