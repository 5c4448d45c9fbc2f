import SealedChannel.Proofs.Program.Exchange

/-!
# Runs while conditions change

How long the store takes, what it refuses, and which calls to the platform go wrong may change
between any two calls of a program.  A run is then told how the conditions change, call by call; one
that is told nothing meets the same conditions all the time.

## What is here

* `Conditions`, `World.under` — what may change, and a world under other conditions.
* `Climate`, `World.Turns` — the conditions that may come, and what a world may turn into.
* `Weather` — the conditions that come before the calls of a run.
* `Program.runAmid` — a run in changing weather, with `Program.runAmid_nil`: without any weather it
  is a run as usual.
-/

set_option autoImplicit false
namespace SealedChannel

/-! ## Conditions -/

/-- The conditions under which calls are answered. -/
structure Conditions where
  /-- How long a call to the store takes. -/
  latency : Duration
  refuseGets : Bool
  refuseSets : Bool
  refuseDeletes : Bool
  refuseMail : Bool
  refusePosts : Bool
  /-- What goes wrong with calls to the platform. -/
  faults : List (HostMethod × Fault)
  deriving Repr

/-- The same store under other conditions. -/
def Store.under (s : Store) (c : Conditions) : Store :=
  { s with
    latency := c.latency
    refuseGets := c.refuseGets
    refuseSets := c.refuseSets
    refuseDeletes := c.refuseDeletes }

/-- The same platform under other conditions. -/
def Host.under (h : Host) (c : Conditions) : Host :=
  { h with refuseMail := c.refuseMail, refusePosts := c.refusePosts, faults := c.faults }

/-- The same world under other conditions. -/
def World.under (w : World) (c : Conditions) : World :=
  { w with store := w.store.under c, host := w.host.under c }

/-- The conditions that may come. -/
abbrev Climate : Type :=
  Conditions → Prop

/-- The climate in which the conditions never change. -/
def Climate.calm : Climate := fun _ => False

/-- The platform is as it was, or has come under conditions of the climate. -/
def Host.Turns (climate : Climate) (h h' : Host) : Prop :=
  h' = h ∨ ∃ c, climate c ∧ h' = h.under c

/-- The world is as it was, or has come under conditions of the climate. -/
def World.Turns (climate : Climate) (w w' : World) : Prop :=
  w' = w ∨ ∃ c, climate c ∧ w' = w.under c

namespace Host.Turns

variable {climate : Climate} {h h' h'' : Host}

theorem refl (climate : Climate) (h : Host) : h.Turns climate h :=
  .inl rfl

/-- The last conditions are those that count. -/
theorem trans (hturns : h.Turns climate h') (hturns' : h'.Turns climate h'') :
    h.Turns climate h'' := by
  rcases hturns' with rfl | ⟨c, hc, rfl⟩
  · exact hturns
  · refine .inr ⟨c, hc, ?_⟩
    rcases hturns with rfl | ⟨_, -, rfl⟩ <;> rfl

/-- In a calm climate the platform stays as it is. -/
theorem eq_of_calm (hturns : h.Turns .calm h') : h' = h :=
  hturns.resolve_right fun ⟨_, hc, _⟩ => hc

/-- What does not depend on the conditions is as it was. -/
theorem congr {β : Sort*} {f : Host → β} (hf : ∀ h c, f (Host.under h c) = f h)
    (hturns : h.Turns climate h') : f h' = f h := by
  rcases hturns with rfl | ⟨c, -, rfl⟩
  · rfl
  · exact hf h c

/-- What is done without regard to the conditions may be done before they change. -/
theorem map {f : Host → Host} (hf : ∀ h c, f (Host.under h c) = (f h).under c)
    (hturns : h.Turns climate h') : (f h).Turns climate (f h') := by
  rcases hturns with rfl | ⟨c, hc, rfl⟩
  · exact .refl climate _
  · exact .inr ⟨c, hc, hf h c⟩

theorem user? (hturns : h.Turns climate h') (userId : String) : h'.user? userId = h.user? userId :=
  hturns.congr (f := fun h => h.user? userId) fun _ _ => rfl

end Host.Turns

namespace World.Turns

variable {climate : Climate} {w w' : World}

theorem refl (climate : Climate) (w : World) : w.Turns climate w :=
  .inl rfl

/-- In a calm climate the world stays as it is. -/
theorem eq_of_calm (hturns : w.Turns .calm w') : w' = w :=
  hturns.resolve_right fun ⟨_, hc, _⟩ => hc

theorem host (hturns : w.Turns climate w') : w.host.Turns climate w'.host := by
  rcases hturns with rfl | ⟨c, hc, rfl⟩
  · exact .refl climate _
  · exact .inr ⟨c, hc, rfl⟩

/-- What does not depend on the conditions is as it was. -/
theorem congr {β : Sort*} {f : World → β} (hf : ∀ w c, f (World.under w c) = f w)
    (hturns : w.Turns climate w') : f w' = f w := by
  rcases hturns with rfl | ⟨c, -, rfl⟩
  · rfl
  · exact hf w c

/-- Conditions change no value. -/
theorem get? (hturns : w.Turns climate w') (key : String) :
    w'.store.get? key = w.store.get? key :=
  hturns.congr (f := fun w => w.store.get? key) fun _ _ => rfl

/-- Conditions make no foreign write. -/
theorem spares {key : String} (hturns : w.Turns climate w') (hw : w.store.Spares key) :
    w'.store.Spares key := by
  rcases hturns with rfl | ⟨c, -, rfl⟩
  · exact hw
  · exact hw

end World.Turns

/-! ## Weather -/

/-- What comes before the calls of a run, one after another: other conditions, or nothing new. -/
abbrev Weather : Type :=
  List (Option Conditions)

namespace Weather

/-- The world when the next call is made. -/
def next : Weather → World → World
  | some c :: _, w => w.under c
  | _, w => w

@[simp]
theorem next_nil (w : World) : next [] w = w :=
  rfl

/-- The climate of the weather: all conditions that come. -/
def climate (weather : Weather) : Climate := fun c => some c ∈ weather

theorem climate_nil : climate [] = .calm := by
  funext c
  simp [climate, Climate.calm]

/-- What comes later is of the same climate. -/
theorem climate_of_tail {weather : Weather} {c : Conditions} (hc : climate weather.tail c) :
    weather.climate c :=
  List.mem_of_mem_tail hc

theorem turns_next (weather : Weather) {climate : Climate}
    (hweather : ∀ c, weather.climate c → climate c) (w : World) :
    w.Turns climate (weather.next w) := by
  rcases weather with _ | ⟨_ | c, rest⟩
  · exact .refl climate w
  · exact .refl climate w
  · exact .inr ⟨c, hweather c List.mem_cons_self, rfl⟩

/-- Weather changes no value and makes no foreign write. -/
theorem get?_next (weather : Weather) (w : World) (key : String) :
    (weather.next w).store.get? key = w.store.get? key :=
  (weather.turns_next (fun _ => id) w).get? key

theorem spares_next {w : World} {key : String} (weather : Weather) (hw : w.store.Spares key) :
    (weather.next w).store.Spares key :=
  (weather.turns_next (fun _ => id) w).spares hw

end Weather

/-! ## Runs -/

namespace Program

variable {α : Type}

/-- A run in changing weather of a program that has waited for a while already. -/
def runAmidFrom (limit : Option Duration) : Program α → Weather → Duration → World →
    Outcome α × World
  | .done a, _, _, w => (.finished a, w)
  | .call c next, weather, waited, w =>
    let w := weather.next w
    let waited := waited + w.waitFor c
    if isOver limit waited then (.expired, w.begin c)
    else
      match w.react c with
      | .answered answer w => (next answer).runAmidFrom limit weather.tail waited w
      | .crashed => (.crashed, w)
      | .blocked => (.stuck, w)

/-- A whole run in changing weather.  A run that does not finish gives the locks back that it took.
-/
def runAmid (weather : Weather) (limit : Option Duration) (p : Program α) (w : World) :
    Outcome α × World :=
  match p.runAmidFrom limit weather ⟨0⟩ w with
  | (.finished a, w') => (.finished a, w')
  | (outcome, w') => (outcome, { w' with held := w.held })

theorem runAmidFrom_nil (limit : Option Duration) (p : Program α) (waited : Duration)
    (w : World) : p.runAmidFrom limit [] waited w = p.runFrom limit waited w := by
  induction p generalizing waited w with
  | done a => rfl
  | call c next ih =>
    rw [runAmidFrom, runFrom, Weather.next_nil, List.tail_nil]
    split
    · rfl
    · cases w.react c with
      | answered answer w' => exact ih answer _ w'
      | crashed => rfl
      | blocked => rfl

/-- Without any weather, a run is one as usual. -/
@[simp]
theorem runAmid_nil (limit : Option Duration) (p : Program α) (w : World) :
    p.runAmid [] limit w = p.run limit w := by
  rw [runAmid, runAmidFrom_nil]
  rfl

end Program

end SealedChannel
