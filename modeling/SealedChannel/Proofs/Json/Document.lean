import SealedChannel.Proofs.Json.Numeral
import SealedChannel.Proofs.Json.Print

/-!
# Documents that are numbers

The machine does not know that it reads a number, and nothing more, before the document ends.  What
it has read is known from its state: as long as no container is open it stands among the blanks
before the value, in the number, or among the blanks after it, and a container that has been closed
is a value of another kind.

## What is here

* `Json.parse?_of_padded` — blanks around a document do not count.
* `Json.numberPhase?` — where in a number the machine stands.
* `Machine.Traces`, `Machine.Traces.step`, `Json.traces_scan` — what a machine without open
  containers has read.
* `Json.parse?_eq_number_iff` — the documents that are numbers.
* `Json.size?_parse?` — the number in a document is the one between the blanks.
-/

set_option autoImplicit false
namespace SealedChannel
namespace Json

variable {bs raw digits : Bytes} {b : UInt8} {phase phase' : Phase} {value : Json}

/-! ## Blanks around a document -/

/-- The machine stays where it is among the blanks before a value. -/
theorem scan_blanks {opened : List Container} {before : Bytes} (h : ∀ b ∈ before, Blank b) :
    scan (some ⟨opened, .value⟩) before = some ⟨opened, .value⟩ := by
  induction before with
  | nil => rfl
  | cons b before ih =>
    obtain ⟨hb, hbefore⟩ := List.forall_mem_cons.1 h
    have hstep : Machine.step ⟨opened, .value⟩ b = some ⟨opened, .value⟩ := by
      simp [Machine.step, isSpace_eq_true_iff.2 hb]
    rw [scan_cons hstep, ih hbefore]

/-- Blanks alone are no document. -/
theorem parse?_of_blank (h : ∀ b ∈ bs, Blank b) : parse? bs = none := by
  rw [parse?, Machine.start, scan_blanks h]
  rfl

/-- A blank does not continue a number. -/
theorem Phase.next?_blank (hb : Blank b) (phase : Phase) : phase.next? b = none := by
  cases hb <;> cases phase <;> decide

/-- A machine that has read a value passes over the blanks after it. -/
theorem Machine.Ready.scan_blanks {m : Machine} {opened : List Container}
    (hm : m.Ready opened value) {after : Bytes} (h : ∀ b ∈ after, Blank b) :
    ∃ m', scan (some m) after = some m' ∧ m'.Ready opened value := by
  induction after generalizing m with
  | nil => exact ⟨m, rfl, hm⟩
  | cons b after ih =>
    obtain ⟨hb, hafter⟩ := List.forall_mem_cons.1 h
    have hspace := isSpace_eq_true_iff.2 hb
    have hstep : m.step b = some ⟨opened, .after value⟩ := by
      rcases hm with rfl | ⟨phase, raw, hend, rfl, rfl⟩
      · simp [Machine.step, Machine.afterValue, hspace]
      · simp [Machine.step, Machine.afterValue, hspace, hend, Phase.next?_blank hb]
    rw [scan_cons hstep]
    exact ih (.inl rfl) hafter

/-- **Blanks around a document do not count.** -/
theorem parse?_of_padded (h : WellFormed value) (hbs : Padded (print value) bs) :
    parse? bs = some value := by
  obtain ⟨before, after, hbefore, hafter, rfl⟩ := hbs
  obtain ⟨m, hready, hscan⟩ := (readable value h).scan [] after
  obtain ⟨m', hscan', hready'⟩ := hready.scan_blanks hafter
  rw [parse?, Machine.start, List.append_assoc, scan_append, scan_blanks hbefore, hscan, hscan']
  exact hready'.finish?

/-! ## What the machine has read -/

/-- Where in a number the machine stands after these bytes of it. -/
def numberPhase? : Bytes → Option Phase
  | [] => none
  | b :: bs => (Phase.first? b).bind (·.follow? bs)

theorem isNumeral_of_numberPhase? (h : numberPhase? raw = some phase)
    (hend : phase.mayEnd = true) : IsNumeral raw := by
  cases raw with
  | nil => cases h
  | cons b raw => exact ⟨phase, h, hend⟩

theorem follow?_concat (h : phase.follow? raw = some phase') :
    phase.follow? (raw ++ [b]) = phase'.next? b := by
  induction raw generalizing phase with
  | nil =>
    cases h
    exact Option.bind_fun_some _
  | cons c raw ih =>
    obtain ⟨later, hlater, h⟩ := Option.bind_eq_some_iff.1 h
    rw [List.cons_append, Phase.follow?, hlater, Option.bind_some, ih h]

/-- One more byte of a number. -/
theorem numberPhase?_concat (h : numberPhase? raw = some phase) :
    numberPhase? (raw ++ [b]) = phase.next? b := by
  cases raw with
  | nil => cases h
  | cons c raw =>
    obtain ⟨first, hfirst, h⟩ := Option.bind_eq_some_iff.1 h
    rw [List.cons_append, numberPhase?, hfirst, Option.bind_some, follow?_concat h]

namespace Machine

variable {m m' : Machine} {opened : List Container}

/-- What a machine without open containers has read, by its state.  No number will come of the
states within another value, so they say nothing. -/
def Traces (bs : Bytes) (m : Machine) : Prop :=
  m.opened = [] →
    match m.state with
    | .value => ∀ b ∈ bs, Blank b
    | .number phase raw => numberPhase? raw.reverse = some phase ∧
      ∃ before, (∀ b ∈ before, Blank b) ∧ bs = before ++ raw.reverse
    | .after (.number raw) => IsNumeral raw ∧ Padded raw bs
    | .word _ (.number _) => False
    | _ => True

/-- The first byte of a value. -/
theorem traces_beginValue (h : opened = [] → ∀ b ∈ bs, Blank b)
    (hm : beginValue opened b = some m) : Traces (bs ++ [b]) m := by
  have hnumber {phase : Phase} (hfirst : Phase.first? b = some phase) :
      Traces (bs ++ [b]) ⟨opened, .number phase [b]⟩ := fun hopened =>
    ⟨by rw [List.reverse_singleton, numberPhase?, hfirst]; rfl, bs, h hopened, rfl⟩
  rw [beginValue] at hm
  split at hm
  · cases hm
    exact fun _ => trivial
  split at hm
  · cases hm
    exact fun _ => trivial
  split at hm
  · cases hm
    exact fun _ => trivial
  split at hm
  · rename_i hb
    cases hm
    exact hnumber (by rw [Phase.first?, if_pos hb])
  rename_i hsign
  split at hm
  · rename_i hb
    cases hm
    exact hnumber (by rw [Phase.first?, if_neg hsign, if_pos hb])
  rename_i hzero
  split at hm
  · rename_i hb
    cases hm
    exact hnumber (by rw [Phase.first?, if_neg hsign, if_neg hzero, if_pos hb])
  -- what is left are the words, and they are no numbers
  repeat' split at hm
  all_goals cases hm
  all_goals exact fun _ => trivial

/-- One more blank after a value. -/
theorem traces_after_blank (h : Traces bs ⟨opened, .after value⟩) (hb : Blank b) :
    Traces (bs ++ [b]) ⟨opened, .after value⟩ := by
  intro hopened
  cases value with
  | number raw => exact ⟨(h hopened).1, (h hopened).2.concat hb⟩
  | _ => trivial

/-- A word is no number, however much of it has been read. -/
theorem traces_word {owed : Bytes} (h : Traces bs ⟨opened, .word owed value⟩)
    (bs' owed' : Bytes) :
    Traces bs' ⟨opened, .word owed' value⟩ ∧ Traces bs' ⟨opened, .after value⟩ := by
  cases value with
  | number raw => exact ⟨h, fun hopened => (h hopened).elim⟩
  | _ => exact ⟨fun _ => trivial, fun _ => trivial⟩

/-- A number is complete. -/
theorem traces_after_number (h : Traces bs ⟨opened, .number phase raw⟩)
    (hend : phase.mayEnd = true) : Traces bs ⟨opened, .after (.number raw.reverse)⟩ := by
  intro hopened
  obtain ⟨hphase, before, hbefore, rfl⟩ := h hopened
  exact ⟨isNumeral_of_numberPhase? hphase hend, before, [], hbefore, by simp, by simp⟩

/-- A byte after a value.  If it closes a container, the value is now that container. -/
theorem traces_afterValue (h : Traces bs ⟨opened, .after value⟩)
    (hm : afterValue opened value b = some m) : Traces (bs ++ [b]) m := by
  rw [afterValue.eq_def] at hm
  split at hm
  · rename_i hspace
    cases hm
    exact traces_after_blank h (isSpace_eq_true_iff.1 hspace)
  · split at hm
    · cases hm
    · split at hm
      · cases hm
        exact fun hopened => nomatch hopened
      · split at hm
        · cases hm
          exact fun _ => trivial
        · cases hm
    · split at hm
      · cases hm
        exact fun _ => trivial
      · split at hm
        · cases hm
          exact fun _ => trivial
        · cases hm

/-- **One byte.**  What the machine has read is still told by its state after one more byte. -/
theorem Traces.step (h : m.Traces bs) (hm : m.step b = some m') : m'.Traces (bs ++ [b]) := by
  obtain ⟨opened, state⟩ := m
  cases state with
  | value =>
    simp only [Machine.step] at hm
    split at hm
    · rename_i hspace
      cases hm
      intro hopened
      simpa [or_imp, forall_and] using ⟨h hopened, isSpace_eq_true_iff.1 hspace⟩
    · exact traces_beginValue h hm
  | itemOrEnd =>
    simp only [Machine.step] at hm
    split at hm
    · cases hm
      exact fun _ => trivial
    · split at hm
      · cases hm
        exact fun _ => trivial
      · -- the array is open, so what begins here is an item of it
        exact traces_beginValue (fun hopened : _ :: opened = [] => nomatch hopened) hm
  | nameOrEnd =>
    simp only [Machine.step] at hm
    split at hm
    · cases hm
      exact fun _ => trivial
    · split at hm
      · cases hm
        exact fun _ => trivial
      · split at hm
        · cases hm
          exact fun _ => trivial
        · cases hm
  | name members =>
    simp only [Machine.step] at hm
    split at hm
    · cases hm
      exact fun _ => trivial
    · split at hm
      · cases hm
        exact fun _ => trivial
      · cases hm
  | text raw escape =>
    simp only [Machine.step] at hm
    split at hm
    · cases hm
      exact fun _ => trivial
    · obtain ⟨escape', -, rfl⟩ := Option.map_eq_some_iff.1 hm
      exact fun _ => trivial
  | nameText members raw escape =>
    simp only [Machine.step] at hm
    split at hm
    · cases hm
      exact fun _ => trivial
    · obtain ⟨escape', -, rfl⟩ := Option.map_eq_some_iff.1 hm
      exact fun _ => trivial
  | colon members name =>
    simp only [Machine.step] at hm
    split at hm
    · cases hm
      exact fun _ => trivial
    · split at hm
      · cases hm
        exact fun hopened => nomatch hopened
      · cases hm
  | word owed value =>
    cases owed with
    | nil => exact traces_afterValue (traces_word h bs []).2 hm
    | cons c rest =>
      simp only [Machine.step, Option.ite_none_right_eq_some, Option.some.injEq] at hm
      obtain ⟨-, rfl⟩ := hm
      cases rest with
      | nil => exact (traces_word h (bs ++ [b]) []).2
      | cons c' rest => exact (traces_word h (bs ++ [b]) (c' :: rest)).1
  | number phase raw =>
    simp only [Machine.step] at hm
    -- the byte belongs to the number, or the number has ended before it
    split at hm
    · rename_i later hlater
      cases hm
      intro hopened
      obtain ⟨hphase, before, hbefore, rfl⟩ := h hopened
      refine ⟨?_, before, hbefore, ?_⟩
      · rw [List.reverse_cons, numberPhase?_concat hphase, hlater]
      · rw [List.reverse_cons, List.append_assoc]
    · split at hm
      · rename_i hend
        exact traces_afterValue (traces_after_number h hend) hm
      · cases hm
  | after value => exact traces_afterValue h hm

end Machine

/-- **All bytes.**  The state of the machine tells what it has read, whatever that is. -/
theorem traces_scan {m : Machine} (h : scan (some .start) bs = some m) : m.Traces bs := by
  induction bs using List.reverseRecOn generalizing m with
  | nil =>
    cases h
    exact fun _ => List.forall_mem_nil _
  | append_singleton front b ih =>
    rw [scan_append] at h
    obtain ⟨before, hbefore, hstep⟩ := Option.bind_eq_some_iff.1 h
    exact (ih hbefore).step hstep

/-! ## Numbers -/

/-- A machine that gives a value at the end of the document has read it. -/
theorem Machine.ready_of_finish? {m : Machine} (h : m.finish? = some value) :
    m.Ready [] value := by
  obtain ⟨opened, state⟩ := m
  rw [Machine.finish?.eq_def] at h
  split at h
  · rename_i hopened hstate
    cases hopened
    cases hstate
    cases h
    exact .inl rfl
  · rename_i phase raw hopened hstate
    cases hopened
    cases hstate
    obtain ⟨hend, heq⟩ := Option.ite_none_right_eq_some.1 h
    exact .inr ⟨phase, raw, hend, (Option.some.inj heq).symm, rfl⟩
  · cases h

/-- **Documents that are numbers.**  A document is a number if and only if it is a numeral with
blanks around it. -/
theorem parse?_eq_number_iff :
    parse? bs = some (.number digits) ↔ IsNumeral digits ∧ Padded digits bs := by
  refine ⟨fun h => ?_, fun ⟨hnumeral, hpadded⟩ => parse?_of_padded hnumeral (by rwa [print])⟩
  obtain ⟨m, hscan, hfinish⟩ := Option.bind_eq_some_iff.1 h
  have htraces := traces_scan hscan
  rcases Machine.ready_of_finish? hfinish with rfl | ⟨phase, raw, hend, hdigits, rfl⟩
  · exact htraces rfl
  · cases hdigits
    exact Machine.traces_after_number htraces hend rfl

theorem follow?_whole {rest : Bytes} (h : ∀ b ∈ rest, isDigit b = true) :
    Phase.follow? .whole rest = some .whole := by
  induction rest with
  | nil => rfl
  | cons b rest ih =>
    obtain ⟨hb, hrest⟩ := List.forall_mem_cons.1 h
    rw [Phase.follow?, Phase.next?]
    simp [hb, ih hrest]

/-- Decimal digits without a zero in front are a numeral. -/
theorem IsDecimal.isNumeral (h : IsDecimal digits) : IsNumeral digits := by
  cases digits with
  | nil => exact h.ne_nil rfl
  | cons b rest =>
    obtain ⟨hb, hrest⟩ := List.forall_mem_cons.1 h.isDigit
    have hsign : ¬ (b == 0x2D) = true := by
      intro hminus
      rw [beq_iff_eq.1 hminus] at hb
      cases hb
    rcases Decidable.em ((b == 0x30) = true) with hzero | hzero
    · obtain rfl := beq_iff_eq.1 hzero
      obtain rfl : rest = [] := by simpa using h.front
      exact ⟨.zero, rfl, rfl⟩
    · refine ⟨.whole, ?_, rfl⟩
      rw [Phase.first?, if_neg hsign, if_neg hzero, if_pos hb, Option.bind_some, follow?_whole hrest]

/-- **The number in a document** is the one between the blanks, and a document that is no number has
none there. -/
theorem size?_parse? (bs : Bytes) : (parse? bs).bind size? = natural? (strip bs) := by
  refine Option.ext fun n => ?_
  rw [natural?_strip_eq_some_iff, Option.bind_eq_some_iff]
  constructor
  · rintro ⟨value, hparse, hsize⟩
    cases value with
    | number digits =>
      obtain ⟨hlimit, rfl⟩ := natural?_eq_some_iff.1 hsize
      exact ⟨hlimit, (parse?_eq_number_iff.1 hparse).2⟩
    | _ => cases hsize
  · rintro ⟨hlimit, hpadded⟩
    exact ⟨_, parse?_eq_number_iff.2 ⟨(isDecimal_naturalDigits n).isNumeral, hpadded⟩,
      natural?_eq_some_iff.2 ⟨hlimit, rfl⟩⟩

end Json

end SealedChannel
