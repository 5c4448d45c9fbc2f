import SealedChannel.Json.Printer
import SealedChannel.Proofs.Json.Text

/-!
# JSON there and back

The compact form of a value is read back as that value, provided that its numbers are numerals and
its strings may stand between quotes.  The machine reads a value within containers that are still
open, so the statement is about a machine in the middle of a document: it is then ready for what may
follow the value.

## What is here

* `Json.WellFormed` — the values that have a compact form.
* `Machine.Ready` — a machine that has read a value.
* `Json.parse?_print` — a well-formed value is read back.
-/

set_option autoImplicit false
namespace SealedChannel
namespace Json

/-! ## Values with a compact form -/

/-- Where in a number the machine stands after its first byte. -/
def Phase.first? (b : UInt8) : Option Phase :=
  if b == 0x2D then some .sign else if b == 0x30 then some .zero
  else if isDigit b then some .whole else none

/-- Where it stands after some more bytes. -/
def Phase.follow? (phase : Phase) : Bytes → Option Phase
  | [] => some phase
  | b :: bs => (phase.next? b).bind fun phase => phase.follow? bs

/-- The bytes of a number. -/
def IsNumeral : Bytes → Prop
  | [] => False
  | b :: bs => ∃ phase, (Phase.first? b).bind (·.follow? bs) = some phase ∧ phase.mayEnd = true

mutual

/-- A value whose numbers are numerals and whose strings may stand between quotes. -/
def WellFormed : Json → Prop
  | .null => True
  | .bool _ => True
  | .number raw => IsNumeral raw
  | .string raw => IsQuotable raw
  | .array items => WellFormedItems items
  | .object members => WellFormedMembers members

/-- Items that are well-formed. -/
def WellFormedItems : List Json → Prop
  | [] => True
  | item :: items => WellFormed item ∧ WellFormedItems items

/-- Members that are well-formed, and so are their names. -/
def WellFormedMembers : List (Bytes × Json) → Prop
  | [] => True
  | (name, value) :: members => IsQuotable name ∧ WellFormed value ∧ WellFormedMembers members

end

/-! ## The machine on parts of a value -/

theorem scan_cons {m m' : Machine} {b : UInt8} (h : m.step b = some m') (bs : Bytes) :
    scan (some m) (b :: bs) = scan (some m') bs := by
  rw [scan, List.foldl_cons, Option.bind_some, h, ← scan]

theorem scan_append (m : Option Machine) (before after : Bytes) :
    scan m (before ++ after) = scan (scan m before) after :=
  List.foldl_append

/-- The bytes between two quotes, where `state` is the state of a machine that has read some of
them. -/
theorem scan_text {opened : List Container} {state : Bytes → Escape → State}
    (hstep : ∀ raw escape b, ¬ (escape = .outside ∧ b = 0x22) →
      Machine.step ⟨opened, state raw escape⟩ b
        = (Machine.textByte escape b).map fun escape => ⟨opened, state (b :: raw) escape⟩)
    {before raw : Bytes} {escape escape' : Escape} (h : textFrom escape raw = some escape') :
    scan (some ⟨opened, state before escape⟩) raw
      = some ⟨opened, state (raw.reverse ++ before) escape'⟩ := by
  induction raw generalizing before escape with
  | nil => cases h; rfl
  | cons b raw ih =>
    rw [textFrom] at h
    split at h
    · cases h
    · rename_i hquote
      obtain ⟨later, hlater, h⟩ := Option.bind_eq_some_iff.1 h
      have hb := hstep before escape b hquote
      rw [hlater, Option.map_some] at hb
      rw [scan_cons hb, ih h]
      simp

/-- The bytes of a number after the first one. -/
theorem scan_number {opened : List Container} {phase phase' : Phase} {before raw : Bytes}
    (h : phase.follow? raw = some phase') :
    scan (some ⟨opened, .number phase before⟩) raw
      = some ⟨opened, .number phase' (raw.reverse ++ before)⟩ := by
  induction raw generalizing before phase with
  | nil => cases h; rfl
  | cons b raw ih =>
    obtain ⟨later, hlater, h⟩ := Option.bind_eq_some_iff.1 h
    have hb : Machine.step ⟨opened, .number phase before⟩ b
        = some ⟨opened, .number later (b :: before)⟩ := by
      simp [Machine.step, hlater]
    rw [scan_cons hb, ih h]
    simp

namespace Machine

/-- The machine has read a value; a number is only known to be complete when the next byte comes. -/
def Ready (m : Machine) (opened : List Container) (value : Json) : Prop :=
  m = ⟨opened, .after value⟩ ∨
    ∃ phase raw, phase.mayEnd = true ∧ value = .number raw.reverse ∧ m = ⟨opened, .number phase raw⟩

variable {m : Machine} {opened : List Container} {value : Json}

/-- A comma or a closing bracket or brace ends a value. -/
theorem Ready.step (h : m.Ready opened value) {b : UInt8} (hb : b = 0x2C ∨ b = 0x5D ∨ b = 0x7D) :
    m.step b = afterValue opened value b := by
  rcases h with rfl | ⟨phase, raw, hend, rfl, rfl⟩
  · rfl
  · have hnext : phase.next? b = none := by
      rcases hb with rfl | rfl | rfl <;> cases phase <;> decide
    simp [Machine.step, hnext, hend]

/-- So does the end of the document. -/
theorem Ready.finish? (h : m.Ready [] value) : m.finish? = some value := by
  rcases h with rfl | ⟨phase, raw, hend, rfl, rfl⟩
  · rfl
  · simp [Machine.finish?, hend]

end Machine

/-- A name in an object with its quotes and the colon, where a name may begin. -/
theorem scan_name {m : Machine} {members : List (Bytes × Json)} {name : Bytes} (h : IsQuotable name)
    (hm : m.step 0x22 = some ⟨m.opened, .nameText members [] .outside⟩) (after : Bytes) :
    scan (some m) (quoted name ++ 0x3A :: after)
      = scan (some ⟨.object members name :: m.opened, .value⟩) after := by
  have hname : scan (some ⟨m.opened, .nameText members [] .outside⟩) name
      = some ⟨m.opened, .nameText members name.reverse .outside⟩ := by
    rw [scan_text ?_ h, List.append_nil]
    intro raw escape b hquote
    simp only [Machine.step]
    rw [if_neg hquote]
  have hclose : Machine.step ⟨m.opened, .nameText members name.reverse .outside⟩ 0x22
      = some ⟨m.opened, .colon members name⟩ := by
    simp [Machine.step]
  rw [quoted, List.cons_append, List.append_assoc, scan_cons hm, scan_append, hname,
    List.singleton_append, scan_cons hclose]
  exact scan_cons rfl after

/-! ## Whole values -/

/-- What the machine does with the compact form of a value where a value may begin: it takes the
first byte, which is no blank and does not close an array, and is ready after the last. -/
def Readable (value : Json) : Prop :=
  ∃ b rest, print value = b :: rest ∧ isSpace b = false ∧ b ≠ 0x5D ∧ ∀ opened, ∃ m m',
    Machine.beginValue opened b = some m ∧ scan (some m) rest = some m' ∧ m'.Ready opened value

/-- A readable value is read where a value must begin. -/
theorem Readable.scan {value : Json} (h : Readable value) (opened : List Container)
    (after : Bytes) : ∃ m, m.Ready opened value ∧
      Json.scan (some ⟨opened, .value⟩) (print value ++ after) = Json.scan (some m) after := by
  obtain ⟨b, rest, hprint, hspace, -, hread⟩ := h
  obtain ⟨m, m', hbegin, hscan, hready⟩ := hread opened
  have hb : Machine.step ⟨opened, .value⟩ b = some m := by
    simp [Machine.step, hspace, hbegin]
  refine ⟨m', hready, ?_⟩
  rw [hprint, List.cons_append, scan_cons hb, scan_append, hscan]

/-- The first byte of a number. -/
theorem beginValue_number {b : UInt8} {phase : Phase} (h : Phase.first? b = some phase) :
    isSpace b = false ∧ b ≠ 0x5D ∧
      ∀ opened, Machine.beginValue opened b = some ⟨opened, .number phase [b]⟩ := by
  rw [Phase.first?] at h
  split at h
  · rename_i hb
    obtain rfl := beq_iff_eq.1 hb
    cases h
    exact ⟨rfl, by decide, fun _ => rfl⟩
  · rename_i hsign
    split at h
    · rename_i hb
      obtain rfl := beq_iff_eq.1 hb
      cases h
      exact ⟨rfl, by decide, fun _ => rfl⟩
    · rename_i hzero
      split at h
      · rename_i hdigit
        cases h
        have hrange : 48 ≤ b.toNat ∧ b.toNat ≤ 57 := by simpa [isDigit] using hdigit
        have hne {k : UInt8} (hk : k.toNat < 48 ∨ 57 < k.toNat) : b ≠ k := by
          rintro rfl
          omega
        have h₁ : b ≠ 0x22 := hne (by decide)
        have h₂ : b ≠ 0x5B := hne (by decide)
        have h₃ : b ≠ 0x7B := hne (by decide)
        have h₄ : b ≠ 0x20 := hne (by decide)
        have h₅ : b ≠ 0x09 := hne (by decide)
        have h₆ : b ≠ 0x0A := hne (by decide)
        have h₇ : b ≠ 0x0D := hne (by decide)
        refine ⟨by simp [isSpace, h₄, h₅, h₆, h₇], hne (by decide), fun opened => ?_⟩
        simp only [beq_iff_eq] at hsign hzero
        simp [Machine.beginValue, h₁, h₂, h₃, hsign, hzero, hdigit]
      · cases h

/-- A number is read. -/
theorem readable_number {raw : Bytes} (h : IsNumeral raw) : Readable (.number raw) := by
  cases raw with
  | nil => exact h.elim
  | cons b raw =>
    obtain ⟨phase, hphase, hend⟩ := h
    obtain ⟨first, hfirst, hfollow⟩ := Option.bind_eq_some_iff.1 hphase
    obtain ⟨hspace, hclose, hbegin⟩ := beginValue_number hfirst
    refine ⟨b, raw, by rw [print], hspace, hclose, fun opened => ?_⟩
    refine ⟨_, _, hbegin opened, scan_number hfollow,
      .inr ⟨phase, raw.reverse ++ [b], hend, ?_, rfl⟩⟩
    simp

/-- A string is read. -/
theorem readable_string {raw : Bytes} (h : IsQuotable raw) : Readable (.string raw) := by
  refine ⟨0x22, raw ++ [0x22], by rw [print, quoted], rfl, by decide, fun opened => ?_⟩
  have htext : scan (some ⟨opened, .text [] .outside⟩) raw
      = some ⟨opened, .text (raw.reverse ++ []) .outside⟩ := by
    refine scan_text (fun raw escape b hquote => ?_) h
    simp only [Machine.step]
    rw [if_neg hquote]
  refine ⟨⟨opened, .text [] .outside⟩, ⟨opened, .after (.string raw)⟩, rfl, ?_, .inl rfl⟩
  rw [scan_append, htext, List.append_nil]
  simp [Json.scan, Machine.step]

mutual

/-- A well-formed value is read. -/
theorem readable : ∀ value, WellFormed value → Readable value
  | .null, _ => ⟨0x6E, Bytes.ofText "ull", rfl, rfl, by decide, fun opened =>
      ⟨⟨opened, .word (Bytes.ofText "ull") .null⟩, ⟨opened, .after .null⟩, rfl, rfl, .inl rfl⟩⟩
  | .bool true, _ => ⟨0x74, Bytes.ofText "rue", rfl, rfl, by decide, fun opened =>
      ⟨⟨opened, .word (Bytes.ofText "rue") (.bool true)⟩, ⟨opened, .after (.bool true)⟩, rfl, rfl,
        .inl rfl⟩⟩
  | .bool false, _ => ⟨0x66, Bytes.ofText "alse", rfl, rfl, by decide, fun opened =>
      ⟨⟨opened, .word (Bytes.ofText "alse") (.bool false)⟩, ⟨opened, .after (.bool false)⟩, rfl,
        rfl, .inl rfl⟩⟩
  | .number _, h => readable_number h
  | .string _, h => readable_string h
  | .array [], _ => ⟨0x5B, [0x5D], rfl, rfl, by decide, fun opened =>
      ⟨⟨opened, .itemOrEnd⟩, ⟨opened, .after (.array [])⟩, rfl, rfl, .inl rfl⟩⟩
  | .array (item :: items), h => by
    obtain ⟨b, rest, hprint, hspace, hclose, hread⟩ := readable item h.1
    refine ⟨0x5B, print item ++ printItems items, by rw [print], rfl, by decide, fun opened => ?_⟩
    obtain ⟨m, m', hbegin, hscan, hready⟩ := hread (.array [] :: opened)
    have hb : Machine.step ⟨opened, .itemOrEnd⟩ b = some m := by
      simp [Machine.step, hspace, hbegin, hclose]
    refine ⟨⟨opened, .itemOrEnd⟩, ⟨opened, .after (.array (item :: items))⟩, rfl, ?_, .inl rfl⟩
    rw [hprint, List.cons_append, scan_cons hb, scan_append, hscan]
    exact scan_printItems items h.2 opened [] item m' hready
  | .object [], _ => ⟨0x7B, [0x7D], rfl, rfl, by decide, fun opened =>
      ⟨⟨opened, .nameOrEnd⟩, ⟨opened, .after (.object [])⟩, rfl, rfl, .inl rfl⟩⟩
  | .object ((name, value) :: members), h => by
    obtain ⟨hname, hvalue, hmembers⟩ := h
    refine ⟨0x7B, quoted name ++ 0x3A :: (print value ++ printMembers members), by rw [print], rfl,
      by decide, fun opened => ?_⟩
    obtain ⟨m, hready, hscan⟩ :=
      (readable value hvalue).scan (.object [] name :: opened) (printMembers members)
    refine ⟨⟨opened, .nameOrEnd⟩, ⟨opened, .after (.object ((name, value) :: members))⟩, rfl, ?_,
      .inl rfl⟩
    rw [scan_name hname rfl, hscan]
    exact scan_printMembers members hmembers opened [] name value m hready

theorem scan_printItems : ∀ items, WellFormedItems items → ∀ opened done item m,
    Machine.Ready m (.array done :: opened) item →
      scan (some m) (printItems items)
        = some ⟨opened, .after (.array (done.reverse ++ item :: items))⟩
  | [], _, opened, done, item, m, hready => by
    have hb := hready.step (b := 0x5D) (by decide)
    rw [printItems, scan_cons (hb.trans rfl)]
    simp [scan]
  | next :: items, h, opened, done, item, m, hready => by
    have hb := hready.step (b := 0x2C) (by decide)
    obtain ⟨m', hready', hscan⟩ :=
      (readable next h.1).scan (.array (item :: done) :: opened) (printItems items)
    rw [printItems, scan_cons (hb.trans rfl), hscan,
      scan_printItems items h.2 opened (item :: done) next m' hready']
    simp

theorem scan_printMembers : ∀ members, WellFormedMembers members → ∀ opened done name value m,
    Machine.Ready m (.object done name :: opened) value →
      scan (some m) (printMembers members)
        = some ⟨opened, .after (.object (done.reverse ++ (name, value) :: members))⟩
  | [], _, opened, done, name, value, m, hready => by
    have hb := hready.step (b := 0x7D) (by decide)
    rw [printMembers, scan_cons (hb.trans rfl)]
    simp [scan]
  | (next, other) :: members, h, opened, done, name, value, m, hready => by
    obtain ⟨hnext, hother, hmembers⟩ := h
    have hb := hready.step (b := 0x2C) (by decide)
    obtain ⟨m', hready', hscan⟩ := (readable other hother).scan
      (.object ((name, value) :: done) next :: opened) (printMembers members)
    rw [printMembers, scan_cons (hb.trans rfl), scan_name hnext rfl, hscan,
      scan_printMembers members hmembers opened ((name, value) :: done) next other m' hready']
    simp

end

/-- **JSON there and back.**  A well-formed value is read back from its compact form. -/
theorem parse?_print {value : Json} (h : WellFormed value) : parse? (print value) = some value := by
  obtain ⟨m, hready, hscan⟩ := (readable value h).scan [] []
  rw [List.append_nil] at hscan
  rw [parse?, Machine.start, hscan]
  exact hready.finish?

end Json

end SealedChannel
