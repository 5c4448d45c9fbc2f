import SealedChannel.KeyServer.Index
import SealedChannel.Proofs.Text.Numeral
import SealedChannel.Proofs.Text.Split

/-!
# Indexes there and back

An index is written line by line: records among lines that say other things, each with blanks around
it and one of two line ends.  Reading such an index gives the records back, first to last, and
nothing else; so the first usable key is the first one that was written without a flag.

## What is here

* `Entry`, `Entry.text` — a record as a key server writes it.
* `IsKeyLine`, `Line`, `Line.document` — lines with and without records, and an index made of them.
* `Index.listing?_of_trim`, `Index.isKeyLine_of_listing?` — a written record is read back, and a
  line that is no record gives none.
* `Index.parse_append` — an index in two parts.
* `Index.parse_document` — the records of an index, and the first usable one.
-/

set_option autoImplicit false
namespace SealedChannel
namespace KeyServer

open Text

/-! ## Written records -/

/-- The number of an algorithm. -/
def Algorithm.number : Algorithm → Nat
  | .rsaEncryptOrSign => 1
  | .rsaEncrypt => 2
  | .rsaSign => 3
  | .elGamalEncrypt => 16
  | .dsa => 17
  | .ec => 18
  | .ecdsa => 19
  | .elGamalEncryptOrSign => 20
  | .dh => 21

/-- A number names an algorithm if and only if it is the algorithm's own. -/
theorem Algorithm.ofId?_eq_some_iff {n : Nat} {a : Algorithm} :
    ofId? n = some a ↔ n = a.number := by
  refine ⟨fun h => ?_, fun h => ?_⟩
  · unfold ofId? at h
    split at h <;> cases h <;> rfl
  · subst h
    cases a <;> rfl

/-- A flag that a key server puts on a key. -/
inductive Flag where
  | revoked
  | disabled
  | expired
  deriving DecidableEq, Repr

/-- The letter of a flag. -/
def Flag.letter : Flag → Char
  | .revoked => 'r'
  | .disabled => 'd'
  | .expired => 'e'

/-- A record as a key server writes it.  The id keeps to its field, and the times to the range of
points in time. -/
structure Entry where
  keyId : String
  algorithm : Algorithm
  keyLength : UInt32
  created : Option Timestamp
  expires : Option Timestamp
  /-- The flags of the key, in any order. -/
  flags : List Flag
  keyId_plain : ∀ c ∈ keyId.toList, c ≠ ':' ∧ c ≠ '\n'
  created_inRange : ∀ t ∈ created, Timestamp.least ≤ t.seconds ∧ t.seconds ≤ Timestamp.greatest
  expires_inRange : ∀ t ∈ expires, Timestamp.least ≤ t.seconds ∧ t.seconds ≤ Timestamp.greatest

namespace Entry

/-- The field of a point in time, empty where there is none. -/
def timeField : Option Timestamp → List Char
  | none => []
  | some t => (toString t.seconds).toList

/-- The seven fields of a record. -/
def fields (e : Entry) : List (List Char) :=
  [['p', 'u', 'b'], e.keyId.toList, (toString e.algorithm.number).toList,
    (toString e.keyLength.toNat).toList, timeField e.created, timeField e.expires,
    e.flags.map Flag.letter]

/-- A record as it stands in its line. -/
def text (e : Entry) : List Char :=
  [':'].intercalate e.fields

/-- What is to be known of a record. -/
def listing (e : Entry) : Listing :=
  ⟨e.keyId, some e.algorithm, some e.keyLength.toNat, e.created, e.expires,
    decide (.revoked ∈ e.flags), decide (.disabled ∈ e.flags), decide (.expired ∈ e.flags)⟩

/-- A key can be used if and only if there is no flag on it. -/
theorem isUsable_listing (e : Entry) : e.listing.isUsable = e.flags.isEmpty := by
  cases hflags : e.flags with
  | nil => simp [listing, Listing.isUsable, hflags]
  | cons flag rest => cases flag <;> simp [listing, Listing.isUsable, hflags]

/-! ## What a record is made of -/

theorem plain_of_isDigit {c : Char} (h : c.isDigit = true) : c ≠ ':' ∧ c ≠ '\n' := by
  refine ⟨?_, ?_⟩ <;> rintro rfl <;> cases h

theorem plain_timeField {time : Option Timestamp} {c : Char} (h : c ∈ timeField time) :
    c ≠ ':' ∧ c ≠ '\n' := by
  cases time with
  | none => cases h
  | some t =>
    rcases Numeral.mem_toString_int h with rfl | hdigit
    · decide
    · exact plain_of_isDigit hdigit

/-- No field of a record holds a colon or a newline. -/
theorem plain_of_mem_fields (e : Entry) {field : List Char} (h : field ∈ e.fields) {c : Char}
    (hc : c ∈ field) : c ≠ ':' ∧ c ≠ '\n' := by
  simp only [fields, List.mem_cons, List.not_mem_nil, or_false] at h
  rcases h with rfl | rfl | rfl | rfl | rfl | rfl | rfl
  · simp only [List.mem_cons, List.not_mem_nil, or_false] at hc
    rcases hc with rfl | rfl | rfl <;> decide
  · exact e.keyId_plain c hc
  · exact plain_of_isDigit (Numeral.isDigit_of_mem_toString hc)
  · exact plain_of_isDigit (Numeral.isDigit_of_mem_toString hc)
  · exact plain_timeField hc
  · exact plain_timeField hc
  · obtain ⟨flag, -, rfl⟩ := List.mem_map.1 hc
    cases flag <;> decide

theorem splitOn_text (e : Entry) : splitOn ':' e.text = e.fields :=
  splitOn_intercalate (fun _ h hc => (e.plain_of_mem_fields h hc).1 rfl) (List.cons_ne_nil _ _)

/-- A record takes one line. -/
theorem newline_not_mem_text (e : Entry) : '\n' ∉ e.text := by
  intro h
  rcases eq_or_mem_of_mem_intercalate h with hcolon | ⟨field, hfield, hnewline⟩
  · cases hcolon
  · exact (e.plain_of_mem_fields hfield hnewline).2 rfl

/-- A record ends with a letter, or with the colon before its last field. -/
theorem getLast?_text (e : Entry) :
    ∃ last, e.text.getLast? = some last ∧ isBlank last = false := by
  obtain ⟨front, htext⟩ : ∃ front, e.text = front ++ ':' :: e.flags.map Flag.letter := by
    refine ⟨[':'].intercalate (e.fields.take 6), ?_⟩
    simp [text, fields, List.intercalate_cons_cons]
  rcases List.eq_nil_or_concat e.flags with hflags | ⟨flags, flag, hflags⟩
  · rw [htext, hflags]
    exact ⟨':', List.getLast?_concat .., rfl⟩
  · rw [htext, hflags, List.concat_eq_append, List.map_append, ← List.cons_append,
      ← List.append_assoc]
    exact ⟨flag.letter, List.getLast?_concat .., by cases flag <;> rfl⟩

/-- There are no blanks at the ends of a record. -/
theorem trim_text (e : Entry) : trim e.text = e.text := by
  obtain ⟨last, hlast, hblank⟩ := e.getLast?_text
  have hfirst : e.text.head? = some 'p' := by
    rw [text, fields, List.intercalate_cons_cons]
    rfl
  exact trim_eq_self hfirst hlast rfl hblank

end Entry

/-! ## Written indexes -/

/-- Seven fields between colons, of which the first is `pub`. -/
def IsKeyLine (cs : List Char) : Prop :=
  ∃ fields : List (List Char), fields.length = 6 ∧ (∀ field ∈ fields, ':' ∉ field) ∧
    cs = [':'].intercalate (['p', 'u', 'b'] :: fields)

/-- What a line says: a record, or anything that is none. -/
inductive Saying where
  | record (e : Entry)
  | other (text : List Char) (newline : '\n' ∉ text) (noKey : ¬ IsKeyLine (trim text))

/-- What is said, as text. -/
def Saying.text : Saying → List Char
  | .record e => e.text
  | .other text _ _ => text

/-- The record that is said. -/
def Saying.entry? : Saying → Option Entry
  | .record e => some e
  | .other _ _ _ => none

/-- A line of an index, with blanks around what it says. -/
structure Line where
  saying : Saying
  left : List Char
  right : List Char
  left_blank : ∀ c ∈ left, c = ' ' ∨ c = '\t'
  right_blank : ∀ c ∈ right, c = ' ' ∨ c = '\t'
  /-- Whether a carriage return stands before the newline. -/
  carriageReturn : Bool

namespace Line

/-- The blanks after what a line says, up to its newline. -/
def ending (l : Line) : List Char :=
  l.right ++ if l.carriageReturn then ['\r'] else []

/-- A line up to its newline. -/
def text (l : Line) : List Char :=
  l.left ++ l.saying.text ++ l.ending

/-- An index. -/
def document (lines : List Line) : String :=
  String.ofList (lines.flatMap fun l => l.text ++ ['\n'])

/-- The records of an index, first to last. -/
def entries (lines : List Line) : List Entry :=
  lines.filterMap fun l => l.saying.entry?

theorem isBlank_left (l : Line) : ∀ c ∈ l.left, isBlank c = true := by
  intro c hc
  rcases l.left_blank c hc with rfl | rfl <;> rfl

theorem mem_ending {l : Line} {c : Char} (h : c ∈ l.ending) : c = ' ' ∨ c = '\t' ∨ c = '\r' := by
  rw [ending, List.mem_append] at h
  rcases h with h | h
  · exact (l.right_blank c h).imp_right .inl
  · split at h
    · exact .inr (.inr (List.mem_singleton.1 h))
    · cases h

theorem isBlank_ending (l : Line) : ∀ c ∈ l.ending, isBlank c = true := by
  intro c hc
  rcases mem_ending hc with rfl | rfl | rfl <;> rfl

/-- The blanks of a line do not count. -/
theorem trim_text (l : Line) : trim l.text = trim l.saying.text :=
  trim_pad l.isBlank_left l.isBlank_ending l.saying.text

/-- A line is one line. -/
theorem newline_not_mem_text (l : Line) : '\n' ∉ l.text := by
  have hsaying : '\n' ∉ l.saying.text := by
    cases l.saying with
    | record e => exact e.newline_not_mem_text
    | other text newline noKey => exact newline
  rw [text, List.mem_append, List.mem_append, not_or, not_or]
  refine ⟨⟨fun h => ?_, hsaying⟩, fun h => ?_⟩
  · exact absurd (l.left_blank _ h) (by decide)
  · exact absurd (mem_ending h) (by decide)

end Line

namespace Index

/-! ## Reading a line -/

theorem number?_toString {n : Nat} (h : n < UInt32.size) :
    number? (toString n).toList = some n := by
  rw [number?, Numeral.natural_toString (by omega)]
  rfl

theorem time?_timeField {time : Option Timestamp}
    (h : ∀ t ∈ time, Timestamp.least ≤ t.seconds ∧ t.seconds ≤ Timestamp.greatest) :
    time? (Entry.timeField time) = time := by
  cases time with
  | none => rfl
  | some t =>
    have hrange := h t rfl
    -- the range of points in time lies well within 64 bits
    have hbelow : -((UInt64.size / 2 : Nat) : Int) ≤ Timestamp.least := by decide
    have habove : Timestamp.greatest ≤ ((UInt64.size / 2 - 1 : Nat) : Int) := by decide
    rw [time?, Entry.timeField,
      Numeral.integer?_toString (Int.le_trans hbelow hrange.1) (Int.le_trans hrange.2 habove)]
    exact if_pos hrange

theorem contains_letter (flags : List Flag) (flag : Flag) :
    (flags.map Flag.letter).contains flag.letter = decide (flag ∈ flags) := by
  have hinjective {a b : Flag} (h : a.letter = b.letter) : a = b := by
    cases a <;> cases b <;> first | rfl | cases h
  rw [Bool.eq_iff_iff, List.contains_iff_mem, decide_eq_true_iff]
  refine ⟨fun h => ?_, List.mem_map_of_mem⟩
  obtain ⟨other, hother, hletter⟩ := List.mem_map.1 h
  rwa [← hinjective hletter]

/-- **A written record is read back.** -/
theorem listing?_of_trim (e : Entry) {line : List Char} (hline : trim line = e.text) :
    listing? line = some e.listing := by
  have hlength : e.keyLength.toNat < UInt32.size := e.keyLength.toNat_lt
  have hnumber : e.algorithm.number < UInt32.size := by cases e.algorithm <;> decide
  rw [listing?, hline, e.splitOn_text, Entry.fields]
  dsimp only
  rw [if_pos rfl, String.ofList_toList, number?_toString hnumber, Option.bind_some,
    Algorithm.ofId?_eq_some_iff.2 rfl, number?_toString hlength, time?_timeField e.created_inRange,
    time?_timeField e.expires_inRange]
  change some (Listing.mk _ _ _ _ _ ((e.flags.map Flag.letter).contains (Flag.letter .revoked))
    ((e.flags.map Flag.letter).contains (Flag.letter .disabled))
    ((e.flags.map Flag.letter).contains (Flag.letter .expired))) = _
  rw [contains_letter, contains_letter, contains_letter]
  rfl

/-- **Only a line with seven fields gives a record.** -/
theorem isKeyLine_of_listing? {line : List Char} {l : Listing} (h : listing? line = some l) :
    IsKeyLine (trim line) := by
  rw [listing?] at h
  split at h
  · rename_i kind keyId algorithm length created expires flags hparts
    split at h
    · rename_i hkind
      subst hkind
      refine ⟨[keyId, algorithm, length, created, expires, flags], rfl, fun field hfield => ?_, ?_⟩
      · exact not_mem_of_mem_splitOn (hparts ▸ List.mem_cons_of_mem _ hfield)
      · rw [← hparts, intercalate_splitOn]
    · cases h
  · cases h

theorem listing?_line (l : Line) : listing? l.text = l.saying.entry?.map Entry.listing := by
  have htrim := l.trim_text
  cases hsaying : l.saying with
  | record e =>
    rw [hsaying, Saying.text, e.trim_text] at htrim
    exact listing?_of_trim e htrim
  | other text newline noKey =>
    rw [hsaying] at htrim
    refine Option.eq_none_iff_forall_ne_some.2 fun found hfound => noKey ?_
    have hkey := isKeyLine_of_listing? hfound
    rwa [htrim] at hkey

/-! ## Reading an index -/

/-- The records of two texts with a newline between them. -/
theorem parse_append (a b : String) : parse (a ++ "\n" ++ b) = parse a ++ parse b := by
  have htext : (a ++ "\n" ++ b).toList = a.toList ++ '\n' :: b.toList := by
    rw [String.toList_append, String.toList_append, List.append_assoc]
    rfl
  rw [parse, htext, splitOn_append_cons, List.filterMap_append, parse, parse]

theorem parse_ofList_cons {line : List Char} (h : '\n' ∉ line) (rest : List Char) :
    parse (String.ofList (line ++ '\n' :: rest)) =
      (listing? line).toList ++ parse (String.ofList rest) := by
  rw [parse, parse, String.toList_ofList, String.toList_ofList, splitOn_append_cons,
    splitOn_eq_singleton h, List.filterMap_append, List.filterMap_cons, List.filterMap_nil]
  cases listing? line <;> rfl

theorem parse_lines (lines : List Line) :
    parse (Line.document lines) = (Line.entries lines).map Entry.listing := by
  induction lines with
  | nil => rfl
  | cons l lines ih =>
    have hdocument : Line.document (l :: lines) =
        String.ofList (l.text ++ '\n' :: (Line.document lines).toList) := by
      rw [Line.document, Line.document, String.toList_ofList, List.flatMap_cons, List.append_assoc]
      rfl
    rw [hdocument, parse_ofList_cons l.newline_not_mem_text, String.ofList_toList, ih,
      listing?_line, Line.entries, Line.entries, List.filterMap_cons]
    cases l.saying.entry? <;> rfl

/-- The first usable record is the first one without a flag. -/
theorem firstUsable_listings (entries : List Entry) :
    firstUsable (entries.map Entry.listing) =
      match entries.find? fun e => e.flags.isEmpty with
      | some e => .ok e.keyId
      | none => .error .noValidKey := by
  have husable : Listing.isUsable ∘ Entry.listing = fun e => e.flags.isEmpty :=
    funext Entry.isUsable_listing
  rw [firstUsable, List.find?_map, husable]
  cases entries.find? fun e => e.flags.isEmpty <;> rfl

/-- **Indexes there and back.**  An index that is written line by line gives back its records, first
to last, and for the first usable key the id of the first record without a flag, if there is one.
Two texts with a newline between them give the records of both. -/
theorem parse_document (lines : List Line) :
    parse (Line.document lines) = (Line.entries lines).map Entry.listing ∧
    firstUsable (parse (Line.document lines)) =
      (match (Line.entries lines).find? fun e => e.flags.isEmpty with
      | some e => .ok e.keyId
      | none => .error .noValidKey) ∧
    ∀ a b : String, parse (a ++ "\n" ++ b) = parse a ++ parse b := by
  refine ⟨parse_lines lines, ?_, parse_append⟩
  rw [parse_lines, firstUsable_listings]

example : firstUsable (parse ("info:1:2\r\npub:A:1:2048:1567427747::r\r\nuid:Ann:1567427747::\n"
    ++ "\t pub:B:17:1024:-1:5: \r\npub:C:1:4096::\n")) = .ok "B" := by
  cbv

end Index

end KeyServer

end SealedChannel
