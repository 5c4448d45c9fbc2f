import SealedChannel.Json.Decode
import SealedChannel.Json.Parser
import SealedChannel.Proofs.Text.Utf8

/-!
# Texts between quotes

A text is escaped when it is written and unescaped when it is read.  Both go character by character
on one side and byte by byte on the other, so the lemmas here say what becomes of the bytes of one
escaped character.

## What is here

* `Json.unescapeFrom_escapeChar`, `Json.unescape?_escape` — an escaped text is read back.
* `Record.ofJson?_record` — the members of a structure are read back by name.
* `Json.textFrom`, `Json.IsQuotable` — the bytes that may stand between quotes.
* `Json.isQuotable_escape` — an escaped text may.
-/

set_option autoImplicit false
namespace SealedChannel
namespace Json

/-! ## Bytes of characters -/

/-- The bytes of a character beyond ASCII are beyond ASCII. -/
theorem le_of_mem_utf8EncodeChar {c : Char} {b : UInt8} (hc : 0x80 ≤ c.toNat)
    (hb : b ∈ String.utf8EncodeChar c) : 0x80 ≤ b.toNat := by
  have hbyte {k : Nat} (hk : k < 256) : (UInt8.ofNat k).toNat = k := Nat.mod_eq_of_lt hk
  rw [Utf8.utf8EncodeChar_eq, if_neg (by omega)] at hb
  split at hb
  · simp only [List.mem_cons, List.not_mem_nil, or_false] at hb
    rcases hb with rfl | rfl <;> (rw [hbyte (by omega)]; omega)
  · split at hb
    · simp only [List.mem_cons, List.not_mem_nil, or_false] at hb
      rcases hb with rfl | rfl | rfl <;> (rw [hbyte (by omega)]; omega)
    · simp only [List.mem_cons, List.not_mem_nil, or_false] at hb
      rcases hb with rfl | rfl | rfl | rfl <;> (rw [hbyte (by omega)]; omega)

/-- A character that is written as it is has neither quotes nor backslashes nor control characters
among its bytes. -/
theorem plain_of_mem {c : Char} {b : UInt8} (hquote : c ≠ '"') (hslash : c ≠ '\\')
    (hcontrol : 0x20 ≤ c.toNat) (hb : b ∈ String.utf8EncodeChar c) :
    b ≠ 0x22 ∧ b ≠ 0x5C ∧ 0x20 ≤ b.toNat := by
  rcases Nat.lt_or_ge c.toNat 0x80 with hascii | hascii
  · rw [Utf8.utf8EncodeChar_ascii hascii, List.mem_singleton] at hb
    subst hb
    have hbyte : (UInt8.ofNat c.toNat).toNat = c.toNat := Nat.mod_eq_of_lt (by omega)
    refine ⟨fun h => hquote ?_, fun h => hslash ?_, by rwa [hbyte]⟩
    · rw [← Char.ofNat_toNat c, ← hbyte, h]; rfl
    · rw [← Char.ofNat_toNat c, ← hbyte, h]; rfl
  · have hlarge := le_of_mem_utf8EncodeChar hascii hb
    refine ⟨?_, ?_, by omega⟩
    · rintro rfl; exact absurd hlarge (by decide)
    · rintro rfl; exact absurd hlarge (by decide)

/-! ## Escaped characters -/

/-- The byte of a hexadecimal digit has the value of the digit and may stand in an escape. -/
theorem utf8EncodeChar_hexDigit {n : Nat} (hn : n < 16) :
    ∃ b, String.utf8EncodeChar (Bytes.hexDigit n) = [b] ∧ hexValue b = n ∧
      ∀ owed, Machine.textByte (.hex owed) b
        = some (if owed ≤ 1 then .outside else .hex (owed - 1)) := by
  have hall : ∀ n < 16, String.utf8EncodeChar (Bytes.hexDigit n)
      = [UInt8.ofNat (Bytes.hexDigit n).toNat] ∧ hexValue (UInt8.ofNat (Bytes.hexDigit n).toNat) = n
        ∧ (isDigit (UInt8.ofNat (Bytes.hexDigit n).toNat)
          || (65 ≤ (UInt8.ofNat (Bytes.hexDigit n).toNat).toNat
            && (UInt8.ofNat (Bytes.hexDigit n).toNat).toNat ≤ 70)
          || (97 ≤ (UInt8.ofNat (Bytes.hexDigit n).toNat).toNat
            && (UInt8.ofNat (Bytes.hexDigit n).toNat).toNat ≤ 102)) = true := by
    decide
  obtain ⟨hencode, hvalue, hhex⟩ := hall n hn
  exact ⟨_, hencode, hvalue, fun owed => if_pos hhex⟩

/-- The characters that are escaped by a letter of their own, with the letter. -/
def shortEscapes : List (Char × Char) :=
  [('"', '"'), ('\\', '\\'), ('\x08', 'b'), ('\x0c', 'f'), ('\n', 'n'), ('\r', 'r'), ('\t', 't')]

/-- The three ways to write a character. -/
theorem escapeChar_cases (c : Char) :
    (∃ letter, (c, letter) ∈ shortEscapes ∧ escapeChar c = ['\\', letter]) ∨
    (c.toNat < 0x20 ∧ escapeChar c =
      ['\\', 'u', '0', '0', Bytes.hexDigit (c.toNat / 16), Bytes.hexDigit (c.toNat % 16)]) ∨
    (c ≠ '"' ∧ c ≠ '\\' ∧ 0x20 ≤ c.toNat ∧ escapeChar c = [c]) := by
  by_cases hshort : c ∈ shortEscapes.map Prod.fst
  · refine .inl ?_
    simp only [shortEscapes, List.map_cons, List.map_nil, List.mem_cons, List.not_mem_nil,
      or_false] at hshort
    rcases hshort with rfl | rfl | rfl | rfl | rfl | rfl | rfl <;> exact ⟨_, by decide, rfl⟩
  · refine .inr ?_
    simp only [shortEscapes, List.map_cons, List.map_nil, List.mem_cons, List.not_mem_nil,
      or_false, not_or] at hshort
    obtain ⟨h₁, h₂, h₃, h₄, h₅, h₆, h₇⟩ := hshort
    rw [escapeChar, if_neg h₁, if_neg h₂, if_neg h₃, if_neg h₄, if_neg h₅, if_neg h₆, if_neg h₇]
    rcases Nat.lt_or_ge c.toNat 0x20 with hcontrol | hcontrol
    · exact .inl ⟨hcontrol, if_pos hcontrol⟩
    · exact .inr ⟨h₁, h₂, hcontrol, if_neg (by omega)⟩

/-- The bytes of a short escape. -/
theorem bytes_of_shortEscape {c letter : Char} (h : (c, letter) ∈ shortEscapes) :
    ∃ b, Bytes.ofChars ['\\', letter] = [0x5C, b] ∧ Bytes.ofChars [c] = [escapedByte b] ∧ b ≠ 0x75 ∧
      (Bytes.ofText "\"\\/bfnrt").contains b = true := by
  have hall : ∀ e ∈ shortEscapes, Bytes.ofChars ['\\', e.2] = [0x5C, UInt8.ofNat e.2.toNat] ∧
      Bytes.ofChars [e.1] = [escapedByte (UInt8.ofNat e.2.toNat)] ∧
      UInt8.ofNat e.2.toNat ≠ 0x75 ∧
      (Bytes.ofText "\"\\/bfnrt").contains (UInt8.ofNat e.2.toNat) = true := by
    decide
  exact ⟨_, hall _ h⟩

/-- The bytes of an escape by number. -/
theorem bytes_of_quad {c : Char} (hc : c.toNat < 0x20) :
    ∃ x y, Bytes.ofChars
        ['\\', 'u', '0', '0', Bytes.hexDigit (c.toNat / 16), Bytes.hexDigit (c.toNat % 16)]
          = [0x5C, 0x75, 0x30, 0x30, x, y] ∧ hexQuad 0x30 0x30 x y = c.toNat ∧
      ∀ b ∈ [0x30, 0x30, x, y], ∀ owed, Machine.textByte (.hex owed) b
        = some (if owed ≤ 1 then .outside else .hex (owed - 1)) := by
  obtain ⟨z, hz, -, hzhex⟩ := @utf8EncodeChar_hexDigit 0 (by decide)
  obtain ⟨x, hx, hxv, hxhex⟩ := @utf8EncodeChar_hexDigit (c.toNat / 16) (by omega)
  obtain ⟨y, hy, hyv, hyhex⟩ := @utf8EncodeChar_hexDigit (c.toNat % 16) (by omega)
  obtain rfl : 0x30 = z := (List.cons.inj hz).1
  refine ⟨x, y, ?_, ?_, ?_⟩
  · simp only [Bytes.ofChars, List.flatMap_cons, List.flatMap_nil, hx, hy]
    rfl
  · rw [hexQuad, hxv, hyv]
    change ((0 * 16 + 0) * 16 + c.toNat / 16) * 16 + c.toNat % 16 = c.toNat
    omega
  · simp only [List.forall_mem_cons, List.not_mem_nil, false_imp_iff, implies_true, and_true]
    exact ⟨hzhex, hzhex, hxhex, hyhex⟩

/-! ## Unescaping -/

section Unescape

variable {done rest : Bytes}

/-- A byte that is no backslash stands for itself. -/
theorem unescapeFrom_cons {b : UInt8} (hb : b ≠ 0x5C) :
    unescapeFrom done (b :: rest) = unescapeFrom (b :: done) rest := by
  rw [unescapeFrom]
  · rintro _ _ _ _ _ rfl; exact absurd rfl hb
  · rintro _ _ rfl; exact absurd rfl hb

theorem unescapeFrom_append {bs : Bytes} (hbs : ∀ b ∈ bs, b ≠ 0x5C) :
    unescapeFrom done (bs ++ rest) = unescapeFrom (bs.reverse ++ done) rest := by
  induction bs generalizing done with
  | nil => rfl
  | cons b bs ih =>
    rw [List.forall_mem_cons] at hbs
    rw [List.cons_append, unescapeFrom_cons hbs.1, ih hbs.2]
    simp

/-- An escape of one letter. -/
theorem unescapeFrom_short {b : UInt8} (hb : b ≠ 0x75) :
    unescapeFrom done (0x5C :: b :: rest) = unescapeFrom (escapedByte b :: done) rest := by
  rw [unescapeFrom]
  rintro _ _ _ _ _ rfl
  exact absurd rfl hb

/-- An escape of four digits that is no half of a pair. -/
theorem unescapeFrom_quad {a b c d : UInt8} (h : hexQuad a b c d < 0xD800) :
    unescapeFrom done (0x5C :: 0x75 :: a :: b :: c :: d :: rest)
      = unescapeFrom ((Bytes.ofChars [Char.ofNat (hexQuad a b c d)]).reverse ++ done) rest := by
  rw [unescapeFrom.eq_def]
  exact if_pos (.inl h)

/-- **One character.**  An escaped character is read back as that character. -/
theorem unescapeFrom_escapeChar (c : Char) :
    unescapeFrom done (Bytes.ofChars (escapeChar c) ++ rest)
      = unescapeFrom ((Bytes.ofChars [c]).reverse ++ done) rest := by
  rcases escapeChar_cases c with ⟨letter, hshort, hc⟩ | ⟨hcontrol, hc⟩ |
    ⟨hquote, hslash, hcontrol, hc⟩
  · obtain ⟨b, hbytes, hread, hu, -⟩ := bytes_of_shortEscape hshort
    rw [hc, hbytes, hread]
    exact unescapeFrom_short hu
  · obtain ⟨x, y, hbytes, hquad, -⟩ := bytes_of_quad hcontrol
    rw [hc, hbytes, ← Char.ofNat_toNat c, ← hquad]
    exact unescapeFrom_quad (by omega)
  · rw [hc]
    refine unescapeFrom_append fun b hb => ?_
    rw [Bytes.ofChars, List.flatMap_singleton] at hb
    exact (plain_of_mem hquote hslash hcontrol hb).2.1

theorem unescapeFrom_flatMap (cs : List Char) :
    unescapeFrom done (Bytes.ofChars (cs.flatMap escapeChar))
      = some (done.reverse ++ Bytes.ofChars cs) := by
  induction cs generalizing done with
  | nil => simp [Bytes.ofChars, unescapeFrom]
  | cons c cs ih =>
    rw [List.flatMap_cons, Bytes.ofChars, List.flatMap_append, ← Bytes.ofChars, ← Bytes.ofChars]
    rw [unescapeFrom_escapeChar, ih]
    simp [Bytes.ofChars]

end Unescape

/-- **Texts there and back.** -/
@[simp]
theorem unescape?_escape (s : String) : unescape? (escape s) = some s := by
  rw [unescape?, escape, unescapeFrom_flatMap, Option.bind_some, List.reverse_nil, List.nil_append,
    Utf8.decode?_ofChars, String.ofList_toList]

@[simp]
theorem text?_ofText (s : String) : text? (ofText s) = some s :=
  unescape?_escape s

/-- The members of a structure that was written as an object are read back by name. -/
theorem Record.ofJson?_record (names : List String) (members : List (String × Json)) :
    Record.ofJson? names (record members) =
      if ((members.filter fun member => names.contains member.1).map Prod.fst).Nodup then
        some ⟨false, members.filter fun member => names.contains member.1⟩
      else none := by
  have hnamed (members : List (String × Json)) :
      (members.map fun member => (escape member.1, member.2)).mapM (m := Option)
        (fun member => (unescape? member.1).map fun name => (name, member.2)) = some members := by
    induction members with
    | nil => rfl
    | cons member members ih =>
      rw [List.map_cons, List.mapM_cons, ih]
      simp
  have hrecord : Record.ofJson? names (record members) =
      ((members.map fun member => (escape member.1, member.2)).mapM (m := Option)
        fun member => (unescape? member.1).map fun name => (name, member.2)).bind fun named =>
          let known := named.filter fun member => names.contains member.1
          if (known.map Prod.fst).Nodup then some ⟨false, known⟩ else none := rfl
  rw [hrecord, hnamed]
  rfl

/-! ## What may stand between quotes -/

/-- How much of an escape has been read after some bytes, none of which ends the string. -/
def textFrom (escape : Escape) : Bytes → Option Escape
  | [] => some escape
  | b :: bs =>
    if escape = .outside ∧ b = 0x22 then none
    else (Machine.textByte escape b).bind fun escape => textFrom escape bs

/-- Bytes that may stand between quotes. -/
def IsQuotable (raw : Bytes) : Prop :=
  textFrom .outside raw = some .outside

theorem textFrom_cons {escape escape' : Escape} {b : UInt8} {bs : Bytes}
    (hquote : escape ≠ .outside ∨ b ≠ 0x22) (hb : Machine.textByte escape b = some escape') :
    textFrom escape (b :: bs) = textFrom escape' bs := by
  rw [textFrom, if_neg fun h => hquote.elim (· h.1) (· h.2), hb, Option.bind_some]

/-- A backslash begins an escape. -/
theorem textFrom_slash (bs : Bytes) : textFrom .outside (0x5C :: bs) = textFrom .started bs :=
  textFrom_cons (.inr (by decide)) rfl

theorem textFrom_append (escape : Escape) (before after : Bytes) :
    textFrom escape (before ++ after)
      = (textFrom escape before).bind fun escape => textFrom escape after := by
  induction before generalizing escape with
  | nil => rfl
  | cons b before ih =>
    rw [List.cons_append, textFrom, textFrom]
    split
    · rfl
    · cases Machine.textByte escape b with
      | none => rfl
      | some later => exact ih later

theorem IsQuotable.append {before after : Bytes} (hbefore : IsQuotable before)
    (hafter : IsQuotable after) : IsQuotable (before ++ after) := by
  rw [IsQuotable, textFrom_append, hbefore]
  exact hafter

/-- Bytes that are neither quotes nor backslashes nor control characters. -/
theorem isQuotable_plain {bs : Bytes} (hbs : ∀ b ∈ bs, b ≠ 0x22 ∧ b ≠ 0x5C ∧ 0x20 ≤ b.toNat) :
    IsQuotable bs := by
  induction bs with
  | nil => rfl
  | cons b bs ih =>
    rw [List.forall_mem_cons] at hbs
    obtain ⟨⟨hquote, hslash, hcontrol⟩, hrest⟩ := hbs
    have hlt : ¬ b < 0x20 := fun h => Nat.not_lt.2 hcontrol (UInt8.lt_iff_toNat_lt.1 h)
    have hb : Machine.textByte .outside b = some .outside := by
      simp [Machine.textByte, hslash, hlt]
    exact (textFrom_cons (.inr hquote) hb).trans (ih hrest)

/-- An escaped character may stand between quotes. -/
theorem isQuotable_escapeChar (c : Char) : IsQuotable (Bytes.ofChars (escapeChar c)) := by
  rcases escapeChar_cases c with ⟨letter, hshort, hc⟩ | ⟨hcontrol, hc⟩ |
    ⟨hquote, hslash, hcontrol, hc⟩
  · obtain ⟨b, hbytes, -, hu, hletter⟩ := bytes_of_shortEscape hshort
    rw [hc, hbytes]
    have hstarted : Machine.textByte .started b = some .outside := by
      rw [Machine.textByte, if_neg (by simpa using hu), if_pos hletter]
    rw [IsQuotable, textFrom_slash, textFrom_cons (.inl (by decide)) hstarted]
    rfl
  · obtain ⟨x, y, hbytes, -, hhex⟩ := bytes_of_quad hcontrol
    simp only [List.forall_mem_cons, List.not_mem_nil, false_imp_iff, implies_true, and_true]
      at hhex
    obtain ⟨hz, -, hx, hy⟩ := hhex
    have h₀ : Machine.textByte .started 0x75 = some (.hex 4) := rfl
    have h₁ : Machine.textByte (.hex 4) 0x30 = some (.hex 3) := hz 4
    have h₂ : Machine.textByte (.hex 3) 0x30 = some (.hex 2) := hz 3
    have h₃ : Machine.textByte (.hex 2) x = some (.hex 1) := hx 2
    have h₄ : Machine.textByte (.hex 1) y = some .outside := hy 1
    rw [hc, hbytes, IsQuotable, textFrom_slash, textFrom_cons (.inl (by decide)) h₀,
      textFrom_cons (.inl (by decide)) h₁, textFrom_cons (.inl (by decide)) h₂,
      textFrom_cons (.inl (by decide)) h₃, textFrom_cons (.inl (by decide)) h₄]
    rfl
  · rw [hc]
    refine isQuotable_plain fun b hb => ?_
    rw [Bytes.ofChars, List.flatMap_singleton] at hb
    exact plain_of_mem hquote hslash hcontrol hb

/-- **Escaped texts may be quoted.** -/
theorem isQuotable_escape (s : String) : IsQuotable (escape s) := by
  rw [escape]
  induction s.toList with
  | nil => rfl
  | cons c cs ih =>
    rw [List.flatMap_cons, Bytes.ofChars, List.flatMap_append]
    exact (isQuotable_escapeChar c).append ih

end Json

end SealedChannel
