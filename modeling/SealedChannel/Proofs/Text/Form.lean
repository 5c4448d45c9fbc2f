import SealedChannel.Http.Target
import SealedChannel.Proofs.Text.Split
import SealedChannel.Proofs.Text.Utf8

/-!
# Forms there and back

An encoded part holds neither of the two separators, so the pairs of a query are found again, and
each part is decoded to what it was.

## What is here

* `Form.decodeBytes_encodeBytes` — what is encoded is decoded.
* `Form.isSafe_of_mem_encodeBytes` — the bytes of an encoded part.
* `Form.parse_append`, `Form.parse_print` — the pairs of two queries in one, and of a query that was
  written.
* `Form.ofText_decodeLossy_print` — a written query is text.
* `Http.Target.pairs`, `Http.Target.pairs_withPairs` — the pairs in the query of an address.
-/

set_option autoImplicit false
namespace SealedChannel
namespace Form

open Text

/-! ## Bytes of encoded parts -/

/-- The bytes that occur in encoded parts: those that stand for themselves, `+` and `%`. -/
def isSafe (b : UInt8) : Bool :=
  isPlain b || b == 0x2B || b == 0x25

theorem isPlain_hexDigit : ∀ n < 16, isPlain (hexDigit n) = true := by
  decide

theorem hexValue?_hexDigit : ∀ n < 16, hexValue? (hexDigit n) = some n := by
  decide

theorem isSafe_of_mem_encodeByte {b x : UInt8} (h : x ∈ encodeByte b) : isSafe x = true := by
  have hb := b.toNat_lt
  rw [encodeByte] at h
  split at h
  · rename_i hplain
    obtain rfl := List.mem_singleton.1 h
    rw [isSafe, hplain, Bool.true_or, Bool.true_or]
  · split at h
    · obtain rfl := List.mem_singleton.1 h
      rfl
    · simp only [List.mem_cons, List.not_mem_nil, or_false] at h
      rcases h with rfl | rfl | rfl
      · rfl
      · rw [isSafe, isPlain_hexDigit _ (by omega), Bool.true_or, Bool.true_or]
      · rw [isSafe, isPlain_hexDigit _ (by omega), Bool.true_or, Bool.true_or]

theorem isSafe_of_mem_encodeBytes {bs : Bytes} {x : UInt8} (h : x ∈ encodeBytes bs) :
    isSafe x = true := by
  obtain ⟨b, -, hx⟩ := List.mem_flatMap.1 h
  exact isSafe_of_mem_encodeByte hx

/-- Bytes of encoded parts are ASCII. -/
theorem lt_of_isSafe {b : UInt8} (h : isSafe b = true) : b.toNat < 0x80 := by
  simp only [isSafe, isPlain, Bool.or_eq_true, Bool.and_eq_true, decide_eq_true_eq,
    beq_iff_eq] at h
  rcases h with (h | rfl) | rfl
  · omega
  · decide
  · decide

/-- A separator is no byte of an encoded part. -/
theorem not_mem_encodeBytes {sep : UInt8} (h : isSafe sep = false) (bs : Bytes) :
    sep ∉ encodeBytes bs := by
  intro hmem
  rw [isSafe_of_mem_encodeBytes hmem] at h
  cases h

/-! ## Parts -/

theorem decodeBytes_cons {b : UInt8} (h : b ≠ 0x25) (rest : Bytes) :
    decodeBytes (b :: rest) = (if b = 0x2B then 0x20 else b) :: decodeBytes rest := by
  rw [decodeBytes]
  exact fun _ _ _ hb _ => h hb

theorem decodeBytes_percent {a b : UInt8} {x y : Nat} (ha : hexValue? a = some x)
    (hb : hexValue? b = some y) (rest : Bytes) :
    decodeBytes (0x25 :: a :: b :: rest) = UInt8.ofNat (16 * x + y) :: decodeBytes rest := by
  rw [decodeBytes, ha, hb]

/-- One byte is decoded to what it was. -/
theorem decodeBytes_encodeByte (b : UInt8) (rest : Bytes) :
    decodeBytes (encodeByte b ++ rest) = b :: decodeBytes rest := by
  have hb := b.toNat_lt
  rw [encodeByte]
  split
  · rename_i hplain
    have hpercent : b ≠ 0x25 := by
      rintro rfl
      cases hplain
    have hplus : b ≠ 0x2B := by
      rintro rfl
      cases hplain
    rw [List.singleton_append, decodeBytes_cons hpercent, if_neg hplus]
  · split
    · rename_i hspace
      rw [hspace, List.singleton_append, decodeBytes_cons (by decide), if_pos rfl]
    · rw [List.cons_append, List.cons_append, List.cons_append, List.nil_append,
        decodeBytes_percent (hexValue?_hexDigit _ (by omega)) (hexValue?_hexDigit _ (by omega)),
        Nat.div_add_mod, UInt8.ofNat_toNat]

theorem decodeBytes_encodeBytes (bs : Bytes) : decodeBytes (encodeBytes bs) = bs := by
  induction bs with
  | nil => rfl
  | cons b bs ih =>
    rw [encodeBytes, List.flatMap_cons, decodeBytes_encodeByte, ← encodeBytes, ih]

@[simp]
theorem decodeText_encodeBytes (s : String) : decodeText (encodeBytes (Bytes.ofText s)) = s := by
  rw [decodeText, decodeBytes_encodeBytes, Utf8.decodeLossy_ofText]

/-! ## Pairs -/

/-- A pair as it is written. -/
def printPair (member : String × String) : Bytes :=
  encodeBytes (Bytes.ofText member.1) ++ 0x3D :: encodeBytes (Bytes.ofText member.2)

theorem print_eq (pairs : List (String × String)) :
    print pairs = [0x26].intercalate (pairs.map printPair) :=
  rfl

theorem pair_printPair (member : String × String) : pair (printPair member) = member := by
  rw [pair, printPair, cutAt_append_cons (not_mem_encodeBytes (by decide) _)]
  simp

theorem isEmpty_printPair (member : String × String) : (printPair member).isEmpty = false := by
  simp [printPair]

theorem not_mem_printPair (member : String × String) : 0x26 ∉ printPair member := by
  simp only [printPair, List.mem_append, List.mem_cons, not_or]
  exact ⟨not_mem_encodeBytes (by decide) _, by decide, not_mem_encodeBytes (by decide) _⟩

/-! ## Queries -/

/-- Two queries in one. -/
theorem parse_append (query query' : Bytes) :
    parse (query ++ 0x26 :: query') = parse query ++ parse query' := by
  rw [parse, splitOn_append_cons, List.filter_append, List.map_append, ← parse, ← parse]

/-- **What is written is read.**  A query is read as the pairs that were written. -/
theorem parse_print (pairs : List (String × String)) : parse (print pairs) = pairs := by
  cases pairs with
  | nil => rfl
  | cons first pairs =>
    have hparts : ∀ part ∈ (first :: pairs).map printPair, 0x26 ∉ part := by
      simp only [List.forall_mem_map]
      exact fun member _ => not_mem_printPair member
    rw [print_eq, parse, splitOn_intercalate hparts (by simp), List.filter_eq_self.2, List.map_map]
    · exact (List.map_congr_left fun member _ => pair_printPair member).trans (List.map_id _)
    · simp only [List.forall_mem_map]
      exact fun member _ => by rw [isEmpty_printPair, Bool.not_false]

/-- A written query is text. -/
theorem ofText_decodeLossy_print (pairs : List (String × String)) :
    Bytes.ofText (Utf8.decodeLossy (print pairs)) = print pairs := by
  refine Utf8.ofText_decodeLossy_of_ascii fun b hb => ?_
  rcases eq_or_mem_of_mem_intercalate hb with rfl | ⟨part, hpart, hb⟩
  · decide
  · obtain ⟨member, -, rfl⟩ := List.mem_map.1 hpart
    rcases List.mem_append.1 hb with hb | hb
    · exact lt_of_isSafe (isSafe_of_mem_encodeBytes hb)
    · rcases List.mem_cons.1 hb with rfl | hb
      · decide
      · exact lt_of_isSafe (isSafe_of_mem_encodeBytes hb)

end Form

/-! ## Addresses -/

theorem Bytes.ofText_append (s t : String) :
    Bytes.ofText (s ++ t) = Bytes.ofText s ++ Bytes.ofText t := by
  simp [Bytes.ofText, Bytes.ofChars]

namespace Http
namespace Target

/-- The pairs in the query of an address. -/
def pairs (t : Target) : List (String × String) :=
  Form.parse (Bytes.ofText (t.query.getD ""))

/-- Pairs that were added come after those that were there. -/
theorem pairs_withPairs (t : Target) (added : List (String × String)) :
    (t.withPairs added).pairs = t.pairs ++ added := by
  obtain ⟨origin, path, query⟩ := t
  have hempty : Form.parse (Bytes.ofText "") = [] := rfl
  have hadded : Form.parse (Bytes.ofText (Utf8.decodeLossy (Form.print added))) = added := by
    rw [Form.ofText_decodeLossy_print, Form.parse_print]
  rcases query with _ | query
  · simp [pairs, withPairs, hempty, hadded]
  · by_cases hquery : query = ""
    · simp [pairs, withPairs, hquery, hempty, hadded]
    · have hjoined : Bytes.ofText (query ++ "&" ++ Utf8.decodeLossy (Form.print added)) =
          Bytes.ofText query ++ 0x26 :: Form.print added := by
        rw [Bytes.ofText_append, Bytes.ofText_append, Form.ofText_decodeLossy_print,
          List.append_assoc]
        rfl
      simp [pairs, withPairs, hquery, hjoined, Form.parse_append, Form.parse_print]

end Target
end Http

end SealedChannel
