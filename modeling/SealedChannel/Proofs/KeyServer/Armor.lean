import SealedChannel.KeyServer.Armor
import SealedChannel.Proofs.Text.Split

/-!
# The first block of a text

Header and footer share their runs of dashes, so they may overlap each other and the text around
them, and there may be several of either in any order.  All that follows comes from one form of a
text that holds a block: what is before the first header, the header, what is before the first
footer from there on, that footer, and the rest.

## What is here

* `Armor.extractChars?_eq_some_iff` — the form of a text with a block.
* `Armor.exists_extractChars?_iff` — which texts have one: the first header will do if any will.
* `Armor.IsBlock`, `Armor.extractChars?_self`, `Armor.extractChars?_append` — what the block is,
  and what it does not depend on.
* `Armor.extract_block` — all of this for texts.
-/

set_option autoImplicit false
namespace SealedChannel
namespace KeyServer
namespace Armor

open Text

variable {cs block : List Char}

/-- A text with a block: nothing before the block completes a header, and nothing before its end
completes a footer. -/
theorem extractChars?_eq_some_iff :
    extractChars? cs = some block ↔ ∃ before inner after,
      cs = before ++ (header ++ inner ++ footer) ++ after ∧
      FirstAt header (before ++ header) before.length ∧
      FirstAt footer (inner ++ footer) inner.length ∧ block = header ++ inner ++ footer := by
  rw [extractChars?]
  simp only [Option.bind_eq_bind, Option.bind_eq_some_iff, findTail?_eq_some_iff, Option.some.injEq]
  refine ⟨?_, ?_⟩
  · rintro ⟨_, ⟨m, hheader, rfl⟩, _, ⟨n, hfooter, rfl⟩, rfl⟩
    obtain ⟨before, behind, rfl, rfl⟩ := hheader.1
    rw [List.drop_left, List.drop_left] at hfooter ⊢
    obtain ⟨inner, after, rfl, rfl⟩ := hfooter.1
    refine ⟨before, inner, after, by simp, ?_, ?_, by simp⟩
    · rw [← List.append_assoc] at hheader
      exact (firstAt_append_iff (by simp) _).1 hheader
    · rw [← List.append_assoc] at hfooter
      exact (firstAt_append_iff (by simp) _).1 hfooter
  · rintro ⟨before, inner, after, rfl, hheader, hfooter, rfl⟩
    have hheader' := (firstAt_append_iff (by simp) (inner ++ footer ++ after)).2 hheader
    have hfooter' := (firstAt_append_iff (by simp) after).2 hfooter
    simp only [List.append_assoc] at hheader' hfooter' ⊢
    refine ⟨_, ⟨_, hheader', rfl⟩, footer ++ after, ?_, ?_⟩
    · rw [List.drop_left, List.drop_left]
      exact ⟨_, hfooter', List.drop_left⟩
    · rw [List.drop_left, List.drop_left]
      simp

/-- **Texts with a block.**  A header with a footer somewhere behind it makes a block, be it the
first header or not. -/
theorem exists_extractChars?_iff :
    (∃ block, extractChars? cs = some block) ↔
      ∃ m n, OccursAt header cs m ∧ OccursAt footer cs n ∧ m + header.length ≤ n := by
  simp only [extractChars?_eq_some_iff]
  refine ⟨?_, ?_⟩
  · rintro ⟨_, before, inner, after, rfl, -⟩
    refine ⟨before.length, (before ++ header ++ inner).length,
      ⟨before, inner ++ footer ++ after, rfl, by simp⟩,
      ⟨before ++ header ++ inner, after, rfl, by simp⟩, by simp⟩
  · rintro ⟨m, n, hheader, hfooter, hn⟩
    obtain ⟨first, hle, hfirst⟩ := hheader.exists_firstAt
    obtain ⟨before, behind, rfl, rfl⟩ := hfirst.1
    -- the footer lies behind the first header as well
    obtain ⟨k, rfl⟩ : ∃ k, n = (before ++ header).length + k :=
      Nat.exists_eq_add_of_le (by rw [List.length_append]; omega)
    rw [← List.append_assoc, occursAt_append_left] at hfooter
    obtain ⟨last, -, hlast⟩ := hfooter.exists_firstAt
    obtain ⟨inner, after, rfl, rfl⟩ := hlast.1
    rw [← List.append_assoc] at hfirst hlast
    exact ⟨_, before, inner, after, by simp, (firstAt_append_iff (by simp) _).1 hfirst,
      (firstAt_append_iff (by simp) _).1 hlast, rfl⟩

/-- The block of a text: it lies within the text and begins with the first header there, it ends
with a footer, and behind its header it holds no other footer. -/
structure IsBlock (cs block : List Char) : Prop where
  framed : ∃ inner, block = header ++ inner ++ footer
  first : ∃ start, FirstAt header cs start ∧ OccursAt block cs start
  only : ∀ n, header.length ≤ n → OccursAt footer block n → n + footer.length = block.length

theorem isBlock_of_extractChars? (h : extractChars? cs = some block) : IsBlock cs block := by
  obtain ⟨before, inner, after, rfl, hheader, hfooter, rfl⟩ := extractChars?_eq_some_iff.1 h
  refine ⟨⟨inner, rfl⟩, ⟨before.length, ?_, before, after, rfl, by simp⟩, fun n hn hoccurs => ?_⟩
  · have hheader' := (firstAt_append_iff (by simp) (inner ++ footer ++ after)).2 hheader
    simpa using hheader'
  · obtain ⟨k, rfl⟩ := Nat.exists_eq_add_of_le hn
    rw [List.append_assoc, occursAt_append_left] at hoccurs
    have hge := hfooter.le hoccurs
    have hle := hoccurs.length_le
    simp only [List.length_append] at hle ⊢
    omega

/-- A block is its own block. -/
theorem extractChars?_self (h : extractChars? cs = some block) :
    extractChars? block = some block := by
  obtain ⟨before, inner, after, -, -, hfooter, rfl⟩ := extractChars?_eq_some_iff.1 h
  refine extractChars?_eq_some_iff.2 ⟨[], inner, [], by simp, ⟨?_, by simp⟩, hfooter, rfl⟩
  exact occursAt_zero.2 (List.prefix_refl header)

/-- What follows a block does not change it. -/
theorem extractChars?_append (h : extractChars? cs = some block) (more : List Char) :
    extractChars? (cs ++ more) = some block := by
  obtain ⟨before, inner, after, rfl, hheader, hfooter, rfl⟩ := extractChars?_eq_some_iff.1 h
  refine extractChars?_eq_some_iff.2 ⟨before, inner, after ++ more, ?_, hheader, hfooter, rfl⟩
  rw [List.append_assoc]

/-! ## Texts -/

theorem extract_eq_ok_iff {text block : String} :
    extract text = .ok block ↔ extractChars? text.toList = some block.toList := by
  rw [extract]
  cases extractChars? text.toList with
  | none => simp
  | some cs => simp [String.ext_iff]

/-- A text without a block is of the wrong format. -/
theorem extract_eq_error_iff {text : String} {e : Error} :
    extract text = .error e ↔ e = .invalidFormat ∧ ∀ block, extract text ≠ .ok block := by
  rw [extract]
  cases extractChars? text.toList with
  | none => simp [eq_comm]
  | some block => simp

/-- **Key blocks.**  A text has a block if and only if it holds a header and, at its end or behind
it, a footer; any other text is refused as one of the wrong format.  The block is a part of the text
that begins with the first header of the text, ends with a footer and holds no footer in between.
It is its own block, and whatever follows the text, the block is the same. -/
theorem extract_block (text : String) :
    ((∃ block, extract text = .ok block) ↔ ∃ m n, OccursAt header text.toList m ∧
      OccursAt footer text.toList n ∧ m + header.length ≤ n) ∧
    (∀ e, extract text = .error e → e = .invalidFormat) ∧
    ∀ block, extract text = .ok block →
      IsBlock text.toList block.toList ∧ extract block = .ok block ∧
        ∀ more : String, extract (text ++ more) = .ok block := by
  refine ⟨?_, fun e he => ?_, fun block h => ?_⟩
  · rw [← exists_extractChars?_iff]
    refine ⟨fun ⟨block, h⟩ => ⟨_, extract_eq_ok_iff.1 h⟩, fun ⟨cs, h⟩ => ⟨String.ofList cs, ?_⟩⟩
    rw [extract_eq_ok_iff, String.toList_ofList, h]
  · exact (extract_eq_error_iff.1 he).1
  · rw [extract_eq_ok_iff] at h
    refine ⟨isBlock_of_extractChars? h, extract_eq_ok_iff.2 (extractChars?_self h), fun more => ?_⟩
    rw [extract_eq_ok_iff, String.toList_append]
    exact extractChars?_append h more.toList

/-- Four lines that share their dashes: a footer, a header and two more footers. -/
def overlapping : String :=
  "-----END PGP PUBLIC KEY BLOCK-----BEGIN PGP PUBLIC KEY BLOCK-----"
    ++ "END PGP PUBLIC KEY BLOCK-----END PGP PUBLIC KEY BLOCK-----"

/-- The block of these lines.  The footer that begins with the last dashes of the header does not
count, so the block ends with the one after it. -/
def overlappingBlock : String :=
  "-----BEGIN PGP PUBLIC KEY BLOCK-----END PGP PUBLIC KEY BLOCK-----END PGP PUBLIC KEY BLOCK-----"

theorem extract_block_of_overlapping :
    extract overlapping = .ok overlappingBlock ∧
      IsBlock overlapping.toList overlappingBlock.toList ∧
      extract overlappingBlock = .ok overlappingBlock ∧
      extract (overlapping ++ overlapping) = .ok overlappingBlock := by
  have h : extract overlapping = .ok overlappingBlock := extract_eq_ok_iff.2 (by decide +kernel)
  obtain ⟨hblock, hself, happend⟩ := (extract_block overlapping).2.2 overlappingBlock h
  exact ⟨h, hblock, hself, happend overlapping⟩

end Armor

end KeyServer

end SealedChannel
