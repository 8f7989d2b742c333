import Mathlib.Data.String.Basic

/-!
# Searching in UTF-8

The bytes of a text, and that a text stands at the front, at the end or somewhere in another one
exactly when its bytes do. The encoding marks the first byte of each character, so a match of bytes
cannot begin inside a character.
-/

namespace Utf8

open List
open String (utf8EncodeChar)

variable {p s : List Char}

/-- The encoding of a text. -/
def bytes (cs : List Char) : List UInt8 := cs.flatMap utf8EncodeChar

@[simp]
theorem bytes_nil :
  bytes [] = []
  := rfl

@[simp]
theorem bytes_cons (c : Char) (cs : List Char) :
  bytes (c :: cs) = utf8EncodeChar c ++ bytes cs
  := rfl

@[simp]
theorem bytes_append (cs ds : List Char) :
  bytes (cs ++ ds) = bytes cs ++ bytes ds
  := flatMap_append

theorem isPrefix_of_bytes (h : bytes p <+: bytes s) :
  p <+: s
  := by
  obtain ⟨rest, h⟩ := h
  apply isPrefix_of_utf8Encode_append_eq_utf8Encode rest.toByteArray
  have h' := congrArg toByteArray h
  rwa [toByteArray_append] at h'

theorem bytes_isPrefix_iff :
  bytes p <+: bytes s ↔ p <+: s
  := by
  constructor
  · exact isPrefix_of_bytes
  · rintro ⟨rest, rfl⟩
    exact ⟨bytes rest, (bytes_append p rest).symm⟩

theorem bytes_inj :
  bytes p = bytes s ↔ p = s
  := by
  constructor
  · intro h
    have hps : p <+: s := isPrefix_of_bytes (h ▸ prefix_rfl)
    have hsp : s <+: p := isPrefix_of_bytes (h ▸ prefix_rfl)
    exact hps.eq_of_length_le hsp.length_le
  · exact congrArg bytes

/-- The bytes of a text begin with the first byte of a character. -/
theorem bytes_cons_eq (c : Char) (cs : List Char) :
  ∃ b rest, bytes (c :: cs) = b :: rest ∧ b.IsUTF8FirstByte
  := by
  cases h : utf8EncodeChar c with
  | nil => exact absurd h String.utf8EncodeChar_ne_nil
  | cons b rest =>
    refine ⟨b, rest ++ bytes cs, by rw [bytes_cons, h, cons_append], ?_⟩
    have hpos : 0 < (utf8EncodeChar c).length := by simp [h]
    have hfirst : (utf8EncodeChar c)[0].IsUTF8FirstByte :=
      UInt8.isUTF8FirstByte_getElem_utf8EncodeChar.mpr rfl
    simpa [h] using hfirst

/-- Where a first byte stands, a character begins. -/
theorem split_at_firstByte {s : List Char} {w rest : List UInt8} {b : UInt8}
    (hb : b.IsUTF8FirstByte) (h : bytes s = w ++ b :: rest) :
  ∃ s₁ s₂, s = s₁ ++ s₂ ∧ bytes s₁ = w ∧ bytes s₂ = b :: rest
  := by
  induction s generalizing w with
  | nil => simp at h
  | cons c s ih =>
    rw [bytes_cons] at h
    obtain ⟨inner, hw, hrest⟩ | ⟨inner, hw, hrest⟩ := append_eq_append_iff.mp h
    · -- the byte lies behind the first character
      obtain ⟨s₁, s₂, rfl, h₁, h₂⟩ := ih hrest
      exact ⟨c :: s₁, s₂, rfl, by rw [bytes_cons, h₁, hw], h₂⟩
    · cases inner with
      | nil =>
        rw [append_nil] at hw
        exact ⟨[c], s, rfl, by rw [bytes_cons, bytes_nil, append_nil, hw], hrest.symm⟩
      | cons b' inner =>
        obtain ⟨rfl, -⟩ := cons.inj hrest
        -- a first byte within a character is the one at its front
        have hlt : w.length < (utf8EncodeChar c).length := by simp [hw]
        have hzero : w.length = 0 := by
          have hfirst : (utf8EncodeChar c)[w.length].IsUTF8FirstByte := by
            simpa [hw] using hb
          exact UInt8.isUTF8FirstByte_getElem_utf8EncodeChar.mp hfirst
        rw [length_eq_zero_iff] at hzero
        subst hzero
        exact ⟨[], c :: s, rfl, rfl, h⟩

theorem bytes_isSuffix_iff :
  bytes p <:+ bytes s ↔ p <:+ s
  := by
  constructor
  · rintro ⟨w, h⟩
    cases p with
    | nil => exact nil_suffix
    | cons c p =>
      obtain ⟨b, rest, hp, hb⟩ := bytes_cons_eq c p
      rw [hp] at h
      obtain ⟨s₁, s₂, rfl, -, h₂⟩ := split_at_firstByte hb h.symm
      rw [← hp, bytes_inj] at h₂
      exact ⟨s₁, by rw [h₂]⟩
  · rintro ⟨w, rfl⟩
    exact ⟨bytes w, (bytes_append w p).symm⟩

theorem bytes_isInfix_iff :
  bytes p <:+: bytes s ↔ p <:+: s
  := by
  constructor
  · rintro ⟨w, w', h⟩
    cases p with
    | nil => exact nil_infix
    | cons c p =>
      obtain ⟨b, rest, hp, hb⟩ := bytes_cons_eq c p
      rw [hp, append_assoc, cons_append] at h
      obtain ⟨s₁, s₂, rfl, -, h₂⟩ := split_at_firstByte hb h.symm
      rw [← cons_append, ← hp] at h₂
      obtain ⟨v, rfl⟩ := isPrefix_of_bytes ⟨w', h₂.symm⟩
      exact ⟨s₁, v, by rw [append_assoc]⟩
  · rintro ⟨w, w', rfl⟩
    exact ⟨bytes w, bytes w', by rw [bytes_append, bytes_append]⟩

end Utf8
