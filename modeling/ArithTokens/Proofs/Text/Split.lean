import ArithTokens.Proofs.Feed
import ArithTokens.Proofs.Text.Lossy

/-!
# Decoding piece by piece

Bytes that are split wherever a byte below 128 stands **decode to the text** that is split wherever
the character of that byte stands, whatever is broken in between: a character that is cut off there
comes to the same replacements as at the end of all bytes.
-/

namespace ArithTokens

/-- The lines of bytes are what stands between their line feeds. -/
theorem Feed.splitLines_eq_splitOn (bytes : List UInt8) :
    (splitLines bytes).1 ++ [(splitLines bytes).2] = bytes.splitOn lineFeed := by
  induction bytes using lineInduction with
  | last rest plain =>
    rw [splitLines_of_not_mem plain, List.splitOn_eq_singleton plain, List.nil_append]
  | line line bytes plain ih =>
    rw [splitLines_line plain, List.splitOn_append_cons_self_of_not_mem plain, ← ih,
      List.cons_append]

namespace Text

variable {b : UInt8}

/-- **The pieces between two bytes below 128 are decoded apart.** -/
theorem map_decodeLossy_splitOn (single : b < 0x80) (bytes : List UInt8) :
    (bytes.splitOn b).map decodeLossy = (decodeLossy bytes).splitOn (Char.ofNat b.toNat) := by
  by_cases mem : b ∈ bytes
  · obtain ⟨piece, rest, split, plain⟩ := List.eq_append_cons_of_mem mem
    have apart : Char.ofNat b.toNat ∉ decodeLossy piece := mt (mem_decodeLossy single).mp plain
    have shorter : rest.length < bytes.length := by
      rw [split, List.length_append, List.length_cons]
      omega
    rw [split, decodeLossy_append single, List.splitOn_append_cons_self_of_not_mem plain,
      List.splitOn_append_cons_self_of_not_mem apart, List.map_cons,
      map_decodeLossy_splitOn single rest]
  · have apart : Char.ofNat b.toNat ∉ decodeLossy bytes := mt (mem_decodeLossy single).mp mem
    rw [List.splitOn_eq_singleton mem, List.splitOn_eq_singleton apart, List.map_singleton]
termination_by bytes.length

/-- **Decoding splits at bytes below 128.** Such a byte is decoded by itself, between what stands
before it and behind it; and so the pieces between the bytes of its kind decode to the pieces of the
text between the characters of its kind. The lines that are read of an input are such pieces. -/
theorem decodeLossy_splits (b : UInt8) (single : b < 0x80) :
    (∀ front rest, decodeLossy (front ++ [b] ++ rest) =
      decodeLossy front ++ [Char.ofNat b.toNat] ++ decodeLossy rest) ∧
    (∀ bytes : List UInt8,
      (bytes.splitOn b).map decodeLossy = (decodeLossy bytes).splitOn (Char.ofNat b.toNat)) ∧
    ∀ bytes : List UInt8,
      ((Feed.splitLines bytes).1 ++ [(Feed.splitLines bytes).2]).map decodeLossy =
        (decodeLossy bytes).splitOn '\n' := by
  refine ⟨fun front rest => ?_, map_decodeLossy_splitOn single, fun bytes => ?_⟩
  · rw [List.append_assoc, List.append_assoc]
    exact decodeLossy_append single front rest
  · rw [Feed.splitLines_eq_splitOn]
    exact map_decodeLossy_splitOn (by decide) bytes

/-- A line feed inside a character of three bytes. -/
theorem decodeLossy_splits_broken_character :
    let bytes : List UInt8 := [0xe2, 0x82, 0x0a, 0xac, 0x31]
    (0x0a : UInt8) < 0x80 ∧ decodeLossy bytes = ['\uFFFD', '\n', '\uFFFD', '1'] ∧
      decodeLossy bytes =
        decodeLossy [0xe2, 0x82] ++ [Char.ofNat (0x0a : UInt8).toNat] ++ decodeLossy [0xac, 0x31] ∧
      (bytes.splitOn 0x0a).map decodeLossy = [['\uFFFD'], ['\uFFFD', '1']] := by
  intro bytes
  have single : (0x0a : UInt8) < 0x80 := by decide
  have text : decodeLossy bytes = ['\uFFFD', '\n', '\uFFFD', '1'] := by decide +kernel
  obtain ⟨apart, pieces, -⟩ := decodeLossy_splits 0x0a single
  refine ⟨single, text, apart [0xe2, 0x82] [0xac, 0x31], ?_⟩
  rw [pieces, text]
  rfl

end Text

end ArithTokens
