import ArithTokens.Command.Repl
import ArithTokens.Proofs.Command.Output
import ArithTokens.Proofs.Scan.Lines
import ArithTokens.Proofs.Text.Lossy

/-!
# One expression or one for each line

An input read line by line and the same input read as a whole have **the same tokens**. The one
splits bytes into lines and decodes each of them, the other decodes all bytes and takes line feeds
for blanks.

* `scanFrom_decodeLossy` scans the lines of an input apart, from the place where they start;
* `taken_repl` and `taken_tokenize` are what is written of the tokens, and
  `withoutEmptyLines_intercalate` leaves the same of both.
-/

namespace ArithTokens.Command

open Feed (lineFeed lines stripReturn withoutEmptyLines)
open Scan (scanFrom)
open Text (decodeLossy lineOffset)

variable {policy : Overflow} {line : List UInt8}

/-! ## Tokens -/

/-- The carriage return that a line may lose is a blank. -/
theorem lineTokens_stripReturn (policy : Overflow) (line : List UInt8) :
    lineTokens policy (stripReturn line) = lineTokens policy line := by
  rcases Feed.stripReturn_append line with same | split
  · rw [same]
  · have gap : Scan.IsGap ['\r'] := by simp [Scan.IsGap, Scan.isBlank]
    have decoded : decodeLossy line = decodeLossy (stripReturn line) ++ ['\r'] := by
      conv_lhs => rw [split, Text.decodeLossy_append (by decide)]
      simp [decodeLossy, Text.pieces]
      rfl
    rw [lineTokens, lineTokens, scan, scan, String.toList_ofList, String.toList_ofList, decoded,
      Scan.scanFrom_append_gap gap]

/-- The tokens of a line that stands at line `i`, counted from zero. -/
theorem scanFrom_decodeLossy_line (plain : lineFeed ∉ line) (i offset : Nat) :
    scanFrom policy (Place.start.onLine i offset) (decodeLossy line) =
      (lineTokens policy line).map (Spanned.onLine i offset) := by
  rw [Scan.scanFrom_onLine i offset (Text.lineFeed_not_mem_decodeLossy plain), lineTokens, scan,
    String.toList_ofList]

/-- **The tokens of bytes are those of their lines**, each put where its line stands. -/
theorem scanFrom_decodeLossy (policy : Overflow) (bytes : List UInt8) (i offset : Nat) :
    scanFrom policy (Place.start.onLine i offset) (decodeLossy bytes) =
      ((lines ⟨bytes, false⟩).map (lineTokens policy)).zipIdx.flatMap fun entry =>
        entry.1.map (Spanned.onLine (i + entry.2)
          (offset + lineOffset entry.2 (decodeLossy bytes))) := by
  induction bytes using Feed.lineInduction generalizing i offset with
  | last rest plain =>
    rw [scanFrom_decodeLossy_line plain, Feed.lines_of_not_mem plain]
    split
    · rename_i nothing
      simp [nothing, lineTokens, scan, decodeLossy, Text.pieces, Scan.scanFrom_gap Scan.isGap_nil]
    · simp [lineOffset]
  | line line bytes plain ih =>
    have feed := Text.lineFeed_not_mem_decodeLossy plain
    have decoded : decodeLossy (line ++ lineFeed :: bytes) =
        decodeLossy line ++ '\n' :: decodeLossy bytes :=
      Text.decodeLossy_append (by decide) line bytes
    rw [Feed.lines_line plain, decoded, Scan.scanFrom_line, scanFrom_decodeLossy_line plain,
      Place.after_line i offset feed, ih, List.map_cons, lineTokens_stripReturn, List.zipIdx_cons,
      List.zipIdx_succ, List.flatMap_cons, List.flatMap_map]
    congr 1
    · simp [lineOffset]
    · refine List.flatMap_congr fun entry _ => ?_
      simp only [Text.lineOffset_succ feed]
      congr 2 <;> omega

/-- All tokens of a line stand on the first line. -/
theorem line_of_mem_lineTokens {bytes : List UInt8} {block : List Spanned} {lexed : Spanned}
    (mem : block ∈ (lines ⟨bytes, false⟩).map (lineTokens policy)) (inside : lexed ∈ block) :
    lexed.span.line = 1 := by
  have first : ∀ {line}, lineFeed ∉ line → ∀ lexed ∈ lineTokens policy line,
      lexed.span.line = 1 := by
    intro line plain lexed inside
    rw [lineTokens, scan, String.toList_ofList] at inside
    exact Scan.line_of_mem_scanFrom (Text.lineFeed_not_mem_decodeLossy plain) inside
  induction bytes using Feed.lineInduction with
  | last rest plain =>
    rw [Feed.lines_of_not_mem plain] at mem
    split at mem
    · cases mem
    · obtain rfl := List.mem_singleton.mp mem
      exact first plain lexed inside
  | line line bytes plain ih =>
    rw [Feed.lines_line plain, List.map_cons, lineTokens_stripReturn, List.mem_cons] at mem
    rcases mem with rfl | mem
    · exact first plain lexed inside
    · exact ih mem

/-! ## Output -/

/-- The bytes that are written of some tokens. -/
def rendered (options : RenderOptions) (tokens : List Spanned) : List UInt8 :=
  Event.written ((render options tokens).map .write)

/-- What is written of lines is what is written of each, with a line feed between two of them; and
one more in front if there were lines before. -/
theorem written_replLines (settings : Settings) (before : Nat) (line : List UInt8)
    (others : List (List UInt8)) :
    Event.written (replLines settings before (line :: others)) =
      (if before = 0 then [] else [lineFeed]) ++ [lineFeed].intercalate
        ((line :: others).map fun line =>
          rendered settings.render (lineTokens settings.policy line)) := by
  have first : ∀ before line, Event.written (replLine settings before line) =
      (if before = 0 then [] else [lineFeed]) ++
        rendered settings.render (lineTokens settings.policy line) := by
    intro before line
    rw [replLine, Event.written_append]
    split <;> rfl
  induction others generalizing before line with
  | nil => simp [replLines, first]
  | cons next others ih =>
    rw [replLines, Event.written_append, first, ih, if_neg (Nat.succ_ne_zero before),
      List.map_cons, List.map_cons, List.map_cons, List.intercalate_cons_cons]
    simp only [List.append_assoc]

theorem taken_repl (settings : Settings) (feed : Feed) :
    ((repl settings feed).deliver none).taken =
      [lineFeed].intercalate ((feed.lines.map (lineTokens settings.policy)).map
        (rendered settings.render)) := by
  rw [Transcript.deliver, (Event.deliver_none _ _).1, repl]
  rcases feed.lines with _ | ⟨line, others⟩
  · rfl
  · simpa [Function.comp_def] using written_replLines settings 0 line others

theorem taken_tokenize (settings : Settings) (bytes : List UInt8) (tree : Tree) :
    (((tokenize settings none none ⟨bytes, false⟩ : StateM Tree _).run tree).1.deliver none).taken =
      rendered settings.render (scan settings.policy (String.ofList (decodeLossy bytes))) := by
  rw [run_tokenize, Transcript.deliver]
  exact (Event.deliver_none _ _).1

/-! ## Output in lines of text -/

theorem rendered_text (tokens : List Spanned) :
    rendered ⟨.text, false⟩ tokens = (tokens.map Spanned.token).flatMap fun token =>
      Text.bytesOf token.describe ++ [lineFeed] := by
  induction tokens with
  | nil => rfl
  | cons lexed tokens ih =>
    have line : Text.bytesOf (lexed.line false) =
        Text.bytesOf lexed.token.describe ++ [lineFeed] :=
      Text.bytesOf_append _ _
    rw [List.map_cons, List.flatMap_cons, ← ih, rendered, render, List.map_cons, List.map_cons,
      Event.written, line]
    rfl

theorem rendered_text_flatten (blocks : List (List Spanned)) :
    rendered ⟨.text, false⟩ blocks.flatten = blocks.flatMap (rendered ⟨.text, false⟩) := by
  induction blocks with
  | nil => rfl
  | cons block blocks ih =>
    rw [List.flatMap_cons, ← ih, List.flatten_cons, rendered_text, rendered_text, rendered_text,
      List.map_append, List.flatMap_append]

/-- The line of a token is not empty. -/
theorem withoutEmptyLines_rendered {tokens : List Spanned}
    (wellFormed : ∀ lexed ∈ tokens, lexed.token.WellFormed) (rest : List UInt8) :
    withoutEmptyLines (rendered ⟨.text, false⟩ tokens ++ rest) =
      rendered ⟨.text, false⟩ tokens ++ withoutEmptyLines rest := by
  induction tokens with
  | nil => rfl
  | cons lexed tokens ih =>
    have plain := lineFeed_not_mem_bytesOf
      (Token.lineFeed_not_mem_describe (wellFormed lexed List.mem_cons_self))
    have some := lexed.token.bytesOf_describe_ne_nil
    have others := ih fun other mem => wellFormed other (List.mem_cons_of_mem lexed mem)
    simp only [rendered_text, List.map_cons, List.flatMap_cons, List.append_assoc,
      List.cons_append, List.nil_append] at others ⊢
    rw [Feed.withoutEmptyLines_line plain some, others]

/-- The lines that divide the tokens of one line from those of the next are all that is empty. -/
theorem withoutEmptyLines_intercalate {blocks : List (List Spanned)}
    (wellFormed : ∀ block ∈ blocks, ∀ lexed ∈ block, lexed.token.WellFormed) :
    withoutEmptyLines ([lineFeed].intercalate (blocks.map (rendered ⟨.text, false⟩))) =
      blocks.flatMap (rendered ⟨.text, false⟩) := by
  induction blocks with
  | nil => rfl
  | cons block blocks ih =>
    have first := withoutEmptyLines_rendered (wellFormed block List.mem_cons_self)
    have others := ih fun other mem => wellFormed other (List.mem_cons_of_mem block mem)
    rw [List.map_cons, List.flatMap_cons]
    rcases blocks with _ | ⟨next, blocks⟩
    · simpa [Feed.withoutEmptyLines_nil] using first []
    · rw [List.map_cons] at others ⊢
      rw [List.intercalate_cons_cons, List.append_assoc, List.singleton_append, first,
        Feed.withoutEmptyLines_lineFeed, others]

/-- **An input read line by line and as a whole has the same tokens.** Those of the lines, one
line after the other, are those of the whole, where a token of line `i` stands in the same column
of line `i`, and its offsets count from the start of that line. All of this is seen in what is
written; in lines of text without spans the only difference are empty lines. -/
theorem repl_agrees_with_tokenize (settings : Settings) (bytes : List UInt8) (tree : Tree)
    (short : bytes.length < UInt32.size - 1) :
    let blocks := (lines ⟨bytes, false⟩).map (lineTokens settings.policy)
    let whole := scan settings.policy (String.ofList (decodeLossy bytes))
    let byLine := ((repl settings ⟨bytes, false⟩).deliver none).taken
    let atOnce :=
      (((tokenize settings none none ⟨bytes, false⟩ : StateM Tree _).run tree).1.deliver none).taken
    (byLine = [lineFeed].intercalate (blocks.map (rendered settings.render)) ∧
      atOnce = rendered settings.render whole) ∧
    blocks.flatten.map Spanned.token = whole.map Spanned.token ∧
    (whole = blocks.zipIdx.flatMap fun entry =>
      entry.1.map (Spanned.onLine entry.2 (lineOffset entry.2 (decodeLossy bytes)))) ∧
    (∀ block ∈ blocks, ∀ lexed ∈ block, lexed.span.line = 1) ∧
    (∀ i < blocks.length, (UInt32.ofNat (i + 1)).toNat = i + 1) ∧
    (settings.render = ⟨.text, false⟩ → withoutEmptyLines byLine = atOnce) := by
  intro blocks whole byLine atOnce
  have apart : whole = blocks.zipIdx.flatMap fun entry =>
      entry.1.map (Spanned.onLine entry.2 (lineOffset entry.2 (decodeLossy bytes))) := by
    have lines := scanFrom_decodeLossy settings.policy bytes 0 0
    simp only [Nat.zero_add] at lines
    rw [← lines]
    exact congrArg (scanFrom settings.policy .start) String.toList_ofList
  have tokens : blocks.flatten.map Spanned.token = whole.map Spanned.token := by
    rw [apart, Spanned.map_token_onLine fun i => lineOffset i (decodeLossy bytes)]
  refine ⟨⟨taken_repl settings _, taken_tokenize settings bytes tree⟩, tokens, apart,
    fun block mem lexed inside => line_of_mem_lineTokens mem inside, ?_, ?_⟩
  · intro i inside
    have few := Feed.length_lines_le bytes
    rw [List.length_map] at inside
    rw [UInt32.toNat_ofNat_of_lt' (by omega)]
  · intro text
    have byLine_eq : byLine = _ := taken_repl settings _
    have atOnce_eq : atOnce = _ := taken_tokenize settings bytes tree
    rw [byLine_eq, atOnce_eq, text, withoutEmptyLines_intercalate, ← rendered_text_flatten,
      rendered_text, rendered_text, tokens]
    intro block mem lexed inside
    obtain ⟨line, -, rfl⟩ := List.mem_map.mp mem
    exact wellFormed_of_mem_scan inside

/-- A carriage return and the first bytes of a longer character stand before the line feeds. -/
theorem repl_agrees_with_tokenize_broken_character :
    let bytes : List UInt8 := [49, 13, 10, 10, 0xe2, 0x82, 10, 50]
    bytes.length < UInt32.size - 1 ∧
      withoutEmptyLines ((repl {} ⟨bytes, false⟩).deliver none).taken =
        Text.bytesOf "NumberToken 1\nUnknownToken \uFFFD\nNumberToken 2\n" := by
  intro bytes
  have short : bytes.length < UInt32.size - 1 := by decide
  refine ⟨short, ?_⟩
  rw [(repl_agrees_with_tokenize {} bytes ⟨[], []⟩ short).2.2.2.2.2 rfl]
  decide +kernel

end ArithTokens.Command
