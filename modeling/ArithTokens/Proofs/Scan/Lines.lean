import ArithTokens.Proofs.Scan.Append

/-!
# Scanning line by line

No lexeme holds a line feed, so that a text may be scanned **one line at a time**
(`scanFrom_line`), and a line by itself has the tokens that it has in the text. Only their spans
are those of another place: `Spanned.onLine` puts them back where the line stands.
-/

namespace ArithTokens

/-- The byte offset at which a line of a text starts; lines count from zero. -/
def Text.lineOffset : Nat → List Char → Nat
  | 0, _ => 0
  | _ + 1, [] => 0
  | i + 1, c :: cs => c.utf8Size + if c = '\n' then lineOffset i cs else lineOffset (i + 1) cs

/-- A place in a text of one line, where that line is line `i`, counted from zero, and starts at a
byte offset. -/
def Place.onLine (i offset : Nat) (here : Place) : Place :=
  ⟨here.offset + offset, UInt32.ofNat (i + 1), here.column⟩

/-- A token in a text of one line, where that line is line `i`, counted from zero, and starts at a
byte offset. -/
def Spanned.onLine (i offset : Nat) (lexed : Spanned) : Spanned :=
  { lexed with
    span :=
      { start := lexed.span.start + offset
        stop := lexed.span.stop + offset
        line := UInt32.ofNat (i + 1)
        column := lexed.span.column } }

/-- Lines that are put where they stand keep their tokens. -/
theorem Spanned.map_token_onLine (offset : Nat → Nat) (blocks : List (List Spanned)) :
    (blocks.zipIdx.flatMap fun entry =>
        entry.1.map (Spanned.onLine entry.2 (offset entry.2))).map Spanned.token =
      blocks.flatten.map Spanned.token := by
  have forget : ∀ i offset, Spanned.token ∘ Spanned.onLine i offset = Spanned.token := by
    intro i offset
    rfl
  calc _
    _ = blocks.zipIdx.flatMap fun entry => entry.1.map Spanned.token := by
      simp only [List.map_flatMap, List.map_map, forget]
    _ = (blocks.zipIdx.map Prod.fst).flatMap (List.map Spanned.token) := List.flatMap_map .. |>.symm
    _ = blocks.flatten.map Spanned.token := by
      rw [List.zipIdx_map_fst, List.map_flatten, List.flatMap_def]

/-! ## Offsets of lines -/

/-- The lines behind the first one start where they start without it, moved by its size. -/
theorem Text.lineOffset_succ {line : List Char} (plain : '\n' ∉ line) (i : Nat) (t : List Char) :
    lineOffset (i + 1) (line ++ '\n' :: t) = byteSize line + 1 + lineOffset i t := by
  induction line with
  | nil => rfl
  | cons c line ih =>
    rw [List.mem_cons, not_or] at plain
    rw [List.cons_append, lineOffset, if_neg (Ne.symm plain.1), ih plain.2, byteSize_cons]
    omega

/-! ## Places on one line -/

namespace Place

variable {here : Place} {text : List Char}

theorem line_after_of_not_mem (plain : '\n' ∉ text) : (here.after text).line = here.line := by
  induction text generalizing here with
  | nil => rfl
  | cons c text ih =>
    rw [List.mem_cons, not_or] at plain
    rw [after_cons, ih plain.2, step, if_neg (Ne.symm plain.1)]

theorem after_onLine (i offset : Nat) (plain : '\n' ∉ text) :
    (here.onLine i offset).after text = (here.after text).onLine i offset := by
  induction text generalizing here with
  | nil => rfl
  | cons c text ih =>
    rw [List.mem_cons, not_or] at plain
    have step : (here.onLine i offset).step c = (here.step c).onLine i offset := by
      simp [Place.step, onLine, Ne.symm plain.1, Nat.add_right_comm]
    rw [after_cons, after_cons, step, ih plain.2]

/-- The place behind a line and its line feed starts the next line. -/
theorem after_line (i offset : Nat) (plain : '\n' ∉ text) :
    (start.onLine i offset).after (text ++ ['\n']) =
      start.onLine (i + 1) (offset + (Text.byteSize text + 1)) := by
  rw [after_append, after_onLine i offset plain, after_cons, after_nil, step, if_pos rfl]
  simp only [onLine, after_offset, start, mk.injEq, UInt32.ofNat_add, UInt32.ofNat_one, and_true]
  have feed : Char.utf8Size '\n' = 1 := rfl
  omega

end Place

namespace Scan

variable {policy : Overflow} {g s t text : List Char} {here : Place}

/-! ## Lines apart -/

/-- A scan starts anew behind a line feed. -/
theorem scanFrom_line (policy : Overflow) (here : Place) (s t : List Char) :
    scanFrom policy here (s ++ '\n' :: t) =
      scanFrom policy here s ++ scanFrom policy (here.after (s ++ ['\n'])) t := by
  have gap : IsGap ['\n'] := by simp [IsGap, isBlank]
  have apart : ¬ Continues s ('\n' :: t) := by
    rintro ⟨c, -, d, first, joined⟩
    obtain rfl := Option.mem_some.mp first
    rw [joins_of_isBlank rfl] at joined
    cases joined
  rw [scanFrom_append apart, ← List.singleton_append, scanFrom_gap_append gap, Place.after_append]

/-- A gap at the end of a text has no token. -/
theorem scanFrom_append_gap (gap : IsGap g) :
    scanFrom policy here (s ++ g) = scanFrom policy here s := by
  rw [scanFrom_append (not_continues_gap gap), scanFrom_gap gap, List.append_nil]

/-! ## One line -/

/-- **A line has the same tokens by itself** and as line `i` of a text, where they stand on that
line in the same columns, and their offsets count from the start of the text. -/
theorem scanFrom_onLine (i offset : Nat) (plain : '\n' ∉ text) :
    scanFrom policy (here.onLine i offset) text =
      (scanFrom policy here text).map (Spanned.onLine i offset) := by
  induction text using lexemeInduction generalizing here with
  | gap g gap => rw [scanFrom_gap gap, scanFrom_gap gap, List.map_nil]
  | lexeme g c r t gap lexeme ends ih =>
    simp only [List.mem_append, not_or] at plain
    obtain ⟨⟨front, word⟩, behind⟩ := plain
    have both : '\n' ∉ g ++ c :: r := List.not_mem_append front word
    rw [scanFrom_lexeme gap lexeme ends, scanFrom_lexeme gap lexeme ends, List.map_cons,
      Place.after_onLine i offset front, Place.after_onLine i offset both, ih behind]
    rfl

/-- All tokens of a text of one line stand on that line. -/
theorem line_of_mem_scanFrom {lexed : Spanned} (plain : '\n' ∉ text)
    (mem : lexed ∈ scanFrom policy here text) : lexed.span.line = here.line := by
  obtain ⟨before, word, behind, rfl, -, span⟩ := exists_of_mem_scanFrom mem
  rw [span]
  exact Place.line_after_of_not_mem fun feed => plain (by simp [feed])

end Scan

end ArithTokens
