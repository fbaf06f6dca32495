import ArithTokens.Proofs.Scan.Segmentation
import ArithTokens.Proofs.Span
import Mathlib.Data.List.DropRight

/-!
# The cover of all tokens

The tokens of a text follow each other, and nothing but blanks stands before the first of them and
behind the last. So the cover of their spans, **in any order**, cuts out the text without the
blanks at its two ends.

* `trimmed` is a text without the blanks at its ends;
* `exists_frame` finds it between the first and the last token of a scan;
* `ordered_scan` says that tokens follow each other.
-/

namespace ArithTokens.Scan

variable {policy : Overflow} {c : Char} {g r text : List Char}

/-- A text without the blanks in front of it and behind it. -/
def trimmed (text : List Char) : List Char := (text.dropWhile isBlank).rdropWhile isBlank

/-- Whether a text neither starts nor ends with a blank. -/
def IsFramed (text : List Char) : Prop :=
  (∀ c ∈ text.head?, isBlank c = false) ∧ ∀ c ∈ text.getLast?, isBlank c = false

/-! ## Blanks at the ends -/

/-- What stands between two gaps is left when blanks are taken from the ends. -/
theorem trimmed_gaps {front back : List Char} (before : IsGap front) (behind : IsGap back)
    (framed : IsFramed text) (some : text ≠ []) : trimmed (front ++ text ++ back) = text := by
  have ahead : ∀ c ∈ (text ++ back).head?, isBlank c = false := by
    intro c first
    rw [List.head?_append_of_ne_nil _ some] at first
    exact framed.1 c first
  have reversed : ∀ c ∈ text.reverse.head?, isBlank c = false := by
    rw [List.head?_reverse]
    exact framed.2
  rw [trimmed, List.append_assoc, dropWhile_exact before ahead, List.rdropWhile,
    List.reverse_append, dropWhile_exact (fun c mem => behind c (List.mem_reverse.mp mem)) reversed,
    List.reverse_reverse]

theorem not_isBlank_of_mem_lexeme (lexeme : IsLexeme c r) : ∀ d ∈ c :: r, isBlank d = false := by
  intro d mem
  rcases List.mem_cons.mp mem with rfl | mem
  · exact lexeme.1
  · exact not_isBlank_of_joins (lexeme.2 d mem)

theorem isGap_of_scanFrom {here : Place} (none : scanFrom policy here text = []) : IsGap text := by
  induction text using lexemeInduction with
  | gap g gap => exact gap
  | lexeme g c r t gap lexeme ends =>
    rw [scanFrom_lexeme gap lexeme ends] at none
    cases none

/-- **The tokens of a text frame it**: what is left without the blanks at its ends starts with the
first token and stops with the last. -/
theorem exists_frame (here : Place) (some : scanFrom policy here text ≠ []) :
    ∃ front inside back, text = front ++ inside ++ back ∧ IsGap front ∧ IsGap back ∧
      inside ≠ [] ∧ IsFramed inside ∧
      ((scanFrom policy here text).head some).span.upTo
          ((scanFrom policy here text).getLast some).span =
        (here.after front).spanTo (here.after (front ++ inside)) := by
  induction text using lexemeInduction generalizing here with
  | gap g gap => exact absurd (scanFrom_gap gap) some
  | lexeme g c r t gap lexeme ends ih =>
    have solid := not_isBlank_of_mem_lexeme lexeme
    have first : ∀ d ∈ (c :: r).head?, isBlank d = false := by simpa using lexeme.1
    simp only [scanFrom_lexeme gap lexeme ends, List.head_cons]
    by_cases none : scanFrom policy (here.after (g ++ c :: r)) t = []
    · refine ⟨g, c :: r, t, rfl, gap, isGap_of_scanFrom none, List.cons_ne_nil c r, ⟨first, ?_⟩, ?_⟩
      · exact fun d last => solid d (List.mem_of_getLast? last)
      · simp only [none]
        rfl
    · obtain ⟨front, inside, back, rfl, before, behind, filled, framed, span⟩ := ih _ none
      refine ⟨g, c :: r ++ front ++ inside, back, by simp, gap, behind, by simp, ⟨?_, ?_⟩, ?_⟩
      · simpa using lexeme.1
      · rw [List.getLast?_append_of_ne_nil _ filled]
        exact framed.2
      · have place : here.after (g ++ (c :: r ++ front ++ inside)) =
            (here.after (g ++ c :: r)).after (front ++ inside) := by
          rw [← Place.after_append]
          simp
        rw [List.getLast_cons none, place]
        exact congrArg (Span.mk _ · _ _) (congrArg Span.stop span)

/-! ## The theorem -/

/-- No token is empty, and each starts behind the one before it. -/
theorem ordered_scan (policy : Overflow) (text : String) :
    (∀ s ∈ (scan policy text).map Spanned.span, s.start < s.stop) ∧
      ((scan policy text).map Spanned.span).Pairwise fun s t => s.stop ≤ t.start := by
  have segments : Segments policy 0 text.toList ((scan policy text).map Spanned.placed) :=
    (segments_iff .start text.toList _).mpr rfl
  constructor
  · intro s mem
    obtain ⟨lexed, inside, rfl⟩ := List.mem_map.mp mem
    exact segments.nonempty lexed.placed (List.mem_map_of_mem inside)
  · exact List.pairwise_map.mpr (List.pairwise_map.mp segments.ordered)

/-- **The cover of all tokens is the text without the blanks at its ends.** In whatever order the
spans of a text with tokens are covered, the result begins as the first token does and stops with
the last, and it cuts out what is left of the text without the blanks in front and behind. -/
theorem coverAll?_scan (policy : Overflow) (text : String) (tokens : scan policy text ≠ []) :
    let whole := ((scan policy text).head tokens).span.upTo ((scan policy text).getLast tokens).span
    (∀ spans, spans.Perm ((scan policy text).map Spanned.span) →
      Span.coverAll? spans = some whole) ∧
    whole.slice text = .ok (String.ofList (trimmed text.toList)) := by
  intro whole
  obtain ⟨nonempty, ordered⟩ := ordered_scan policy text
  have spans : (scan policy text).map Spanned.span ≠ [] := by simpa using tokens
  constructor
  · intro other perm
    have encloses := Span.encloses_of_ordered nonempty ordered spans
    rw [List.head_map, List.getLast_map] at encloses
    exact Span.coverAll?_of_perm (Span.nodup_start_of_ordered nonempty ordered) encloses perm
  · obtain ⟨front, inside, back, chars, before, behind, filled, framed, span⟩ :=
      exists_frame .start tokens
    have cut : whole.slice text = .ok (String.ofList inside) :=
      (congrArg (Span.slice · text) span).trans (slice_spanTo chars)
    rw [cut, chars, trimmed_gaps before behind framed filled]

/-- The spans of three tokens on two lines, the last one first. -/
theorem coverAll?_scan_last_first :
    scan .wrapping "\t7 +\n x " ≠ [] ∧
      Span.coverAll? [⟨6, 7, 2, 2⟩, ⟨3, 4, 1, 4⟩, ⟨1, 2, 1, 2⟩] = some ⟨1, 7, 1, 2⟩ ∧
      Span.slice ⟨1, 7, 1, 2⟩ "\t7 +\n x " = .ok "7 +\n x" := by
  have read : scan .wrapping "\t7 +\n x " =
      [⟨.number 7, ⟨1, 2, 1, 2⟩⟩, ⟨.plus, ⟨3, 4, 1, 4⟩⟩, ⟨.unknown "x", ⟨6, 7, 2, 2⟩⟩] := by
    decide +kernel
  have tokens : scan .wrapping "\t7 +\n x " ≠ [] := by simp [read]
  obtain ⟨covered, cut⟩ := coverAll?_scan .wrapping "\t7 +\n x " tokens
  simp only [read] at covered cut
  exact ⟨tokens, covered _ (by decide), cut.trans (by decide +kernel)⟩

end ArithTokens.Scan
