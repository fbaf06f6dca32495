import ArithTokens.Proofs.Overflow
import ArithTokens.Proofs.Scan.Append
import Mathlib.Data.List.Forall2

/-!
# One text under both policies

What becomes of a number that does not fit is all that a policy decides. Scans of one text under
the two policies go **in step**: they stop at the same places, and the tokens that they give there
are the same but for numbers that are too large.

* `Twins` is what the two policies make of one lexeme, and `twins_scanFrom` finds twins at each
  place of the two scans;
* `DigitRun` says which digits of a text are read as one number, and `eq_of_scanFrom_eq` finds the
  number of each such run in both scans.
-/

namespace ArithTokens

/-- The two policies keep the same of a value that fits, and of one whose remainder happens to be
the greatest word. -/
theorem Overflow.keep_wrapping_eq_iff (n : Nat) :
    wrapping.keep n = saturating.keep n ↔
      n < UInt64.size ∨ n % UInt64.size = UInt64.size - 1 := by
  simp only [keep, UInt64.size]
  omega

namespace Scan

variable {policy : Overflow} {here : Place} {c : Char} {r text before digits behind : List Char}
  {wrapped capped : Spanned}

/-! ## Runs of digits -/

/-- The exact value of a text of digits. -/
def exactValue (digits : List Char) : Nat := Nat.ofDigitChars 10 digits 0

/-- Whether a text is a number too large for a word. -/
def Oversized (word : List Char) : Prop := IsRun Char.isDigit word ∧ UInt64.size ≤ exactValue word

/-- A **run of digits** of a text: it is followed by no digit, and no digit stands before it. -/
structure DigitRun (text before digits behind : List Char) : Prop where
  chars : text = before ++ digits ++ behind
  run : IsRun Char.isDigit digits
  starts : ∀ c ∈ before.getLast?, c.isDigit = false
  ends : ∀ c ∈ behind.head?, c.isDigit = false

/-- A run of digits is a lexeme, and neither goes on from what is before it nor into what is behind
it. -/
theorem DigitRun.exists_lexeme (found : DigitRun text before digits behind) :
    ∃ c r, digits = c :: r ∧ c.isDigit = true ∧ IsLexeme c r ∧ Ends c behind ∧
      ¬ Continues before (digits ++ behind) := by
  obtain ⟨c, r, rfl⟩ := List.exists_cons_of_ne_nil found.run.1
  obtain ⟨digit, joined⟩ := isRun_isDigit_iff.mp found.run
  refine ⟨c, r, rfl, digit, ⟨not_isBlank_of_isDigit digit, joined⟩, ?_, ?_⟩
  · intro d first
    rw [joins_of_isDigit digit]
    exact found.ends d first
  · rw [not_continues_iff]
    intro e last d first
    obtain rfl : c = d := Option.some.inj first
    rw [joins_comm, joins_of_isDigit digit]
    exact found.starts e last

/-! ## Twins -/

/-- **What the two policies make of one lexeme** of a text: two tokens at one place, which differ
only if the lexeme is a number too large for a word. -/
structure Twins (here : Place) (text : List Char) (wrapped capped : Spanned) : Prop where
  span : wrapped.span = capped.span
  lexeme : ∃ before c r behind, text = before ++ c :: r ++ behind ∧ IsLexeme c r ∧
    ¬ Continues before (c :: r) ∧ Ends c behind ∧
    wrapped.span = (here.after before).spanTo (here.after (before ++ c :: r)) ∧
    wrapped.token = .ofLexeme .wrapping c r ∧ capped.token = .ofLexeme .saturating c r

/-- The lexemes of the end of a text are lexemes of the whole. -/
theorem Twins.skip {g t : List Char} (lexeme : IsLexeme c r) (ends : Ends c t)
    (twins : Twins (here.after (g ++ c :: r)) t wrapped capped) :
    Twins here (g ++ c :: r ++ t) wrapped capped := by
  obtain ⟨same, before, d, s, behind, rfl, lexeme', apart, ends', span, tokens⟩ := twins
  refine ⟨same, g ++ c :: r ++ before, d, s, behind, by simp, lexeme', ?_, ends', ?_, tokens⟩
  · rcases before with _ | ⟨e, before⟩
    · rw [List.append_nil, lexeme.not_continues_iff_ends]
      exact ends
    · rwa [Continues, List.getLast?_append_of_ne_nil _ (List.cons_ne_nil e before)]
  · rw [span]
    simp only [Place.after_append]

/-- **Scans under the two policies go in step.** -/
theorem twins_scanFrom (here : Place) (text : List Char) :
    List.Forall₂ (Twins here text) (scanFrom .wrapping here text)
      (scanFrom .saturating here text) := by
  induction text using lexemeInduction generalizing here with
  | gap g gap =>
    rw [scanFrom_gap gap, scanFrom_gap gap]
    exact .nil
  | lexeme g c r t gap lexeme ends ih =>
    rw [scanFrom_lexeme gap lexeme ends, scanFrom_lexeme gap lexeme ends]
    refine .cons ?_ ((ih _).imp fun _ _ twins => twins.skip lexeme ends)
    exact ⟨rfl, g, c, r, t, rfl, lexeme, not_continues_of_isGap gap, ends, rfl, rfl, rfl⟩

/-- A lexeme that is no number has the same token under each policy. -/
theorem ofLexeme_congr (policy policy' : Overflow) (digit : c.isDigit = false) :
    Token.ofLexeme policy c r = Token.ofLexeme policy' c r := by
  simp [Token.ofLexeme, digit]

theorem toNat_ofDigits_of_isRun (run : IsRun Char.isDigit digits) :
    (policy.ofDigits digits).toNat = policy.keep (exactValue digits) :=
  Overflow.toNat_ofDigits run.2

/-- Two policies give a number the same token if they keep the same of its value. -/
theorem ofLexeme_eq_iff (run : IsRun Char.isDigit (c :: r)) :
    Token.ofLexeme .wrapping c r = Token.ofLexeme .saturating c r ↔
      exactValue (c :: r) < UInt64.size ∨ exactValue (c :: r) % UInt64.size = UInt64.size - 1 := by
  obtain ⟨digit, -⟩ := isRun_isDigit_iff.mp run
  rw [ofLexeme_of_isDigit digit, ofLexeme_of_isDigit digit, Token.number.injEq, ← UInt64.toNat_inj,
    toNat_ofDigits_of_isRun run, toNat_ofDigits_of_isRun run, Overflow.keep_wrapping_eq_iff]

/-- A lexeme that fits has the same token under both policies. -/
theorem ofLexeme_of_not_oversized (lexeme : IsLexeme c r) (fits : ¬ Oversized (c :: r)) :
    Token.ofLexeme .wrapping c r = Token.ofLexeme .saturating c r := by
  by_cases digit : c.isDigit = true
  · have run := isRun_isDigit_iff.mpr ⟨digit, lexeme.2⟩
    have small : exactValue (c :: r) < UInt64.size :=
      Nat.lt_of_not_le fun large => fits ⟨run, large⟩
    exact (ofLexeme_eq_iff run).mpr (Or.inl small)
  · exact ofLexeme_congr _ _ (Bool.not_eq_true _ ▸ digit)

/-- A number that does not fit is its remainder under the one policy and the greatest word under
the other. -/
theorem ofLexeme_of_oversized (oversized : Oversized (c :: r)) :
    ∃ least greatest, Token.ofLexeme .wrapping c r = .number least ∧
      Token.ofLexeme .saturating c r = .number greatest ∧
      least.toNat = exactValue (c :: r) % UInt64.size ∧ greatest.toNat = UInt64.size - 1 ∧
      least ≤ greatest := by
  obtain ⟨run, large⟩ := oversized
  obtain ⟨digit, -⟩ := isRun_isDigit_iff.mp run
  have least : (Overflow.wrapping.ofDigits (c :: r)).toNat = _ := toNat_ofDigits_of_isRun run
  have greatest : (Overflow.saturating.ofDigits (c :: r)).toNat = UInt64.size - 1 := by
    rw [toNat_ofDigits_of_isRun run]
    exact Nat.min_eq_right (by omega)
  refine ⟨_, _, ofLexeme_of_isDigit digit, ofLexeme_of_isDigit digit, least, greatest, ?_⟩
  rw [UInt64.le_iff_toNat_le, greatest]
  exact Nat.le_sub_one_of_lt (UInt64.toNat_lt_size _)

/-- Twins that are numbers are read from a run of digits; else they are the same. -/
theorem Twins.eq_or_digitRun (twins : Twins here text wrapped capped) :
    wrapped = capped ∨ ∃ before c r behind, DigitRun text before (c :: r) behind ∧
      wrapped.token = .ofLexeme .wrapping c r ∧ capped.token = .ofLexeme .saturating c r := by
  obtain ⟨same, before, c, r, behind, chars, lexeme, apart, ends, -, token, token'⟩ := twins
  by_cases digit : c.isDigit = true
  · right
    refine ⟨before, c, r, behind, ⟨chars, isRun_isDigit_iff.mpr ⟨digit, lexeme.2⟩, ?_, ?_⟩,
      token, token'⟩
    · intro e last
      rw [← joins_of_isDigit digit, joins_comm]
      exact not_continues_iff.mp apart e last c rfl
    · intro d first
      rw [← joins_of_isDigit digit]
      exact ends d first
  · left
    rw [Bool.not_eq_true] at digit
    obtain ⟨t, s⟩ := wrapped
    obtain ⟨t', s'⟩ := capped
    rw [Spanned.mk.injEq]
    exact ⟨token.trans ((ofLexeme_congr _ _ digit).trans token'.symm), same⟩

/-! ## The number of a run -/

/-- Where both scans are the same, so are the numbers that they give for a run of digits. -/
theorem eq_of_scanFrom_eq (same : scanFrom .wrapping here text = scanFrom .saturating here text)
    (found : DigitRun text before (c :: r) behind) :
    Token.ofLexeme .wrapping c r = Token.ofLexeme .saturating c r := by
  obtain ⟨c', r', split, -, lexeme, ends, apart⟩ := found.exists_lexeme
  obtain ⟨rfl, rfl⟩ := List.cons.inj split
  have cut : ∀ policy, scanFrom policy here text = scanFrom policy here before ++
      ⟨.ofLexeme policy c r, (here.after before).spanTo ((here.after before).after (c :: r))⟩ ::
        scanFrom policy ((here.after before).after (c :: r)) behind := by
    intro policy
    have first : scanFrom policy (here.after before) ([] ++ c :: r ++ behind) = _ :=
      scanFrom_lexeme isGap_nil lexeme ends
    rw [List.nil_append, Place.after_nil] at first
    rw [found.chars, List.append_assoc, scanFrom_append apart, first]
  -- The scans in front of the run are equally long, so that the run's tokens face each other.
  rw [cut, cut] at same
  have front := (twins_scanFrom here before).length_eq
  obtain ⟨-, rest⟩ := List.append_inj same front
  exact congrArg Spanned.token (List.cons.inj rest).1

/-! ## The theorem -/

/-- **The policy decides nothing but numbers that are too large.** The scans of a text under the
two policies are equally long, with the same spans, and wherever a span cuts out anything but a
number too large for a word, the tokens are the same; else the one is the value's remainder, which
is at most the other, the greatest word. So the two scans are the same just if each run of digits
either fits or leaves the greatest word as its remainder. -/
theorem scan_policies (text : String) :
    List.Forall₂ (fun wrapped capped => wrapped.span = capped.span ∧
        ∃ word, wrapped.span.slice text = .ok (String.ofList word) ∧
          (¬ Oversized word → wrapped.token = capped.token) ∧
          (Oversized word → ∃ least greatest, wrapped.token = .number least ∧
            capped.token = .number greatest ∧ least.toNat = exactValue word % UInt64.size ∧
            greatest.toNat = UInt64.size - 1 ∧ least ≤ greatest))
      (scan .wrapping text) (scan .saturating text) ∧
    (scan .wrapping text = scan .saturating text ↔
      ∀ before digits behind, DigitRun text.toList before digits behind →
        exactValue digits < UInt64.size ∨ exactValue digits % UInt64.size = UInt64.size - 1) := by
  have step := twins_scanFrom .start text.toList
  refine ⟨step.imp ?_, ?_, ?_⟩
  · rintro wrapped capped ⟨same, before, c, r, behind, chars, lexeme, -, -, span, token, token'⟩
    refine ⟨same, c :: r, ?_, ?_, ?_⟩
    · rw [span]
      exact slice_spanTo chars
    · intro fits
      rw [token, token']
      exact ofLexeme_of_not_oversized lexeme fits
    · intro oversized
      rw [token, token']
      exact ofLexeme_of_oversized oversized
  · intro same before digits behind found
    obtain ⟨c, r, rfl, -⟩ := found.exists_lexeme
    exact (ofLexeme_eq_iff found.run).mp (eq_of_scanFrom_eq same found)
  · intro agree
    refine List.forall₂_eq_eq_eq ▸ step.imp ?_
    intro wrapped capped twins
    rcases twins.eq_or_digitRun with same | ⟨before, c, r, behind, found, token, token'⟩
    · exact same
    · obtain ⟨t, s⟩ := wrapped
      obtain ⟨t', s'⟩ := capped
      rw [Spanned.mk.injEq]
      refine ⟨?_, twins.span⟩
      rw [show t = _ from token, show t' = _ from token']
      exact (ofLexeme_eq_iff found.run).mpr (agree _ _ _ found)

-- The remainder of `2 ^ 65 - 1` is the greatest word.
example : scan .wrapping "36893488147419103231" = scan .saturating "36893488147419103231" := by
  decide +kernel

end Scan

end ArithTokens
