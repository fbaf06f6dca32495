import ArithTokens.Proofs.Overflow
import ArithTokens.Proofs.Scan.Append
import Mathlib.Data.List.Chain

/-!
# Spelling tokens

What a scan gives are the **well-formed** tokens, and each of them can be written: a number with
any count of zeros in front, every other token in one way.

* `reads_spelling` and `Reads.wellFormed` say that the spellings of well-formed tokens are
  lexemes, and that lexemes have well-formed tokens;
* `Written` is a well-formed token with the gap in front of it, and `Written.Apart` says where a
  gap may not be empty: between tokens that would become one;
* `scanFrom_row` reads a row of written tokens back, and `length_scanFrom_row_lt` says that it
  cannot be read back where a gap is missing.
-/

namespace ArithTokens

namespace Token

open Scan (IsRun isBlank)

/-- **The tokens that a text can hold.** An unknown token is a word that is no keyword, or a single
character that is of no class. -/
def WellFormed : Token → Prop
  | .unknown text =>
    (IsRun Char.isAlpha text.toList ∧ ofKeyword? text = none) ∨
      ∃ c, text = String.singleton c ∧ isBlank c = false ∧ c.isDigit = false ∧
        c.isAlpha = false ∧ ofSymbol? c = none
  | _ => True

/-- How a token is written, with zeros in front if it is a number. -/
def spelling (zeros : Nat) : Token → List Char
  | .openingBracket => ['(']
  | .closingBracket => [')']
  | .comma => [',']
  | .plus => ['+']
  | .minus => ['-']
  | .multiply => ['*']
  | .divide => ['/']
  | .modulo => ['%']
  | .min => ['m', 'i', 'n']
  | .max => ['m', 'a', 'x']
  | .abs => ['a', 'b', 's']
  | .sqr => ['s', 'q', 'r']
  | .number value => List.replicate zeros '0' ++ Nat.toDigits 10 value.toNat
  | .unknown text => text.toList

/-- Whether a token is written in digits. -/
def isNumber : Token → Bool
  | .number _ => true
  | _ => false

/-- Whether a token is written in letters: a keyword, or an unknown word. -/
def isWord : Token → Bool
  | .unknown text => text.toList.all Char.isAlpha
  | token => token.isKeyword

/-- Whether two tokens would become one if nothing stood between them. -/
def Clash (s t : Token) : Prop :=
  (s.isNumber = true ∧ t.isNumber = true) ∨ (s.isWord = true ∧ t.isWord = true)

end Token

namespace Scan

variable {policy : Overflow} {token : Token} {c d : Char} {r s text : List Char}

/-! ## Well-formed tokens are those of lexemes -/

theorem kind_of_symbol {c : Char} (found : Token.ofSymbol? c = some token) :
    token.WellFormed ∧ token.isNumber = false ∧ token.isWord = false := by
  unfold Token.ofSymbol? at found
  split at found <;> cases found <;> exact ⟨trivial, rfl, rfl⟩

theorem kind_of_keyword {word : String} (found : Token.ofKeyword? word = some token) :
    token.WellFormed ∧ token.isNumber = false ∧ token.isWord = true := by
  rcases ofKeyword?_eq_some_iff.mp found with ⟨-, rfl⟩ | ⟨-, rfl⟩ | ⟨-, rfl⟩ | ⟨-, rfl⟩ <;>
    exact ⟨trivial, rfl, rfl⟩

/-- The token of a lexeme is well formed. -/
theorem Reads.wellFormed (reads : Reads policy text token) : token.WellFormed := by
  cases reads with
  | number => trivial
  | symbol found => exact (kind_of_symbol found).1
  | keyword letters found => exact (kind_of_keyword found).1
  | word letters other =>
    refine Or.inl ⟨?_, other⟩
    rwa [String.toList_ofList]
  | stray blank digit letter symbol => exact Or.inr ⟨_, rfl, blank, digit, letter, symbol⟩

/-- **The spelling of a well-formed token is a lexeme** that reads as the token. -/
theorem reads_spelling (wellFormed : token.WellFormed) (zeros : Nat) :
    Reads policy (token.spelling zeros) token := by
  cases token with
  | number value =>
    have digits : IsRun Char.isDigit (Token.spelling zeros (.number value)) :=
      ⟨by simp [Token.spelling, Nat.toDigits_ne_nil], fun c => Overflow.isDigit_of_mem_digits⟩
    have reads : Reads policy _ _ := .number digits
    rwa [Token.spelling, Overflow.ofDigits_toDigits] at reads
  | unknown text =>
    rcases wellFormed with ⟨letters, other⟩ | ⟨c, rfl, blank, digit, letter, symbol⟩
    · have reads : Reads policy text.toList (.unknown (String.ofList text.toList)) :=
        .word letters (by rwa [String.ofList_toList])
      rwa [String.ofList_toList] at reads
    · rw [Token.spelling, String.toList_singleton]
      exact .stray blank digit letter symbol
  | min | max | abs | sqr =>
    exact .keyword ⟨by simp [Token.spelling], by simp [Token.spelling]⟩ rfl
  | _ => exact .symbol rfl

/-! ## Tokens that clash -/

/-- The token of a lexeme is a number if the lexeme starts with a digit. -/
theorem isNumber_ofLexeme (policy : Overflow) (c : Char) (r : List Char) :
    (Token.ofLexeme policy c r).isNumber = c.isDigit := by
  by_cases digit : c.isDigit = true
  · rw [ofLexeme_of_isDigit digit, digit]
    rfl
  rw [Bool.not_eq_true] at digit
  rw [digit]
  rcases found : Token.ofSymbol? c with _ | symbol
  · rw [ofLexeme_of_not_symbol digit found, Token.ofWord]
    rcases word : Token.ofKeyword? (String.ofList (c :: r)) with _ | keyword
    · rfl
    · obtain ⟨-, number, -⟩ := kind_of_keyword word
      exact number
  · obtain ⟨-, number, -⟩ := kind_of_symbol found
    rw [ofLexeme_of_symbol found, number]

/-- The token of a lexeme is a word if the lexeme starts with a letter. -/
theorem isWord_ofLexeme (lexeme : IsLexeme c r) :
    (Token.ofLexeme policy c r).isWord = c.isAlpha := by
  by_cases letter : c.isAlpha = true
  · obtain ⟨-, letters⟩ := isRun_isAlpha_iff.mpr ⟨letter, lexeme.2⟩
    rw [ofLexeme_of_isAlpha letter, letter, Token.ofWord]
    rcases word : Token.ofKeyword? (String.ofList (c :: r)) with _ | keyword
    · simpa [Token.isWord] using letters
    · obtain ⟨-, -, isWord⟩ := kind_of_keyword word
      exact isWord
  rw [Bool.not_eq_true] at letter
  rw [letter]
  by_cases digit : c.isDigit = true
  · rw [ofLexeme_of_isDigit digit]
    rfl
  rw [Bool.not_eq_true] at digit
  obtain rfl := lexeme.rest_eq_nil digit letter
  rcases found : Token.ofSymbol? c with _ | symbol
  · rw [ofLexeme_of_not_symbol digit found, Token.ofWord, ofKeyword?_singleton]
    simp [Token.isWord, letter]
  · obtain ⟨-, -, isWord⟩ := kind_of_symbol found
    rw [ofLexeme_of_symbol found, isWord]

/-- **Tokens clash** if the lexemes that they are read from would be one. -/
theorem clash_ofLexeme_iff (lexeme : IsLexeme c r) (lexeme' : IsLexeme d s) :
    (Token.ofLexeme policy c r).Clash (Token.ofLexeme policy d s) ↔ joins c d = true := by
  rw [Token.Clash, isNumber_ofLexeme, isNumber_ofLexeme, isWord_ofLexeme lexeme,
    isWord_ofLexeme lexeme', joins_eq_true_iff]

/-! ## Rows of written tokens -/

/-- A well-formed token as it is written into a text: behind a gap, and with zeros in front if it
is a number. -/
structure Written where
  gap : List Char
  zeros : Nat
  token : Token
  isGap : IsGap gap
  wellFormed : token.WellFormed

namespace Written

/-- A token's spelling behind its gap. -/
def chars (w : Written) : List Char := w.gap ++ w.token.spelling w.zeros

/-- Whether a token may be written behind another: where they clash, something must stand
between. -/
def Apart (v w : Written) : Prop := v.token.Clash w.token → w.gap ≠ []

/-- The text of a row of written tokens, with a gap behind the last. -/
def row (ws : List Written) (last : List Char) : List Char := ws.flatMap chars ++ last

theorem row_cons (w : Written) (ws : List Written) (last : List Char) :
    row (w :: ws) last = w.chars ++ row ws last := by
  rw [row, row, List.flatMap_cons, List.append_assoc]

end Written

open Written (row row_cons)

variable {v w : Written} {ws : List Written} {last : List Char}

/-- A written token is a gap and a lexeme that reads as the token. -/
theorem Written.exists_lexeme (w : Written) : ∃ c r, w.chars = w.gap ++ c :: r ∧ IsLexeme c r ∧
    ∀ policy, w.token = Token.ofLexeme policy c r := by
  have reads : ∀ policy, Reads policy (w.token.spelling w.zeros) w.token :=
    fun policy => reads_spelling w.wellFormed w.zeros
  obtain ⟨c, r, spelled, lexeme, -⟩ := (reads .wrapping).exists_cons
  rw [spelled] at reads
  exact ⟨c, r, by rw [Written.chars, spelled], lexeme, fun policy => (reads_iff.mp (reads policy)).2⟩

/-- A text of one written token holds the token. -/
theorem scanFrom_chars (policy : Overflow) (w : Written) (here : Place) :
    (scanFrom policy here w.chars).map Spanned.token = [w.token] := by
  obtain ⟨c, r, chars, lexeme, token⟩ := w.exists_lexeme
  rw [chars, scanFrom_gap_append w.isGap, scanFrom_word lexeme, token policy]
  rfl

theorem length_scanFrom_chars (policy : Overflow) (w : Written) (here : Place) :
    (scanFrom policy here w.chars).length = 1 := by
  have tokens := congrArg List.length (scanFrom_chars policy w here)
  rwa [List.length_map, List.length_singleton] at tokens

/-- **A token may be written behind another** just where the lexeme of the other ends. -/
theorem apart_iff : v.Apart w ↔ ¬ Continues v.chars (row (w :: ws) last) := by
  obtain ⟨c, r, chars, lexeme, token⟩ := v.exists_lexeme
  obtain ⟨d, s, chars', lexeme', token'⟩ := w.exists_lexeme
  have text : row (w :: ws) last = w.gap ++ d :: s ++ row ws last := by
    rw [row_cons, chars']
  rw [text, chars, lexeme.not_continues_iff_ends, Written.Apart, token .wrapping, token' .wrapping,
    clash_ofLexeme_iff lexeme lexeme']
  rcases blanks : w.gap with _ | ⟨b, bs⟩
  · simp [ends_cons]
  · have blank : isBlank b = true := w.isGap b (by simp [blanks])
    simp [ends_cons, joins_of_isBlank blank]

/-- In a row of tokens that are apart, the lexeme of the first ends where the others start. -/
theorem not_continues_row (gap : IsGap last) (apart : (v :: ws).IsChain Written.Apart) :
    ¬ Continues v.chars (row ws last) := by
  cases ws with
  | nil => exact not_continues_gap gap
  | cons w ws => exact apart_iff.mp (List.isChain_cons_cons.mp apart).1

/-- **A row of written tokens is read back.** -/
theorem scanFrom_row (gap : IsGap last) (apart : ws.IsChain Written.Apart) (here : Place) :
    (scanFrom policy here (row ws last)).map Spanned.token = ws.map Written.token := by
  induction ws generalizing here with
  | nil => exact congrArg (List.map Spanned.token) (scanFrom_gap gap)
  | cons v ws ih =>
    rw [row_cons, scanFrom_append (not_continues_row gap apart), List.map_append, scanFrom_chars,
      ih apart.of_cons]
    rfl

/-- A row has no more tokens than were written. -/
theorem length_scanFrom_row_le (policy : Overflow) (gap : IsGap last) (ws : List Written)
    (here : Place) :
    (scanFrom policy here (row ws last)).length ≤ ws.length := by
  induction ws with
  | nil => exact (congrArg List.length (scanFrom_gap gap)).le
  | cons v ws ih =>
    have sum := length_scanFrom_append_le policy v.chars (row ws last) here here
    rw [length_scanFrom_chars] at sum
    rw [row_cons, List.length_cons]
    omega

/-- Where nothing stands between two tokens that clash, a token is lost. -/
theorem length_scanFrom_row_lt (policy : Overflow) (gap : IsGap last)
    (clash : ¬ ws.IsChain Written.Apart) (here : Place) :
    (scanFrom policy here (row ws last)).length < ws.length := by
  induction ws with
  | nil => exact absurd .nil clash
  | cons v ws ih =>
    rw [row_cons, List.length_cons]
    -- Either the first token goes on into the next, or the loss is among the others.
    by_cases joined : Continues v.chars (row ws last)
    · have sum := length_scanFrom_of_continues policy joined here here
      have others := length_scanFrom_row_le policy gap ws here
      rw [length_scanFrom_chars] at sum
      omega
    · have tail : ¬ ws.IsChain Written.Apart := by
        intro apart
        cases ws with
        | nil => exact clash (.singleton v)
        | cons w ws => exact clash (List.isChain_cons_cons.mpr ⟨apart_iff.mpr joined, apart⟩)
      have others := ih tail
      have sum := length_scanFrom_append_le policy v.chars (row ws last) here here
      rw [length_scanFrom_chars] at sum
      omega

/-- **A row of written tokens is read back** just where the tokens are apart. -/
theorem tokenize_row_iff (gap : IsGap last) : tokenize policy (String.ofList (row ws last)) =
    ws.map Written.token ↔ ws.IsChain Written.Apart := by
  rw [tokenize, scan, String.toList_ofList]
  constructor
  · intro read
    by_contra clash
    have fewer := length_scanFrom_row_lt policy gap clash .start
    have count := congrArg List.length read
    rw [List.length_map, List.length_map] at count
    omega
  · intro apart
    exact scanFrom_row gap apart .start

/-- Well-formed tokens can be written in a row, with a blank in front of each. -/
theorem exists_row {tokens : List Token} (wellFormed : ∀ token ∈ tokens, token.WellFormed) :
    ∃ ws : List Written, ws.map Written.token = tokens ∧ ws.IsChain Written.Apart := by
  have blank : IsGap [' '] := by simp [IsGap, isBlank]
  have spaced : ∃ ws : List Written, ws.map Written.token = tokens ∧ ∀ w ∈ ws, w.gap ≠ [] := by
    induction tokens with
    | nil => exact ⟨[], rfl, by simp⟩
    | cons token tokens ih =>
      obtain ⟨ws, rfl, gaps⟩ := ih fun t mem => wellFormed t (List.mem_cons_of_mem token mem)
      refine ⟨⟨[' '], 0, token, blank, wellFormed token List.mem_cons_self⟩ :: ws, rfl, ?_⟩
      simpa using gaps
  obtain ⟨ws, tokens, gaps⟩ := spaced
  refine ⟨ws, tokens, (List.pairwise_of_forall_mem_list fun v _ w mem => ?_).isChain⟩
  exact fun _ => gaps w mem

/-! ## The theorem -/

/-- **The tokens of texts are the well-formed tokens**, and a text that holds them can be written
in any way: with any zeros in front of the numbers and any gaps, as long as something stands
between tokens that clash. So it does not matter which blanks are between the tokens. -/
theorem tokenize_image (policy : Overflow) :
    (∀ tokens, (∃ text, tokenize policy text = tokens) ↔
      ∀ token ∈ tokens, token.WellFormed) ∧
    (∀ ws last, IsGap last →
      (tokenize policy (String.ofList (row ws last)) = ws.map Written.token ↔
        ws.IsChain Written.Apart)) ∧
    ∀ ws ws' last last', ws.IsChain Written.Apart → ws'.IsChain Written.Apart → IsGap last →
      IsGap last' → ws.map Written.token = ws'.map Written.token →
      tokenize policy (String.ofList (row ws last)) =
        tokenize policy (String.ofList (row ws' last')) := by
  refine ⟨fun tokens => ⟨?_, fun wellFormed => ?_⟩, fun ws last gap => tokenize_row_iff gap, ?_⟩
  · rintro ⟨text, rfl⟩ token mem
    obtain ⟨lexed, inside, rfl⟩ := List.mem_map.mp mem
    obtain ⟨_, _, _, _, reads, _⟩ := exists_of_mem_scanFrom inside
    exact reads.wellFormed
  · obtain ⟨ws, rfl, apart⟩ := exists_row wellFormed
    exact ⟨_, (tokenize_row_iff isGap_nil).mpr apart⟩
  · intro ws ws' last last' apart apart' gap gap' same
    rw [(tokenize_row_iff gap).mpr apart, (tokenize_row_iff gap').mpr apart', same]

/-- Two numbers, a keyword and a letter, with blanks only where they are needed. -/
theorem tokenize_image_numbers_and_words : ∃ ws : List Written,
    ws.IsChain Written.Apart ∧ IsGap ['\n'] ∧
    String.ofList (row ws ['\n']) = "007 3abs\tx\n" ∧
    tokenize .saturating "007 3abs\tx\n" = [.number 7, .number 3, .abs, .unknown "x"] := by
  have word : Token.WellFormed (.unknown "x") := Or.inl ⟨by simp [IsRun], rfl⟩
  have blank : IsGap [' '] ∧ IsGap ['\t'] ∧ IsGap ['\n'] := by simp [IsGap, isBlank]
  let ws : List Written := [⟨[], 2, .number 7, isGap_nil, trivial⟩,
    ⟨[' '], 0, .number 3, blank.1, trivial⟩, ⟨[], 0, .abs, isGap_nil, trivial⟩,
    ⟨['\t'], 0, .unknown "x", blank.2.1, word⟩]
  have apart : ws.IsChain Written.Apart := by
    simp [ws, Written.Apart, Token.Clash, Token.isNumber, Token.isWord, Token.isKeyword]
  have text : String.ofList (row ws ['\n']) = "007 3abs\tx\n" := rfl
  refine ⟨ws, apart, blank.2.2, text, ?_⟩
  rw [← text]
  exact ((tokenize_image .saturating).2.1 ws ['\n'] blank.2.2).mpr apart

end Scan

end ArithTokens
