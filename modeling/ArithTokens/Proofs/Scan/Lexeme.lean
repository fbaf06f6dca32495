import ArithTokens.Scan
import Mathlib.Data.List.TakeWhile

/-!
# Gaps and lexemes

A text is cut into **gaps**, which hold blanks only, and **lexemes**.

* `Reads` names the classes of lexemes, each with the token that its text determines. It says
  nothing of how a text is scanned;
* `IsLexeme` and `Ends` say the same by the first character alone, as the scan does: what belongs
  to the lexeme that a character started, and where it ends. `reads_iff` joins the two;
* `lexemeInduction` takes a text apart one lexeme at a time, and `scanFrom_gap` and
  `scanFrom_lexeme` are what a scan does at each step.
-/

namespace ArithTokens.Scan

variable {policy : Overflow} {c d : Char} {g r s t text : List Char} {token : Token}

/-! ## Character classes -/

theorem isBlank_eq_true_iff :
    isBlank c = true ↔ c = ' ' ∨ c = '\t' ∨ c = '\n' ∨ c = '\x0b' ∨ c = '\x0c' ∨ c = '\r' := by
  simp [isBlank, or_assoc]

theorem isAlpha_of_isDigit (digit : c.isDigit = true) : c.isAlpha = false := by
  have digits : (decide (48 ≤ c.val) && decide (c.val ≤ 57)) = true := digit
  have letters : (decide (65 ≤ c.val ∧ c.val ≤ 90) || decide (97 ≤ c.val) && decide (c.val ≤ 122)) =
      c.isAlpha := rfl
  rw [← letters]
  simp only [Bool.and_eq_true, decide_eq_true_eq, Bool.or_eq_false_iff, Bool.and_eq_false_iff,
    decide_eq_false_iff_not, UInt32.le_iff_toNat_le, UInt32.reduceToNat] at digits ⊢
  omega

theorem isDigit_of_isAlpha (letter : c.isAlpha = true) : c.isDigit = false := by
  by_contra digit
  rw [Bool.not_eq_false] at digit
  rw [isAlpha_of_isDigit digit] at letter
  cases letter

theorem not_isBlank_of_isDigit (digit : c.isDigit = true) : isBlank c = false := by
  by_contra blank
  rw [Bool.not_eq_false, isBlank_eq_true_iff] at blank
  rcases blank with rfl | rfl | rfl | rfl | rfl | rfl <;> cases digit

theorem not_isBlank_of_isAlpha (letter : c.isAlpha = true) : isBlank c = false := by
  by_contra blank
  rw [Bool.not_eq_false, isBlank_eq_true_iff] at blank
  rcases blank with rfl | rfl | rfl | rfl | rfl | rfl <;> cases letter

/-- A symbol is in no other class. -/
theorem class_of_symbol (found : Token.ofSymbol? c = some token) :
    isBlank c = false ∧ c.isDigit = false ∧ c.isAlpha = false := by
  unfold Token.ofSymbol? at found
  split at found <;> first | exact ⟨rfl, rfl, rfl⟩ | cases found

theorem joins_eq_true_iff : joins c d = true ↔
    (c.isDigit = true ∧ d.isDigit = true) ∨ (c.isAlpha = true ∧ d.isAlpha = true) := by
  simp [joins]

theorem joins_comm (c d : Char) : joins c d = joins d c := by
  simp [joins, Bool.and_comm]

theorem joins_of_isDigit (digit : c.isDigit = true) (d : Char) : joins c d = d.isDigit := by
  simp [joins, digit, isAlpha_of_isDigit digit]

theorem joins_of_isAlpha (letter : c.isAlpha = true) (d : Char) : joins c d = d.isAlpha := by
  simp [joins, letter, isDigit_of_isAlpha letter]

/-- What one of two joined characters joins, the other joins too. -/
theorem joins_congr (joined : joins c d = true) (e : Char) : joins c e = joins d e := by
  rcases joins_eq_true_iff.mp joined with ⟨hc, hd⟩ | ⟨hc, hd⟩
  · rw [joins_of_isDigit hc, joins_of_isDigit hd]
  · rw [joins_of_isAlpha hc, joins_of_isAlpha hd]

/-- No blank belongs to a lexeme. -/
theorem not_isBlank_of_joins (joined : joins c d = true) : isBlank d = false := by
  rcases joins_eq_true_iff.mp joined with ⟨-, digit⟩ | ⟨-, letter⟩
  · exact not_isBlank_of_isDigit digit
  · exact not_isBlank_of_isAlpha letter

theorem joins_of_isBlank (blank : isBlank d = true) (c : Char) : joins c d = false := by
  by_contra joined
  rw [not_isBlank_of_joins (Bool.not_eq_false _ ▸ joined)] at blank
  cases blank

/-! ## The classes of lexemes -/

/-- A stretch of blanks, or of nothing. -/
def IsGap (text : List Char) : Prop := ∀ c ∈ text, isBlank c = true

theorem isGap_nil : IsGap [] := List.forall_mem_nil _

/-- A run of characters of one class: at least one, and no others. -/
def IsRun (p : Char → Bool) (text : List Char) : Prop := text ≠ [] ∧ ∀ c ∈ text, p c = true

/-- **The classes of lexemes**, each with the token that the text of a lexeme determines. -/
inductive Reads (policy : Overflow) : List Char → Token → Prop where
  /-- A run of digits is a number. -/
  | number {text : List Char} (digits : IsRun Char.isDigit text) :
      Reads policy text (.number (policy.ofDigits text))
  /-- A symbol stands for itself. -/
  | symbol {c : Char} {token : Token} (found : Token.ofSymbol? c = some token) :
      Reads policy [c] token
  /-- A run of letters may be a keyword. -/
  | keyword {text : List Char} {token : Token} (letters : IsRun Char.isAlpha text)
      (found : Token.ofKeyword? (String.ofList text) = some token) : Reads policy text token
  /-- Every other run of letters is unknown as a whole. -/
  | word {text : List Char} (letters : IsRun Char.isAlpha text)
      (other : Token.ofKeyword? (String.ofList text) = none) :
      Reads policy text (.unknown (String.ofList text))
  /-- Every other character but a blank is unknown alone. -/
  | stray {c : Char} (blank : isBlank c = false) (digit : c.isDigit = false)
      (letter : c.isAlpha = false) (symbol : Token.ofSymbol? c = none) :
      Reads policy [c] (.unknown (String.singleton c))

/-- Two lexemes that would be one if they touched: both of digits or both of letters. -/
def Merges (s t : List Char) : Prop :=
  (IsRun Char.isDigit s ∧ IsRun Char.isDigit t) ∨ (IsRun Char.isAlpha s ∧ IsRun Char.isAlpha t)

/-! ## Lexemes by their first character -/

/-- Whether `c` starts a lexeme whose other characters are among `rest`. -/
def IsLexeme (c : Char) (rest : List Char) : Prop :=
  isBlank c = false ∧ ∀ d ∈ rest, joins c d = true

/-- Whether the lexeme that `c` started ends before `text`. -/
def Ends (c : Char) (text : List Char) : Prop := ∀ d ∈ text.head?, joins c d = false

theorem ends_nil (c : Char) : Ends c [] := by
  intro d first
  cases first

theorem ends_cons : Ends c (d :: t) ↔ joins c d = false := by
  simp [Ends]

/-- Only digits and letters are joined by others. -/
theorem IsLexeme.rest_eq_nil (lexeme : IsLexeme c r) (digit : c.isDigit = false)
    (letter : c.isAlpha = false) : r = [] := by
  rw [List.eq_nil_iff_forall_not_mem]
  intro d mem
  have := lexeme.2 d mem
  simp [joins, digit, letter] at this

theorem isRun_cons_iff {p : Char → Bool} (own : p c = true → ∀ d, joins c d = p d) :
    IsRun p (c :: r) ↔ p c = true ∧ ∀ d ∈ r, joins c d = true := by
  constructor
  · rintro ⟨-, all⟩
    have first := all c List.mem_cons_self
    exact ⟨first, fun d mem => (own first d).trans (all d (List.mem_cons_of_mem c mem))⟩
  · rintro ⟨first, joined⟩
    refine ⟨List.cons_ne_nil c r, fun d mem => ?_⟩
    rcases List.mem_cons.mp mem with rfl | mem
    · exact first
    · exact (own first d).symm.trans (joined d mem)

theorem isRun_isDigit_iff :
    IsRun Char.isDigit (c :: r) ↔ c.isDigit = true ∧ ∀ d ∈ r, joins c d = true :=
  isRun_cons_iff joins_of_isDigit

theorem isRun_isAlpha_iff :
    IsRun Char.isAlpha (c :: r) ↔ c.isAlpha = true ∧ ∀ d ∈ r, joins c d = true :=
  isRun_cons_iff joins_of_isAlpha

/-- Whether two lexemes would be one is seen from their first characters. -/
theorem merges_iff (left : IsLexeme c r) (right : IsLexeme d s) :
    Merges (c :: r) (d :: s) ↔ joins c d = true := by
  rw [Merges, isRun_isDigit_iff, isRun_isDigit_iff, isRun_isAlpha_iff, isRun_isAlpha_iff,
    joins_eq_true_iff, and_iff_left left.2, and_iff_left left.2, and_iff_left right.2,
    and_iff_left right.2]

/-! ## The token of a lexeme -/

/-- A lexeme of digits is a number. -/
theorem ofLexeme_of_isDigit (digit : c.isDigit = true) :
    Token.ofLexeme policy c r = .number (policy.ofDigits (c :: r)) := by
  rw [Token.ofLexeme, if_pos digit]

/-- A lexeme that starts with a symbol is the symbol's token. -/
theorem ofLexeme_of_symbol (found : Token.ofSymbol? c = some token) :
    Token.ofLexeme policy c r = token := by
  obtain ⟨-, digit, -⟩ := class_of_symbol found
  simp [Token.ofLexeme, digit, found]

theorem ofSymbol?_of_isAlpha (letter : c.isAlpha = true) : Token.ofSymbol? c = none := by
  rcases found : Token.ofSymbol? c with _ | token
  · rfl
  · obtain ⟨-, -, other⟩ := class_of_symbol found
    rw [letter] at other
    cases other

/-- Every other lexeme is a word. -/
theorem ofLexeme_of_not_symbol (digit : c.isDigit = false) (other : Token.ofSymbol? c = none) :
    Token.ofLexeme policy c r = Token.ofWord (String.ofList (c :: r)) := by
  simp [Token.ofLexeme, digit, other]

theorem ofLexeme_of_isAlpha (letter : c.isAlpha = true) :
    Token.ofLexeme policy c r = Token.ofWord (String.ofList (c :: r)) :=
  ofLexeme_of_not_symbol (isDigit_of_isAlpha letter) (ofSymbol?_of_isAlpha letter)

theorem ofKeyword?_eq_some_iff {word : String} : Token.ofKeyword? word = some token ↔
    (word = "abs" ∧ token = .abs) ∨ (word = "min" ∧ token = .min) ∨
      (word = "max" ∧ token = .max) ∨ (word = "sqr" ∧ token = .sqr) := by
  constructor
  · intro found
    unfold Token.ofKeyword? at found
    split at found <;> simp_all
  · rintro (⟨rfl, rfl⟩ | ⟨rfl, rfl⟩ | ⟨rfl, rfl⟩ | ⟨rfl, rfl⟩) <;> rfl

/-- No keyword has only one character. -/
theorem ofKeyword?_singleton (c : Char) : Token.ofKeyword? (String.ofList [c]) = none := by
  rw [Option.eq_none_iff_forall_ne_some]
  intro token found
  have short : (String.ofList [c]).length = 1 := by simp
  rcases ofKeyword?_eq_some_iff.mp found with ⟨h, -⟩ | ⟨h, -⟩ | ⟨h, -⟩ | ⟨h, -⟩ <;>
    rw [h] at short <;> cases short

/-- **A lexeme is of one class**, and its token is the one that its first character decides. -/
theorem reads_iff :
    Reads policy (c :: r) token ↔ IsLexeme c r ∧ token = Token.ofLexeme policy c r := by
  constructor
  · intro reads
    cases reads with
    | number digits =>
      obtain ⟨digit, joined⟩ := isRun_isDigit_iff.mp digits
      exact ⟨⟨not_isBlank_of_isDigit digit, joined⟩, (ofLexeme_of_isDigit digit).symm⟩
    | symbol found =>
      obtain ⟨blank, -, -⟩ := class_of_symbol found
      exact ⟨⟨blank, by simp⟩, (ofLexeme_of_symbol found).symm⟩
    | keyword letters found =>
      obtain ⟨letter, joined⟩ := isRun_isAlpha_iff.mp letters
      rw [ofLexeme_of_isAlpha letter, Token.ofWord, found]
      exact ⟨⟨not_isBlank_of_isAlpha letter, joined⟩, rfl⟩
    | word letters other =>
      obtain ⟨letter, joined⟩ := isRun_isAlpha_iff.mp letters
      rw [ofLexeme_of_isAlpha letter, Token.ofWord, other]
      exact ⟨⟨not_isBlank_of_isAlpha letter, joined⟩, rfl⟩
    | stray blank digit letter symbol =>
      rw [ofLexeme_of_not_symbol digit symbol, Token.ofWord, ofKeyword?_singleton]
      exact ⟨⟨blank, by simp⟩, rfl⟩
  · rintro ⟨lexeme, rfl⟩
    by_cases digit : c.isDigit = true
    · rw [ofLexeme_of_isDigit digit]
      exact .number (isRun_isDigit_iff.mpr ⟨digit, lexeme.2⟩)
    rw [Bool.not_eq_true] at digit
    -- Letters are told apart by the table of keywords, and what is left by the table of symbols.
    by_cases letter : c.isAlpha = true
    · have letters := isRun_isAlpha_iff.mpr ⟨letter, lexeme.2⟩
      rw [ofLexeme_of_isAlpha letter, Token.ofWord]
      rcases found : Token.ofKeyword? (String.ofList (c :: r)) with _ | token
      · exact .word letters found
      · exact .keyword letters found
    rw [Bool.not_eq_true] at letter
    obtain rfl := lexeme.rest_eq_nil digit letter
    rcases found : Token.ofSymbol? c with _ | token
    · rw [ofLexeme_of_not_symbol digit found, Token.ofWord, ofKeyword?_singleton]
      exact .stray lexeme.1 digit letter found
    · rw [ofLexeme_of_symbol found]
      exact .symbol found

/-- Nothing is no lexeme. -/
theorem Reads.exists_cons (reads : Reads policy text token) :
    ∃ c r, text = c :: r ∧ IsLexeme c r ∧ token = Token.ofLexeme policy c r := by
  have some : text ≠ [] := by
    cases reads with
    | number digits => exact digits.1
    | symbol => simp
    | keyword letters => exact letters.1
    | word letters => exact letters.1
    | stray => simp
  obtain ⟨c, r, rfl⟩ := List.exists_cons_of_ne_nil some
  exact ⟨c, r, rfl, reads_iff.mp reads⟩

/-! ## The scan, one lexeme at a time -/

theorem takeWhile_exact {p : Char → Bool} (all : ∀ c ∈ s, p c = true)
    (stop : ∀ d ∈ t.head?, p d = false) : (s ++ t).takeWhile p = s := by
  rw [List.takeWhile_append_of_pos all]
  cases t with
  | nil => simp
  | cons d t => simp [stop d rfl]

theorem dropWhile_exact {p : Char → Bool} (all : ∀ c ∈ s, p c = true)
    (stop : ∀ d ∈ t.head?, p d = false) : (s ++ t).dropWhile p = t := by
  rw [List.dropWhile_append_of_pos all]
  cases t with
  | nil => simp
  | cons d t => simp [stop d rfl]

/-- A text starts in one way only with characters of a class and, behind them, no more of them. -/
theorem append_inj_of_class {p : Char → Bool} {s' t' : List Char} (all : ∀ c ∈ s, p c = true)
    (all' : ∀ c ∈ s', p c = true) (stop : ∀ d ∈ t.head?, p d = false)
    (stop' : ∀ d ∈ t'.head?, p d = false) (same : s ++ t = s' ++ t') : s = s' ∧ t = t' := by
  have front := congrArg (List.takeWhile p) same
  rw [takeWhile_exact all stop, takeWhile_exact all' stop'] at front
  subst front
  exact ⟨rfl, List.append_cancel_left same⟩

/-- A text starts in one way only with a gap and a lexeme. -/
theorem gap_lexeme_inj {g' r' t' : List Char} (gap : IsGap g) (gap' : IsGap g')
    (lexeme : IsLexeme c r) (lexeme' : IsLexeme d r') (ends : Ends c t) (ends' : Ends d t')
    (same : g ++ c :: r ++ t = g' ++ d :: r' ++ t') : g = g' ∧ c = d ∧ r = r' ∧ t = t' := by
  have stop : ∀ e ∈ (c :: (r ++ t)).head?, isBlank e = false := by simp [lexeme.1]
  have stop' : ∀ e ∈ (d :: (r' ++ t')).head?, isBlank e = false := by simp [lexeme'.1]
  rw [List.append_assoc, List.append_assoc, List.cons_append, List.cons_append] at same
  obtain ⟨rfl, words⟩ := append_inj_of_class gap gap' stop stop' same
  obtain ⟨rfl, rest⟩ := List.cons.inj words
  obtain ⟨rfl, rfl⟩ := append_inj_of_class lexeme.2 lexeme'.2 ends ends' rest
  exact ⟨rfl, rfl, rfl, rfl⟩

theorem scanFrom_gap {here : Place} (gap : IsGap g) : scanFrom policy here g = [] := by
  have ahead : g.dropWhile isBlank = [] := List.dropWhile_eq_nil_iff.mpr gap
  rw [scanFrom]
  split
  · rfl
  · rename_i more
    rw [ahead] at more
    cases more

/-- A scan gives the token of the first lexeme and goes on behind it. -/
theorem scanFrom_lexeme {here : Place} (gap : IsGap g) (lexeme : IsLexeme c r) (ends : Ends c t) :
    scanFrom policy here (g ++ c :: r ++ t) =
      ⟨.ofLexeme policy c r, (here.after g).spanTo (here.after (g ++ c :: r))⟩ ::
        scanFrom policy (here.after (g ++ c :: r)) t := by
  have stop : ∀ d ∈ (c :: (r ++ t)).head?, isBlank d = false := by
    simp [lexeme.1]
  rw [List.append_assoc, List.cons_append, scanFrom]
  split
  · rename_i ahead
    rw [dropWhile_exact gap stop] at ahead
    cases ahead
  · rename_i c' cs ahead
    rw [dropWhile_exact gap stop, List.cons.injEq] at ahead
    obtain ⟨rfl, rfl⟩ := ahead
    rw [takeWhile_exact gap stop, takeWhile_exact lexeme.2 ends, dropWhile_exact lexeme.2 ends,
      Place.after_append]

/-- A character that is no blank starts a lexeme. -/
theorem exists_lexeme (first : isBlank c = false) (text : List Char) :
    ∃ r t, text = r ++ t ∧ IsLexeme c r ∧ Ends c t := by
  refine ⟨text.takeWhile (joins c), text.dropWhile (joins c),
    List.takeWhile_append_dropWhile.symm, ⟨first, fun d mem => List.mem_takeWhile_imp mem⟩, ?_⟩
  intro d mem
  have stop := List.head?_dropWhile_not (joins c) text
  rw [Option.mem_def.mp mem] at stop
  simpa using stop

/-- **A text is a gap, or a gap, a lexeme and a text before which the lexeme ends.** -/
@[elab_as_elim]
theorem lexemeInduction {motive : List Char → Prop} (gap : ∀ g, IsGap g → motive g)
    (lexeme : ∀ g c r t, IsGap g → IsLexeme c r → Ends c t → motive t →
      motive (g ++ c :: r ++ t)) (text : List Char) : motive text := by
  induction length : text.length using Nat.strong_induction_on generalizing text with
  | _ n ih =>
    -- The blanks in front are the gap; what is behind them is shorter by at least one character.
    have split : text.takeWhile isBlank ++ text.dropWhile isBlank = text :=
      List.takeWhile_append_dropWhile
    have blanks : IsGap (text.takeWhile isBlank) := fun c mem => List.mem_takeWhile_imp mem
    have stop := List.head?_dropWhile_not isBlank text
    rcases ahead : text.dropWhile isBlank with _ | ⟨c, cs⟩
    · rw [ahead, List.append_nil] at split
      rw [split] at blanks
      exact gap text blanks
    · rw [ahead] at split stop
      obtain ⟨r, t, rfl, word, ends⟩ := exists_lexeme (by simpa using stop) cs
      have shorter : t.length < n := by
        rw [← length, ← split]
        simp
        omega
      rw [← split, ← List.cons_append, ← List.append_assoc]
      exact lexeme _ c r t blanks word ends (ih _ shorter t rfl)

/-- A token of a scan stands where its lexeme stands in the text. -/
theorem exists_of_mem_scanFrom {here : Place} {lexed : Spanned}
    (mem : lexed ∈ scanFrom policy here text) :
    ∃ before word behind, text = before ++ word ++ behind ∧ Reads policy word lexed.token ∧
      lexed.span = (here.after before).spanTo (here.after (before ++ word)) := by
  induction text using lexemeInduction generalizing here with
  | gap g gap =>
    rw [scanFrom_gap gap] at mem
    cases mem
  | lexeme g c r t gap lexeme ends ih =>
    rw [scanFrom_lexeme gap lexeme ends] at mem
    rcases List.mem_cons.mp mem with rfl | mem
    · exact ⟨g, c :: r, t, rfl, reads_iff.mpr ⟨lexeme, rfl⟩, rfl⟩
    · obtain ⟨before, word, behind, rfl, reads, span⟩ := ih mem
      refine ⟨g ++ c :: r ++ before, word, behind, by simp, reads, ?_⟩
      simp only [span, Place.after_append]

end ArithTokens.Scan
