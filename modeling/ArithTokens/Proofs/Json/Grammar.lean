import ArithTokens.Proofs.Scan.Lexeme

/-!
# The grammar of JSON texts

What a text of characters stands for is said as the grammar of RFC 8259 says it, rule by rule.

* `IsNumeral` and `Spells` are the numbers and the characters of strings. A numeral stands for
  itself, so that no digit of it is lost;
* `Denotes` are the values, and `Encodes` the values with blanks around them. Both say which
  characters may be **blanks** between the parts: the four of JSON, or none in a compact text;
* a text stands for **one value at most** (`Encodes.unique`), whoever reads it.

The two halves of a surrogate pair are read together. A half that stands alone is no character, and
a string with one stands for no text; all other JSON texts are covered.
-/

namespace ArithTokens.Json

open Scan (IsRun append_inj_of_class)

/-- A JSON value. The members of an object are kept in order. -/
inductive Value where
  | null
  | boolean (value : Bool)
  | number (numeral : List Char)
  | text (value : String)
  | array (items : List Value)
  | object (members : List (String × Value))

/-- The four blanks of JSON. -/
def isBlank (c : Char) : Bool := c = ' ' || c = '\t' || c = '\n' || c = '\r'

/-- The blanks of a compact text: none. -/
def noBlank (_ : Char) : Bool := false

/-! ## Numbers -/

/-- The part of a number in front of the point: without zeros in front, unless it is zero. -/
def IsWhole (s : List Char) : Prop := s = ['0'] ∨ IsRun Char.isDigit s ∧ s.head? ≠ some '0'

/-- The part of a number from the point on, which may be left out. -/
def IsFraction (s : List Char) : Prop := s = [] ∨ ∃ digits, s = '.' :: digits ∧ IsRun Char.isDigit digits

/-- The exponent of a number, which may be left out. -/
def IsExponent (s : List Char) : Prop :=
  s = [] ∨ ∃ e sign digits, s = e :: (sign ++ digits) ∧ (e = 'e' ∨ e = 'E') ∧
    (sign = [] ∨ sign = ['+'] ∨ sign = ['-']) ∧ IsRun Char.isDigit digits

/-- The numerals. -/
inductive IsNumeral : List Char → Prop where
  | parts {sign whole fraction exponent : List Char} (negative : sign = [] ∨ sign = ['-'])
      (whole' : IsWhole whole) (fraction' : IsFraction fraction) (exponent' : IsExponent exponent) :
      IsNumeral (sign ++ whole ++ fraction ++ exponent)

/-! ## Strings -/

/-- The value of a hexadecimal digit. -/
def hexValue? (c : Char) : Option Nat :=
  if c.isDigit then some (c.toNat - '0'.toNat)
  else if 'a' ≤ c ∧ c ≤ 'f' then some (c.toNat - 'a'.toNat + 10)
  else if 'A' ≤ c ∧ c ≤ 'F' then some (c.toNat - 'A'.toNat + 10)
  else none

/-- The value of four hexadecimal digits. -/
def unit? (a b c d : Char) : Option Nat := do
  return (((← hexValue? a) * 16 + (← hexValue? b)) * 16 + (← hexValue? c)) * 16 + (← hexValue? d)

/-- The value of a unit that stands for a character by itself. -/
def IsWholeUnit (n : Nat) : Prop := n < 0xd800 ∨ 0xe000 ≤ n

instance (n : Nat) : Decidable (IsWholeUnit n) := inferInstanceAs (Decidable (_ ∨ _))

/-- The character of two units that stand for one together. -/
def joinUnits (high low : Nat) : Char :=
  Char.ofNat (0x10000 + (high - 0xd800) * 0x400 + (low - 0xdc00))

/-- The characters that a backslash and one more character stand for. -/
def shortForms : List (Char × Char) :=
  [('"', '"'), ('\\', '\\'), ('/', '/'), ('b', '\x08'), ('f', '\x0c'), ('n', '\n'), ('r', '\r'),
    ('t', '\t')]

/-- **How a character may be written** inside a string. -/
inductive Spells : List Char → Char → Prop where
  | plain {c : Char} (printed : 0x20 ≤ c.toNat) (quote : c ≠ '"') (backslash : c ≠ '\\') :
      Spells [c] c
  | short {e c : Char} (listed : (e, c) ∈ shortForms) : Spells ['\\', e] c
  | unit {a b c d : Char} {n : Nat} (value : unit? a b c d = some n) (whole : IsWholeUnit n) :
      Spells ['\\', 'u', a, b, c, d] (Char.ofNat n)
  | pair {a b c d e f g h : Char} {m n : Nat} (high : unit? a b c d = some m)
      (upper : 0xd800 ≤ m ∧ m < 0xdc00) (low : unit? e f g h = some n)
      (lower : 0xdc00 ≤ n ∧ n < 0xe000) :
      Spells ['\\', 'u', a, b, c, d, '\\', 'u', e, f, g, h] (joinUnits m n)

/-- How a text may be written between the quotes of a string. -/
inductive SpellsAll : List Char → List Char → Prop where
  | nil : SpellsAll [] []
  | cons {s rest text : List Char} {c : Char} (first : Spells s c) (others : SpellsAll rest text) :
      SpellsAll (s ++ rest) (c :: text)

/-! ## Values -/

/-- A stretch of blanks, or of nothing. -/
def IsGap (blank : Char → Bool) (s : List Char) : Prop := ∀ c ∈ s, blank c = true

/-- **The inside of a list**: entries with a comma between each two, and gaps around them. -/
inductive Listed (blank : Char → Bool) : List Char → List (List Char) → Prop where
  | none {gap : List Char} (blanks : IsGap blank gap) : Listed blank gap []
  | last {front entry back : List Char} (before : IsGap blank front) (behind : IsGap blank back) :
      Listed blank (front ++ entry ++ back) [entry]
  | more {front entry back rest next : List Char} {entries : List (List Char)}
      (before : IsGap blank front) (behind : IsGap blank back)
      (others : Listed blank rest (next :: entries)) :
      Listed blank (front ++ entry ++ back ++ ',' :: rest) (entry :: next :: entries)

/-- A member of an object as it is written: its name, a colon between gaps, and its value. -/
structure Member where
  spelling : List Char
  name : List Char
  before : List Char
  behind : List Char
  chars : List Char
  value : Value

namespace Member

/-- The characters of a member. -/
def text (m : Member) : List Char :=
  '"' :: (m.spelling ++ '"' :: (m.before ++ ':' :: (m.behind ++ m.chars)))

/-- Whether a member's name is spelled as it is written, and its gaps are gaps. -/
structure Fits (blank : Char → Bool) (m : Member) : Prop where
  spelled : SpellsAll m.spelling m.name
  before : IsGap blank m.before
  behind : IsGap blank m.behind

end Member

/-- The values that are words. -/
def words : List (List Char × Value) :=
  [(['n', 'u', 'l', 'l'], .null), (['t', 'r', 'u', 'e'], .boolean true),
    (['f', 'a', 'l', 's', 'e'], .boolean false)]

/-- **What a text denotes**, where some characters may stand as blanks between its parts. -/
inductive Denotes (blank : Char → Bool) : List Char → Value → Prop where
  | word {s : List Char} {v : Value} (listed : (s, v) ∈ words) : Denotes blank s v
  | number {s : List Char} (numeral : IsNumeral s) : Denotes blank s (.number s)
  | text {s text : List Char} (spelled : SpellsAll s text) :
      Denotes blank ('"' :: (s ++ ['"'])) (.text (String.ofList text))
  | array {inside : List Char} {items : List (List Char × Value)}
      (listed : Listed blank inside (items.map Prod.fst))
      (denote : ∀ item ∈ items, Denotes blank item.1 item.2) :
      Denotes blank ('[' :: (inside ++ [']'])) (.array (items.map Prod.snd))
  | object {inside : List Char} {members : List Member}
      (listed : Listed blank inside (members.map Member.text))
      (fit : ∀ m ∈ members, m.Fits blank) (denote : ∀ m ∈ members, Denotes blank m.chars m.value) :
      Denotes blank ('\x7b' :: (inside ++ ['\x7d']))
        (.object (members.map fun m => (String.ofList m.name, m.value)))

/-- **What a whole text encodes**: the value between the gaps at its ends. -/
def Encodes (blank : Char → Bool) (s : List Char) (v : Value) : Prop :=
  ∃ front chars back, s = front ++ chars ++ back ∧ IsGap blank front ∧ IsGap blank back ∧
    Denotes blank chars v

/-! ## More blanks -/

section Mono

variable {blank blank' : Char → Bool} {s : List Char} {v : Value}

theorem IsGap.mono (more : ∀ c, blank c = true → blank' c = true) (gap : IsGap blank s) :
    IsGap blank' s :=
  fun c mem => more c (gap c mem)

theorem Listed.mono (more : ∀ c, blank c = true → blank' c = true) {entries : List (List Char)}
    (listed : Listed blank s entries) : Listed blank' s entries := by
  induction listed with
  | none blanks => exact .none (blanks.mono more)
  | last before behind => exact .last (before.mono more) (behind.mono more)
  | more before behind _ ih => exact .more (before.mono more) (behind.mono more) ih

theorem Denotes.mono (more : ∀ c, blank c = true → blank' c = true) (denotes : Denotes blank s v) :
    Denotes blank' s v := by
  induction denotes with
  | word listed => exact .word listed
  | number numeral => exact .number numeral
  | text spelled => exact .text spelled
  | array listed _ ih => exact .array (listed.mono more) ih
  | object listed fit _ ih =>
    refine .object (listed.mono more) (fun m mem => ?_) ih
    obtain ⟨spelled, before, behind⟩ := fit m mem
    exact ⟨spelled, before.mono more, behind.mono more⟩

/-- A text with few blanks stands for the same if more characters may be blanks. -/
theorem Encodes.mono (more : ∀ c, blank c = true → blank' c = true) (encodes : Encodes blank s v) :
    Encodes blank' s v := by
  obtain ⟨front, chars, back, split, gap, gap', denotes⟩ := encodes
  exact ⟨front, chars, back, split, gap.mono more, gap'.mono more, denotes.mono more⟩

end Mono

/-! ## One value at most

Two readings of one text are compared from its front: each part ends where the other reading of it
ends, whatever may follow. Only a number may be followed by what could belong to it; so what
follows must **stop** numbers. -/

section Unique

variable {s s' t t' : List Char} {c c' : Char} {v v' : Value}

/-- The characters of numerals. -/
def inNumeral (c : Char) : Bool := c.isDigit || c = '-' || c = '+' || c = '.' || c = 'e' || c = 'E'

/-- Whether a text begins with nothing that could belong to a number. -/
def Stops (t : List Char) : Prop := ∀ c ∈ t.head?, inNumeral c = false

theorem stops_nil : Stops [] := by
  intro c first
  cases first

theorem stops_cons (other : inNumeral c = false) : Stops (c :: t) := by
  intro d first
  obtain rfl : c = d := Option.some.inj first
  exact other

theorem isBlank_eq_true_iff : isBlank c = true ↔ c = ' ' ∨ c = '\t' ∨ c = '\n' ∨ c = '\r' := by
  simp [isBlank, or_assoc]

theorem inNumeral_of_isBlank (blank : isBlank c = true) : inNumeral c = false := by
  rcases isBlank_eq_true_iff.mp blank with rfl | rfl | rfl | rfl <;> rfl

theorem stops_gap {gap : List Char} (blanks : IsGap isBlank gap) (stops : Stops t) :
    Stops (gap ++ t) := by
  cases gap with
  | nil => exact stops
  | cons c gap => exact stops_cons (inNumeral_of_isBlank (blanks c List.mem_cons_self))

/-- Two gaps end together where no blank follows. -/
theorem gap_inj {g g' : List Char} (gap : IsGap isBlank g) (gap' : IsGap isBlank g')
    (solid : isBlank c = false) (solid' : isBlank c' = false)
    (same : g ++ c :: t = g' ++ c' :: t') : g = g' ∧ c = c' ∧ t = t' := by
  obtain ⟨rfl, rest⟩ := append_inj_of_class gap gap' (by simp [solid]) (by simp [solid']) same
  obtain ⟨rfl, rfl⟩ := List.cons.inj rest
  exact ⟨rfl, rfl, rfl⟩

/-! ### Numbers -/

theorem inNumeral_of_isRun (run : IsRun Char.isDigit s) : ∀ c ∈ s, inNumeral c = true := by
  intro c mem
  simp [inNumeral, run.2 c mem]

theorem IsNumeral.inNumeral (numeral : IsNumeral s) : ∀ c ∈ s, inNumeral c = true := by
  obtain ⟨sign, whole, fraction, exponent⟩ := numeral
  intro c mem
  rcases List.mem_append.mp mem with front | last
  · rcases List.mem_append.mp front with front | middle
    · rcases List.mem_append.mp front with first | second
      · rcases sign with rfl | rfl
        · cases first
        · rw [List.mem_singleton.mp first]
          rfl
      · rcases whole with rfl | ⟨run, -⟩
        · rw [List.mem_singleton.mp second]
          rfl
        · exact inNumeral_of_isRun run c second
    · rcases fraction with rfl | ⟨digits, rfl, run⟩
      · cases middle
      · rcases List.mem_cons.mp middle with rfl | mem
        · rfl
        · exact inNumeral_of_isRun run c mem
  · rcases exponent with rfl | ⟨e, sign, digits, rfl, mark, signs, run⟩
    · cases last
    · rcases List.mem_cons.mp last with rfl | mem
      · rcases mark with rfl | rfl <;> rfl
      · rcases List.mem_append.mp mem with mem | mem
        · rcases signs with rfl | rfl | rfl
          · cases mem
          · rw [List.mem_singleton.mp mem]
            rfl
          · rw [List.mem_singleton.mp mem]
            rfl
        · exact inNumeral_of_isRun run c mem

/-- A numeral begins with a minus or a digit. -/
theorem IsNumeral.exists_cons (numeral : IsNumeral s) :
    ∃ c r, s = c :: r ∧ (c = '-' ∨ c.isDigit = true) := by
  obtain ⟨sign, whole, -, -⟩ := numeral
  have digit : ∀ {whole : List Char}, IsWhole whole →
      ∃ c r, whole = c :: r ∧ c.isDigit = true := by
    rintro whole (rfl | ⟨run, -⟩)
    · exact ⟨'0', [], rfl, rfl⟩
    · obtain ⟨c, r, rfl⟩ := List.exists_cons_of_ne_nil run.1
      exact ⟨c, r, rfl, run.2 c List.mem_cons_self⟩
  obtain ⟨c, r, rfl, first⟩ := digit whole
  rcases sign with rfl | rfl
  · exact ⟨c, _, rfl, Or.inr first⟩
  · exact ⟨'-', _, rfl, Or.inl rfl⟩

/-! ### Strings -/

/-- The character with which the rest of a string begins, and what is behind it. -/
def readChar? : List Char → Option (Char × List Char)
  | [] => none
  | '\\' :: 'u' :: a :: b :: c :: d :: rest => do
    let m ← unit? a b c d
    if IsWholeUnit m then
      return (Char.ofNat m, rest)
    else
      match rest with
      | '\\' :: 'u' :: e :: f :: g :: h :: rest => return (joinUnits m (← unit? e f g h), rest)
      | _ => none
  | '\\' :: e :: rest => (shortForms.lookup e).map fun c => (c, rest)
  | c :: rest => some (c, rest)

/-- Any spelling of a character is read as the character, and no more of the string with it. -/
theorem Spells.readChar?_append (spells : Spells s c) (t : List Char) :
    readChar? (s ++ t) = some (c, t) := by
  cases spells with
  | plain printed quote backslash => simp [readChar?, backslash]
  | short listed =>
    simp only [shortForms, List.mem_cons, Prod.mk.injEq, List.not_mem_nil, or_false] at listed
    rcases listed with ⟨rfl, rfl⟩ | ⟨rfl, rfl⟩ | ⟨rfl, rfl⟩ | ⟨rfl, rfl⟩ | ⟨rfl, rfl⟩ | ⟨rfl, rfl⟩ |
      ⟨rfl, rfl⟩ | ⟨rfl, rfl⟩ <;> rfl
  | unit value whole => simp [readChar?, value, whole]
  | pair high upper low lower =>
    have half : ∀ {m}, 0xd800 ≤ m ∧ m < 0xdc00 → ¬ IsWholeUnit m := by
      intro m upper whole
      rw [IsWholeUnit] at whole
      omega
    simp [readChar?, high, low, half upper]

/-- **No spelling of a character is the beginning of another.** -/
theorem Spells.unique (spells : Spells s c) (spells' : Spells s' c') (same : s ++ t = s' ++ t') :
    s = s' ∧ c = c' ∧ t = t' := by
  have read := spells.readChar?_append t
  rw [same, spells'.readChar?_append t', Option.some.injEq, Prod.mk.injEq] at read
  obtain ⟨rfl, rfl⟩ := read
  exact ⟨List.append_cancel_right same, rfl, rfl⟩

/-- No spelling begins with a quote. -/
theorem Spells.exists_cons (spells : Spells s c) : ∃ d r, s = d :: r ∧ d ≠ '"' := by
  cases spells with
  | plain printed quote backslash => exact ⟨c, [], rfl, quote⟩
  | short | unit | pair => exact ⟨'\\', _, rfl, by decide⟩

/-- A string ends at its first quote, and stands for one text. -/
theorem SpellsAll.unique {text text' : List Char} (spelled : SpellsAll s text)
    (spelled' : SpellsAll s' text') (same : s ++ '"' :: t = s' ++ '"' :: t') :
    s = s' ∧ text = text' ∧ t = t' := by
  have quote : ∀ {s rest u v : List Char} {c : Char}, Spells s c →
      s ++ rest ++ u ≠ '"' :: v := by
    intro s rest u v c spells same
    obtain ⟨d, r, rfl, other⟩ := spells.exists_cons
    exact other (List.cons.inj same).1
  induction spelled generalizing s' text' with
  | nil =>
    cases spelled' with
    | nil => exact ⟨rfl, rfl, (List.cons.inj same).2⟩
    | cons first others => exact absurd same.symm (quote first)
  | cons first others ih =>
    cases spelled' with
    | nil => exact absurd same (quote first)
    | cons first' others' =>
      rw [List.append_assoc, List.append_assoc] at same
      obtain ⟨rfl, rfl, rest⟩ := first.unique first' same
      obtain ⟨rfl, rfl, rfl⟩ := ih others' rest
      exact ⟨rfl, rfl, rfl⟩

/-! ### Lists -/

/-- Whether a character ends a list. -/
def Closes (c : Char) : Prop := c = ']' ∨ c = '\x7d'

theorem Closes.solid (closes : Closes c) : isBlank c = false ∧ inNumeral c = false ∧ c ≠ ',' := by
  rcases closes with rfl | rfl <;> exact ⟨rfl, rfl, by decide⟩

/-- Whether a text begins as an entry of a list does, with no blank and no end of the list. -/
def Opens (entry : List Char) : Prop := ∃ c r, entry = c :: r ∧ isBlank c = false ∧ ¬ Closes c

/-- Whether two entries end together, whatever they are followed by. -/
def EndTogether (entry entry' : List Char) : Prop :=
  ∀ u u', Stops u → Stops u' → entry ++ u = entry' ++ u' → entry = entry' ∧ u = u'

variable {front front' entry entry' : List Char}

/-- A list does not end where an entry begins. -/
theorem gap_closes_ne (gap : IsGap isBlank front) (closes : Closes c)
    (gap' : IsGap isBlank front') (opens : Opens entry) :
    front ++ c :: t ≠ front' ++ (entry ++ t') := by
  intro same
  obtain ⟨d, r, rfl, solid, other⟩ := opens
  obtain ⟨-, rfl, -⟩ := gap_inj gap gap' closes.solid.1 solid same
  exact other closes

/-- Entries behind gaps end together. -/
theorem EndTogether.gap_inj (together : EndTogether entry entry') (gap : IsGap isBlank front)
    (gap' : IsGap isBlank front') (opens : Opens entry) (opens' : Opens entry') (stops : Stops t)
    (stops' : Stops t') (same : front ++ (entry ++ t) = front' ++ (entry' ++ t')) :
    front = front' ∧ entry = entry' ∧ t = t' := by
  obtain ⟨c, r, rfl, solid, -⟩ := opens
  obtain ⟨c', r', rfl, solid', -⟩ := opens'
  obtain ⟨rfl, rfl, rest⟩ := Json.gap_inj gap gap' solid solid' same
  obtain ⟨entries, rest⟩ := together t t' stops stops' (congrArg (c :: ·) rest)
  exact ⟨rfl, entries, rest⟩

/-- **Lists of the same characters have the same entries.** -/
theorem Listed.unique {inside inside' : List Char} {entries entries' : List (List Char)}
    (closes : Closes c) (listed : Listed isBlank inside entries)
    (listed' : Listed isBlank inside' entries') (opens : ∀ entry ∈ entries, Opens entry)
    (opens' : ∀ entry ∈ entries', Opens entry)
    (together : ∀ entry ∈ entries, ∀ entry' ∈ entries', EndTogether entry entry')
    (same : inside ++ c :: t = inside' ++ c :: t') :
    inside = inside' ∧ entries = entries' ∧ t = t' := by
  obtain ⟨solid, stop, other⟩ := closes.solid
  have comma : isBlank ',' = false := rfl
  -- Behind an entry stands a gap, and then the end of the list or a comma.
  have stops : ∀ {back u : List Char} {d : Char}, inNumeral d = false → IsGap isBlank back →
      Stops (back ++ d :: u) := by
    intro back u d other gap
    exact stops_gap gap (stops_cons other)
  induction listed generalizing inside' entries' with
  | none blanks =>
    cases listed' with
    | none blanks' =>
      obtain ⟨rfl, -, rfl⟩ := gap_inj blanks blanks' solid solid same
      exact ⟨rfl, rfl, rfl⟩
    | last before' | more before' =>
      simp only [List.append_assoc] at same
      exact absurd same (gap_closes_ne blanks closes before' (opens' _ List.mem_cons_self))
  | last before behind =>
    have first := opens _ List.mem_cons_self
    have together := together _ List.mem_cons_self
    simp only [List.append_assoc] at same
    cases listed' with
    | none blanks' => exact absurd same.symm (gap_closes_ne blanks' closes before first)
    | last before' behind' =>
      simp only [List.append_assoc] at same
      obtain ⟨rfl, rfl, rest⟩ := (together _ List.mem_cons_self).gap_inj before before' first
        (opens' _ List.mem_cons_self) (stops stop behind) (stops stop behind') same
      obtain ⟨rfl, -, rfl⟩ := gap_inj behind behind' solid solid rest
      exact ⟨rfl, rfl, rfl⟩
    | more before' behind' =>
      simp only [List.append_assoc] at same
      obtain ⟨-, -, rest⟩ := (together _ List.mem_cons_self).gap_inj before before' first
        (opens' _ List.mem_cons_self) (stops stop behind) (stops rfl behind') same
      obtain ⟨-, same, -⟩ := gap_inj behind behind' solid comma rest
      exact absurd same other
  | more before behind others ih =>
    have first := opens _ List.mem_cons_self
    have firsts := together _ List.mem_cons_self
    simp only [List.append_assoc] at same
    cases listed' with
    | none blanks' => exact absurd same.symm (gap_closes_ne blanks' closes before first)
    | last before' behind' =>
      simp only [List.append_assoc] at same
      obtain ⟨-, -, rest⟩ := (firsts _ List.mem_cons_self).gap_inj before before' first
        (opens' _ List.mem_cons_self) (stops rfl behind) (stops stop behind') same
      obtain ⟨-, same, -⟩ := gap_inj behind behind' comma solid rest
      exact absurd same.symm other
    | more before' behind' others' =>
      simp only [List.append_assoc] at same
      obtain ⟨rfl, rfl, rest⟩ := (firsts _ List.mem_cons_self).gap_inj before before' first
        (opens' _ List.mem_cons_self) (stops rfl behind) (stops rfl behind') same
      obtain ⟨rfl, -, rest⟩ := gap_inj behind behind' comma comma rest
      obtain ⟨rfl, entries, rfl⟩ := ih others' (List.forall_mem_cons.mp opens).2
        (List.forall_mem_cons.mp opens').2
        (fun entry mem => (List.forall_mem_cons.mp (together entry (List.mem_cons_of_mem _ mem))).2)
        rest
      exact ⟨rfl, congrArg _ entries, rfl⟩

/-! ### Values -/

/-- The kinds of values. -/
inductive Kind where
  | word
  | number
  | text
  | array
  | object

/-- The kind of a value. -/
def Value.kind : Value → Kind
  | .null | .boolean _ => .word
  | .number _ => .number
  | .text _ => .text
  | .array _ => .array
  | .object _ => .object

/-- The kind of the values that a character begins. -/
def Kind.ofFirst (c : Char) : Kind :=
  if c = '"' then .text
  else if c = '[' then .array
  else if c = '\x7b' then .object
  else if c = '-' || c.isDigit then .number
  else .word

/-- The first character of a value tells its kind, and may begin an entry of a list. -/
theorem Denotes.exists_cons {blank : Char → Bool} (denotes : Denotes blank s v) :
    ∃ c r, s = c :: r ∧ Kind.ofFirst c = v.kind ∧ isBlank c = false ∧ ¬ Closes c := by
  cases denotes with
  | word listed =>
    simp only [words, List.mem_cons, Prod.mk.injEq, List.not_mem_nil, or_false] at listed
    rcases listed with ⟨rfl, rfl⟩ | ⟨rfl, rfl⟩ | ⟨rfl, rfl⟩ <;>
      exact ⟨_, _, rfl, rfl, rfl, by simp [Closes]⟩
  | number numeral =>
    obtain ⟨c, r, rfl, rfl | digit⟩ := numeral.exists_cons
    · exact ⟨'-', r, rfl, rfl, rfl, by simp [Closes]⟩
    · have others : ∀ d : Char, d.isDigit = false → c ≠ d := by
        rintro d other rfl
        rw [digit] at other
        cases other
      refine ⟨c, r, rfl, ?_, ?_, ?_⟩
      · simp [Kind.ofFirst, digit, others '"' rfl, others '[' rfl, others '\x7b' rfl, Value.kind]
      · simp [isBlank, others ' ' rfl, others '\t' rfl, others '\n' rfl, others '\r' rfl]
      · simp [Closes, others ']' rfl, others '\x7d' rfl]
  | text | array | object => exact ⟨_, _, rfl, rfl, rfl, by simp [Closes]⟩

theorem Denotes.opens {blank : Char → Bool} (denotes : Denotes blank s v) : Opens s := by
  obtain ⟨c, r, rfl, -, opens⟩ := denotes.exists_cons
  exact ⟨c, r, rfl, opens⟩

theorem kind_of_mem_words (listed : (s, v) ∈ words) : v.kind = .word := by
  simp only [words, List.mem_cons, Prod.mk.injEq, List.not_mem_nil, or_false] at listed
  rcases listed with ⟨-, rfl⟩ | ⟨-, rfl⟩ | ⟨-, rfl⟩ <;> rfl

theorem words_unique (listed : (s, v) ∈ words) (listed' : (s', v') ∈ words)
    (same : s ++ t = s' ++ t') : s = s' ∧ v = v' ∧ t = t' := by
  simp only [words, List.mem_cons, Prod.mk.injEq, List.not_mem_nil, or_false] at listed listed'
  rcases listed with ⟨rfl, rfl⟩ | ⟨rfl, rfl⟩ | ⟨rfl, rfl⟩ <;>
    rcases listed' with ⟨rfl, rfl⟩ | ⟨rfl, rfl⟩ | ⟨rfl, rfl⟩ <;> simp_all

/-- Members end together where their values do. -/
theorem Member.endTogether {m m' : Member} (fits : m.Fits isBlank) (fits' : m'.Fits isBlank)
    (opens : Opens m.chars) (opens' : Opens m'.chars)
    (stops : Stops t) (stops' : Stops t') (together : EndTogether m.chars m'.chars)
    (same : m.text ++ t = m'.text ++ t') :
    m.text = m'.text ∧ m.name = m'.name ∧ m.chars = m'.chars ∧ t = t' := by
  have colon : isBlank ':' = false := rfl
  simp only [Member.text, List.cons_append, List.append_assoc, List.cons.injEq, true_and] at same ⊢
  obtain ⟨spelling, name, rest⟩ := fits.spelled.unique fits'.spelled same
  obtain ⟨before, -, rest⟩ := gap_inj fits.before fits'.before colon colon rest
  obtain ⟨behind, chars, rest⟩ :=
    together.gap_inj fits.behind fits'.behind opens opens' stops stops' rest
  exact ⟨by rw [spelling, before, behind, chars], name, chars, rest⟩

/-- Two rows that agree in one thing agree in all that it tells. -/
theorem map_eq_map_of_imp {α β γ : Type} {f : α → β} {g : α → γ} {as bs : List α}
    (same : as.map f = bs.map f) (tells : ∀ a ∈ as, ∀ b ∈ bs, f a = f b → g a = g b) :
    as.map g = bs.map g := by
  induction as generalizing bs with
  | nil =>
    obtain rfl := List.map_eq_nil_iff.mp same.symm
    rfl
  | cons a as ih =>
    obtain ⟨b, bs, rfl, first, rest⟩ := List.map_eq_cons_iff.mp same.symm
    have others := ih rest.symm fun a mem b mem' =>
      tells a (List.mem_cons_of_mem _ mem) b (List.mem_cons_of_mem _ mem')
    rw [List.map_cons, List.map_cons, others,
      tells a List.mem_cons_self b List.mem_cons_self first.symm]

/-- Two values of the same characters are of one kind. -/
theorem Denotes.kind_eq (denotes : Denotes isBlank s v) (denotes' : Denotes isBlank s' v')
    (same : s ++ t = s' ++ t') : v.kind = v'.kind := by
  obtain ⟨c, r, rfl, kind, -⟩ := denotes.exists_cons
  obtain ⟨c', r', rfl, kind', -⟩ := denotes'.exists_cons
  obtain ⟨rfl, -⟩ := List.cons.inj same
  rw [← kind, ← kind']

/-- **No text of a value is the beginning of another**, and it denotes one value. -/
theorem Denotes.unique (denotes : Denotes isBlank s v) (denotes' : Denotes isBlank s' v')
    (stops : Stops t) (stops' : Stops t') (same : s ++ t = s' ++ t') :
    s = s' ∧ v = v' ∧ t = t' := by
  induction denotes generalizing s' v' t t' with
  | word listed =>
    have kinds := (Denotes.word listed).kind_eq denotes' same
    rw [kind_of_mem_words listed] at kinds
    cases denotes' with
    | word listed' => exact words_unique listed listed' same
    | number | text | array | object => cases kinds
  | number numeral =>
    have kinds := (Denotes.number numeral).kind_eq denotes' same
    cases denotes' with
    | word listed' => exact absurd (kinds.trans (kind_of_mem_words listed')) nofun
    | number numeral' =>
      obtain ⟨rfl, rfl⟩ := append_inj_of_class numeral.inNumeral numeral'.inNumeral stops stops' same
      exact ⟨rfl, rfl, rfl⟩
    | text | array | object => cases kinds
  | text spelled =>
    have kinds := (Denotes.text spelled).kind_eq denotes' same
    cases denotes' with
    | word listed' => exact absurd (kinds.trans (kind_of_mem_words listed')) nofun
    | text spelled' =>
      simp only [List.cons_append, List.append_assoc, List.cons.injEq, true_and] at same
      obtain ⟨rfl, rfl, rfl⟩ := spelled.unique spelled' same
      exact ⟨rfl, rfl, rfl⟩
    | number | array | object => cases kinds
  | @array inside items listed denote ih =>
    have kinds := (Denotes.array listed denote).kind_eq denotes' same
    cases denotes' with
    | word listed' => exact absurd (kinds.trans (kind_of_mem_words listed')) nofun
    | @array inside' items' listed' denote' =>
      simp only [List.cons_append, List.append_assoc, List.cons.injEq, true_and] at same
      have together : ∀ item ∈ items, ∀ item' ∈ items', ∀ u u', Stops u → Stops u' →
          item.1 ++ u = item'.1 ++ u' → item.1 = item'.1 ∧ item.2 = item'.2 ∧ u = u' :=
        fun item mem item' mem' u u' => ih item mem (denote' item' mem')
      obtain ⟨rfl, entries, rfl⟩ := listed.unique (Or.inl rfl) listed'
        (List.forall_mem_map.mpr fun item mem => (denote item mem).opens)
        (List.forall_mem_map.mpr fun item mem => (denote' item mem).opens)
        (List.forall_mem_map.mpr fun item mem => List.forall_mem_map.mpr fun item' mem' => by
          intro u u' stop stop' same
          obtain ⟨chars, -, rest⟩ := together item mem item' mem' u u' stop stop' same
          exact ⟨chars, rest⟩) same
      refine ⟨rfl, congrArg Value.array (map_eq_map_of_imp entries ?_), rfl⟩
      intro item mem item' mem' chars
      exact (together item mem item' mem' [] [] stops_nil stops_nil (by rw [chars])).2.1
    | number | text | object => cases kinds
  | @object inside members listed fit denote ih =>
    have kinds := (Denotes.object listed fit denote).kind_eq denotes' same
    cases denotes' with
    | word listed' => exact absurd (kinds.trans (kind_of_mem_words listed')) nofun
    | @object inside' members' listed' fit' denote' =>
      simp only [List.cons_append, List.append_assoc, List.cons.injEq, true_and] at same
      have values : ∀ m ∈ members, ∀ m' ∈ members', ∀ u u', Stops u → Stops u' →
          m.chars ++ u = m'.chars ++ u' → m.chars = m'.chars ∧ m.value = m'.value ∧ u = u' :=
        fun m mem m' mem' u u' => ih m mem (denote' m' mem')
      have together : ∀ m ∈ members, ∀ m' ∈ members', ∀ u u', Stops u → Stops u' →
          m.text ++ u = m'.text ++ u' →
            m.text = m'.text ∧ m.name = m'.name ∧ m.chars = m'.chars ∧ u = u' := by
        intro m mem m' mem' u u' stop stop' same
        refine Member.endTogether (fit m mem) (fit' m' mem') (denote m mem).opens
          (denote' m' mem').opens stop stop' ?_ same
        intro u u' stop stop' same
        obtain ⟨chars, -, rest⟩ := values m mem m' mem' u u' stop stop' same
        exact ⟨chars, rest⟩
      have opens : ∀ m : Member, Opens m.text :=
        fun m => ⟨'"', _, rfl, rfl, by simp [Closes]⟩
      obtain ⟨rfl, entries, rfl⟩ := listed.unique (Or.inr rfl) listed'
        (List.forall_mem_map.mpr fun m _ => opens m) (List.forall_mem_map.mpr fun m _ => opens m)
        (List.forall_mem_map.mpr fun m mem => List.forall_mem_map.mpr fun m' mem' => by
          intro u u' stop stop' same
          obtain ⟨text, -, -, rest⟩ := together m mem m' mem' u u' stop stop' same
          exact ⟨text, rest⟩) same
      refine ⟨rfl, congrArg Value.object (map_eq_map_of_imp entries ?_), rfl⟩
      intro m mem m' mem' text
      obtain ⟨-, name, chars, -⟩ :=
        together m mem m' mem' [] [] stops_nil stops_nil (by rw [text])
      obtain ⟨-, value, -⟩ := values m mem m' mem' [] [] stops_nil stops_nil (by rw [chars])
      rw [name, value]
    | number | text | array => cases kinds

/-- **A text encodes one value at most.** -/
theorem Encodes.unique (encodes : Encodes isBlank s v) (encodes' : Encodes isBlank s v') :
    v = v' := by
  obtain ⟨front, chars, back, rfl, gap, blanks, denotes⟩ := encodes
  obtain ⟨front', chars', back', same, gap', blanks', denotes'⟩ := encodes'
  have stops : ∀ {back}, IsGap isBlank back → Stops back := by
    intro back blanks
    have stops := stops_gap blanks stops_nil
    rwa [List.append_nil] at stops
  have together : EndTogether chars chars' := by
    intro u u' stop stop' same
    obtain ⟨chars, -, rest⟩ := denotes.unique denotes' stop stop' same
    exact ⟨chars, rest⟩
  rw [List.append_assoc, List.append_assoc] at same
  obtain ⟨-, rfl, -⟩ := together.gap_inj gap gap' denotes.opens denotes'.opens (stops blanks)
    (stops blanks') same
  exact (denotes.unique denotes' stops_nil stops_nil rfl).2.1

end Unique

end ArithTokens.Json
