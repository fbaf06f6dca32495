import ArithTokens.Proofs.Command.Repl
import Mathlib.Data.List.Forall2

/-!
# Reading lines of text back

The lines of text that are written of a text's tokens tell the tokens.

* a **line** tells its token, and the place of the token if it is written (`Spanned.lineBytes_inj`);
* the tokens of a text are written in **one line each**, none of them empty (`rendered_lines`), so
  that they are found by splitting the output at its line feeds (`splitLines_endLines`) and reading
  each line back (`alike_of_lineBytes`);
* an **empty line** can then only divide the tokens of one input line from those of the next
  (`groups_inj`), so that those of each input line are found, too (`alike_of_groups`).

All of this needs tokens that come of a text: an unknown token of any other text could hold line
feeds.
-/

namespace ArithTokens

open Feed (lineFeed splitLines)

/-! ## One line -/

/-- Two texts are the same if they are up to the first time a character stands in each. -/
theorem Text.append_cons_inj_of_not_mem {c : Char} {s s' t t' : List Char} (front : c ∉ s)
    (front' : c ∉ s') (same : s ++ c :: t = s' ++ c :: t') : s = s' ∧ t = t' := by
  have others : ∀ {u : List Char}, c ∉ u → ∀ d ∈ u, (d != c) = true := by
    intro u free d mem
    rw [bne_iff_ne]
    rintro rfl
    exact free mem
  have stop : ∀ {u : List Char}, ∀ d ∈ (c :: u).head?, (d != c) = false := by simp
  obtain ⟨rfl, rest⟩ := Scan.append_inj_of_class (others front) (others front') stop stop same
  exact ⟨rfl, (List.cons.inj rest).2⟩

/-- A number is read back from its digits. -/
theorem toDigits_inj {m n : Nat} (same : Nat.toDigits 10 m = Nat.toDigits 10 n) : m = n := by
  calc m
    _ = Nat.ofDigitChars 10 (Nat.toDigits 10 m) 0 := Nat.ofDigitChars_ten_toDigits.symm
    _ = Nat.ofDigitChars 10 (Nat.toDigits 10 n) 0 := by rw [same]
    _ = n := Nat.ofDigitChars_ten_toDigits

/-- What is written of a span tells its line and column. -/
theorem Span.describe_inj {s t : Span} (same : s.describe = t.describe) :
    s.line = t.line ∧ s.column = t.column := by
  have free : ∀ n : Nat, ':' ∉ Nat.toDigits 10 n := by
    intro n mem
    exact absurd (Nat.isDigit_of_mem_toDigits (by decide) (by decide) mem) (by decide)
  have chars := congrArg String.toList same
  simp only [describe_eq, String.toList_append, String.reduceToList, Nat.toList_repr,
    List.append_assoc, List.singleton_append] at chars
  obtain ⟨line, column⟩ := Text.append_cons_inj_of_not_mem (free _) (free _) chars
  exact ⟨UInt32.toNat_inj.mp (toDigits_inj line), UInt32.toNat_inj.mp (toDigits_inj column)⟩

namespace Token

theorem describe_of_mem_valueless {token : Token} (mem : token ∈ valueless) :
    token.describe = token.name ++ "Token" ∧ ' ' ∉ token.describe.toList := by
  have all : ∀ token ∈ valueless,
      token.describe = token.name ++ "Token" ∧ ' ' ∉ token.describe.toList := by decide
  exact all token mem

/-- **A token's line of text tells the token.** -/
theorem describe_inj {s t : Token} (same : s.describe = t.describe) : s = t := by
  have number : ∀ value, ' ' ∈ (describe (.number value)).toList := by simp [describe]
  have unknown : ∀ text, ' ' ∈ (describe (.unknown text)).toList := by simp [describe]
  have differ : ∀ value text, describe (.number value) ≠ describe (.unknown text) := by
    intro value text same
    have first := congrArg (fun line => line.toList.head?) same
    simp [describe] at first
  rcases s.kinds with ⟨value, rfl⟩ | ⟨text, rfl⟩ | mem <;>
    rcases t.kinds with ⟨value', rfl⟩ | ⟨text', rfl⟩ | mem'
  case inl.inl =>
    rw [describe, describe, String.append_right_inj, ← String.toList_inj, Nat.toList_repr,
      Nat.toList_repr] at same
    rw [UInt64.toNat_inj.mp (toDigits_inj same)]
  case inl.inr.inl => exact absurd same (differ value text')
  case inl.inr.inr => exact absurd (number value) (same ▸ (describe_of_mem_valueless mem').2)
  case inr.inl.inl => exact absurd same.symm (differ value' text)
  case inr.inl.inr.inl =>
    rw [describe, describe, String.append_right_inj] at same
    rw [same]
  case inr.inl.inr.inr => exact absurd (unknown text) (same ▸ (describe_of_mem_valueless mem').2)
  case inr.inr.inl => exact absurd (number value') (same ▸ (describe_of_mem_valueless mem).2)
  case inr.inr.inr.inl => exact absurd (unknown text') (same ▸ (describe_of_mem_valueless mem).2)
  case inr.inr.inr.inr =>
    rw [(describe_of_mem_valueless mem).1, (describe_of_mem_valueless mem').1,
      String.append_left_inj] at same
    have found := ofName?_name mem
    rw [same, ofName?_name mem'] at found
    exact (Option.some.inj found).symm

end Token

namespace Spanned

/-- A token's line of text without the line feed that ends it. -/
def lineBytes (spans : Bool) (lexed : Spanned) : List UInt8 :=
  Text.bytesOf ((if spans then lexed.span.describe ++ "\t" else "") ++ lexed.token.describe)

variable {spans : Bool} {lexed other : Spanned}

theorem bytesOf_line (spans : Bool) (lexed : Spanned) :
    Text.bytesOf (lexed.line spans) = lexed.lineBytes spans ++ [lineFeed] := by
  have ending : Text.bytesOf "\n" = [lineFeed] := rfl
  cases spans <;> simp [line, lineBytes, ending]

theorem lineBytes_ne_nil (spans : Bool) (lexed : Spanned) : lexed.lineBytes spans ≠ [] := by
  rw [lineBytes, Text.bytesOf_append]
  exact List.append_ne_nil_of_right_ne_nil _ lexed.token.bytesOf_describe_ne_nil

theorem lineFeed_not_mem_lineBytes (wellFormed : lexed.token.WellFormed) (spans : Bool) :
    lineFeed ∉ lexed.lineBytes spans := by
  refine lineFeed_not_mem_bytesOf ?_
  rw [String.toList_append, List.mem_append, not_or]
  refine ⟨?_, Token.lineFeed_not_mem_describe wellFormed⟩
  intro mem
  cases spans with
  | false => simp at mem
  | true =>
    rcases List.mem_append.mp (String.toList_append ▸ mem) with place | tab
    · exact absurd (Span.mem_describe place) (by decide)
    · exact absurd tab (by decide)

/-- **A line tells its token**, and the line and column of the token if they are written. -/
theorem lineBytes_inj (same : lexed.lineBytes spans = other.lineBytes spans) :
    lexed.token = other.token ∧
      (spans = true → lexed.span.line = other.span.line ∧ lexed.span.column = other.span.column) := by
  have texts := Text.bytesOf_inj same
  cases spans with
  | false => exact ⟨Token.describe_inj (by simpa using texts), by simp⟩
  | true =>
    have free : ∀ span : Span, '\t' ∉ span.describe.toList := by
      intro span mem
      exact absurd (Span.mem_describe mem) (by decide)
    have chars := congrArg String.toList texts
    simp only [if_true, String.toList_append, String.reduceToList, List.append_assoc,
      List.singleton_append] at chars
    obtain ⟨place, token⟩ := Text.append_cons_inj_of_not_mem (free _) (free _) chars
    exact ⟨Token.describe_inj (String.toList_inj.mp token),
      fun _ => Span.describe_inj (String.toList_inj.mp place)⟩

end Spanned

/-! ## All lines of a text -/

/-- Lines, each with the line feed that ends it. -/
def endLines (lines : List (List UInt8)) : List UInt8 := lines.flatMap (· ++ [lineFeed])

theorem endLines_cons (line : List UInt8) (lines : List (List UInt8)) :
    endLines (line :: lines) = line ++ lineFeed :: endLines lines := by
  simp [endLines]

theorem splitLines_endLines {lines : List (List UInt8)} (free : ∀ line ∈ lines, lineFeed ∉ line) :
    splitLines (endLines lines) = (lines, []) := by
  induction lines with
  | nil => rfl
  | cons line lines ih =>
    rw [endLines_cons, Feed.splitLines_line (free line List.mem_cons_self),
      ih fun other mem => free other (List.mem_cons_of_mem line mem)]

theorem count_endLines {lines : List (List UInt8)} (free : ∀ line ∈ lines, lineFeed ∉ line) :
    (endLines lines).count lineFeed = lines.length := by
  induction lines with
  | nil => rfl
  | cons line lines ih =>
    have first := List.count_eq_zero.mpr (free line List.mem_cons_self)
    rw [endLines_cons, List.count_append, List.count_cons_self, first,
      ih fun other mem => free other (List.mem_cons_of_mem line mem), List.length_cons]
    omega

/-- Lines with an empty line between each two groups of them. -/
theorem endLines_intercalate (groups : List (List (List UInt8))) :
    endLines ([[]].intercalate groups) = [lineFeed].intercalate (groups.map endLines) := by
  induction groups with
  | nil => rfl
  | cons group groups ih =>
    rcases groups with _ | ⟨next, groups⟩
    · simp
    · rw [List.intercalate_cons_cons, List.map_cons, List.map_cons, List.intercalate_cons_cons,
        ← List.map_cons, ← ih]
      simp [endLines]

theorem mem_intercalate_nil {groups : List (List (List UInt8))} {line : List UInt8}
    (mem : line ∈ [[]].intercalate groups) : line = [] ∨ ∃ group ∈ groups, line ∈ group := by
  induction groups with
  | nil => cases mem
  | cons group groups ih =>
    rcases groups with _ | ⟨next, groups⟩
    · exact Or.inr ⟨group, List.mem_cons_self, by simpa using mem⟩
    · rw [List.intercalate_cons_cons, List.append_assoc, List.mem_append, List.mem_append] at mem
      rcases mem with first | divider | others
      · exact Or.inr ⟨group, List.mem_cons_self, first⟩
      · exact Or.inl (List.mem_singleton.mp divider)
      · rcases ih others with empty | ⟨other, mem, inside⟩
        · exact Or.inl empty
        · exact Or.inr ⟨other, List.mem_cons_of_mem group mem, inside⟩

namespace Command

/-- Whether two lists of tokens are the same, with their lines and columns if these are asked for. -/
def Alike (spans : Bool) (tokens tokens' : List Spanned) : Prop :=
  tokens.map Spanned.token = tokens'.map Spanned.token ∧
    (spans = true → tokens.map (fun lexed => (lexed.span.line, lexed.span.column)) =
      tokens'.map (fun lexed => (lexed.span.line, lexed.span.column)))

variable {spans : Bool} {policy policy' : Overflow} {tokens tokens' : List Spanned}

/-- What is written of some tokens is a line for each. -/
theorem rendered_lines (spans : Bool) (tokens : List Spanned) :
    rendered ⟨.text, spans⟩ tokens = endLines (tokens.map (Spanned.lineBytes spans)) := by
  induction tokens with
  | nil => rfl
  | cons lexed tokens ih =>
    rw [rendered, render] at ih ⊢
    rw [List.map_cons, List.map_cons, Event.written, ih, Spanned.bytesOf_line, List.map_cons,
      endLines_cons, List.append_assoc, List.singleton_append]

theorem alike_of_lineBytes
    (same : tokens.map (Spanned.lineBytes spans) = tokens'.map (Spanned.lineBytes spans)) :
    Alike spans tokens tokens' := by
  induction tokens generalizing tokens' with
  | nil =>
    obtain rfl := List.map_eq_nil_iff.mp same.symm
    exact ⟨rfl, fun _ => rfl⟩
  | cons lexed tokens ih =>
    obtain ⟨other, others, rfl, line, lines⟩ := List.map_eq_cons_iff.mp same.symm
    obtain ⟨token, place⟩ := Spanned.lineBytes_inj line
    obtain ⟨rest, places⟩ := ih lines.symm
    refine ⟨by rw [List.map_cons, List.map_cons, token, rest], fun asked => ?_⟩
    obtain ⟨line, column⟩ := place asked
    rw [List.map_cons, List.map_cons, line, column, places asked]

theorem lineFeed_not_mem_line (policy : Overflow) (text : String) :
    ∀ line ∈ (scan policy text).map (Spanned.lineBytes spans), lineFeed ∉ line := by
  intro line mem
  obtain ⟨lexed, inside, rfl⟩ := List.mem_map.mp mem
  exact Spanned.lineFeed_not_mem_lineBytes (wellFormed_of_mem_scan inside) spans

/-! ## The lines of several texts -/

/-- The lines that are written for the tokens of each line of an input. -/
def groups (spans : Bool) (policy : Overflow) (feed : Feed) : List (List (List UInt8)) :=
  (feed.lines.map (lineTokens policy)).map (List.map (Spanned.lineBytes spans))

variable {feed feed' : Feed}

/-- What is written of an input read line by line: the lines of each group, with an empty line
between those of two. -/
theorem taken_repl_groups (spans : Bool) (policy : Overflow) (feed : Feed) :
    ((repl ⟨⟨.text, spans⟩, policy⟩ feed).deliver none).taken =
      endLines ([[]].intercalate (groups spans policy feed)) := by
  have lines : rendered ⟨.text, spans⟩ = endLines ∘ List.map (Spanned.lineBytes spans) :=
    funext fun tokens => rendered_lines spans tokens
  rw [taken_repl, endLines_intercalate, lines, ← List.map_map]
  rfl

theorem lineFeed_not_mem_groups :
    ∀ line ∈ [[]].intercalate (groups spans policy feed), lineFeed ∉ line := by
  intro line mem
  rcases mem_intercalate_nil mem with rfl | ⟨group, found, inside⟩
  · exact List.not_mem_nil
  · obtain ⟨tokens, listed, rfl⟩ := List.mem_map.mp found
    obtain ⟨bytes, -, rfl⟩ := List.mem_map.mp listed
    exact lineFeed_not_mem_line policy _ line inside

theorem nil_not_mem_group : ∀ group ∈ groups spans policy feed, [] ∉ group := by
  intro group mem none
  obtain ⟨tokens, -, rfl⟩ := List.mem_map.mp mem
  obtain ⟨lexed, -, empty⟩ := List.mem_map.mp none
  exact Spanned.lineBytes_ne_nil spans lexed empty

/-- **An empty line can only divide two groups**, so that the output tells them apart, once it is
known how many there are. -/
theorem groups_inj (count : feed.lines.length = feed'.lines.length)
    (same : ((repl ⟨⟨.text, spans⟩, policy⟩ feed).deliver none).taken =
      ((repl ⟨⟨.text, spans⟩, policy'⟩ feed').deliver none).taken) :
    groups spans policy feed = groups spans policy' feed' := by
  rw [taken_repl_groups, taken_repl_groups] at same
  have split := congrArg splitLines same
  rw [splitLines_endLines lineFeed_not_mem_groups, splitLines_endLines lineFeed_not_mem_groups,
    Prod.mk.injEq] at split
  have sizes : (groups spans policy feed).length = (groups spans policy' feed').length := by
    simp only [groups, List.length_map, count]
  by_cases none : groups spans policy feed = []
  · rw [none] at sizes ⊢
    exact (List.length_eq_zero_iff.mp sizes.symm).symm
  · have some : groups spans policy' feed' ≠ [] := by
      intro empty
      rw [empty] at sizes
      exact none (List.length_eq_zero_iff.mp sizes)
    have read := List.splitOn_intercalate [] nil_not_mem_group none
    rw [split.1, List.splitOn_intercalate [] nil_not_mem_group some] at read
    exact read.symm

theorem alike_of_groups {blocks blocks' : List (List Spanned)}
    (same : blocks.map (List.map (Spanned.lineBytes spans)) =
      blocks'.map (List.map (Spanned.lineBytes spans))) :
    List.Forall₂ (Alike spans) blocks blocks' := by
  induction blocks generalizing blocks' with
  | nil =>
    obtain rfl := List.map_eq_nil_iff.mp same.symm
    exact .nil
  | cons block blocks ih =>
    obtain ⟨other, others, rfl, first, rest⟩ := List.map_eq_cons_iff.mp same.symm
    exact .cons (alike_of_lineBytes first.symm) (ih rest.symm)

/-- The line count that is returned is that of the input. -/
theorem length_lines_of_outcome {settings : Settings} {n : Nat}
    (done : ((repl settings feed).deliver none).outcome = .ok n) : feed.lines.length = n := by
  rw [Transcript.deliver, (Event.deliver_none _ _).2, repl] at done
  dsimp only at done
  split at done
  · cases done
  · exact Except.ok.inj done

/-! ## The theorem -/

/-- **Lines of text tell the tokens of a text.** Each token is written in one line that is not
empty, and no other line feed is written; and what is written of two texts, under any policies, is
the same only if their tokens are, with their lines and columns if these are written, too. Of an
input read line by line, what is written and the number of lines that is returned tell the tokens
of every line. -/
theorem text_tells_tokens (spans : Bool) (policy policy' : Overflow) :
    (∀ text, ∃ lines, rendered ⟨.text, spans⟩ (scan policy text) = endLines lines ∧
      lines.length = (scan policy text).length ∧ (∀ line ∈ lines, line ≠ [] ∧ lineFeed ∉ line) ∧
      (rendered ⟨.text, spans⟩ (scan policy text)).count lineFeed = (scan policy text).length) ∧
    (∀ text text', rendered ⟨.text, spans⟩ (scan policy text) =
        rendered ⟨.text, spans⟩ (scan policy' text') →
      Alike spans (scan policy text) (scan policy' text')) ∧
    ∀ feed feed' n, ((repl ⟨⟨.text, spans⟩, policy⟩ feed).deliver none).outcome = .ok n →
      ((repl ⟨⟨.text, spans⟩, policy'⟩ feed').deliver none).outcome = .ok n →
      ((repl ⟨⟨.text, spans⟩, policy⟩ feed).deliver none).taken =
        ((repl ⟨⟨.text, spans⟩, policy'⟩ feed').deliver none).taken →
      List.Forall₂ (Alike spans) (feed.lines.map (lineTokens policy))
        (feed'.lines.map (lineTokens policy')) := by
  refine ⟨?_, ?_, ?_⟩
  · intro text
    have free : ∀ line ∈ (scan policy text).map (Spanned.lineBytes spans), lineFeed ∉ line :=
      lineFeed_not_mem_line policy text
    refine ⟨_, rendered_lines spans _, List.length_map _, ?_, ?_⟩
    · intro line mem
      obtain ⟨lexed, -, rfl⟩ := List.mem_map.mp mem
      exact ⟨lexed.lineBytes_ne_nil spans, free _ mem⟩
    · rw [rendered_lines, count_endLines free, List.length_map]
  · intro text text' same
    rw [rendered_lines, rendered_lines] at same
    have split := congrArg splitLines same
    rw [splitLines_endLines (lineFeed_not_mem_line policy text),
      splitLines_endLines (lineFeed_not_mem_line policy' text'), Prod.mk.injEq] at split
    exact alike_of_lineBytes split.1
  · intro feed feed' n done done' same
    have count := (length_lines_of_outcome done).trans (length_lines_of_outcome done').symm
    exact alike_of_groups (groups_inj count same)

/-- Two inputs of three lines, the second of which holds no token. -/
theorem text_tells_tokens_blank_line :
    let feed : Feed := ⟨Text.bytesOf "1\n\n2", false⟩
    let feed' : Feed := ⟨Text.bytesOf " 01\n\t\n2\n", false⟩
    ((repl {} feed).deliver none).outcome = .ok 3 ∧ ((repl {} feed').deliver none).outcome = .ok 3 ∧
      ((repl {} feed).deliver none).taken = ((repl {} feed').deliver none).taken ∧
      List.Forall₂ (Alike false) (feed.lines.map (lineTokens .wrapping))
        (feed'.lines.map (lineTokens .wrapping)) := by
  intro feed feed'
  have done : ((repl {} feed).deliver none).outcome = .ok 3 := by decide +kernel
  have done' : ((repl {} feed').deliver none).outcome = .ok 3 := by decide +kernel
  have same : ((repl {} feed).deliver none).taken = ((repl {} feed').deliver none).taken := by
    decide +kernel
  have tell := (text_tells_tokens false .wrapping .wrapping).2.2
  exact ⟨done, done', same, tell feed feed' 3 done done' same⟩

end Command

end ArithTokens
