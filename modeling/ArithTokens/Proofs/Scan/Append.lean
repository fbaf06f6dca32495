import ArithTokens.Proofs.Place
import ArithTokens.Proofs.Scan.Segmentation

/-!
# Scanning two texts in a row

The tokens of two texts in a row are the tokens of the first and then those of the second, moved
by the first text. One thing may change at the **seam**: where a digit meets a digit, or a letter a
letter, the two lexemes there become one.

* `scanFrom_append` cuts a scan at any place where no lexeme goes on;
* `exists_last_lexeme` and `exists_lexeme` find the lexemes that meet at the seam;
* `length_scanFrom_of_continues` counts the tokens there;
* `scanFrom_moved` moves a scan by the text in front.
-/

namespace ArithTokens

/-- A token as it stands when `front` is put before its text. -/
def Spanned.moved (front : List Char) (lexed : Spanned) : Spanned :=
  { lexed with span := lexed.span.moved front }

namespace Scan

variable {policy : Overflow} {c d : Char} {g r s t text : List Char} {here : Place}

/-! ## The seam -/

/-- Whether a lexeme goes on where one text meets another. -/
def Continues (s t : List Char) : Prop :=
  ∃ c ∈ s.getLast?, ∃ d ∈ t.head?, joins c d = true

theorem not_continues_iff :
    ¬ Continues s t ↔ ∀ c ∈ s.getLast?, ∀ d ∈ t.head?, joins c d = false := by
  simp [Continues]

/-- The last character of a lexeme joins what the first one joins. -/
theorem IsLexeme.joins_last (lexeme : IsLexeme c r) {e : Char} (last : e ∈ (c :: r).getLast?)
    (d : Char) : joins e d = joins c d := by
  rcases List.mem_cons.mp (List.mem_of_mem_getLast? last) with rfl | mem
  · rfl
  · exact (joins_congr (lexeme.2 e mem) d).symm

/-- A lexeme goes on in the text behind it if its first character joins the next. -/
theorem IsLexeme.not_continues_iff_ends (lexeme : IsLexeme c r) (g : List Char) :
    ¬ Continues (g ++ c :: r) t ↔ Ends c t := by
  obtain ⟨e, last⟩ : ∃ e, (c :: r).getLast? = some e :=
    ⟨_, List.getLast?_eq_some_getLast (List.cons_ne_nil c r)⟩
  rw [not_continues_iff, List.getLast?_append, last, Ends]
  simp [lexeme.joins_last last]

theorem not_continues_of_isGap (gap : IsGap g) : ¬ Continues g t := by
  rintro ⟨c, last, d, -, joined⟩
  rw [joins_comm, joins_of_isBlank (gap c (List.mem_of_mem_getLast? last))] at joined
  cases joined

theorem not_continues_gap (gap : IsGap g) : ¬ Continues s g := by
  rintro ⟨c, -, d, first, joined⟩
  rw [joins_of_isBlank (gap d (List.mem_of_mem_head? first))] at joined
  cases joined

/-! ## Cutting a scan -/

/-- A gap in front of a text moves the place where it starts. -/
theorem scanFrom_gap_append (gap : IsGap g) :
    scanFrom policy here (g ++ text) = scanFrom policy (here.after g) text := by
  induction text using lexemeInduction with
  | gap g' gap' =>
    have both : IsGap (g ++ g') := List.forall_mem_append.mpr ⟨gap, gap'⟩
    rw [scanFrom_gap both, scanFrom_gap gap']
  | lexeme g' c r t gap' lexeme ends _ =>
    have both : IsGap (g ++ g') := List.forall_mem_append.mpr ⟨gap, gap'⟩
    rw [scanFrom_lexeme gap' lexeme ends, ← List.append_assoc, ← List.append_assoc,
      scanFrom_lexeme both lexeme ends]
    simp only [Place.after_append]

/-- **Where no lexeme goes on, a scan can be cut.** -/
theorem scanFrom_append (apart : ¬ Continues s t) :
    scanFrom policy here (s ++ t) =
      scanFrom policy here s ++ scanFrom policy (here.after s) t := by
  induction s using lexemeInduction generalizing here with
  | gap g gap => rw [scanFrom_gap_append gap, scanFrom_gap gap, List.nil_append]
  | lexeme g c r s gap lexeme ends ih =>
    rw [scanFrom_lexeme gap lexeme ends, List.append_assoc _ s]
    -- Only the last lexeme of the first text meets the second text.
    rcases s with _ | ⟨d, s⟩
    · rw [List.append_nil] at apart
      have ends' := (lexeme.not_continues_iff_ends g).mp apart
      rw [List.nil_append, scanFrom_lexeme gap lexeme ends']
      simp [scanFrom_gap isGap_nil]
    · have apart' : ¬ Continues (d :: s) t := by
        rwa [Continues, List.getLast?_append_of_ne_nil _ (List.cons_ne_nil d s)] at apart
      have ends' : Ends c (d :: s ++ t) := ends
      rw [scanFrom_lexeme gap lexeme ends', ih apart', List.cons_append, Place.after_append _ _ (d :: s)]

/-- A text of one lexeme has one token. -/
theorem scanFrom_word (lexeme : IsLexeme c r) :
    scanFrom policy here (c :: r) =
      [⟨.ofLexeme policy c r, here.spanTo (here.after (c :: r))⟩] := by
  have whole : scanFrom policy here ([] ++ c :: r ++ []) = _ :=
    scanFrom_lexeme isGap_nil lexeme (ends_nil c)
  rwa [scanFrom_gap isGap_nil, List.append_nil, List.nil_append, Place.after_nil] at whole

/-- The lexeme with which a text ends, unless it ends with a blank. No lexeme goes on where it
starts. -/
theorem exists_last_lexeme {e : Char} (last : e ∈ text.getLast?) (solid : isBlank e = false) :
    ∃ s c r, text = s ++ c :: r ∧ IsLexeme c r ∧ ¬ Continues s (c :: r) := by
  induction text using lexemeInduction with
  | gap g gap =>
    rw [gap e (List.mem_of_mem_getLast? last)] at solid
    cases solid
  | lexeme g c r t gap lexeme ends ih =>
    rcases t with _ | ⟨d, t⟩
    · exact ⟨g, c, r, List.append_nil _, lexeme, not_continues_of_isGap gap⟩
    · rw [List.getLast?_append_of_ne_nil _ (List.cons_ne_nil d t)] at last
      obtain ⟨s, d', r', split, lexeme', apart⟩ := ih last
      refine ⟨g ++ c :: r ++ s, d', r', by simp [split], lexeme', ?_⟩
      rcases s with _ | ⟨e', s⟩
      · rw [List.nil_append, List.cons.injEq] at split
        obtain ⟨rfl, -⟩ := split
        rw [List.append_nil, lexeme.not_continues_iff_ends]
        exact ends
      · rwa [Continues, List.getLast?_append_of_ne_nil _ (List.cons_ne_nil e' s)]

/-- **Where a lexeme goes on, the last of the first text and the first of the second are one.** -/
theorem exists_scanFrom_seam (policy : Overflow) (joined : Continues s t) :
    ∃ before c r d r' behind, s = before ++ c :: r ∧ t = d :: r' ++ behind ∧
      IsLexeme c r ∧ IsLexeme d r' ∧ IsLexeme c (r ++ d :: r') ∧
      (∀ here, scanFrom policy here s = scanFrom policy here before ++
        scanFrom policy (here.after before) (c :: r)) ∧
      (∀ here, scanFrom policy here t = scanFrom policy here (d :: r') ++
        scanFrom policy (here.after (d :: r')) behind) ∧
      ∀ here, scanFrom policy here (s ++ t) = scanFrom policy here before ++
        (scanFrom policy (here.after before) (c :: r ++ d :: r') ++
          scanFrom policy (here.after (s ++ d :: r')) behind) := by
  obtain ⟨e, last, d, first, joined⟩ := joined
  rw [joins_comm] at joined
  obtain ⟨before, c, r, rfl, lexeme, apart⟩ := exists_last_lexeme last (not_isBlank_of_joins joined)
  obtain ⟨t, rfl⟩ := List.head?_eq_some_iff.mp first
  rw [joins_comm] at joined
  obtain ⟨r', behind, rfl, lexeme', ends⟩ := exists_lexeme (not_isBlank_of_joins joined) t
  have last' : e ∈ (c :: r).getLast? := by
    rwa [List.getLast?_append_of_ne_nil _ (List.cons_ne_nil c r)] at last
  have joins : joins c d = true := by rwa [← lexeme.joins_last last']
  -- The two lexemes are of one class, so that together they are a lexeme of that class.
  have both : IsLexeme c (r ++ d :: r') := by
    refine ⟨lexeme.1, fun x mem => ?_⟩
    rcases List.mem_append.mp mem with mem | mem
    · exact lexeme.2 x mem
    rcases List.mem_cons.mp mem with rfl | mem
    · exact joins
    · rw [joins_congr joins]
      exact lexeme'.2 x mem
  have apart' : ¬ Continues (d :: r') behind := (lexeme'.not_continues_iff_ends []).mpr ends
  have apart'' : ¬ Continues (c :: r ++ d :: r') behind :=
    (both.not_continues_iff_ends []).mpr fun x mem => by rw [joins_congr joins]; exact ends x mem
  have outer : ¬ Continues before (c :: r ++ d :: r' ++ behind) := apart
  refine ⟨before, c, r, d, r', behind, rfl, rfl, lexeme, lexeme', both,
    fun here => scanFrom_append apart, fun here => scanFrom_append apart', fun here => ?_⟩
  rw [← List.cons_append, List.append_assoc, ← List.append_assoc (c :: r), scanFrom_append outer,
    scanFrom_append apart'']
  simp only [Place.after_append]

/-! ## Counting tokens -/

/-- Where a text starts has no part in how many tokens it has. -/
theorem length_scanFrom (policy : Overflow) (here there : Place) (text : List Char) :
    (scanFrom policy here text).length = (scanFrom policy there text).length := by
  induction text using lexemeInduction generalizing here there with
  | gap g gap => rw [scanFrom_gap gap, scanFrom_gap gap]
  | lexeme g c r t gap lexeme ends ih =>
    rw [scanFrom_lexeme gap lexeme ends, scanFrom_lexeme gap lexeme ends, List.length_cons,
      List.length_cons, ih]

/-- Where a lexeme goes on there is one token less. -/
theorem length_scanFrom_of_continues (policy : Overflow) (joined : Continues s t)
    (here there : Place) :
    (scanFrom policy here (s ++ t)).length + 1 =
      (scanFrom policy here s).length + (scanFrom policy there t).length := by
  obtain ⟨before, c, r, d, r', behind, -, -, lexeme, lexeme', both, left, right, whole⟩ :=
    exists_scanFrom_seam policy joined
  have same := length_scanFrom policy (here.after (s ++ d :: r')) (there.after (d :: r')) behind
  rw [left, right, whole, List.cons_append, scanFrom_word lexeme, scanFrom_word lexeme',
    scanFrom_word both]
  simp only [List.length_append, List.length_singleton, same]
  omega

/-- Two texts in a row have no more tokens than the two have. -/
theorem length_scanFrom_append_le (policy : Overflow) (s t : List Char) (here there : Place) :
    (scanFrom policy here (s ++ t)).length ≤
      (scanFrom policy here s).length + (scanFrom policy there t).length := by
  by_cases joined : Continues s t
  · rw [← length_scanFrom_of_continues policy joined here there]
    exact Nat.le_succ _
  · rw [scanFrom_append joined, List.length_append, length_scanFrom policy (here.after s) there]

/-! ## Moving a scan -/

/-- A scan that starts behind a text is moved by what is put in front of that text. -/
theorem scanFrom_moved (front : List Char) (done : List Char)
    (short : (done ++ text).length < UInt32.size - 1) :
    scanFrom policy (Place.start.after (front ++ done)) text =
      (scanFrom policy (Place.start.after done) text).map (Spanned.moved front) := by
  induction text using lexemeInduction generalizing done with
  | gap g gap => rw [scanFrom_gap gap, scanFrom_gap gap, List.map_nil]
  | lexeme g c r t gap lexeme ends ih =>
    have room : (done ++ g).length < UInt32.size - 1 := by
      simp only [List.length_append] at short ⊢
      omega
    have span := Place.spanTo_after_append front (done ++ g ++ c :: r) room
    have rest := ih (done ++ g ++ c :: r) (by simpa using short)
    rw [scanFrom_lexeme gap lexeme ends, scanFrom_lexeme gap lexeme ends, List.map_cons]
    simp only [← Place.after_append, ← List.append_assoc] at span rest ⊢
    rw [span, rest]
    rfl

/-- As long as the counts fit their words, lines and columns move by exactly what stands in
front. -/
theorem toNat_moved {front : List Char} {lexed : Spanned} (mem : lexed ∈ scanFrom policy .start text)
    (short : (front ++ text).length < UInt32.size - 1) :
    (lexed.moved front).span.line.toNat = lexed.span.line.toNat + front.count '\n' ∧
      (lexed.moved front).span.column.toNat = lexed.span.column.toNat +
        if lexed.span.line = 1 then (Text.lastLine front).length else 0 := by
  obtain ⟨before, word, behind, rfl, -, span⟩ := exists_of_mem_scanFrom mem
  have room : (front ++ before).length < UInt32.size - 1 := by
    simp only [List.length_append] at short ⊢
    omega
  have room' : before.length < UInt32.size - 1 := by
    rw [List.length_append] at room
    omega
  have moved : (lexed.moved front).span = (Place.start.after (front ++ before)).spanTo
      (Place.start.after (front ++ (before ++ word))) := by
    rw [Place.spanTo_after_append front (before ++ word) room', ← span]
    rfl
  have line : lexed.span.line = (Place.start.after before).line := congrArg Span.line span
  have column : lexed.span.column = (Place.start.after before).column := congrArg Span.column span
  rw [moved, line, column]
  change (Place.start.after (front ++ before)).line.toNat = _ ∧
    (Place.start.after (front ++ before)).column.toNat = _
  rw [Place.toNat_line_after room, Place.toNat_line_after room', Place.toNat_column_after room,
    Place.toNat_column_after room', List.count_append, Text.lastLine_append]
  refine ⟨by omega, ?_⟩
  -- A token is on the first line of its text just when no line feed stands before it.
  by_cases feed : '\n' ∈ before
  · rw [if_pos feed, if_neg (fun one => (Place.line_after_eq_one_iff room').mp one feed)]
    omega
  · rw [if_neg feed, if_pos ((Place.line_after_eq_one_iff room').mpr feed), List.length_append,
      Text.lastLine_of_not_mem feed]
    omega

/-! ## The theorem -/

/-- **The tokens of two texts in a row** are those of the first and those of the second, moved by
the first text; but a lexeme that goes on from one text to the other is a single token, which
reads as the two words together and stands where the two stand. -/
theorem scan_append (policy : Overflow) (a b : String) (short : (a ++ b).length < UInt32.size - 1) :
    (¬ Continues a.toList b.toList →
      scan policy (a ++ b) = scan policy a ++ (scan policy b).map (Spanned.moved a.toList)) ∧
    (Continues a.toList b.toList →
      ∃ front left right back token word word',
        scan policy a = front ++ [left] ∧ scan policy b = right :: back ∧
        left.span.slice a = .ok word ∧ right.span.slice b = .ok word' ∧
        Reads policy (word ++ word').toList token ∧
        scan policy (a ++ b) = front ++
          ⟨token, { left.span with stop := (right.moved a.toList).span.stop }⟩ ::
            back.map (Spanned.moved a.toList)) ∧
    ∀ lexed ∈ scan policy b,
      (lexed.moved a.toList).span.line.toNat = lexed.span.line.toNat + a.toList.count '\n' ∧
      (lexed.moved a.toList).span.column.toNat = lexed.span.column.toNat +
        if lexed.span.line = 1 then (Text.lastLine a.toList).length else 0 := by
  have short' : (a.toList ++ b.toList).length < UInt32.size - 1 := by
    rwa [← String.toList_append, String.length_toList]
  have moved : ∀ done text, b.toList = done ++ text →
      scanFrom policy (Place.start.after (a.toList ++ done)) text =
        (scanFrom policy (Place.start.after done) text).map (Spanned.moved a.toList) := by
    intro done text chars
    refine scanFrom_moved a.toList done ?_
    rw [← chars]
    rw [List.length_append] at short'
    omega
  refine ⟨fun apart => ?_, fun joined => ?_, fun lexed mem => toNat_moved mem short'⟩
  · have behind := moved [] b.toList rfl
    rw [List.append_nil, Place.after_nil] at behind
    rw [scan, scan, scan, String.toList_append, scanFrom_append apart, behind]
  · obtain ⟨before, c, r, d, r', behind, ha, hb, lexeme, lexeme', both, left, right, whole⟩ :=
      exists_scanFrom_seam policy joined
    have first : scan policy a = scanFrom policy .start before ++
        [⟨.ofLexeme policy c r,
          (Place.start.after before).spanTo (Place.start.after (before ++ c :: r))⟩] := by
      rw [scan, left, scanFrom_word lexeme, Place.after_append]
    have second : scan policy b =
        ⟨.ofLexeme policy d r', Place.start.spanTo (Place.start.after (d :: r'))⟩ ::
          scanFrom policy (Place.start.after (d :: r')) behind := by
      rw [scan, right, scanFrom_word lexeme', List.singleton_append]
    have slice := slice_spanTo (ha.trans (List.append_nil _).symm)
    have slice' : (Place.start.spanTo (Place.start.after (d :: r'))).slice b =
        .ok (String.ofList (d :: r')) :=
      slice_spanTo (show b.toList = [] ++ d :: r' ++ behind from hb)
    refine ⟨_, _, _, _, .ofLexeme policy c (r ++ d :: r'), _, _, first, second, slice, slice',
      ?_, ?_⟩
    · rw [← String.ofList_append, String.toList_ofList]
      exact reads_iff.mpr ⟨both, rfl⟩
    · have stop : ((Place.start.after before).after (c :: r ++ d :: r')).offset =
          (Place.start.after (d :: r')).offset + Text.byteSize a.toList := by
        simp only [ha, Place.after_offset, Text.byteSize_append]
        omega
      rw [scan, String.toList_append, whole, ← moved (d :: r') behind hb, List.cons_append,
        scanFrom_word both, List.singleton_append, Place.spanTo, ← List.cons_append, stop]
      rfl

/-- Two keywords that touch are one unknown word, and numbers on two lines stay two. -/
theorem scan_append_keywords_and_lines :
    ("(abs" ++ "min)").length < UInt32.size - 1 ∧ ("1\n" ++ "2").length < UInt32.size - 1 ∧
    (Continues "(abs".toList "min)".toList ∧ ∃ front left right back token word word',
      scan .wrapping "(abs" = front ++ [left] ∧ scan .wrapping "min)" = right :: back ∧
      left.span.slice "(abs" = .ok word ∧ right.span.slice "min)" = .ok word' ∧
      Reads .wrapping (word ++ word').toList token ∧
      scan .wrapping ("(abs" ++ "min)") = front ++
        ⟨token, { left.span with stop := (right.moved "(abs".toList).span.stop }⟩ ::
          back.map (Spanned.moved "(abs".toList)) ∧
    (¬ Continues "1\n".toList "2".toList ∧ scan .saturating ("1\n" ++ "2") =
      scan .saturating "1\n" ++ (scan .saturating "2").map (Spanned.moved "1\n".toList)) := by
  have one : Continues "(abs".toList "min)".toList := ⟨'s', rfl, 'm', rfl, rfl⟩
  have two : ¬ Continues "1\n".toList "2".toList := by
    rintro ⟨c, last, d, -, joined⟩
    obtain rfl : '\n' = c := Option.some.inj last
    cases joined
  have short : ("(abs" ++ "min)").length < UInt32.size - 1 := by decide
  have short' : ("1\n" ++ "2").length < UInt32.size - 1 := by decide
  exact ⟨short, short', ⟨one, (scan_append .wrapping "(abs" "min)" short).2.1 one⟩,
    two, (scan_append .saturating "1\n" "2" short').1 two⟩

end Scan

end ArithTokens
