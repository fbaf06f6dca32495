import ArithTokens.Proofs.Scan.Lexeme
import ArithTokens.Proofs.Text.Stretch

/-!
# Segmentations of a text

A segmentation of a text is a list of tokens, each with the bytes it stands for, that leaves out
nothing but blanks and cuts no run of digits or letters in two.

* `Segments` says when a list of pieces is a segmentation, by byte offsets alone and without a
  scan;
* `segments_gap` and `segments_lexeme` find the pieces of a text from its front, so that a text
  has **exactly one** segmentation.
-/

namespace ArithTokens

/-- A token and the bytes from `start` up to `stop` that it stands for. -/
structure Placed where
  token : Token
  start : Nat
  stop : Nat
deriving DecidableEq, Repr

/-- Whether a byte belongs to a placed token. -/
def Placed.Contains (p : Placed) (offset : Nat) : Prop := p.start ≤ offset ∧ offset < p.stop

/-- Where a token that was read stands; its line and column are forgotten. -/
def Spanned.placed (lexed : Spanned) : Placed := ⟨lexed.token, lexed.span.start, lexed.span.stop⟩

namespace Scan

open Text (byteSize Holds)

/-- **The segmentations of a text** whose own first byte is byte `base`. -/
structure Segments (policy : Overflow) (base : Nat) (text : List Char) (pieces : List Placed) :
    Prop where
  /-- No piece is empty. -/
  nonempty : ∀ p ∈ pieces, p.start < p.stop
  /-- The pieces are in order and share no byte. -/
  ordered : pieces.Pairwise fun p q => p.stop ≤ q.start
  /-- A piece begins and stops between two characters, and its text reads as its token. -/
  reads : ∀ p ∈ pieces, ∃ word, Holds base text p.start p.stop word ∧ Reads policy word p.token
  /-- Two pieces that touch are not runs of one class. -/
  apart : pieces.Pairwise fun p q => p.stop = q.start →
    ∀ s t, Holds base text p.start p.stop s → Holds base text q.start q.stop t → ¬ Merges s t
  /-- A character outside of all pieces is a blank. -/
  outside : ∀ before c behind, text = before ++ c :: behind →
    (∀ p ∈ pieces, ¬ p.Contains (base + byteSize before)) → isBlank c = true

variable {policy : Overflow} {base : Nat} {c : Char} {g r t text before behind : List Char}
  {p : Placed} {pieces rest : List Placed}

theorem Segments.le_start (segments : Segments policy base text pieces) (mem : p ∈ pieces) :
    base ≤ p.start := by
  obtain ⟨word, held, -⟩ := segments.reads p mem
  exact held.le_start

/-! ## The pieces of a gap -/

/-- A gap has no pieces. -/
theorem segments_gap (gap : IsGap g) : Segments policy base g pieces ↔ pieces = [] := by
  constructor
  · intro segments
    rw [List.eq_nil_iff_forall_not_mem]
    intro p mem
    obtain ⟨word, ⟨before, behind, rfl, -, -⟩, reads⟩ := segments.reads p mem
    obtain ⟨c, r, rfl, lexeme, -⟩ := reads.exists_cons
    have := gap c (by simp)
    rw [lexeme.1] at this
    cases this
  · rintro rfl
    refine ⟨by simp, .nil, by simp, .nil, ?_⟩
    rintro before c behind rfl -
    exact gap c (by simp)

/-! ## The first piece -/

/-- The piece of the first lexeme in front of the pieces of what is behind it. -/
theorem Segments.cons (gap : IsGap g) (lexeme : IsLexeme c r) (ends : Ends c t)
    (segments : Segments policy (base + byteSize (g ++ c :: r)) t rest) :
    Segments policy base (g ++ c :: r ++ t)
      (⟨.ofLexeme policy c r, base + byteSize g, base + byteSize (g ++ c :: r)⟩ :: rest) := by
  have size : byteSize (g ++ c :: r) = byteSize g + byteSize (c :: r) := Text.byteSize_append ..
  have some := Text.byteSize_pos (List.cons_ne_nil c r)
  have held : Holds base (g ++ c :: r ++ t) (base + byteSize g) (base + byteSize (g ++ c :: r))
      (c :: r) := ⟨g, t, rfl, rfl, rfl⟩
  constructor
  case nonempty =>
    rintro p mem
    rcases List.mem_cons.mp mem with rfl | mem
    · dsimp only
      omega
    · exact segments.nonempty p mem
  case ordered => exact List.pairwise_cons.mpr ⟨fun q mem => segments.le_start mem, segments.ordered⟩
  case reads =>
    rintro p mem
    rcases List.mem_cons.mp mem with rfl | mem
    · exact ⟨c :: r, held, reads_iff.mpr ⟨lexeme, rfl⟩⟩
    · obtain ⟨word, inside, reads⟩ := segments.reads p mem
      exact ⟨word, inside.skip, reads⟩
  case apart =>
    refine List.pairwise_cons.mpr ⟨?_, ?_⟩
    · -- The next piece starts right behind the first lexeme, where the lexeme ends.
      intro q mem touch s s' holds holds'
      obtain ⟨word, inside, reads⟩ := segments.reads q mem
      obtain rfl := held.unique holds
      obtain rfl := inside.skip.unique holds'
      obtain ⟨d, r', rfl, lexeme', -⟩ := reads.exists_cons
      obtain ⟨before, behind, rfl, start, -⟩ := inside
      have none : before = [] := by
        cases before with
        | nil => rfl
        | cons e before =>
          have := Text.byteSize_pos (List.cons_ne_nil e before)
          dsimp only at touch
          omega
      subst none
      rw [merges_iff lexeme lexeme', ends_cons.mp ends]
      simp
    · refine segments.apart.imp_of_mem fun {p q} memp memq apart touch s s' holds holds' => ?_
      exact apart touch s s' (holds.of_skip (segments.le_start memp))
        (holds'.of_skip (segments.le_start memq))
  case outside =>
    intro before d behind same uncovered
    have first := uncovered _ List.mem_cons_self
    rcases Text.append_eq_append_cons same with ⟨m, inside, -⟩ | ⟨m, rfl, rfl⟩
    · rcases Text.append_eq_append_cons inside with ⟨m', rfl, -⟩ | ⟨m', rfl, -⟩
      · exact gap d (by simp)
      · exfalso
        apply first
        have := congrArg byteSize inside
        have := Text.byteSize_pos (List.cons_ne_nil d m)
        simp only [Placed.Contains, Text.byteSize_append] at *
        omega
    · refine segments.outside m d behind rfl fun p mem inside => ?_
      rw [Nat.add_assoc, ← Text.byteSize_append] at inside
      exact uncovered p (List.mem_cons_of_mem _ mem) inside

/-- What stands before the first piece is a gap. -/
theorem Segments.isGap_before (segments : Segments policy base text (p :: rest))
    (chars : text = before ++ behind) (start : base + byteSize before = p.start) :
    IsGap before := by
  intro c mem
  obtain ⟨s, t, rfl⟩ := List.append_of_mem mem
  refine segments.outside s c (t ++ behind) (by simp [chars]) fun q mem inside => ?_
  have size := Text.byteSize_pos (List.cons_ne_nil c t)
  rw [Text.byteSize_append] at start
  obtain ⟨low, -⟩ := inside
  rcases List.mem_cons.mp mem with rfl | mem
  · omega
  · have := segments.nonempty p List.mem_cons_self
    have := (List.pairwise_cons.mp segments.ordered).1 q mem
    omega

/-- The lexeme of the first piece ends with the piece: what it would take from behind could only
stand in a piece that touches the first. -/
theorem Segments.ends_behind (segments : Segments policy base text (p :: rest))
    (chars : text = before ++ c :: r ++ behind) (start : base + byteSize before = p.start)
    (stop : base + byteSize (before ++ c :: r) = p.stop) (lexeme : IsLexeme c r) :
    Ends c behind := by
  intro d first
  obtain ⟨t, rfl⟩ := List.head?_eq_some_iff.mp first
  by_contra joined
  rw [Bool.not_eq_false] at joined
  have nonempty := segments.nonempty p List.mem_cons_self
  -- The joined character is no blank, so that some piece contains it.
  obtain ⟨q, mem, low, high⟩ : ∃ q ∈ rest, q.Contains p.stop := by
    by_contra uncovered
    have blank := segments.outside (before ++ c :: r) d t chars fun q mem inside => by
      rw [stop] at inside
      rcases List.mem_cons.mp mem with rfl | mem
      · exact absurd inside.2 (Nat.lt_irrefl _)
      · exact uncovered ⟨q, mem, inside⟩
    rw [not_isBlank_of_joins joined] at blank
    cases blank
  have touch : p.stop = q.start :=
    Nat.le_antisymm ((List.pairwise_cons.mp segments.ordered).1 q mem) low
  obtain ⟨word, held, reads⟩ := segments.reads q (List.mem_cons_of_mem p mem)
  obtain ⟨e, s, rfl, lexeme', -⟩ := reads.exists_cons
  -- That piece starts with the joined character.
  have same : e = d := by
    obtain ⟨before', behind', chars', start', -⟩ := held
    rw [chars, List.append_assoc before' (e :: s)] at chars'
    obtain ⟨-, rest⟩ := Text.append_inj_of_byteSize chars' (by omega)
    exact (List.cons.inj rest).1.symm
  subst same
  refine (List.pairwise_cons.mp segments.apart).1 q mem touch (c :: r) (e :: s) ?_ held
    ((merges_iff lexeme lexeme').mpr joined)
  exact ⟨before, e :: t, chars, start, stop⟩

/-- Behind the first piece, the other pieces are a segmentation. -/
theorem Segments.tail (segments : Segments policy base (text ++ t) (p :: rest))
    (stop : base + byteSize text = p.stop) : Segments policy (base + byteSize text) t rest := by
  have ordered := List.pairwise_cons.mp segments.ordered
  have apart := List.pairwise_cons.mp segments.apart
  constructor
  case nonempty => exact fun q mem => segments.nonempty q (List.mem_cons_of_mem p mem)
  case ordered => exact ordered.2
  case reads =>
    intro q mem
    obtain ⟨word, held, reads⟩ := segments.reads q (List.mem_cons_of_mem p mem)
    have := ordered.1 q mem
    exact ⟨word, held.of_skip (by omega), reads⟩
  case apart =>
    exact apart.2.imp fun apart touch s s' holds holds' => apart touch s s' holds.skip holds'.skip
  case outside =>
    intro before c behind chars uncovered
    have chars' : text ++ t = (text ++ before) ++ c :: behind := by simp [chars]
    refine segments.outside (text ++ before) c behind chars' fun q mem inside => ?_
    rw [Text.byteSize_append, ← Nat.add_assoc] at inside
    rcases List.mem_cons.mp mem with rfl | mem
    · have := inside.2
      omega
    · exact uncovered q mem inside

/-- **The first piece of a segmentation is the first lexeme**, and the other pieces are a
segmentation of what is behind it. -/
theorem segments_lexeme (gap : IsGap g) (lexeme : IsLexeme c r) (ends : Ends c t) :
    Segments policy base (g ++ c :: r ++ t) pieces ↔
      ∃ rest, pieces =
          ⟨.ofLexeme policy c r, base + byteSize g, base + byteSize (g ++ c :: r)⟩ :: rest ∧
        Segments policy (base + byteSize (g ++ c :: r)) t rest := by
  constructor
  · intro segments
    obtain ⟨p, rest, rfl⟩ : ∃ p rest, pieces = p :: rest := by
      refine List.exists_cons_of_ne_nil fun none => ?_
      have := segments.outside g c (r ++ t) (by simp) (by simp [none])
      rw [lexeme.1] at this
      cases this
    obtain ⟨word, ⟨before, behind, chars, start, stop⟩, reads⟩ :=
      segments.reads p List.mem_cons_self
    obtain ⟨d, s, rfl, lexeme', token⟩ := reads.exists_cons
    have gap' : IsGap before :=
      segments.isGap_before (chars.trans (List.append_assoc before (d :: s) behind)) start
    have ends' : Ends d behind := segments.ends_behind chars start stop lexeme'
    obtain ⟨rfl, rfl, rfl, rfl⟩ := gap_lexeme_inj gap gap' lexeme lexeme' ends ends' chars
    refine ⟨rest, ?_, segments.tail stop⟩
    rw [← token, start, stop]
  · rintro ⟨rest, rfl, segments⟩
    exact segments.cons gap lexeme ends

/-! ## The one segmentation of a text -/

/-- The tokens of a scan are the only segmentation of its text. -/
theorem segments_iff (here : Place) (text : List Char) (pieces : List Placed) :
    Segments policy here.offset text pieces ↔
      pieces = (scanFrom policy here text).map Spanned.placed := by
  induction text using lexemeInduction generalizing here pieces with
  | gap g gap => rw [segments_gap gap, scanFrom_gap gap, List.map_nil]
  | lexeme g c r t gap lexeme ends ih =>
    rw [segments_lexeme gap lexeme ends, scanFrom_lexeme gap lexeme ends, List.map_cons]
    simp only [← Place.after_offset, ih]
    constructor
    · rintro ⟨rest, rfl, rfl⟩
      rfl
    · rintro rfl
      exact ⟨_, rfl, rfl⟩

/-! ## Slicing -/

theorem IsGap.filter_eq_nil (gap : IsGap g) : g.filter (fun c => !isBlank c) = [] :=
  List.filter_eq_nil_iff.mpr fun c mem => by simp [gap c mem]

theorem IsLexeme.filter_eq_self (lexeme : IsLexeme c r) :
    (c :: r).filter (fun c => !isBlank c) = c :: r := by
  refine List.filter_eq_self.mpr fun d mem => ?_
  rcases List.mem_cons.mp mem with rfl | mem
  · simp [lexeme.1]
  · simp [not_isBlank_of_joins (lexeme.2 d mem)]

/-- The span between two places of a text cuts out what stands between them. -/
theorem slice_spanTo {source : String} {before word behind : List Char}
    (chars : source.toList = before ++ word ++ behind) :
    ((Place.start.after before).spanTo (Place.start.after (before ++ word))).slice source =
      .ok (String.ofList word) := by
  have held : Holds 0 source.toList (Place.start.after before).offset
      (Place.start.after (before ++ word)).offset word :=
    ⟨before, behind, chars, (Place.after_offset .start before).symm,
      (Place.after_offset .start (before ++ word)).symm⟩
  exact held.slice

/-- The words cut out by the spans of a scan are what is left of its text without the blanks. -/
theorem mapM_slice_scanFrom {source : String} (done : List Char)
    (chars : source.toList = done ++ text) :
    ∃ words, (scanFrom policy (Place.start.after done) text).mapM
        (fun lexed => lexed.span.slice source) = .ok words ∧
      String.join words = String.ofList (text.filter fun c => !isBlank c) := by
  induction text using lexemeInduction generalizing done with
  | gap g gap => exact ⟨[], by rw [scanFrom_gap gap]; rfl, by rw [gap.filter_eq_nil]; rfl⟩
  | lexeme g c r t gap lexeme ends ih =>
    obtain ⟨words, cut, join⟩ := ih (done ++ (g ++ c :: r)) (by simp [chars])
    refine ⟨String.ofList (c :: r) :: words, ?_, ?_⟩
    · have whole : source.toList = (done ++ g) ++ c :: r ++ t := by simp [chars]
      have first := slice_spanTo whole
      rw [scanFrom_lexeme gap lexeme ends, ← Place.after_append, ← Place.after_append,
        List.mapM_cons, cut, ← List.append_assoc, first]
      rfl
    · rw [String.join_cons, join, ← String.ofList_append, List.filter_append, List.filter_append,
        gap.filter_eq_nil, lexeme.filter_eq_self, List.nil_append]

/-! ## The theorem -/

/-- **A scan cuts a text in the only possible way.** Its tokens are a segmentation of the text, and
no other list is one; and their spans cut out all that is not blank, none of them in vain. -/
theorem scan_unique_segmentation (policy : Overflow) (text : String) :
    (∀ pieces, Segments policy 0 text.toList pieces ↔
      pieces = (scan policy text).map Spanned.placed) ∧
    ∃ words, (scan policy text).mapM (fun lexed => lexed.span.slice text) = .ok words ∧
      String.join words = String.ofList (text.toList.filter fun c => !isBlank c) :=
  ⟨segments_iff .start text.toList, mapM_slice_scanFrom [] rfl⟩

end Scan

end ArithTokens
