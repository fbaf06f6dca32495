import ArithTokens.Proofs.Text.Encode
import ArithTokens.Proofs.Text.Forms

/-!
# Decoding by forms

What bytes decode to is said here by the **forms of characters** alone. Where a form stands, its
character is taken; elsewhere the longest beginning of a form is skipped, or one byte if no form
begins.

* `Decodes` says what the text of some bytes is, and `Skips` which piece is skipped;
* a step takes a form where one stands (`encoded_of_decodeNext`), and the piece that is skipped
  elsewhere (`skips_of_decodeNext`);
* `mem_decodeLossy` says that a byte below 128 is told by its character alone;
* `decodeLossy_maximal` says that each byte string decodes to one text, and what becomes of texts
  that are encoded and decoded again.
-/

namespace ArithTokens.Text

variable {b : UInt8} {c : Char} {bytes piece rest : List UInt8} {text : List Char}

/-! ## Decoding, said by forms -/

/-- Whether some bytes are the beginning of a character's form, but not all of it. -/
def Begins (piece : List UInt8) : Prop :=
  ∃ c extra, extra ≠ [] ∧ String.utf8EncodeChar c = piece ++ extra

/-- **The piece that is skipped** where no form stands: the longest beginning of a form that is not
empty, or a single byte if there is none. -/
inductive Skips (bytes : List UInt8) : List UInt8 → Prop where
  | begun {piece : List UInt8} (some : piece ≠ []) (front : piece <+: bytes) (begins : Begins piece)
      (longest : ∀ other, other <+: bytes → Begins other → other.length ≤ piece.length) :
      Skips bytes piece
  | stray {b : UInt8} (front : [b] <+: bytes)
      (none : ∀ other, other ≠ [] → other <+: bytes → ¬ Begins other) : Skips bytes [b]

/-- **The text of a byte string**, read from front to back. -/
inductive Decodes : List UInt8 → List Char → Prop where
  | done : Decodes [] []
  /-- Where a form stands, it is taken for its character. -/
  | take {rest : List UInt8} {text : List Char} (c : Char) (decodes : Decodes rest text) :
      Decodes (String.utf8EncodeChar c ++ rest) (c :: text)
  /-- Elsewhere a piece is skipped, and the replacement character stands for it. -/
  | skip {piece rest : List UInt8} {text : List Char}
      (closed : ∀ c, ¬ String.utf8EncodeChar c <+: piece ++ rest)
      (skips : Skips (piece ++ rest) piece) (decodes : Decodes rest text) :
      Decodes (piece ++ rest) (replacement :: text)

/-! ## One step -/

/-- Only one piece can be skipped. -/
theorem Skips.unique {other : List UInt8} (skips : Skips bytes piece) (also : Skips bytes other) :
    piece = other := by
  cases skips with
  | begun some front begins longest =>
    cases also with
    | begun some' front' begins' longest' =>
      have length := Nat.le_antisymm (longest' piece front begins) (longest other front' begins')
      exact (List.prefix_of_prefix_length_le front front' (Nat.le_of_eq length)).eq_of_length length
    | stray _ none => exact absurd begins (none piece some front)
  | stray front none =>
    cases also with
    | begun some front' begins => exact absurd begins (none other some front')
    | stray front' =>
      exact (List.prefix_of_prefix_length_le front front' (Nat.le_refl 1)).eq_of_length rfl

/-- A beginning of a form is a lead byte and the beginning of what it announces. -/
theorem Begins.exists_follows {tail : List UInt8} (begins : Begins (b :: tail)) :
    ∃ extra more low high, Lead.ofByte b = .several more low high ∧
      Follows more low high (tail ++ extra) := by
  obtain ⟨c, extra, some, form⟩ := begins
  rcases encode_cases c with
    ⟨b', single, -⟩ | ⟨b', tail', more, low, high, several, lead, follows, -⟩
  · rw [form, List.cons_append, List.cons.injEq, List.append_eq_nil_iff] at single
    exact absurd single.2.2 some
  · rw [form, List.cons_append, List.cons.injEq] at several
    obtain ⟨rfl, rfl⟩ := several
    exact ⟨extra, more, low, high, lead, follows⟩

/-- A form is read back, whatever is behind it. -/
theorem decodeNext_of_encoded (front : String.utf8EncodeChar c <+: b :: bytes) :
    (decodeNext b bytes).1 = some c ∧
      b :: bytes = String.utf8EncodeChar c ++ (decodeNext b bytes).2 := by
  obtain ⟨rest, split⟩ := front
  obtain ⟨lead, tail, form⟩ := List.exists_cons_of_ne_nil (String.utf8EncodeChar_ne_nil (c := c))
  rw [form, List.cons_append, List.cons.injEq] at split
  obtain ⟨rfl, rfl⟩ := split
  rw [decodeNext_form form, form]
  exact ⟨rfl, rfl⟩

/-- What is read as a character is its form. -/
theorem encoded_of_decodeNext (found : (decodeNext b bytes).1 = some c) :
    String.utf8EncodeChar c <+: b :: bytes := by
  obtain ⟨c', front⟩ : ∃ c', String.utf8EncodeChar c' <+: b :: bytes := by
    unfold decodeNext at found
    rcases lead : Lead.ofByte b with _ | ⟨more, low, high⟩ | _
    · obtain ⟨c', form⟩ := exists_form_single lead
      exact ⟨c', bytes, by rw [form, List.singleton_append]⟩
    · rw [lead] at found
      obtain ⟨code, read, -⟩ := Option.map_eq_some_iff.mp found
      obtain ⟨tail, split, follows⟩ := follows_of_continueWith read
      obtain ⟨c', form⟩ := exists_form lead follows
      exact ⟨c', _, by rw [form, List.cons_append, ← split]⟩
    · rw [lead] at found
      cases found
  obtain rfl : c = c' := Option.some.inj (found.symm.trans (decodeNext_of_encoded front).1)
  exact front

/-- **Where no character is read**, a piece is skipped. -/
theorem skips_of_decodeNext (broken : (decodeNext b bytes).1 = none) :
    ∃ piece, b :: bytes = piece ++ (decodeNext b bytes).2 ∧ Skips (b :: bytes) piece := by
  unfold decodeNext at broken ⊢
  rcases lead : Lead.ofByte b with _ | ⟨more, low, high⟩ | _ <;> rw [lead] at broken
  · cases broken
  · obtain ⟨taken, extra, split, filled, follows, longest⟩ :=
      continueWith_eq_none (bounds_of_lead lead).2 (Option.map_eq_none_iff.mp broken)
    obtain ⟨c, form⟩ := exists_form lead follows
    have whole := congrArg (b :: ·) split
    refine ⟨b :: taken, whole, .begun (List.cons_ne_nil b taken) ⟨_, whole.symm⟩
      ⟨c, extra, filled, form⟩ fun other front begins => ?_⟩
    cases other with
    | nil => exact Nat.zero_le _
    | cons b' other =>
      obtain ⟨rfl, inside⟩ := List.cons_prefix_cons.mp front
      obtain ⟨extra', more', low', high', lead', follows'⟩ := begins.exists_follows
      cases lead.symm.trans lead'
      exact Nat.succ_le_succ (longest other extra' inside follows')
  · refine ⟨[b], rfl, .stray ⟨bytes, rfl⟩ fun other some front begins => ?_⟩
    obtain ⟨b', other, rfl⟩ := List.exists_cons_of_ne_nil some
    obtain ⟨rfl, -⟩ := List.cons_prefix_cons.mp front
    obtain ⟨_, _, _, _, lead', -⟩ := begins.exists_follows
    cases lead.symm.trans lead'

/-! ## Whole byte strings -/

/-- A form in front of other bytes is a piece of its own. -/
theorem pieces_form (c : Char) (rest : List UInt8) :
    pieces (String.utf8EncodeChar c ++ rest) = some c :: pieces rest := by
  obtain ⟨b, tail, form⟩ := List.exists_cons_of_ne_nil (String.utf8EncodeChar_ne_nil (c := c))
  rw [form, List.cons_append, pieces_cons, decodeNext_form form]

/-- A piece that is skipped is one ill-formed piece. -/
theorem pieces_skip (closed : ∀ c, ¬ String.utf8EncodeChar c <+: piece ++ rest)
    (skips : Skips (piece ++ rest) piece) : pieces (piece ++ rest) = none :: pieces rest := by
  have some : piece ≠ [] := by
    cases skips with
    | begun some => exact some
    | stray => exact List.cons_ne_nil _ _
  obtain ⟨b, tail, rfl⟩ := List.exists_cons_of_ne_nil some
  rw [List.cons_append] at closed skips ⊢
  have broken : (decodeNext b (tail ++ rest)).1 = none := by
    rw [Option.eq_none_iff_forall_ne_some]
    exact fun c found => closed c (encoded_of_decodeNext found)
  obtain ⟨piece, split, also⟩ := skips_of_decodeNext broken
  obtain rfl := skips.unique also
  have behind : rest = (decodeNext b (tail ++ rest)).2 :=
    List.append_cancel_left (List.cons.inj split).2
  rw [pieces_cons, broken, ← behind]

theorem pieces_encode (text : List Char) : pieces (encode text) = text.map some := by
  induction text with
  | nil => rw [encode_nil, pieces, List.map_nil]
  | cons c cs ih => rw [encode_cons, pieces_form, ih, List.map_cons]

/-- **Each byte string decodes to one text.** -/
theorem decodes_iff : Decodes bytes text ↔ text = decodeLossy bytes := by
  constructor
  · intro decodes
    induction decodes with
    | done => rw [decodeLossy, pieces, List.map_nil]
    | take c _ ih => rw [decodeLossy, pieces_form, ih]; rfl
    | skip closed skips _ ih => rw [decodeLossy, pieces_skip closed skips, ih]; rfl
  · rintro rfl
    rw [decodeLossy]
    induction bytes using pieces.induct with
    | case1 =>
      rw [pieces]
      exact .done
    | case2 b bytes ih =>
      rw [pieces_cons, List.map_cons]
      rcases step : (decodeNext b bytes).1 with _ | c
      · obtain ⟨piece, split, skips⟩ := skips_of_decodeNext step
        have closed : ∀ c, ¬ String.utf8EncodeChar c <+: b :: bytes := by
          intro c front
          cases step.symm.trans (decodeNext_of_encoded front).1
        rw [split] at closed skips ⊢
        exact .skip closed skips ih
      · obtain ⟨-, split⟩ := decodeNext_of_encoded (encoded_of_decodeNext step)
        rw [split]
        exact .take c ih

/-! ## Single bytes -/

theorem toNat_ofNat_single (single : b < 0x80) : (Char.ofNat b.toNat).toNat = b.toNat := by
  have small : b.toNat < 0x80 := single
  have valid : b.toNat.isValidChar := Or.inl (by omega)
  rw [Char.ofNat, dif_pos valid]
  rfl

/-- A character below 128 comes of its byte. -/
theorem Decodes.mem (decodes : Decodes bytes text) (single : b < 0x80)
    (mem : Char.ofNat b.toNat ∈ text) : b ∈ bytes := by
  induction decodes with
  | done => cases mem
  | take c _ ih =>
    rcases List.mem_cons.mp mem with rfl | mem
    · apply List.mem_append_left
      exact (mem_utf8EncodeChar single).mpr (toNat_ofNat_single single)
    · exact List.mem_append_right _ (ih mem)
  | skip _ _ _ ih =>
    rcases List.mem_cons.mp mem with same | mem
    · -- The replacement character is none of the first 128.
      have code := congrArg Char.toNat same
      rw [toNat_ofNat_single single] at code
      have large : b.toNat = 0xfffd := code
      have small : b.toNat < 0x80 := single
      omega
    · exact List.mem_append_right _ (ih mem)

/-- **A byte below 128 stands for a character of its own**, and no other bytes stand for that
character, well formed or not. -/
theorem mem_decodeLossy (single : b < 0x80) :
    Char.ofNat b.toNat ∈ decodeLossy bytes ↔ b ∈ bytes := by
  constructor
  · exact (decodes_iff.mpr rfl).mem single
  · intro mem
    obtain ⟨front, rest, rfl⟩ := List.append_of_mem mem
    rw [decodeLossy_append single]
    exact List.mem_append_right _ List.mem_cons_self

/-- No line feed comes of bytes that are none. -/
theorem lineFeed_not_mem_decodeLossy (plain : 10 ∉ bytes) : '\n' ∉ decodeLossy bytes := by
  intro mem
  have single : (10 : UInt8) < 0x80 := by decide
  exact plain ((mem_decodeLossy single).mp mem)

/-! ## Well-formed bytes -/

/-- Bytes without ill-formed pieces are the forms of their characters. -/
theorem pieces_eq_map_some_iff : pieces bytes = text.map some ↔ bytes = encode text := by
  constructor
  · intro formed
    induction bytes using pieces.induct generalizing text with
    | case1 =>
      rw [pieces, eq_comm, List.map_eq_nil_iff] at formed
      rw [formed, encode_nil]
    | case2 b bytes ih =>
      rw [pieces_cons, eq_comm, List.map_eq_cons_iff] at formed
      obtain ⟨c, cs, rfl, step, others⟩ := formed
      obtain ⟨-, split⟩ := decodeNext_of_encoded (encoded_of_decodeNext step.symm)
      rw [split, encode_cons, ← ih others.symm]
  · rintro rfl
    exact pieces_encode text

theorem mapM_id_eq_some_iff {found : List (Option Char)} :
    found.mapM id = some text ↔ found = text.map some := by
  induction found generalizing text with
  | nil => cases text <;> simp
  | cons first found ih =>
    rw [List.mapM_cons]
    cases text with
    | nil => cases first <;> simp [Option.bind_eq_some_iff]
    | cons c cs =>
      cases first with
      | none => simp
      | some d => simpa [Option.bind_eq_some_iff, ih] using and_comm

/-- **Strict decoding** inverts encoding, and fails on all other bytes. -/
theorem decode?_eq_some_iff : decode? bytes = some text ↔ bytes = encode text :=
  mapM_id_eq_some_iff.trans pieces_eq_map_some_iff

theorem isValidUTF8_iff : bytes.toByteArray.IsValidUTF8 ↔ ∃ text, bytes = encode text := by
  constructor
  · rintro ⟨text, same⟩
    exact ⟨text, List.toByteArray_inj.mp same⟩
  · rintro ⟨text, rfl⟩
    exact ⟨text, rfl⟩

/-! ## The theorem -/

theorem decodeLossy_encode (text : List Char) : decodeLossy (encode text) = text := by
  rw [decodeLossy, pieces_encode, List.map_map]
  exact List.map_id text

/-- **Decoding takes forms and skips maximal pieces.** The text of a byte string is the one that
`Decodes` tells, and the only one. Strict decoding inverts encoding, lossy decoding gives back what
was encoded, and so a second decoding changes nothing; what was decoded is encoded to the same
bytes exactly if these are valid. -/
theorem decodeLossy_maximal (bytes : List UInt8) :
    (∀ text, Decodes bytes text ↔ text = decodeLossy bytes) ∧
    (∀ text, decode? bytes = some text ↔ bytes = encode text) ∧
    (∀ text, decodeLossy (encode text) = text) ∧
    decodeLossy (encode (decodeLossy bytes)) = decodeLossy bytes ∧
    (encode (decodeLossy bytes) = bytes ↔ bytes.toByteArray.IsValidUTF8) := by
  refine ⟨fun _ => decodes_iff, fun _ => decode?_eq_some_iff, decodeLossy_encode,
    decodeLossy_encode _, fun same => isValidUTF8_iff.mpr ⟨_, same.symm⟩, fun valid => ?_⟩
  obtain ⟨text, rfl⟩ := isValidUTF8_iff.mp valid
  rw [decodeLossy_encode]

-- A surrogate, an overlong form and a broken form before a new one.
example : decodeLossy [0xed, 0xa0, 0x80, 0xc0, 0xaf, 0xf0, 0x9f, 0x98, 0xe2, 0x82, 0xac] =
    ['\uFFFD', '\uFFFD', '\uFFFD', '\uFFFD', '\uFFFD', '\uFFFD', '€'] := by
  decide +kernel

end ArithTokens.Text
