import ArithTokens.Proofs.Command.Repl
import ArithTokens.Proofs.Json.Written

/-!
# Records that tell tokens

Tokens that are written as an array of records can be **read back**. `Token.ofRecord?` and
`Spanned.ofRecord?` look at the value that a text of JSON stands for, and take the token from the
fields of a record, whatever their order; they know nothing of how records are written.

The array is one line of compact JSON, and it stands for one value (`json_tells_tokens`). So two
lists of tokens that are written alike are the same list.
-/

namespace ArithTokens

/-! ## Reading records -/

namespace Json.Value

/-- The first member of an object that has this name. -/
def field? (name : String) : Value → Option Value
  | .object members => members.lookup name
  | _ => none

/-- The names of the members of an object. -/
def names : Value → List String
  | .object members => members.map Prod.fst
  | _ => []

/-- The natural number that a value is. -/
def nat? : Value → Option Nat
  | .number numeral =>
    if numeral.all Char.isDigit then some (Nat.ofDigitChars 10 numeral 0) else none
  | _ => none

/-- The text that a value is. -/
def text? : Value → Option String
  | .text value => some value
  | _ => none

end Json.Value

/-- The token that a record tells. -/
def Token.ofRecord? (record : Json.Value) : Option Token := do
  let kind ← (← record.field? "kind").text?
  match kind with
  | "Number" => return .number (.ofNat (← (← record.field? "value").nat?))
  | "Unknown" => return .unknown (← (← record.field? "value").text?)
  | kind => ofName? kind

/-- The token with its span that a record tells. -/
def Spanned.ofRecord? (record : Json.Value) : Option Spanned := do
  let token ← Token.ofRecord? record
  let start ← (← record.field? "start").nat?
  let stop ← (← record.field? "end").nat?
  let line ← (← record.field? "line").nat?
  let column ← (← record.field? "column").nat?
  return ⟨token, start, stop, .ofNat line, .ofNat column⟩

/-! ## Reading records back -/

namespace Json

@[simp]
theorem nat?_number (n : Nat) : (Scalar.number n).value.nat? = some n := by
  have digits : (Nat.toDigits 10 n).all Char.isDigit = true :=
    List.all_eq_true.mpr fun c => Nat.isDigit_of_mem_toDigits (by decide) (by decide)
  rw [Scalar.value, Value.nat?, if_pos digits, Nat.ofDigitChars_ten_toDigits]

@[simp]
theorem text?_text (text : String) : (Scalar.text text).value.text? = some text := rfl

theorem Record.names_value (record : Record) : record.value.names = record.map Prod.fst := by
  simp [Record.value, Value.names, Function.comp_def]

/-- The fields of a record are found by their names. -/
theorem Record.field?_value (record : Record) (name : String) :
    record.value.field? name = (record.lookup name).map Scalar.value := by
  rw [Record.value, Value.field?]
  induction record with
  | nil => rfl
  | cons field record ih =>
    rw [List.map_cons, List.lookup_cons, List.lookup_cons, ih]
    split <;> rfl

end Json

open Json (Record Value)

/-- A record with a token's kind and value tells the token, whatever else is in it. -/
theorem Token.ofRecord?_value {token : Token} {record : Record}
    (kind : record.lookup "kind" = some (.text token.name))
    (value : record.lookup "value" = token.valueFields.lookup "value") :
    ofRecord? record.value = some token := by
  rw [ofRecord?, Record.field?_value, Record.field?_value, kind, value]
  rcases token.kinds with ⟨n, rfl⟩ | ⟨text, rfl⟩ | plain
  · simp [name, valueFields]
  · simp [name, valueFields]
  · have others : ∀ token ∈ valueless, token.name ≠ "Number" ∧ token.name ≠ "Unknown" := by decide
    obtain ⟨number, unknown⟩ := others token plain
    have kind := ofName?_name plain
    simp [kind]

theorem Token.ofRecord?_record (token : Token) : ofRecord? token.record.value = some token :=
  ofRecord?_value rfl rfl

theorem Token.ofRecord?_spanned (lexed : Spanned) :
    ofRecord? lexed.record.value = some lexed.token :=
  ofRecord?_value rfl rfl

theorem Spanned.ofRecord?_record (lexed : Spanned) : ofRecord? lexed.record.value = some lexed := by
  rw [ofRecord?, Token.ofRecord?_spanned]
  simp only [Record.field?_value]
  simp [record, List.lookup_cons]

/-! ## The array of a list of tokens -/

namespace Command

open Feed (lineFeed)

/-- The record of a token, with its span or without. -/
def recordOf (spans : Bool) (lexed : Spanned) : Record :=
  if spans then lexed.record else lexed.token.record

variable {spans : Bool} {tokens tokens' : List Spanned}

theorem rendered_array (spans : Bool) (tokens : List Spanned) :
    rendered ⟨.json, spans⟩ tokens =
      Text.bytesOf (Json.array (tokens.map (recordOf spans))) ++ [lineFeed] := rfl

theorem ofRecord?_recordOf (lexed : Spanned) :
    Token.ofRecord? (recordOf spans lexed).value = some lexed.token := by
  cases spans with
  | false => exact Token.ofRecord?_record lexed.token
  | true => exact Token.ofRecord?_spanned lexed

/-- The names of a record are in alphabetical order, and none is used twice. -/
theorem pairwise_names (spans : Bool) (lexed : Spanned) :
    (recordOf spans lexed).value.names.Pairwise (· < ·) := by
  have value : (lexed.token.valueFields.map Prod.fst).Sublist ["value"] := by
    unfold Token.valueFields
    split <;> simp
  rw [Record.names_value]
  cases spans with
  | false =>
    have names : ["kind", "value"].Pairwise (· < ·) := by decide
    exact names.sublist (value.cons_cons "kind")
  | true =>
    have names : ["column", "end", "kind", "line", "start", "value"].Pairwise (· < ·) := by decide
    exact names.sublist (value.append_left ["column", "end", "kind", "line", "start"])

/-- The array has no byte below the blank. -/
theorem blank_le_of_mem_array {b : UInt8} {records : List Record}
    (mem : b ∈ Text.bytesOf (Json.array records)) : 0x20 ≤ b := by
  by_contra control
  have small : b.toNat < 0x20 := UInt8.lt_iff_toNat_lt.mp (UInt8.not_le.mp control)
  have low : b < 0x80 := UInt8.lt_iff_toNat_lt.mpr (Nat.lt_trans small (by decide))
  obtain ⟨c, inside, same⟩ := (Text.mem_encode low).mp mem
  have printed := Json.printed_array records c inside
  omega

/-- The text of an array and the line feed behind it stand for the array, and for no other value. -/
theorem encodes_array_iff (records : List Record) (v : Value) :
    Json.Encodes Json.isBlank (Json.array records ++ "\n").toList v ↔
      v = .array (records.map Record.value) := by
  have encodes : Json.Encodes Json.isBlank (Json.array records ++ "\n").toList
      (.array (records.map Record.value)) := by
    refine ⟨[], (Json.array records).toList, ['\n'], ?_, ?_, ?_, Json.denotes_array records⟩
    · rw [String.toList_append, List.nil_append]
      rfl
    · exact fun c mem => absurd mem List.not_mem_nil
    · exact List.forall_mem_singleton.mpr rfl
  constructor
  · intro other
    exact other.unique encodes
  · rintro rfl
    exact encodes

/-- Lists of tokens that are written alike have the same records. -/
theorem records_inj (same : rendered ⟨.json, spans⟩ tokens = rendered ⟨.json, spans⟩ tokens') :
    (tokens.map (recordOf spans)).map Record.value =
      (tokens'.map (recordOf spans)).map Record.value := by
  rw [rendered_array, rendered_array] at same
  have text := Text.bytesOf_inj (List.append_cancel_right same)
  have encodes := (encodes_array_iff (tokens.map (recordOf spans)) _).mpr rfl
  rw [text, encodes_array_iff] at encodes
  exact Value.array.inj encodes

/-! ## The theorem -/

/-- **An array of records tells its tokens.** It is one line of compact JSON, which stands for one
value: an array with a record for each token, in order, whose names are in alphabetical order. The
record tells the token, and its span if this is written, too. So two lists of tokens that are
written alike have the same tokens, and the same spans if these are written. -/
theorem json_tells_tokens (spans : Bool) :
    (∀ tokens, ∃ text records, rendered ⟨.json, spans⟩ tokens = Text.bytesOf text ++ [lineFeed] ∧
      (∀ b ∈ Text.bytesOf text, 0x20 ≤ b) ∧
      Json.Denotes Json.noBlank text.toList (.array records) ∧
      (∀ v, Json.Encodes Json.isBlank (text ++ "\n").toList v ↔ v = .array records) ∧
      (∀ record ∈ records, record.names.Pairwise (· < ·)) ∧
      records.map Token.ofRecord? = tokens.map (some ·.token) ∧
      (spans = true → records.map Spanned.ofRecord? = tokens.map some)) ∧
    ∀ tokens tokens', rendered ⟨.json, spans⟩ tokens = rendered ⟨.json, spans⟩ tokens' →
      tokens.map Spanned.token = tokens'.map Spanned.token ∧ (spans = true → tokens = tokens') := by
  have readToken : ∀ tokens : List Spanned, ((tokens.map (recordOf spans)).map Record.value).map
      Token.ofRecord? = tokens.map (some ·.token) := by
    intro tokens
    rw [List.map_map, List.map_map]
    exact List.map_congr_left fun lexed _ => ofRecord?_recordOf lexed
  have readSpanned : spans = true → ∀ tokens : List Spanned,
      ((tokens.map (recordOf spans)).map Record.value).map Spanned.ofRecord? = tokens.map some := by
    rintro rfl tokens
    rw [List.map_map, List.map_map]
    exact List.map_congr_left fun lexed _ => lexed.ofRecord?_record
  constructor
  · intro tokens
    refine ⟨_, _, rendered_array spans tokens, fun b => blank_le_of_mem_array,
      Json.denotes_array _, encodes_array_iff _, ?_, readToken tokens, (readSpanned · tokens)⟩
    rw [List.map_map]
    exact List.forall_mem_map.mpr fun lexed _ => pairwise_names spans lexed
  · intro tokens tokens' same
    have records := records_inj same
    constructor
    · have read := congrArg (List.map Token.ofRecord?) records
      rw [readToken, readToken] at read
      exact Json.map_eq_map_of_imp read fun _ _ _ _ => Option.some.inj
    · intro asked
      have read := congrArg (List.map Spanned.ofRecord?) records
      rw [readSpanned asked, readSpanned asked] at read
      exact List.map_injective_iff.mpr (fun _ _ => Option.some.inj) read

/-- Two texts that differ in their blanks only. -/
theorem json_tells_tokens_blanks :
    let tokens := scan .wrapping "7 \""
    let tokens' := scan .wrapping "7\n\n\""
    rendered ⟨.json, false⟩ tokens = rendered ⟨.json, false⟩ tokens' ∧
      tokens.map Spanned.token = tokens'.map Spanned.token := by
  intro tokens tokens'
  have same : rendered ⟨.json, false⟩ tokens = rendered ⟨.json, false⟩ tokens' := by decide +kernel
  exact ⟨same, ((json_tells_tokens false).2 tokens tokens' same).1⟩

end Command

end ArithTokens
