import ArithTokens.Proofs.CommandLine.Settings

/-!
# What a configuration is read from

A configuration has four settings, and each of them is read from one value of a document. All other
keys, wherever they stand, are ignored.

* `IsFlag`, `IsChoice` and `IsGroup` say what values mean, and `held?` is the value that a group
  has for a setting;
* `Describes` says setting by setting which configuration a document describes, and
  `ofToml?_eq_some_iff` that this is the one that is read;
* `SameSettings` are documents that nothing tells apart;
* `Faulty` are the documents that describe none.
-/

namespace ArithTokens.Config

open Toml (Value Entries)

variable {α : Type} {document other : Entries} {config : Config} {v : Value}
  {group given : Option Value}

/-! ## What values mean -/

/-- Whether a value is this yes or no. -/
inductive IsFlag : Value → Bool → Prop
  | boolean (value : Bool) : IsFlag (.boolean value) value

/-- Whether a value stands for a choice: by the **name** of it, or as a table with that name as its
only key and nothing under it. -/
inductive IsChoice [Named α] : Value → α → Prop
  | name (a : α) : IsChoice (.string (Named.name a)) a
  | emptyTable (a : α) : IsChoice (.table [(Named.name a, .table [])]) a
  | emptyArray (a : α) : IsChoice (.table [(Named.name a, .array [])]) a

/-- Whether a value can stand for a group of settings. -/
inductive IsGroup : Value → Prop
  | table (entries : Entries) : IsGroup (.table entries)
  | array (values : List Value) : IsGroup (.array values)
  | time (spelling : String) : IsGroup (.dateTime spelling)

/-- Whether a document has nothing for a group, or a value that can stand for one. -/
def Fits (group : Option Value) : Prop := ∀ v, group = some v → IsGroup v

/-- The value that a group has for a setting, under its **name** in a table and at its **place** in
an array. -/
def held? : Option Value → Nat → String → Option Value
  | some (.table entries), _, name => entries.lookup name
  | some (.array values), place, _ => values[place]?
  | _, _, _ => none

/-- Whether a setting is `a`: the default if nothing is given, and otherwise what is given. -/
inductive Takes (default : α) (means : Value → α → Prop) : Option Value → α → Prop
  | absent : Takes default means none default
  | present {v : Value} {a : α} (read : means v a) : Takes default means (some v) a

/-- Whether something is given for a setting that means nothing. -/
def Wrong (means : Value → α → Prop) (given : Option Value) : Prop :=
  ∃ v, given = some v ∧ ∀ a, ¬ means v a

/-! ## Reading values -/

theorem flag?_eq_some_iff {b : Bool} : flag? v = some b ↔ IsFlag v b := by
  constructor
  · intro read
    cases v with
    | boolean value =>
      obtain rfl := Option.some.inj read
      exact .boolean value
    | _ => cases read
  · rintro ⟨⟩
    rfl

theorem eq_name_of_ofName? [Named α] {text : String} {a : α}
    (found : Named.ofName? text = some a) : text = Named.name a := by
  have same := List.find?_some found
  exact (beq_iff_eq.mp same).symm

/-- A choice is read from all that stands for it, if its own name finds it. -/
theorem choice?_eq_some_iff [Named α] (finds : ∀ a : α, Named.ofName? (Named.name a) = some a)
    {a : α} : choice? v = some a ↔ IsChoice v a := by
  constructor
  · intro read
    unfold choice? at read
    split at read
    · obtain rfl := eq_name_of_ofName? read
      exact .name a
    · rename_i name value
      split at read
      · rename_i bare
        obtain rfl := eq_name_of_ofName? read
        unfold isBare at bare
        split at bare
        · exact .emptyTable a
        · exact .emptyArray a
        · cases bare
      · cases read
    · cases read
  · rintro (_ | _ | _) <;> exact finds a

theorem setting_eq_some_iff {default a : α} {read? : Value → Option α} {means : Value → α → Prop}
    (exact : ∀ v a, read? v = some a ↔ means v a) :
    setting default read? given = some a ↔ Takes default means given a := by
  cases given with
  | none =>
    constructor
    · intro read
      obtain rfl := Option.some.inj read
      exact .absent
    · rintro ⟨⟩
      rfl
  | some v =>
    refine (exact v a).trans ⟨Takes.present, ?_⟩
    rintro (_ | read)
    exact read

/-! ## Reading groups -/

/-- What a group is read from: its settings, by place and name. -/
theorem group?_eq_some_iff {field : Nat → String → Option Value} :
    group? v = some field ↔ IsGroup v ∧ held? (some v) = field := by
  constructor
  · intro read
    cases v with
    | table entries => exact ⟨.table entries, Option.some.inj read⟩
    | array values => exact ⟨.array values, Option.some.inj read⟩
    | dateTime spelling => exact ⟨.time spelling, Option.some.inj read⟩
    | _ => cases read
  · rintro ⟨_ | _ | _, rfl⟩ <;> rfl

theorem fits_none : Fits none := nofun

theorem fits_some : Fits (some v) ↔ IsGroup v := by
  constructor
  · intro fits
    exact fits v rfl
  · rintro isGroup _ ⟨⟩
    exact isGroup

/-- **A group is read from the values that it has for its settings**, and one that is absent as if
it had none. -/
theorem setting_group (read : (Nat → String → Option Value) → Option α) (default : α) {a : α}
    (absent : read (held? none) = some default) :
    setting default (fun v => (group? v).bind read) group = some a ↔
      Fits group ∧ read (held? group) = some a := by
  cases group with
  | none =>
    rw [absent]
    exact ⟨fun taken => ⟨fits_none, taken⟩, fun taken => taken.2⟩
  | some v =>
    rw [setting, Option.bind_eq_some_iff, fits_some]
    constructor
    · rintro ⟨field, found, taken⟩
      obtain ⟨isGroup, rfl⟩ := group?_eq_some_iff.mp found
      exact ⟨isGroup, taken⟩
    · rintro ⟨isGroup, taken⟩
      exact ⟨_, group?_eq_some_iff.mpr ⟨isGroup, rfl⟩, taken⟩

theorem flag_taken {b : Bool} :
    setting false flag? given = some b ↔ Takes false IsFlag given b :=
  setting_eq_some_iff fun _ _ => flag?_eq_some_iff

theorem overflow_taken {overflow : Overflow} :
    setting .wrapping choice? given = some overflow ↔
      Takes .wrapping IsChoice given overflow :=
  setting_eq_some_iff fun _ _ => choice?_eq_some_iff CommandLine.ofName?_overflow

theorem format_taken {format : Format} :
    setting .text choice? given = some format ↔ Takes .text IsChoice given format :=
  setting_eq_some_iff fun _ _ => choice?_eq_some_iff CommandLine.ofName?_format

/-- The group that says how numbers are read. -/
theorem lexing_taken {overflow : Overflow} :
    setting default lexing? group = some overflow ↔
      Fits group ∧ Takes .wrapping IsChoice (held? group 0 "overflow") overflow := by
  let read (field : Nat → String → Option Value) : Option Overflow :=
    setting default choice? (field 0 "overflow")
  exact (setting_group read default rfl).trans (and_congr_right fun _ => overflow_taken)

/-- The group that says how tokens are written. -/
theorem output_taken {output : RenderOptions} :
    setting default output? group = some output ↔
      Fits group ∧ Takes .text IsChoice (held? group 0 "format") output.format ∧
        Takes false IsFlag (held? group 1 "spans") output.spans := by
  let read (field : Nat → String → Option Value) : Option RenderOptions :=
    (setting .text choice? (field 0 "format")).bind fun format =>
      (setting false flag? (field 1 "spans")).bind fun spans => some { format, spans }
  refine (setting_group read default rfl).trans (and_congr_right fun _ => ?_)
  rw [← format_taken, ← flag_taken, Option.bind_eq_some_iff]
  constructor
  · rintro ⟨format, first, taken⟩
    obtain ⟨spans, second, made⟩ := Option.bind_eq_some_iff.mp taken
    obtain rfl := Option.some.inj made
    exact ⟨first, second⟩
  · rintro ⟨first, second⟩
    exact ⟨output.format, first, Option.bind_eq_some_iff.mpr ⟨output.spans, second, rfl⟩⟩

/-! ## Documents -/

/-- **Whether a document describes a configuration**: each setting by itself, from the one value
that the document has for it. -/
structure Describes (document : Entries) (config : Config) : Prop where
  lexer_fits : Fits (document.lookup "lexer")
  output_fits : Fits (document.lookup "output")
  verbose : Takes false IsFlag (document.lookup "verbose") config.verbose
  overflow : Takes .wrapping IsChoice (held? (document.lookup "lexer") 0 "overflow") config.overflow
  format : Takes .text IsChoice (held? (document.lookup "output") 0 "format") config.output.format
  spans : Takes false IsFlag (held? (document.lookup "output") 1 "spans") config.output.spans

/-- **The configuration that is read** is the one that the document describes. -/
theorem ofToml?_eq_some_iff : ofToml? document = some config ↔ Describes document config := by
  change ((setting false flag? (document.lookup "verbose")).bind fun verbose =>
    (setting default lexing? (document.lookup "lexer")).bind fun overflow =>
      (setting default output? (document.lookup "output")).bind fun output =>
        some { verbose, overflow, output }) = some config ↔ _
  rw [Option.bind_eq_some_iff]
  constructor
  · rintro ⟨verbose, first, taken⟩
    obtain ⟨overflow, second, taken⟩ := Option.bind_eq_some_iff.mp taken
    obtain ⟨output, third, made⟩ := Option.bind_eq_some_iff.mp taken
    obtain rfl := Option.some.inj made
    obtain ⟨lexer, second⟩ := lexing_taken.mp second
    obtain ⟨written, format, spans⟩ := output_taken.mp third
    exact ⟨lexer, written, flag_taken.mp first, second, format, spans⟩
  · intro describes
    refine ⟨config.verbose, flag_taken.mpr describes.verbose, ?_⟩
    rw [lexing_taken.mpr ⟨describes.lexer_fits, describes.overflow⟩, Option.bind_some,
      output_taken.mpr ⟨describes.output_fits, describes.format, describes.spans⟩]
    rfl

/-! ## Documents with the same settings -/

/-- **Whether two documents have the same settings**: the same value or none for each of them,
whatever else they hold, and for each group something that can stand for one, or nothing, or else
something that cannot. -/
structure SameSettings (document other : Entries) : Prop where
  verbose : document.lookup "verbose" = other.lookup "verbose"
  overflow :
    held? (document.lookup "lexer") 0 "overflow" = held? (other.lookup "lexer") 0 "overflow"
  format : held? (document.lookup "output") 0 "format" = held? (other.lookup "output") 0 "format"
  spans : held? (document.lookup "output") 1 "spans" = held? (other.lookup "output") 1 "spans"
  lexer_fits : Fits (document.lookup "lexer") ↔ Fits (other.lookup "lexer")
  output_fits : Fits (document.lookup "output") ↔ Fits (other.lookup "output")

theorem SameSettings.describes_iff (same : SameSettings document other) :
    Describes document config ↔ Describes other config := by
  constructor
  · rintro ⟨lexer, output, verbose, overflow, format, spans⟩
    rw [same.verbose] at verbose
    rw [same.overflow] at overflow
    rw [same.format] at format
    rw [same.spans] at spans
    exact ⟨same.lexer_fits.mp lexer, same.output_fits.mp output, verbose, overflow, format, spans⟩
  · rintro ⟨lexer, output, verbose, overflow, format, spans⟩
    rw [← same.verbose] at verbose
    rw [← same.overflow] at overflow
    rw [← same.format] at format
    rw [← same.spans] at spans
    exact ⟨same.lexer_fits.mpr lexer, same.output_fits.mpr output, verbose, overflow, format, spans⟩

/-- **Documents with the same settings** give the same configuration, or none. -/
theorem ofToml?_of_same (same : SameSettings document other) :
    ofToml? document = ofToml? other := by
  apply Option.ext
  intro config
  rw [ofToml?_eq_some_iff, ofToml?_eq_some_iff, same.describes_iff]

/-! ## Groups given as arrays -/

/-- A value under a name stands where the name stands. -/
theorem lookup_zip {names : List String} {place : Nat} {name : String} (distinct : names.Nodup)
    (there : names[place]? = some name) (values : List Value) :
    (names.zip values).lookup name = values[place]? := by
  induction names generalizing place values with
  | nil => cases there
  | cons first names ih =>
    obtain ⟨fresh, distinct⟩ := List.nodup_cons.mp distinct
    cases values with
    | nil => rfl
    | cons value values =>
      rw [List.zip_cons_cons]
      cases place with
      | zero =>
        obtain rfl := Option.some.inj there
        exact List.lookup_cons_self
      | succ place =>
        have mem : name ∈ names := List.mem_of_getElem? there
        have miss : (name == first) = false := by
          rw [beq_eq_false_iff_ne]
          rintro rfl
          exact fresh mem
        rw [List.lookup_cons, miss]
        exact ih distinct there values

theorem fits_array_iff {names : List String} {values : List Value} :
    Fits (some (.array values)) ↔ Fits (some (.table (names.zip values))) := by
  rw [fits_some, fits_some]
  exact ⟨fun _ => .table _, fun _ => .array _⟩

/-- An array in the place of the table of its values. -/
theorem same_lexer_array (document : Entries) (values : List Value) :
    SameSettings (("lexer", .array values) :: document)
      (("lexer", .table (["overflow"].zip values)) :: document) where
  verbose := rfl
  overflow := (lookup_zip (by decide) rfl values).symm
  format := rfl
  spans := rfl
  lexer_fits := fits_array_iff
  output_fits := Iff.rfl

theorem same_output_array (document : Entries) (values : List Value) :
    SameSettings (("output", .array values) :: document)
      (("output", .table (["format", "spans"].zip values)) :: document) where
  verbose := rfl
  overflow := rfl
  format := (lookup_zip (by decide) rfl values).symm
  spans := (lookup_zip (by decide) rfl values).symm
  lexer_fits := Iff.rfl
  output_fits := fits_array_iff

/-! ## Documents that describe nothing -/

/-- **Whether a document has a value that is wrong** where a setting or a group is to stand. -/
inductive Faulty (document : Entries) : Prop
  | verbose (wrong : Wrong IsFlag (document.lookup "verbose"))
  | lexer (wrong : ¬ Fits (document.lookup "lexer"))
  | overflow (wrong : Wrong (α := Overflow) IsChoice (held? (document.lookup "lexer") 0 "overflow"))
  | output (wrong : ¬ Fits (document.lookup "output"))
  | format (wrong : Wrong (α := Format) IsChoice (held? (document.lookup "output") 0 "format"))
  | spans (wrong : Wrong IsFlag (held? (document.lookup "output") 1 "spans"))

theorem takes_or_wrong (default : α) (means : Value → α → Prop) (given : Option Value) :
    (∃ a, Takes default means given a) ∨ Wrong means given := by
  cases given with
  | none => exact Or.inl ⟨default, .absent⟩
  | some v =>
    by_cases some : ∃ a, means v a
    · obtain ⟨a, read⟩ := some
      exact Or.inl ⟨a, .present read⟩
    · exact Or.inr ⟨v, rfl, fun a read => some ⟨a, read⟩⟩

theorem Takes.not_wrong {default a : α} {means : Value → α → Prop}
    (takes : Takes default means given a) : ¬ Wrong means given := by
  rintro ⟨v, rfl, wrong⟩
  cases takes with
  | present read => exact wrong a read

/-- **No configuration is read** just where a value is wrong. -/
theorem ofToml?_eq_none_iff : ofToml? document = none ↔ Faulty document := by
  constructor
  · intro nothing
    by_contra faultless
    obtain ⟨verbose, first⟩ := (takes_or_wrong false IsFlag _).resolve_right
      fun wrong => faultless (.verbose wrong)
    obtain ⟨overflow, second⟩ := (takes_or_wrong Overflow.wrapping IsChoice _).resolve_right
      fun wrong => faultless (.overflow wrong)
    obtain ⟨format, third⟩ := (takes_or_wrong Format.text IsChoice _).resolve_right
      fun wrong => faultless (.format wrong)
    obtain ⟨spans, fourth⟩ := (takes_or_wrong false IsFlag _).resolve_right
      fun wrong => faultless (.spans wrong)
    have lexer : Fits (document.lookup "lexer") := by
      by_contra wrong
      exact faultless (.lexer wrong)
    have output : Fits (document.lookup "output") := by
      by_contra wrong
      exact faultless (.output wrong)
    have describes : Describes document { verbose, overflow, output := { format, spans } } :=
      ⟨lexer, output, first, second, third, fourth⟩
    rw [ofToml?_eq_some_iff.mpr describes] at nothing
    cases nothing
  · intro faulty
    rw [Option.eq_none_iff_forall_ne_some]
    intro config read
    have describes := ofToml?_eq_some_iff.mp read
    cases faulty with
    | verbose wrong => exact describes.verbose.not_wrong wrong
    | lexer wrong => exact wrong describes.lexer_fits
    | overflow wrong => exact describes.overflow.not_wrong wrong
    | output wrong => exact wrong describes.output_fits
    | format wrong => exact describes.format.not_wrong wrong
    | spans wrong => exact describes.spans.not_wrong wrong

/-! ## Loading documents -/

/-- Whether the file of a name holds a document. -/
def Stored (tree : Tree) (name : String) (document : Entries) : Prop :=
  ∃ bytes text, tree.read (Path.ofString name) = .ok bytes ∧ Text.decode? bytes = some text ∧
    Toml.parse? text = some document

/-- What comes of **loading** a file with a document in it. -/
theorem run_loadFrom_stored {tree : Tree} {name : String} (stored : Stored tree name document) :
    (loadFrom name : StateM Tree _).run tree =
      ((ofToml? document).elim (.error .configInvalid) .ok, tree) := by
  obtain ⟨bytes, text, read, chars, parsed⟩ := stored
  have there : (tree.kindOf (Path.ofString name)).toBool = true := by
    by_contra missing
    have unread := read_of_not_there (Bool.eq_false_iff.mpr missing)
    rw [read] at unread
    cases unread
  have load : (loadFrom name : StateM Tree _).run tree = (loaded {} (some name) tree, tree) :=
    run_load {} (some name) tree
  rw [load, loaded, if_pos there, read, ofRead, chars]
  simp only [parsed, Option.bind_some]
  cases ofToml? document <;> rfl

/-! ## The theorem -/

end ArithTokens.Config
