/-!
# TOML values

A TOML document is a table: values by key. Numbers with a fraction and points in time are kept as
they are written; no setting of the program is one.
-/

namespace ArithTokens.Toml

/-- A value of a TOML document. -/
inductive Value where
  | boolean (value : Bool)
  | integer (value : Int)
  | float (spelling : String)
  | dateTime (spelling : String)
  | string (value : String)
  | array (values : List Value)
  | table (entries : List (String × Value))
deriving Repr, Inhabited

/-- The values of a table by key. No key stands twice in a table that was read. -/
abbrev Entries := List (String × Value)

/-! ## Comparing values -/

mutual

/-- Whether two values are the same. A structural test, which the kernel can run. -/
def Value.same : Value → Value → Bool
  | .boolean a, .boolean b => a == b
  | .integer a, .integer b => a == b
  | .float a, .float b => a == b
  | .dateTime a, .dateTime b => a == b
  | .string a, .string b => a == b
  | .array a, .array b => sameValues a b
  | .table a, .table b => sameEntries a b
  | _, _ => false

def sameValues : List Value → List Value → Bool
  | [], [] => true
  | v :: vs, w :: ws => v.same w && sameValues vs ws
  | _, _ => false

def sameEntries : Entries → Entries → Bool
  | [], [] => true
  | (key, v) :: vs, (other, w) :: ws => key == other && v.same w && sameEntries vs ws
  | _, _ => false

end

mutual

theorem Value.same_iff (v w : Value) : v.same w ↔ v = w := by
  cases v <;> cases w <;> simp [Value.same, sameValues_iff, sameEntries_iff]

theorem sameValues_iff (vs ws : List Value) : sameValues vs ws ↔ vs = ws := by
  match vs, ws with
  | [], [] | [], _ :: _ | _ :: _, [] => simp [sameValues]
  | v :: vs, w :: ws => simp [sameValues, Value.same_iff v, sameValues_iff vs]

theorem sameEntries_iff (vs ws : Entries) : sameEntries vs ws ↔ vs = ws := by
  match vs, ws with
  | [], [] | [], _ :: _ | _ :: _, [] => simp [sameEntries]
  | (key, v) :: vs, (other, w) :: ws =>
    simp [sameEntries, Value.same_iff v, sameEntries_iff vs, and_assoc]

end

instance : DecidableEq Value := fun v w => decidable_of_iff _ (Value.same_iff v w)

end ArithTokens.Toml
