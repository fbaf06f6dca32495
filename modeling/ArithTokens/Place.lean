import ArithTokens.Span

/-!
# Places in a text

A place is where a reader stands: the bytes it has passed, and the line and column of the
character ahead of it. Both counts start at one; only a line feed starts a new line, and every
other character, a carriage return too, is one column.
-/

namespace ArithTokens

/-- A place between two characters of a text. -/
structure Place where
  offset : Nat
  line : UInt32
  column : UInt32
deriving DecidableEq, Repr, Inhabited

namespace Place

/-- The place before the first character. -/
def start : Place := ⟨0, 1, 1⟩

/-- The place after one more character. -/
def step (here : Place) (c : Char) : Place :=
  if c = '\n' then
    ⟨here.offset + c.utf8Size, here.line + 1, 1⟩
  else
    ⟨here.offset + c.utf8Size, here.line, here.column + 1⟩

/-- The place after a stretch of text. -/
def after (here : Place) (text : List Char) : Place := text.foldl step here

@[simp]
theorem after_nil (here : Place) : here.after [] = here := rfl

@[simp]
theorem after_cons (here : Place) (c : Char) (cs : List Char) :
    here.after (c :: cs) = (here.step c).after cs := rfl

@[simp]
theorem after_append (here : Place) (s t : List Char) :
    here.after (s ++ t) = (here.after s).after t := by
  simp [after, List.foldl_append]

@[simp]
theorem step_offset (here : Place) (c : Char) :
    (here.step c).offset = here.offset + c.utf8Size := by
  unfold step
  split <;> rfl

/-- A stretch of text moves the offset by its size in bytes. -/
@[simp]
theorem after_offset (here : Place) (text : List Char) :
    (here.after text).offset = here.offset + Text.byteSize text := by
  induction text generalizing here with
  | nil => simp
  | cons c cs ih => simp [ih, Nat.add_assoc]

/-- The span between two places of a text. -/
def spanTo (first past : Place) : Span := ⟨first.offset, past.offset, first.line, first.column⟩

end Place

/-- The place at which a span starts. -/
def Span.place (s : Span) : Place := ⟨s.start, s.line, s.column⟩

end ArithTokens
