import ArithTokens.Command.Demo
import ArithTokens.Command.Repl
import ArithTokens.Proofs.Files.Growth
import ArithTokens.Proofs.Rendering

/-!
# Commands on outputs that fail

All that a command writes is laid out in lines and arrays (`laid_tokenizeText`, `laid_replLines`,
`laid_demo`): the tokens are those of a text, so that no line of theirs can pass for an array. An
output that fails therefore sees a prefix, and the byte at which it fails tells the problem.
-/

namespace ArithTokens.Command

open Scan (exists_of_mem_scanFrom)

theorem wellFormed_of_mem_scan {policy : Overflow} {text : String} {lexed : Spanned}
    (mem : lexed ∈ scan policy text) : lexed.token.WellFormed := by
  obtain ⟨_, _, _, _, reads, _⟩ := exists_of_mem_scanFrom mem
  exact reads.wellFormed

theorem laid_scan (options : RenderOptions) (policy : Overflow) (text : String) :
    Laid ((render options (scan policy text)).map .write) :=
  laid_render options fun _ => wellFormed_of_mem_scan

theorem laid_tokenizeText (settings : Settings) (source : String) :
    Laid (tokenizeText settings source).events :=
  .note _ (laid_scan _ _ _)

/-- The transcript of one expression is that of its text, or it is empty. -/
theorem run_tokenize (settings : Settings) (expr file : Option String) (feed : Feed) (tree : Tree) :
    ((tokenize settings expr file feed : StateM Tree _).run tree).1 =
      match ((readExpression expr file feed : StateM Tree _).run tree).1 with
      | .ok source => tokenizeText settings source
      | .error problem => ⟨[], .error problem⟩ := by
  rw [tokenize, Tree.run_bind]
  cases ((readExpression expr file feed : StateM Tree _).run tree).1 <;> rfl

theorem laid_tokenize (settings : Settings) (expr file : Option String) (feed : Feed)
    (tree : Tree) : Laid ((tokenize settings expr file feed : StateM Tree _).run tree).1.events := by
  rw [run_tokenize]
  split
  · exact laid_tokenizeText settings _
  · exact .nil

theorem laid_replLine (settings : Settings) (before : Nat) (line : List UInt8) :
    Laid (replLine settings before line) := by
  have tokens := laid_scan settings.render settings.policy (String.ofList (Text.decodeLossy line))
  have divider : Laid (if before = 0 then [] else [.write ⟨"\n", false⟩]) := by
    split
    · exact .nil
    · exact .line "" (by decide) (by decide) .nil
  exact divider.append (.note _ tokens)

theorem laid_replLines (settings : Settings) (before : Nat) (lines : List (List UInt8)) :
    Laid (replLines settings before lines) := by
  induction lines generalizing before with
  | nil => exact .nil
  | cons line lines ih => exact (laid_replLine settings before line).append (ih (before + 1))

theorem laid_demo : Laid demo.events := by
  have tokens := laid_scan ⟨.text, false⟩ .wrapping demoExpression
  have title : Laid (.write ⟨"Tokens:" ++ "\n", false⟩ ::
      (render ⟨.text, false⟩ (scan .wrapping demoExpression)).map .write) :=
    .line "Tokens:" (by decide) (by decide) tokens
  simpa [demo, render, Function.comp_def] using title

/-- **Every command on an output that fails**: the output takes a prefix of what it would take, and
the byte that it refuses tells whether the problem is one of arrays. A command whose expression
cannot be read writes nothing. -/
theorem cutAt_commands (settings : Settings) (expr file : Option String) (feed : Feed)
    (tree : Tree) (n : Nat) :
    ((tokenize settings expr file feed : StateM Tree _).run tree).1.CutAt n ∧
      (repl settings feed).CutAt n ∧ demo.CutAt n ∧
      ∀ problem, ((readExpression expr file feed : StateM Tree _).run tree).1 = .error problem →
        (((tokenize settings expr file feed : StateM Tree _).run tree).1.deliver none).taken = [] ∧
        (((tokenize settings expr file feed : StateM Tree _).run tree).1.deliver none).outcome =
          .error problem := by
  refine ⟨Transcript.cutAt (laid_tokenize settings expr file feed tree) n,
    Transcript.cutAt (laid_replLines settings 0 feed.lines) n, Transcript.cutAt laid_demo n, ?_⟩
  intro problem failed
  rw [run_tokenize, failed]
  exact ⟨rfl, rfl⟩

-- The array of one token has 29 bytes; the line feed behind it is byte 29.
example : [28, 29, 30].map (fun n =>
    ((tokenizeText { render := ⟨.json, false⟩ } "7").deliver (some n)).outcome) =
      [.error (.array .writeFailed), .error (.stream .writeFailed), .ok ()] := by
  decide +kernel

end ArithTokens.Command
