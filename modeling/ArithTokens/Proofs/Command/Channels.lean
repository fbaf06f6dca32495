import ArithTokens.Proofs.Command.Output
import ArithTokens.Proofs.Text.Lossy

/-!
# The three channels of an expression

An expression is given outright, or stands in a file, or is all of the input.

* `tokenized_text`, `tokenized_file` and `tokenized_input` are what comes of each channel;
* `tokenized_channels` says that the channels agree where they carry the same, and that **no channel
  shows through another** that counts before it.
-/

namespace ArithTokens.Command

variable {settings : Settings} {tree : Tree} {path : String} {bytes : List UInt8}

/-- What comes of an expression on a tree of files. -/
def tokenized (settings : Settings) (expr file : Option String) (feed : Feed) (tree : Tree) :
    Transcript Unit :=
  ((tokenize settings expr file feed : StateM Tree _).run tree).1

/-- The transcript of bytes that are decoded. -/
def tokenizeBytes (settings : Settings) (bytes : List UInt8) : Transcript Unit :=
  tokenizeText settings (String.ofList (Text.decodeLossy bytes))

/-! ## One channel -/

/-- An expression that is given outright counts, whatever else there is. -/
theorem tokenized_text (settings : Settings) (text : String) (file : Option String) (feed : Feed)
    (tree : Tree) : tokenized settings (some text) file feed tree = tokenizeText settings text :=
  run_tokenize settings (some text) file feed tree

/-- A file counts before the input, if it can be read or not. -/
theorem tokenized_file (settings : Settings) (path : String) (feed : Feed) (tree : Tree) :
    tokenized settings none (some path) feed tree =
      match tree.read (Path.ofString path) with
      | .ok bytes => tokenizeBytes settings bytes
      | .error cause => ⟨[], .error (.unreadable path cause)⟩ := by
  have read : (FileAccess.read (Path.ofString path) : StateM Tree _).run tree =
      (tree.read (Path.ofString path), tree) := rfl
  rw [tokenized, run_tokenize, readExpression, Tree.run_bind, read]
  cases tree.read (Path.ofString path) <;> rfl

theorem tokenized_input (settings : Settings) (feed : Feed) (tree : Tree) :
    tokenized settings none none feed tree =
      if feed.breaks then ⟨[], .error (.stream .readFailed)⟩
      else tokenizeBytes settings feed.bytes := by
  rw [tokenized, run_tokenize, readExpression, Feed.readAll]
  cases feed.breaks <;> rfl

/-- The bytes of a text come to what the text comes to. -/
theorem tokenizeBytes_bytesOf (settings : Settings) (text : String) :
    tokenizeBytes settings (Text.bytesOf text) = tokenizeText settings text := by
  rw [tokenizeBytes, Text.bytesOf, Text.decodeLossy_encode, String.ofList_toList]

/-! ## The theorem -/

/-- **The channels of an expression agree**, and each hides those that come after it.

* A text has the same transcript, which ends well, given outright, as the bytes of a file and as the
  bytes of the input.
* Bytes of any kind have the same transcript in a file and in the input.
* An expression that is given outright hides the file, the tree and the input, and a file hides the
  input, even one that breaks.
* A file that cannot be read is a problem of the expression, and an input that breaks one of
  streams; in both cases nothing is written. -/
theorem tokenized_channels (settings : Settings) :
    (∀ text path tree feed, tree.read (Path.ofString path) = .ok (Text.bytesOf text) →
      ∀ file feed' tree' tree'',
        (tokenized settings (some text) file feed' tree').outcome = .ok () ∧
        tokenized settings none (some path) feed tree =
          tokenized settings (some text) file feed' tree' ∧
        tokenized settings none none ⟨Text.bytesOf text, false⟩ tree'' =
          tokenized settings (some text) file feed' tree') ∧
    (∀ bytes path tree feed tree', tree.read (Path.ofString path) = .ok bytes →
      (tokenized settings none (some path) feed tree).outcome = .ok () ∧
      tokenized settings none (some path) feed tree =
        tokenized settings none none ⟨bytes, false⟩ tree') ∧
    (∀ text file file' feed feed' tree tree', tokenized settings (some text) file feed tree =
      tokenized settings (some text) file' feed' tree') ∧
    (∀ path feed feed' tree, tokenized settings none (some path) feed tree =
      tokenized settings none (some path) feed' tree) ∧
    (∀ path feed tree cause, tree.read (Path.ofString path) = .error cause →
      ∃ problem, problem.kind = .input ∧
        tokenized settings none (some path) feed tree = ⟨[], .error problem⟩) ∧
    ∀ bytes tree, ∃ problem, problem.kind = .io ∧
      tokenized settings none none ⟨bytes, true⟩ tree = ⟨[], .error problem⟩ := by
  refine ⟨?_, ?_, ?_, ?_, ?_, ?_⟩
  · intro text path tree feed read file feed' tree' tree''
    rw [tokenized_text, tokenized_file, read, tokenized_input]
    exact ⟨rfl, tokenizeBytes_bytesOf settings text, tokenizeBytes_bytesOf settings text⟩
  · intro bytes path tree feed tree' read
    rw [tokenized_file, read, tokenized_input]
    exact ⟨rfl, rfl⟩
  · intro text file file' feed feed' tree tree'
    rw [tokenized_text, tokenized_text]
  · intro path feed feed' tree
    rw [tokenized_file, tokenized_file]
  · intro path feed tree cause failed
    exact ⟨.unreadable path cause, rfl, by rw [tokenized_file, failed]⟩
  · intro bytes tree
    exact ⟨.stream .readFailed, rfl, tokenized_input settings _ tree⟩

/-- The channels agree on a text with a character of two bytes, whatever they hide. -/
theorem tokenized_channels_accent :
    (⟨[(["sum"], .file (Text.bytesOf "7 é"))], []⟩ : Tree).read (Path.ofString "/sum") =
        .ok (Text.bytesOf "7 é") ∧
      tokenized {} none (some "/sum") ⟨[], true⟩ ⟨[(["sum"], .file (Text.bytesOf "7 é"))], []⟩ =
        tokenized {} (some "7 é") (some "/nowhere") ⟨[], true⟩ ⟨[], []⟩ := by
  have read : (⟨[(["sum"], .file (Text.bytesOf "7 é"))], []⟩ : Tree).read (Path.ofString "/sum") =
      .ok (Text.bytesOf "7 é") := by decide +kernel
  obtain ⟨agree, -⟩ := tokenized_channels {}
  obtain ⟨-, file, -⟩ := agree _ _ _ ⟨[], true⟩ read (some "/nowhere") ⟨[], true⟩ ⟨[], []⟩ ⟨[], []⟩
  exact ⟨read, file⟩

end ArithTokens.Command
