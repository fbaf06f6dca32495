import ArithTokens.Lexer.Session
import ArithTokens.Proofs.Lexer.Mark
import Mathlib.Data.List.Induction
import Mathlib.Logic.Function.Basic

/-!
# Sessions side by side

Any number of sessions read one text, and any of them may be copied onto another at any time. What
they give is told without a lexer, from the list of all tokens and from marks.

* a `Track` is what a session's marks are, and `Follows.step` compares a step of a session with a
  step of its track;
* `serve` and `run` are requests to a **pool** of sessions, or of tracks: `run_related` carries what
  one step keeps to whole runs;
* `history` is what a member of a pool was asked, along the copies that it descends from.
-/

namespace ArithTokens.Lexer

open Text (byteSize)

/-! ## Tracks -/

/-- The mark of a session's lexer, and that of the copy kept last. -/
structure Track where
  mark : Mark
  kept : Option Mark
deriving DecidableEq, Repr

namespace Track

/-- The track of a session that was asked nothing. -/
def start : Track := ⟨.start, none⟩

/-- What a step gives and where it leads, by the list of all tokens. -/
def step (policy : Overflow) (tokens : List Spanned) (track : Track) : Step → Reply × Track
  | .next =>
    (.token (tokens[track.mark.passed]?.map Spanned.token),
      { track with mark := track.mark.skip tokens 1 })
  | .nextSpanned =>
    (.spanned tokens[track.mark.passed]?, { track with mark := track.mark.skip tokens 1 })
  | .nth n =>
    (.token (tokens[track.mark.passed + n]?.map Spanned.token),
      { track with mark := track.mark.skip tokens (n + 1) })
  | .take n =>
    (.tokens (((tokens.drop track.mark.passed).take n).map Spanned.token),
      { track with mark := track.mark.skip tokens n })
  | .rest =>
    (.tokens ((tokens.drop track.mark.passed).map Spanned.token),
      { track with mark := ⟨tokens.length, true⟩ })
  | .fork => (.tokens ((tokens.drop track.mark.passed).map Spanned.token), track)
  | .save => (.nothing, { track with kept := some track.mark })
  | .restore =>
    match track.kept with
    | none => (.restored false, track)
    | some mark => (.restored true, { track with mark })
  | .policy => (.policy policy, track)
  | .look => (.nothing, track)

end Track

/-- Whether a session of a text has the marks of a track. -/
structure Follows (policy : Overflow) (text : String) (track : Track) (session : Session) :
    Prop where
  lexer : Stands policy text track.mark session.lexer
  kept : Option.Rel (Stands policy text) track.kept session.kept

namespace Follows

variable {policy : Overflow} {text : String} {track : Track} {session : Session}

theorem ofText (policy : Overflow) (text : String) :
    Follows policy text .start (Session.ofText policy text) :=
  ⟨Stands.ofText policy text, .none⟩

/-- **A step of a session** gives what a step of its track gives. -/
theorem step (follows : Follows policy text track session) (asked : Step) :
    (session.step asked).1 = (track.step policy (scan policy text) asked).1 ∧
      Follows policy text (track.step policy (scan policy text) asked).2
        (session.step asked).2 := by
  obtain ⟨lexer, kept⟩ := follows
  cases asked with
  | next =>
    obtain ⟨given, past⟩ := lexer.next
    exact ⟨congrArg (fun lexed => Reply.token (Option.map Spanned.token lexed)) given, past, kept⟩
  | nextSpanned =>
    obtain ⟨given, past⟩ := lexer.next
    exact ⟨congrArg Reply.spanned given, past, kept⟩
  | nth n =>
    obtain ⟨given, past⟩ := lexer.nth n
    exact ⟨congrArg Reply.token given, past, kept⟩
  | take n =>
    obtain ⟨given, past⟩ := lexer.take n
    exact ⟨congrArg Reply.tokens given, past, kept⟩
  | rest =>
    obtain ⟨given, stop⟩ := lexer.rest
    exact ⟨congrArg Reply.tokens given, stop, kept⟩
  | fork =>
    obtain ⟨given, -⟩ := lexer.rest
    exact ⟨congrArg Reply.tokens given, lexer, kept⟩
  | save => exact ⟨rfl, lexer, .some lexer⟩
  | restore =>
    obtain ⟨mark, keptMark⟩ := track
    obtain ⟨here, keptLexer⟩ := session
    cases kept with
    | none => exact ⟨rfl, lexer, .none⟩
    | some stands => exact ⟨rfl, stands, .some stands⟩
  | policy => exact ⟨congrArg Reply.policy lexer.policy_eq, lexer, kept⟩
  | look => exact ⟨rfl, lexer, kept⟩

end Follows

/-! ## Pools -/

/-- What is asked of a pool: a step of one member, or to copy one member onto another. -/
inductive Request where
  | ask (i : Nat) (step : Step)
  | copy (i j : Nat)
deriving Repr

section Pool

variable {σ τ : Type}

/-- Serves a request. Only the member that is asked, or copied onto, changes. -/
def serve (step : σ → Step → Reply × σ) (pool : Nat → σ) : Request → Reply × (Nat → σ)
  | .ask i asked =>
    let (reply, past) := step (pool i) asked
    (reply, Function.update pool i past)
  | .copy i j => (.nothing, Function.update pool j (pool i))

/-- Serves requests one after the other. -/
def run (step : σ → Step → Reply × σ) (pool : Nat → σ) : List Request → List Reply × (Nat → σ)
  | [] => ([], pool)
  | request :: requests =>
    let (reply, past) := serve step pool request
    let (replies, beyond) := run step past requests
    (reply :: replies, beyond)

variable {f : σ → Step → Reply × σ} {g : τ → Step → Reply × τ} {R : σ → τ → Prop}
  {pool : Nat → σ} {other : Nat → τ}

theorem run_concat (f : σ → Step → Reply × σ) (pool : Nat → σ) (requests : List Request)
    (request : Request) :
    (run f pool (requests ++ [request])).2 = (serve f (run f pool requests).2 request).2 := by
  induction requests generalizing pool with
  | nil => rfl
  | cons first requests ih => exact ih _

theorem serve_ask (f : σ → Step → Reply × σ) (pool : Nat → σ) (j : Nat) (asked : Step) (i : Nat) :
    (serve f pool (.ask j asked)).2 i = if i = j then (f (pool j) asked).2 else pool i :=
  Function.update_apply ..

theorem serve_copy (f : σ → Step → Reply × σ) (pool : Nat → σ) (j k i : Nat) :
    (serve f pool (.copy j k)).2 i = if i = k then pool j else pool i :=
  Function.update_apply ..

/-- What the steps of members keep, the requests to a pool keep. -/
theorem serve_related
    (steps : ∀ x y asked, R x y → (f x asked).1 = (g y asked).1 ∧ R (f x asked).2 (g y asked).2)
    (pools : ∀ i, R (pool i) (other i)) (request : Request) :
    (serve f pool request).1 = (serve g other request).1 ∧
      ∀ i, R ((serve f pool request).2 i) ((serve g other request).2 i) := by
  cases request with
  | ask i asked =>
    obtain ⟨replies, pasts⟩ := steps (pool i) (other i) asked (pools i)
    refine ⟨replies, fun j => ?_⟩
    rw [serve_ask, serve_ask]
    split
    · exact pasts
    · exact pools j
  | copy i k =>
    refine ⟨rfl, fun j => ?_⟩
    rw [serve_copy, serve_copy]
    split
    · exact pools i
    · exact pools j

/-- **What the steps of members keep, runs keep**, and if members give the same, so do runs. -/
theorem run_related
    (steps : ∀ x y asked, R x y → (f x asked).1 = (g y asked).1 ∧ R (f x asked).2 (g y asked).2)
    (pools : ∀ i, R (pool i) (other i)) (requests : List Request) :
    (run f pool requests).1 = (run g other requests).1 ∧
      ∀ i, R ((run f pool requests).2 i) ((run g other requests).2 i) := by
  induction requests generalizing pool other with
  | nil => exact ⟨rfl, pools⟩
  | cons request requests ih =>
    obtain ⟨reply, pasts⟩ := serve_related steps pools request
    obtain ⟨replies, beyond⟩ := ih pasts
    exact ⟨congrArg₂ List.cons reply replies, beyond⟩

/-! ### Histories -/

/-- The steps that a member of a pool was asked, along the copies that it descends from. The
requests are given the latest first. -/
def history : List Request → Nat → List Step
  | [], _ => []
  | .ask j asked :: earlier, i => if i = j then history earlier j ++ [asked] else history earlier i
  | .copy j k :: earlier, i => if i = k then history earlier j else history earlier i

/-- Takes steps one after the other, for what they do and not for what they give. -/
def play (step : σ → Step → Reply × σ) (member : σ) (asked : List Step) : σ :=
  asked.foldl (fun member asked => (step member asked).2) member

/-- **A member of a pool is what its own history made it**: nothing that is asked of the others
reaches it. -/
theorem run_eq_play (f : σ → Step → Reply × σ) (start : σ) (requests : List Request) (i : Nat) :
    (run f (fun _ => start) requests).2 i = play f start (history requests.reverse i) := by
  -- Histories look back from the last request, and so does the induction.
  induction requests using List.reverseRecOn generalizing i with
  | nil => rfl
  | append_singleton requests request ih =>
    rw [run_concat, List.reverse_concat]
    cases request with
    | ask j asked =>
      rw [serve_ask, history, ih, ih]
      split
      · rw [play, play, List.foldl_append]
        rfl
      · rfl
    | copy j k =>
      rw [serve_copy, history, ih, ih]
      split <;> rfl

end Pool

/-! ## Sessions and their marks -/

/-- **Sessions read the tokens of their text**, however they are used. Whatever is asked of them and
however they are copied, they give what their marks tell of the list of all tokens: a member that
has passed `k` tokens gives the token at `k`, and it stands at the end of the token before, or at
the front if there is none. Once it has met the end it stands at the end of the text, and nothing
that is read from it gives a token or moves it. -/
theorem run_refines_tracks (policy : Overflow) (text : String) (requests : List Request) :
    let tokens := scan policy text
    let sessions := run Session.step (fun _ => .ofText policy text) requests
    let tracks := run (Track.step policy tokens) (fun _ => .start) requests
    sessions.1 = tracks.1 ∧
    ∀ i,
      let asked := history requests.reverse i
      let lexer := (sessions.2 i).lexer
      let mark := (tracks.2 i).mark
      sessions.2 i = play Session.step (.ofText policy text) asked ∧
      tracks.2 i = play (Track.step policy tokens) .start asked ∧
      lexer.next.1 = tokens[mark.passed]? ∧
      lexer.cursor.offset = mark.position text tokens ∧
      (mark.ended = true →
        lexer.cursor.offset = byteSize text.toList ∧
        lexer.next = (none, lexer) ∧
        (∀ n, lexer.nth n = (none, lexer) ∧ lexer.take n = ([], lexer)) ∧
        lexer.rest = ([], lexer)) := by
  have steps : ∀ session track asked, Follows policy text track session →
      (Session.step session asked).1 = (Track.step policy (scan policy text) track asked).1 ∧
        Follows policy text (Track.step policy (scan policy text) track asked).2
          (Session.step session asked).2 :=
    fun _ _ asked follows => follows.step asked
  obtain ⟨replies, follows⟩ :=
    run_related steps (fun _ => Follows.ofText policy text) requests
  refine ⟨replies, fun i => ?_⟩
  have stands := (follows i).lexer
  refine ⟨run_eq_play .., run_eq_play .., stands.next.1, stands.offset_eq, fun ended => ?_⟩
  have atEnd := stands.offset_eq
  rw [Mark.position, if_pos ended] at atEnd
  have still := stands.read_of_ended ended
  obtain ⟨next, -, -, rest⟩ := still 0
  exact ⟨atEnd, next, fun n => ⟨(still n).2.1, (still n).2.2.1⟩, rest⟩

/-- A copy that is read to the end stays there, behind the blank that ends the text. -/
theorem run_refines_tracks_copy_at_end :
    let requests := [Request.ask 0 (.take 1), .copy 0 1, .ask 1 .rest]
    let sessions := run Session.step (fun _ => .ofText .wrapping "1 2 ") requests
    let tracks := run (Track.step .wrapping (scan .wrapping "1 2 ")) (fun _ => .start) requests
    (tracks.2 1).mark.ended = true ∧ history requests.reverse 1 = [.take 1, .rest] ∧
      history requests.reverse 0 = [.take 1] ∧
      (sessions.2 1).lexer.cursor.offset = 4 ∧
      (sessions.2 1).lexer.next = (none, (sessions.2 1).lexer) := by
  intro requests sessions tracks
  have ended : (tracks.2 1).mark.ended = true := rfl
  obtain ⟨-, members⟩ := run_refines_tracks .wrapping "1 2 " requests
  obtain ⟨-, -, -, -, atEnd⟩ := members 1
  obtain ⟨offset, next, -⟩ := atEnd ended
  exact ⟨ended, rfl, rfl, offset, next⟩

end ArithTokens.Lexer
