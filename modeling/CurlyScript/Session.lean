import CurlyScript.Grammar.Reading
import CurlyScript.Journal

namespace CurlyScript

/-- A computation that keeps a journal and may be given up, which keeps the journal so far. -/
abbrev Recorder := ExceptT TooDeep (StateM Journal)

/-- Answers a request with `levels` levels of nesting to go of `limit + 1`. The limit is checked
    before the journal is consulted. A verdict does not depend on the level at which it was found,
    so one that is in the journal answers the request at any level; giving up is no verdict and is
    not remembered. -/
def answer (ts : TokenStream) (limit : Nat) : (levels : Nat) → Request → Recorder Verdict
  | 0, request => throw ⟨limit, request.start⟩
  | levels + 1, request => do
    match (← get).lookup request with
    | some verdict => return verdict
    | none =>
      let verdict ← (request.inquiry ts).run (answer ts limit levels) fun step =>
        modify (·.log (.step (limit - levels) step))
      modify (·.remember request verdict)
      return verdict

/-- A token stream with the journal of the requests answered on it. -/
structure Session where
  tokens : TokenStream
  limit : Nat
  journal : Journal := {}

namespace Session

/-- Answers a request, and keeps the journal for the next one. -/
def parse (session : Session) (request : Request) : Except ParseError Parsed × Session :=
  let (result, journal) :=
    (answer session.tokens session.limit (session.limit + 1) request).run.run session.journal
  let outcome := match result with
    | .error stop => .error (.tooDeep stop)
    | .ok (.error error) => .error (.malformed error)
    | .ok (.ok parsed) => .ok parsed
  (outcome, { session with journal })

end Session

/-- How deep a script may nest unless told otherwise. -/
def defaultNesting : Nat :=
  256

/-- The node at the start of a token stream, whatever follows it. -/
def parseTokens (ts : TokenStream) : Except ParseError Node :=
  (Session.parse ⟨ts, defaultNesting, {}⟩ ⟨0, none⟩).1.map Parsed.node

end CurlyScript
