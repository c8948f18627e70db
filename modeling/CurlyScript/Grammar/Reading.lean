import CurlyScript.Grammar.Construct

namespace CurlyScript

/-- Tries rules in turn until one matches or rejects. If all decline, nothing starts here. -/
def tryRules (ts : TokenStream) (start : Nat) (cursor : Cursor) : List Rule → Inquiry Verdict
  | [] => pure (.error ⟨.unexpected (ts.describe? cursor.token), cursor.token⟩)
  | rule :: rest => do
    match ← (rule.attempt ts start cursor).run with
    | .ok parsed => .note (.matched rule parsed.cursor.token) (pure (.ok parsed))
    | .error .declined => .note (.declined rule) (tryRules ts start cursor rest)
    | .error (.rejected error) => pure (.error error)

/-- Works out a request. At the end of the stream stands an empty node that spans it all, unless a
    filter asks for something else; anywhere else whitespace is skipped and the candidate rules are
    tried. -/
def Request.inquiry (ts : TokenStream) (request : Request) : Inquiry Verdict :=
  if request.start < ts.size then
    .note (.entered request)
      (tryRules ts request.start ((Cursor.fresh request.start).skipBlanks ts)
        (Rule.candidates request.filter))
  else
    match request.filter with
    | none => pure (.ok ⟨.empty ⟨0, ts.size⟩, .fresh request.start⟩)
    | some _ => pure (.error ⟨.unexpected none, request.start⟩)

end CurlyScript
