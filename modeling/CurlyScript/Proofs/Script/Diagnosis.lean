import CurlyScript.Proofs.Grammar.Viability
import CurlyScript.Proofs.Session.Depth
import CurlyScript.Proofs.Script.Outcome

namespace CurlyScript

/-- What a fault says about the token at which it shows. -/
def Fault.TrueAt (ts : TokenStream) (position : Nat) : Fault → Prop
  | .unexpected found => ∃ token, ts[position]? = some token ∧ found = some token.describe ∧
      token.isWhitespace = false ∧ token ≠ .symbol .openCurly ∧ token.quote? = none ∧
      ∀ name, token = .text name → isWord name = false
  | .expectedSeparator expected found => ∃ delimiters : Delimiters, delimiters.Usual ∧
      expected = delimiters.expected ∧ found = ts.describe? position ∧
      (found = none ↔ position = ts.size) ∧
      ∀ token, ts[position]? = some token → token.isWhitespace = false ∧
        token ≠ .symbol delimiters.separator ∧ token ≠ .symbol delimiters.closer
  | .invalidFunctionName found => ∃ before type content, position = before + 2 ∧
      ts[before]? = some (.text type) ∧ isWord type = true ∧
      ts[before + 1]? = some (.symbol .space) ∧ ts[position]? = some (.text content) ∧
      isWord content = false ∧ found = some (Token.text content).describe
  | .unterminatedString quote => position = ts.size ∧
      ∃ (i : Nat) (token : Token), ts[i]? = some token ∧ token.quote? = some quote ∧
      ∀ (j : Nat) (other : Token), i < j → ts[j]? = some other → other.quote? ≠ some quote

/-- What an error says about the tokens of a script. A token can also be unexpected because the
    outermost block is complete before it. -/
def ParseError.TrueOf (limit : Nat) (ts : TokenStream) : ParseError → Prop
  | .malformed ⟨fault, position⟩ => fault.TrueAt ts position ∨
      (∃ token, ts[position]? = some token ∧ fault = .unexpected (some token.describe)) ∧
        ∃ statements, Reads (ts.extract 0 position) 0 (.block ⟨0, position⟩ statements) position
  | .tooDeep stop => stop.limit = limit ∧ stop.position < ts.size

section

variable {ts : TokenStream} {i : Nat}

theorem TokenStream.isWhitespace_of_skipBlanks {token : Token}
    (htoken : ts[ts.skipBlanks i]? = some token) : token.isWhitespace = false := by
  rw [Bool.eq_false_iff]
  intro hblank
  have hstay := ts.skipBlanks_skipBlanks i
  obtain ⟨hlt, rfl⟩ := Array.getElem?_eq_some_iff.mp htoken
  have hmoved := ts.le_skipBlanks (ts.skipBlanks i + 1)
  rw [skipBlanks, dif_pos hlt, if_pos hblank] at hstay
  omega

/-- Where nothing begins, the token that stands there is not expected. -/
theorem trueAt_of_nothing (hlt : ts.skipBlanks i < ts.size)
    (hopening : ts.opening (ts.skipBlanks i) = .nothing) :
    (Fault.unexpected (ts.describe? (ts.skipBlanks i))).TrueAt ts (ts.skipBlanks i) := by
  obtain ⟨hcurly, hquote, hword, -⟩ := TokenStream.shows_of_opening_eq hopening
  have htoken := Array.getElem?_eq_getElem hlt
  refine ⟨_, htoken, ?_, TokenStream.isWhitespace_of_skipBlanks htoken, ?_, ?_, ?_⟩
  · rw [TokenStream.describe?, htoken]
    rfl
  · intro hsame
    rw [TokenStream.sees_iff.mpr (htoken.trans (congrArg some hsame))] at hcurly
    cases hcurly
  · rwa [TokenStream.quoteAt?_of_lt hlt] at hquote
  · intro name hname
    rw [Bool.eq_false_iff]
    intro hisWord
    rw [TokenStream.wordAt?_eq_some.mpr ⟨htoken.trans (congrArg some hname), hisWord⟩] at hword
    cases hword

theorem trueAt_of_openParen (hparen : ts.sees i .openParen = true) :
    (Fault.unexpected (ts.describe? i)).TrueAt ts i := by
  have htoken := TokenStream.sees_iff.mp hparen
  refine ⟨_, htoken, ?_, rfl, by decide, rfl, fun name hname => ?_⟩
  · rw [TokenStream.describe?, htoken]
    rfl
  · cases hname

theorem trueAt_of_misnamed (hopening : ts.opening i = .misnamed) :
    (Fault.invalidFunctionName (ts.describe? (i + 2))).TrueAt ts (i + 2) := by
  obtain ⟨type, htype, hspace, htext, hnone⟩ := TokenStream.shows_of_opening_eq hopening
  obtain ⟨content, hcontent⟩ := TokenStream.hasText_iff.mp htext
  obtain ⟨htype, hword⟩ := TokenStream.wordAt?_eq_some.mp htype
  refine ⟨i, type, content, rfl, htype, hword, TokenStream.sees_iff.mp hspace, hcontent, ?_, ?_⟩
  · rw [Bool.eq_false_iff]
    intro hname
    rw [TokenStream.wordAt?_eq_some.mpr ⟨hcontent, hname⟩] at hnone
    cases hnone
  · rw [TokenStream.describe?, hcontent]
    rfl

theorem trueAt_of_string {quote : Quote} (hopening : ts.opening i = .string quote)
    (hopen : ∀ j, i < j → ts.quoteAt? j ≠ some quote) :
    (Fault.unterminatedString quote).TrueAt ts ts.size := by
  have hquote : ts.quoteAt? i = some quote := TokenStream.shows_of_opening_eq hopening
  obtain ⟨token, htoken, hquote⟩ := Option.bind_eq_some_iff.mp hquote
  refine ⟨rfl, i, token, htoken, hquote, fun j other hlt hother hsame => ?_⟩
  apply hopen j hlt
  rw [TokenStream.quoteAt?, hother]
  exact hsame

/-- Where neither a separator nor the end of a list stands, one of them may be missed. -/
theorem trueAt_of_not_seenAt {delimiters : Delimiters} (husual : delimiters.Usual)
    (hle : ts.skipBlanks i ≤ ts.size)
    (hneither : delimiters.seenAt ts (ts.skipBlanks i) = false) :
    (Fault.expectedSeparator delimiters.expected (ts.describe? (ts.skipBlanks i))).TrueAt ts
      (ts.skipBlanks i) := by
  obtain ⟨hseparator, hcloser⟩ := Delimiters.seenAt_eq_false_iff.mp hneither
  refine ⟨delimiters, husual, rfl, rfl, ?_, fun token htoken => ⟨?_, ?_, ?_⟩⟩
  · rw [TokenStream.describe?, Option.map_eq_none_iff, Array.getElem?_eq_none_iff]
    omega
  · exact TokenStream.isWhitespace_of_skipBlanks htoken
  · rintro rfl
    rw [TokenStream.sees_iff.mpr htoken] at hseparator
    cases hseparator
  · rintro rfl
    rw [TokenStream.sees_iff.mpr htoken] at hcloser
    cases hcloser

end

variable {ts : TokenStream}

mutual

/-- Every fault of the grammar tells the truth about its token, if the input ends with a closing
    bracket. -/
theorem Fails.trueAt {start : Nat} {error : SyntaxError} :
    Fails ts start error → ts.Closed → error.fault.TrueAt ts error.position
  | .block hopening hlist, hclosed => by
    have hlt := TokenStream.lt_size_of_sees (TokenStream.shows_of_opening_eq hopening)
    exact hlist.trueAt hclosed (.inl rfl) hlt
  | .string hopening hopen, _ => trueAt_of_string hopening hopen
  | .named _ hbody, hclosed => hbody.trueAt hclosed
  | .misnamed hopening, _ => trueAt_of_misnamed hopening
  | .inline _ hbody, hclosed => hbody.trueAt hclosed
  | .call hopening hlist, hclosed => by
    have hle := TokenStream.place_le_size (congrArg Opening.place? hopening)
    exact hlist.trueAt hclosed (.inr rfl) hle
  | .inner _ hinner, hclosed => hinner.trueAt hclosed
  | .ungrouped hopening _ _, _ => trueAt_of_openParen (TokenStream.shows_of_opening_eq hopening)
  | .groupingCall _ _ _ hcall hlist, hclosed =>
    hlist.trueAt hclosed (.inr rfl) (TokenStream.lt_size_of_sees hcall)
  | .nothing hlt hopening, hclosed => trueAt_of_nothing (hclosed.skipBlanks_lt hlt) hopening

theorem FailsList.trueAt {delimiters : Delimiters} {i : Nat} {error : SyntaxError} :
    FailsList ts delimiters i error → ts.Closed → delimiters.Usual → i ≤ ts.size →
      error.fault.TrueAt ts error.position
  | .separator hseparator hrest, hclosed, husual, _ =>
    hrest.trueAt hclosed husual (TokenStream.lt_size_of_sees hseparator)
  | .ended hend, _, husual, hle => by
    apply trueAt_of_not_seenAt husual (TokenStream.skipBlanks_le_size hle)
    rw [Bool.eq_false_iff]
    intro hseen
    exact Nat.not_lt.mpr hend (Delimiters.lt_size_of_seenAt hseen)
  | .item _ hnode, hclosed, _, _ => hnode.trueAt hclosed
  | .undelimited _ hnode hend, _, husual, hle => by
    have hnext := hnode.stop_le_size (TokenStream.skipBlanks_le_size hle)
    exact trueAt_of_not_seenAt husual (TokenStream.skipBlanks_le_size hnext) hend
  | .rest _ _ hend hrest, hclosed, husual, _ =>
    hrest.trueAt hclosed husual (Nat.le_of_lt (Delimiters.lt_size_of_seenAt hend))

end

/-- A block with something behind it is a block on its own. -/
theorem Reads.exists_extract {stop : Nat} {node : Node} (hreads : Reads ts 0 node stop)
    (hcurly : ts.sees (ts.skipBlanks 0) .openCurly = true) (hlt : stop < ts.size) :
    ∃ statements, Reads (ts.extract 0 stop) 0 (.block ⟨0, stop⟩ statements) stop := by
  obtain ⟨_, -, hlist⟩ := hreads.exists_statements (TokenStream.opening_of_openCurly hcurly)
  have hbefore : ts.skipBlanks 0 < stop := Nat.lt_of_succ_lt hlist.start_lt
  have hagree := TokenStream.agreeBelow_continuedAt (Nat.le_of_lt hlt) []
  obtain ⟨statements, hstatements⟩ := hlist.completes (.inl rfl) _ hagree trivial
  rw [← hagree.sees_eq hbefore] at hcurly
  rw [← hagree.skipBlanks_eq hbefore] at hcurly hstatements
  have hextract : ts.continuedAt stop [] = ts.extract 0 stop := by simp [TokenStream.continuedAt]
  rw [hextract] at hcurly hstatements
  exact ⟨statements, .block (TokenStream.opening_of_openCurly hcurly) hstatements⟩

section

variable {limit : Nat} {error : ParseError}

/-- What a parse of a block at the beginning of the input reports is so. -/
theorem Session.error_trueOf (hclosed : ts.Closed)
    (hcurly : ts.sees (ts.skipBlanks 0) .openCurly = true)
    (herror : (Session.parse ⟨ts, limit, {}⟩ ⟨0, none⟩).1 = .error error) :
    1 ≤ error.position ∧ error.position ≤ ts.size ∧ error.TrueOf limit ts := by
  cases error with
  | malformed error =>
    have hfails := accounted ts 0 error (verdict_of_malformed herror)
    have hlt := hfails.lt_position_of_block (TokenStream.opening_of_openCurly hcurly)
    exact ⟨Nat.lt_of_le_of_lt (Nat.zero_le _) hlt, hfails.position_le_size (Nat.zero_le _),
      .inl (hfails.trueAt hclosed)⟩
  | tooDeep stop =>
    obtain ⟨hlimit, hpositive, hlt⟩ := position_of_tooDeep hclosed hcurly herror
    exact ⟨hpositive, Nat.le_of_lt hlt, hlimit, hlt⟩

/-- A block that leaves tokens behind is complete before them. -/
theorem Script.error_trueOf_of_ofParsed {parsed : Parsed}
    (hcurly : ts.sees (ts.skipBlanks 0) .openCurly = true)
    (hparsed : (Session.parse ⟨ts, limit, {}⟩ ⟨0, none⟩).1 = .ok parsed)
    (herror : ofParsed ts parsed = .error error) :
    1 ≤ error.position ∧ error.position ≤ ts.size ∧ error.TrueOf limit ts := by
  unfold ofParsed at herror
  split at herror
  · cases herror
  · next extra hextra =>
    obtain rfl := (Except.error.inj herror).symm
    obtain ⟨node, hreads⟩ := exists_reads_of_verdict (Session.verdict_of_ok hparsed)
    obtain ⟨token, htoken, rfl⟩ := Option.map_eq_some_iff.mp hextra
    have hlt := (Array.getElem?_eq_some_iff.mp htoken).1
    exact ⟨hreads.lt (Nat.lt_of_le_of_lt (Nat.zero_le _) hlt), Nat.le_of_lt hlt,
      .inr ⟨⟨token, htoken, rfl⟩, hreads.exists_extract hcurly hlt⟩⟩

theorem closed_enclose (tokens : List Token) : (Script.enclose tokens).Closed := by
  rw [TokenStream.Closed, size_enclose, TokenStream.sees_iff, Script.enclose]
  simp

/-- Every error of a script tells the truth about the token at which it shows. -/
theorem Script.parse_error_trueOf {source : String}
    (herror : Script.parse limit source = .error error) :
    1 ≤ error.position ∧ error.position ≤ (enclose (tokenize source)).size ∧
      error.TrueOf limit (enclose (tokenize source)) := by
  have hne : tokenize source ≠ [] := by
    intro hempty
    rw [parse_of_empty hempty] at herror
    cases herror
  have hcurly : (enclose (tokenize source)).sees
      ((enclose (tokenize source)).skipBlanks 0) .openCurly = true := by
    rw [skipBlanks_enclose]
    rfl
  rw [parse_of_nonempty hne] at herror
  cases hparsed : (Session.parse ⟨enclose (tokenize source), limit, {}⟩ ⟨0, none⟩).1 with
  | error first =>
    rw [hparsed] at herror
    obtain rfl : first = error := Except.error.inj herror
    exact Session.error_trueOf (closed_enclose _) hcurly hparsed
  | ok parsed =>
    rw [hparsed] at herror
    exact error_trueOf_of_ofParsed hcurly hparsed herror

/-- The outermost block is complete before the space, which is in excess. -/
theorem Script.parse_error_trueOf_excess :
    Script.parse 2 "\x7d " = .error (.malformed ⟨.unexpected (some "space"), 2⟩) ∧
      ParseError.TrueOf 2 (enclose (tokenize "\x7d "))
        (.malformed ⟨.unexpected (some "space"), 2⟩) := by
  have herror : Script.parse 2 "\x7d " =
      .error (.malformed ⟨.unexpected (some "space"), 2⟩) := by cbv
  exact ⟨herror, (parse_error_trueOf herror).2.2⟩

end

end CurlyScript
