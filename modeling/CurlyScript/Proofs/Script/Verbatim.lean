import CurlyScript.Proofs.Grammar.Standing
import CurlyScript.Proofs.Lexing.Places
import CurlyScript.Proofs.Script.Reparsing

namespace CurlyScript

namespace TokenStream

variable {ts : TokenStream} {quote : Quote} {i j k close : Nat}

theorem toList_extract_append (ts : TokenStream) (hij : i ≤ j) (hjk : j ≤ k) :
    (ts.extract i k).toList = (ts.extract i j).toList ++ (ts.extract j k).toList := by
  rw [← Array.toList_append, Array.extract_append_extract, Nat.min_eq_left hij,
    Nat.max_eq_right hjk]

/-- What is skipped is blank. -/
theorem blanks_extract_skipBlanks (ts : TokenStream) (i : Nat) :
    Blanks (ts.extract i (ts.skipBlanks i)).toList := by
  fun_induction skipBlanks ts i with
  | case1 i hlt hblank ih =>
    rw [toList_extract_cons hlt (ts.le_skipBlanks (i + 1))]
    exact List.forall_mem_cons.mpr ⟨hblank, ih⟩
  | case2 i | case3 i => simp [Blanks]

/-- The tokens of a string with the quotes around them. -/
theorem toList_extract_quoted (hquote : ts.quoteAt? i = some quote)
    (hcloses : ts.ClosesAt quote (i + 1) close) :
    (ts.extract i (close + 1)).toList =
      .symbol quote.symbol :: ((ts.extract (i + 1) close).toList ++ [.symbol quote.symbol]) := by
  obtain ⟨hopen, hopened⟩ := Array.getElem?_eq_some_iff.mp (quoteAt?_eq_some_iff.mp hquote)
  obtain ⟨hclose, hclosed⟩ := Array.getElem?_eq_some_iff.mp (quoteAt?_eq_some_iff.mp hcloses.2.1)
  have hle := hcloses.1
  rw [toList_extract_cons hopen (by omega), toList_extract_append ts hle (Nat.le_succ close),
    toList_extract_cons hclose (Nat.lt_succ_self close), hopened, hclosed]
  simp

/-- The quote of a string is not in it. -/
theorem ClosesAt.notMem (hcloses : ts.ClosesAt quote i close) :
    .symbol quote.symbol ∉ (ts.extract i close).toList := by
  rw [Array.mem_toList_iff, Array.mem_iff_getElem]
  rintro ⟨n, hn, hsame⟩
  rw [Array.getElem_extract] at hsame
  rw [Array.size_extract] at hn
  have hlt : i + n < ts.size := by omega
  have hquote : ts.quoteAt? (i + n) = some quote :=
    quoteAt?_eq_some_iff.mpr (Array.getElem?_eq_some_iff.mpr ⟨hlt, hsame⟩)
  exact hcloses.2.2 (i + n) (Nat.le_add_right i n) (by omega) hquote

end TokenStream

/-- Neighbours in a part of canonical tokens are neighbours in the whole. -/
theorem Canonical.part {tokens whole : List Token} (hcanonical : Canonical whole)
    (hpart : tokens <:+: whole) : Canonical tokens where
  texts content hmem := hcanonical.texts content (hpart.subset hmem)
  apart := List.IsChain.infix hcanonical.apart hpart

/-- How a string stands in a source: behind a gap, between two quotes of one kind, which it does not
    have in itself. Its text is what the source has between the quotes, and that alone tells the
    tokens of the string. The brackets around the tokens are not in the source. -/
structure Node.QuotedIn (source : String) (ts : TokenStream) (span : Span) (tokens : List Token)
    (quote : Quote) (gap : List Token) : Prop where
  blanks : Blanks gap
  tokens_eq : (ts.extract span.start span.stop).toList =
    gap ++ .symbol quote.symbol :: (tokens ++ [.symbol quote.symbol])
  notMem : .symbol quote.symbol ∉ tokens
  source_eq : source = textOf (ts.extract 1 (span.start + gap.length)).toList ++
    quote.char.toString ++ textOf tokens ++ quote.char.toString ++
      textOf (ts.extract span.stop (ts.size - 1)).toList
  tokenize_eq : tokenize (textOf tokens) = tokens

theorem Quote.raw_symbol (quote : Quote) :
    (Token.symbol quote.symbol).raw = quote.char.toString := by
  cases quote <;> rfl

section

variable {source : String} {quote : Quote} {i close : Nat}

theorem toList_extract_enclose (tokens : List Token) :
    ((Script.enclose tokens).extract 1 ((Script.enclose tokens).size - 1)).toList = tokens := by
  simp [Script.enclose]

/-- The brackets around a source are no quotes. -/
theorem quote_bounds_of_enclose {tokens : List Token}
    (hquote : (Script.enclose tokens).quoteAt? i = some quote) :
    1 ≤ i ∧ i + 1 ≤ (Script.enclose tokens).size - 1 := by
  have hlt := TokenStream.lt_size_of_quoteAt? hquote
  rw [TokenStream.quoteAt?_eq_some_iff, Script.enclose, List.getElem?_toArray] at hquote
  rw [size_enclose] at hlt ⊢
  constructor
  · refine Nat.pos_of_ne_zero ?_
    rintro rfl
    cases quote <;> cases hquote
  · by_contra hlast
    obtain rfl : i = tokens.length + 1 := by omega
    simp at hquote
    cases quote <;> cases hquote

/-- The quotes around a string part the tokens of a source. -/
theorem tokenize_eq_of_quoted {ts : TokenStream} (hts : ts = Script.enclose (tokenize source))
    (hquote : ts.quoteAt? i = some quote) (hcloses : ts.ClosesAt quote (i + 1) close) :
    tokenize source = (ts.extract 1 i).toList ++ .symbol quote.symbol ::
      ((ts.extract (i + 1) close).toList ++ .symbol quote.symbol ::
        (ts.extract (close + 1) (ts.size - 1)).toList) := by
  have hwhole := toList_extract_enclose (tokenize source)
  rw [← hts] at hwhole
  have hopen := quote_bounds_of_enclose (hts ▸ hquote)
  have hclose := quote_bounds_of_enclose (hts ▸ hcloses.2.1)
  have hle := hcloses.1
  rw [← hts] at hopen hclose
  rw [← hwhole, TokenStream.toList_extract_append ts hopen.1 (by omega),
    TokenStream.toList_extract_append ts (Nat.le_of_succ_le (Nat.le_succ_of_le hle)) hclose.2,
    TokenStream.toList_extract_quoted hquote hcloses, List.cons_append, List.append_assoc,
    List.singleton_append]

end

/-- What stands in a script as a string is a string of its source. -/
theorem Node.Stands.quotedIn {source : String} {ts : TokenStream} {span : Span}
    {tokens : List Token} (hts : ts = Script.enclose (tokenize source))
    (hstands : (Node.string span tokens).Stands ts) :
    ∃ quote gap, Node.QuotedIn source ts span tokens quote gap := by
  obtain ⟨quote, close, hstop, hopening, hcloses, rfl⟩ := hstands.string
  have hquote : ts.quoteAt? (ts.skipBlanks span.start) = some quote :=
    TokenStream.shows_of_opening_eq hopening
  have hskip := ts.le_skipBlanks span.start
  have hlt := TokenStream.lt_size_of_quoteAt? hquote
  have hle := hcloses.1
  have hlength : span.start + (ts.extract span.start (ts.skipBlanks span.start)).toList.length =
      ts.skipBlanks span.start := by
    rw [Array.length_toList, Array.size_extract]
    omega
  have hparts := tokenize_eq_of_quoted hts hquote hcloses
  refine ⟨quote, (ts.extract span.start (ts.skipBlanks span.start)).toList,
    ts.blanks_extract_skipBlanks span.start, ?_, hcloses.notMem, ?_, ?_⟩
  · rw [hstop, TokenStream.toList_extract_append ts hskip (by omega),
      TokenStream.toList_extract_quoted hquote hcloses]
  · rw [hlength, hstop]
    calc source = Node.textOf (tokenize source) := (join_raw_tokenize source).symm
      _ = _ := by
        rw [hparts]
        simp only [Node.textOf_append, Node.textOf_cons, Quote.raw_symbol, String.append_assoc]
  · refine ((canonical_tokenize source).part ?_).tokenize_join_raw
    refine ⟨(ts.extract 1 (ts.skipBlanks span.start)).toList ++ [.symbol quote.symbol],
      .symbol quote.symbol :: (ts.extract (close + 1) (ts.size - 1)).toList, ?_⟩
    rw [hparts, List.append_assoc, List.append_assoc, List.singleton_append]

/-- No construct ends before what is nested in it. -/
theorem Node.stop_le_of_at? {ts : TokenStream} {node part : Node} {path : List Nat}
    (hspans : node.Everywhere (·.WellSpanned ts)) (hpart : node.at? path = some part) :
    part.span.stop ≤ node.span.stop :=
  (span_bounds_of_at? hspans hpart).2

/-- Every string in an accepted script is a string of the source as it stands there, and whatever it
    is nested in goes on to its end, so that nothing between its quotes ends anything. -/
theorem Script.strings_verbatim {limit : Nat} {source : String} {script : Script}
    (hok : Script.parse limit source = .ok script) {path : List Nat} {span : Span}
    {tokens : List Token} (hstring : script.root.at? path = some (.string span tokens)) :
    script.tokens = enclose (tokenize source) ∧
      (∃ quote gap, Node.QuotedIn source script.tokens span tokens quote gap) ∧
      ∀ above below outer, path = above ++ below → script.root.at? above = some outer →
        outer.span.start ≤ span.start ∧ span.stop ≤ outer.span.stop := by
  by_cases hne : tokenize source = []
  · rw [Script.parse_of_empty hne] at hok
    obtain rfl := Except.ok.inj hok
    obtain _ | ⟨k, path⟩ := path <;> cases hstring
  · obtain ⟨htokens, hreads⟩ := reads_of_parse_ok hne hok
    have hspans := hreads.wellSpanned (Nat.le_refl _) (solid_of_parse_ok hne hok)
    refine ⟨htokens, (hreads.all_stand path _ hstring).quotedIn htokens, ?_⟩
    rintro above below outer rfl houter
    have hspans' := hspans.at? houter
    rw [Node.at?_append, houter] at hstring
    exact ⟨(Node.everywhere_start_le hspans' below _ hstring).1,
      Node.stop_le_of_at? hspans' hstring⟩

/-- The string is in parentheses, with a gap before it. Neither the semicolon nor the parenthesis
    nor the other quote ends it or anything else. -/
theorem Script.strings_verbatim_parenthesised :
    let source := "( \";)'\")"
    let body : List Token := [.symbol .openParen, .symbol .space, .symbol .doubleQuote,
      .symbol .semiColon, .symbol .closeParen, .symbol .singleQuote, .symbol .doubleQuote,
      .symbol .closeParen]
    let captured : List Token := [.symbol .semiColon, .symbol .closeParen, .symbol .singleQuote]
    let script : Script := ⟨enclose body, .block ⟨0, 10⟩ [.string ⟨2, 8⟩ captured]⟩
    Script.parse 4 source = .ok script ∧
      script.root.at? [0] = some (.string ⟨2, 8⟩ captured) ∧
      (∃ quote gap, Node.QuotedIn source script.tokens ⟨2, 8⟩ captured quote gap) ∧
      8 ≤ script.root.span.stop := by
  intro source body captured script
  have hbody : tokenize source = body := by cbv
  have hparse : (Session.parse ⟨enclose body, 4, {}⟩ ⟨0, none⟩).1 =
      .ok ⟨script.root, .fresh 10⟩ := by cbv
  have hne : tokenize source ≠ [] := hbody ▸ List.cons_ne_nil _ _
  have hok : Script.parse 4 source = .ok script := by
    rw [parse_of_nonempty hne, hbody, hparse]
    exact ofParsed_enclose body script.root
  have hstring : script.root.at? [0] = some (.string ⟨2, 8⟩ captured) := rfl
  obtain ⟨-, hquoted, hwithin⟩ := Script.strings_verbatim hok hstring
  exact ⟨hok, hstring, hquoted, (hwithin [] [0] script.root rfl rfl).2⟩

end CurlyScript
