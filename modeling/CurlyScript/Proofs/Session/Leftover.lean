import CurlyScript.Proofs.Grammar.Portability
import CurlyScript.Proofs.Grammar.Prefix
import CurlyScript.Proofs.Script.Diagnosis
import CurlyScript.Proofs.Script.Verbatim

namespace CurlyScript

section

variable {ts ts' : TokenStream} {start stop : Nat} {node : Node}

/-- The span of a node tells whether there are parentheses around it. -/
theorem Reads.span_eq_or_grouping (hreads : Reads ts start node stop) (hsolid : node.Solid) :
    node.span = ⟨start, stop⟩ ∨ start < node.span.start ∧ ∃ next,
      Reads ts (ts.skipBlanks start + 1) node next ∧ stop = ts.skipBlanks next + 1 := by
  cases hreads with
  | empty => exact absurd rfl hsolid.kind_ne
  | @grouping _ next _ _ hinner =>
    have hskip := ts.le_skipBlanks start
    have hbounds := hinner.span_bounds hsolid.kind_ne
    exact .inr ⟨by omega, next, hinner, rfl⟩
  | _ => exact .inl rfl

/-- A node that two inputs share ends in both where it ends in one. -/
theorem Reads.stop_eq {start stop stop' : Nat} {node : Node} :
    Reads ts start node stop → node.Solid → ts.AgreeBelow ts' stop → Reads ts' start node stop' →
      stop' = stop
  | .empty _, hsolid, _, _ => absurd rfl hsolid.kind_ne
  | @Reads.grouping _ start next _ hopening hinner hclose hcall, hsolid, hagree, hreads' => by
    have hskip := ts.le_skipBlanks start
    have hskip' := ts.le_skipBlanks next
    have hle := hinner.le
    have hbounds := hinner.span_bounds hsolid.kind_ne
    -- The span begins behind the parenthesis, so the other input has one there as well.
    obtain hspan | ⟨-, next', hinner', rfl⟩ := hreads'.span_eq_or_grouping hsolid
    · rw [hspan] at hbounds
      simp only at hbounds
      omega
    · rw [hagree.skipBlanks_eq (by omega)] at hinner'
      obtain rfl := hinner.stop_eq hsolid (hagree.mono (by omega)) hinner'
      rw [hagree.skipBlanks_eq (by omega)]
  | .block _ _, hsolid, _, hreads' | .string _ _ _ _, hsolid, _, hreads'
  | .named _ _, hsolid, _, hreads' | .inline _ _, hsolid, _, hreads'
  | .call _ _, hsolid, _, hreads' | .word _, hsolid, _, hreads'
  | .groupingCall _ _ _ _ _, hsolid, _, hreads' => by
    obtain hspan | ⟨hlt, -⟩ := hreads'.span_eq_or_grouping hsolid
    · exact (congrArg Span.stop hspan).symm
    · exact absurd hlt (Nat.lt_irrefl _)

/-- What was read up to an index is read with other tokens from there on, unless it goes on with
    them. It takes no more levels then. -/
theorem Reads.continued (hreads : Reads ts start node stop) (hsolid : node.Solid)
    (hagree : ts.AgreeBelow ts' stop) (hends : ¬ node.GoesOn ts' stop) :
    Carried ts id ts' start node stop :=
  hreads.carried hsolid hagree.carries (Nat.zero_le _) (Nat.le_refl _)
    (by rwa [Node.moved_id])

end

section

variable {ts : TokenStream} {limit start stop : Nat} {root : Node}

theorem Session.parse_eq_ok_iff_fits :
    (Session.parse ⟨ts, limit, {}⟩ ⟨start, none⟩).1 = .ok ⟨root, .fresh stop⟩ ↔
      Request.Fits ts (limit + 1) ⟨start, none⟩ ∧ Reads ts start root stop := by
  rw [Session.parse_eq_ok_iff, agrees ts start]
  refine and_congr_right fun _ => ⟨?_, fun hreads => ⟨root, stop, hreads, rfl⟩⟩
  rintro ⟨node, next, hreads, hsame⟩
  simp only [Parsed.mk.injEq] at hsame
  obtain ⟨rfl, hcursor⟩ := hsame
  obtain rfl : stop = next := congrArg Cursor.token hcursor
  exact hreads

theorem parseTokens_eq_ok_iff :
    parseTokens ts = .ok root ↔
      ∃ stop, (Session.parse ⟨ts, defaultNesting, {}⟩ ⟨0, none⟩).1 = .ok ⟨root, .fresh stop⟩ := by
  rw [parseTokens]
  constructor
  · intro hok
    cases hparse : (Session.parse ⟨ts, defaultNesting, {}⟩ ⟨0, none⟩).1 with
    | error error =>
      rw [hparse] at hok
      cases hok
    | ok parsed =>
      rw [hparse] at hok
      obtain rfl := Except.ok.inj hok
      obtain ⟨node, stop, -, rfl⟩ := (agrees ts 0 parsed).mp (Session.verdict_of_ok hparse)
      exact ⟨stop, rfl⟩
  · rintro ⟨stop, hparse⟩
    rw [hparse]
    rfl

/-- Only blanks are left from an index on exactly if skipping blanks leads to the end. -/
theorem blanks_extract_size_iff (hle : stop ≤ ts.size) :
    Blanks (ts.extract stop ts.size).toList ↔ ts.describe? (ts.skipBlanks stop) = none := by
  have hskip := TokenStream.skipBlanks_le_size hle
  rw [TokenStream.describe?, Option.map_eq_none_iff, Array.getElem?_eq_none_iff]
  constructor
  · intro hblanks
    by_contra hnot
    have hlt := Nat.lt_of_not_le hnot
    rw [TokenStream.toList_extract_append ts (ts.le_skipBlanks stop) hskip,
      TokenStream.toList_extract_cons hlt hlt] at hblanks
    have hblank := hblanks _ (List.mem_append_right _ (List.mem_cons_self ..))
    rw [TokenStream.isWhitespace_of_skipBlanks (Array.getElem?_eq_getElem hlt)] at hblank
    cases hblank
  · intro hge
    have hblanks := ts.blanks_extract_skipBlanks stop
    rwa [Nat.le_antisymm hskip hge] at hblanks

/-- The rest of the tokens decides only whether a node goes on with it. -/
theorem parseTokens_continuedAt_eq_ok_iff
    (hparse : (Session.parse ⟨ts, defaultNesting, {}⟩ ⟨0, none⟩).1 = .ok ⟨root, .fresh stop⟩)
    (hsolid : root.Solid) (rest : List Token) :
    parseTokens (ts.continuedAt stop rest) = .ok root ↔
      ¬ root.GoesOn (ts.continuedAt stop rest) stop := by
  obtain ⟨hfits, hreads⟩ := Session.parse_eq_ok_iff_fits.mp hparse
  have hagree := TokenStream.agreeBelow_continuedAt (hreads.stop_le_size (Nat.zero_le _)) rest
  rw [parseTokens_eq_ok_iff]
  constructor
  · rintro ⟨stop', hparse'⟩
    have hreads' := (Session.parse_eq_ok_iff_fits.mp hparse').2
    obtain rfl := hreads.stop_eq hsolid hagree hreads'
    exact hreads'.not_goesOn hsolid
  · intro hends
    have hcarried := hreads.continued hsolid hagree hends
    have hreads' := hcarried.reads
    rw [Node.moved_id] at hreads'
    exact ⟨stop, Session.parse_eq_ok_iff_fits.mpr ⟨hcarried.fits _ hfits, hreads'⟩⟩

/-- A stream need not be read to its end. What was read of it is read again with any other tokens
    behind it, unless it goes on with them, and nothing is said of those tokens. Only from a node
    that takes up the whole stream something may be missing. -/
theorem parseTokens_leaves_rest (hok : parseTokens ts = .ok root) :
    ∃ stop ≤ ts.size,
      (Session.parse ⟨ts, defaultNesting, {}⟩ ⟨0, none⟩).1 = .ok ⟨root, .fresh stop⟩ ∧
      ((∀ token ∈ (ts.extract stop ts.size).toList, token.isWhitespace = true) ↔
        ts.describe? (ts.skipBlanks stop) = none) ∧
      (¬ root.Solid → stop = ts.size) ∧
      (root.Solid → ∀ rest, parseTokens (ts.continuedAt stop rest) = .ok root ↔
        ¬ root.GoesOn (ts.continuedAt stop rest) stop) := by
  obtain ⟨stop, hparse⟩ := parseTokens_eq_ok_iff.mp hok
  have hreads := (Session.parse_eq_ok_iff_fits.mp hparse).2
  have hle := hreads.stop_le_size (Nat.zero_le _)
  refine ⟨stop, hle, hparse, blanks_extract_size_iff hle, fun hmissing => ?_,
    fun hsolid => parseTokens_continuedAt_eq_ok_iff hparse hsolid⟩
  by_contra hne
  exact hmissing (hreads.solid (Nat.lt_of_le_of_ne hle hne))

/-- A parenthesis too many is passed over behind a call, and so is another statement. With a body
    behind it the call is none. -/
theorem parseTokens_leaves_rest_call :
    let ts : TokenStream := #[.text "f", .symbol .openParen, .symbol .closeParen,
      .symbol .closeParen]
    let root : Node := .execution ⟨0, 3⟩ (.identifier ⟨0, 1⟩ "f") []
    parseTokens ts = .ok root ∧ root.Solid ∧
      ¬ (∀ token ∈ (ts.extract 3 ts.size).toList, token.isWhitespace = true) ∧
      parseTokens (ts.continuedAt 3 [.symbol .semiColon, .text "x"]) = .ok root ∧
      parseTokens (ts.continuedAt 3 [.symbol .openCurly, .symbol .closeCurly]) ≠ .ok root := by
  intro ts root
  have hok : parseTokens ts = .ok root := by cbv
  have hparse' : (Session.parse ⟨ts, defaultNesting, {}⟩ ⟨0, none⟩).1 = .ok ⟨root, .fresh 3⟩ := by
    cbv
  obtain ⟨stop, -, hparse, hblanks, hmissing, hrest⟩ := parseTokens_leaves_rest hok
  obtain rfl : stop = 3 := by
    rw [hparse, Except.ok.injEq, Parsed.mk.injEq] at hparse'
    exact congrArg Cursor.token hparse'.2
  have hsolid : root.Solid := by
    by_contra hnot
    exact absurd (hmissing hnot) (by decide)
  have hparen : ts.describe? (ts.skipBlanks 3) ≠ none := by
    rw [show ts.skipBlanks 3 = 3 by cbv]
    decide
  have hseparator : (ts.continuedAt 3 [.symbol .semiColon, .text "x"]).sees
      ((ts.continuedAt 3 [.symbol .semiColon, .text "x"]).skipBlanks 3) .semiColon = true := by cbv
  have hends := TokenStream.StopsAt.of_sees hseparator (by decide)
  exact ⟨hok, hsolid, mt hblanks.mp hparen, (hrest hsolid _).mpr hends.not_goesOn,
    fun hsame => (hrest hsolid _).mp hsame (.definition rfl rfl (.inl (by cbv)))⟩

/-- A stream that is accepted may have more than blanks behind its node. -/
theorem parseTokens_accepts_parenthesis :
    ¬ ∀ (ts : TokenStream) (root : Node) (stop : Nat),
      parseTokens ts = .ok root →
        (Session.parse ⟨ts, defaultNesting, {}⟩ ⟨0, none⟩).1 = .ok ⟨root, .fresh stop⟩ →
          ∀ token ∈ (ts.extract stop ts.size).toList, token.isWhitespace = true := by
  intro hall
  have hok : parseTokens #[.text "a", .symbol .closeParen] = .ok (.identifier ⟨0, 1⟩ "a") := by cbv
  have hparse : (Session.parse ⟨#[.text "a", .symbol .closeParen], defaultNesting, {}⟩
      ⟨0, none⟩).1 = .ok ⟨.identifier ⟨0, 1⟩ "a", .fresh 1⟩ := by cbv
  exact absurd (hall _ _ _ hok hparse (.symbol .closeParen) (by decide)) (by decide)

end

end CurlyScript
