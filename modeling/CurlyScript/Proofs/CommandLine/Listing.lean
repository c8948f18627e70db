import CurlyScript.Proofs.CommandLine.Files
import CurlyScript.Proofs.Dump.Lines
import CurlyScript.Proofs.Lexing.Canonical

namespace CurlyScript

section

variable {s t : Symbol} {token other : Token} {tokens others : List Token} {source : String}

/-- A symbol can be told by its name. -/
theorem Symbol.name_injective (h : s.name = t.name) : s = t := by
  have hnodup : (all.map name).Nodup := by decide
  exact List.inj_on_of_nodup_map hnodup s.mem_all t.mem_all h

theorem TokenKind.name_injective {kind kind' : TokenKind} (h : kind.name = kind'.name) :
    kind = kind' := by
  revert h
  cases kind <;> cases kind' <;> decide

namespace Token

/-- What a listing shows of a token between the braces. -/
def shown : Token → String
  | .text content => content
  | .symbol s => s.name

theorem toList_listing (token : Token) :
    token.listing.toList = "token<".toList ++ (token.kind.name.toList ++
      '>' :: ("\x7b ".toList ++ (token.shown.toList ++ " \x7d".toList))) := by
  cases token <;> simp [listing, shown]

theorem kind_symbol_ne_text (s : Symbol) : (symbol s).kind ≠ .text := by
  cases s <;> decide

/-- The kind of a token ends at the first chevron of its line, and what is shown of the token goes
    on up to the last brace, whatever is in it. -/
theorem listing_injective (h : token.listing = other.listing) : token = other := by
  have hchevron (kind : TokenKind) : '>' ∉ kind.name.toList := by cases kind <;> decide
  have hline := congrArg String.toList h
  rw [toList_listing, toList_listing] at hline
  obtain ⟨hname, hrest⟩ := append_cons_inj_of_notMem_left (hchevron token.kind)
    (hchevron other.kind) (List.append_cancel_left hline)
  have hkind : token.kind = other.kind := TokenKind.name_injective (String.toList_inj.mp hname)
  have hshown : token.shown = other.shown :=
    String.toList_inj.mp (List.append_cancel_right (List.append_cancel_left hrest))
  cases token with
  | text content =>
    cases other with
    | text content' => exact congrArg text hshown
    | symbol s => exact absurd hkind.symm (kind_symbol_ne_text s)
  | symbol s =>
    cases other with
    | text content => exact absurd hkind (kind_symbol_ne_text s)
    | symbol t => exact congrArg symbol (Symbol.name_injective hshown)

/-- A newline is never part of a text, since it separates. -/
theorem newline_notMem_shown (htoken : token ∈ tokenize source) : '\n' ∉ token.shown.toList := by
  cases token with
  | symbol s => cases s <;> decide
  | text content =>
    obtain rfl | rfl | ⟨hcombining, -⟩ | hplain := (canonical_tokenize source).texts content htoken
    · decide
    · decide
    · exact fun hmem => absurd (hcombining.2 _ hmem) (by decide)
    · exact fun hmem => absurd (hplain.2 _ hmem).2 (by decide)

theorem newline_notMem_listing (htoken : token ∈ tokenize source) :
    '\n' ∉ token.listing.toList := by
  have hname : '\n' ∉ token.kind.name.toList := by cases token.kind <;> decide
  have hshown := newline_notMem_shown htoken
  rw [toList_listing]
  simp [hname, hshown]

end Token

end

namespace CommandLine

variable {words : List String} {read : String → Except ReadError String} {limit : Nat}
  {path source : String}

theorem Asks.out_of_tokens (hasks : Asks words ⟨"tokens", limit, [path]⟩)
    (hread : read path = .ok source) :
    (run words read).out =
      String.join ((tokenize source).map fun token => token.listing ++ "\n") := by
  have houtput : outputOf .tokens limit read path = Action.tokens.perform limit path source := by
    rw [outputOf, hread]
  rw [hasks.run_eq_inTurn rfl, List.map_singleton, Output.inTurn_singleton, houtput]
  rfl

theorem toList_tokenLines (tokens : List Token) :
    (String.join (tokens.map fun token => token.listing ++ "\n")).toList =
      (tokens.map fun token => token.listing.toList).flatMap (· ++ ['\n']) := by
  simp [String.toList_join, List.flatMap_map]

theorem newline_notMem_lines (source : String) :
    ∀ line ∈ (tokenize source).map fun token => token.listing.toList, '\n' ∉ line :=
  List.forall_mem_map.mpr fun _ => Token.newline_notMem_listing

/-- The listing of the tokens of a source gives each of them a line, and it tells the source. -/
theorem token_listing_tells_source (hasks : Asks words ⟨"tokens", limit, [path]⟩)
    (hread : read path = .ok source) :
    (run words read).out =
      String.join ((tokenize source).map fun token => token.listing ++ "\n") ∧
    (run words read).out.toList.count '\n' = (tokenize source).length ∧
    ∀ {words' limit' path' read' source'}, Asks words' ⟨"tokens", limit', [path']⟩ →
      read' path' = .ok source' → (run words read).out = (run words' read').out →
        source = source' := by
  have hout := hasks.out_of_tokens hread
  refine ⟨hout, ?_, fun {words' limit' path' read' source'} hasks' hread' hsame => ?_⟩
  · rw [hout, toList_tokenLines, count_newline_lines (newline_notMem_lines source),
      List.length_map]
  · -- The lines give the tokens, and the tokens give the source back.
    have hlines : (tokenize source).map (fun token => token.listing.toList) =
        (tokenize source').map (fun token => token.listing.toList) := by
      apply lines_injective (newline_notMem_lines source) (newline_notMem_lines source')
      rw [← toList_tokenLines, ← toList_tokenLines, ← hout, hsame, hasks'.out_of_tokens hread']
    have htokens : tokenize source = tokenize source' := by
      refine List.map_injective_iff.mpr ?_ hlines
      exact fun _ _ hline => Token.listing_injective (String.toList_inj.mp hline)
    rw [← join_raw_tokenize source, htokens, join_raw_tokenize]

/-- A carriage return is part of the text before it and does not end its line. -/
theorem token_listing_tells_source_carriage_return :
    let words := ["tokens", "a", "--max-nesting", "3"]
    let words' := ["tokens", "b"]
    let read path : Except ReadError String := if path = "a" then .ok "x\r\n+=" else .ok "x\n+="
    Asks words ⟨"tokens", 3, ["a"]⟩ ∧ read "a" = .ok "x\r\n+=" ∧
      Asks words' ⟨"tokens", 256, ["b"]⟩ ∧ read "b" = .ok "x\n+=" ∧
      (run words read).out = "token<Text>\x7b x\r \x7d\ntoken<Whitespace>\x7b Newline \x7d\n" ++
        "token<Text>\x7b += \x7d\n" ∧
      (run words read).out.toList.count '\n' = 3 ∧
      (run words read).out ≠ (run words' read).out := by
  intro words words' read
  have hvalid : ∀ argument ∈ [Argument.file "a", .limit "3"], argument.Valid := by decide
  have hvalid' : ∀ argument ∈ [Argument.file "b"], argument.Valid := by decide
  have hasks : Asks words ⟨"tokens", 3, ["a"]⟩ := .intro (by decide) hvalid (by decide) (by decide)
  have hasks' : Asks words' ⟨"tokens", 256, ["b"]⟩ :=
    .intro (by decide) hvalid' (by decide) (by decide)
  have hread : read "a" = .ok "x\r\n+=" := rfl
  have hread' : read "b" = .ok "x\n+=" := rfl
  obtain ⟨hout, hcount, hsource⟩ := token_listing_tells_source hasks hread
  refine ⟨hasks, hread, hasks', hread', ?_, ?_, fun hsame => ?_⟩
  · rw [hout]
    decide +kernel
  · rw [hcount]
    decide +kernel
  · exact absurd (hsource hasks' hread' hsame) (by decide)

end CommandLine

end CurlyScript
