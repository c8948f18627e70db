import CurlyScript.Proofs.Script.Verbatim

namespace CurlyScript

section

variable {tokens more : List Token} {source : String} {n : ℕ}

theorem locate_append_of_le (hn : n ≤ tokens.length) :
    locate (tokens ++ more) n = locate tokens n := by
  rw [locate, List.take_append_of_le_length hn, ← locate]

/-- Past the end only the text of all tokens counts. -/
theorem locate_append_singleton_of_lt (s : Symbol) (hn : tokens.length < n) :
    locate (tokens ++ [.symbol s]) n = (locate tokens n).advance s.char := by
  have hlength : (tokens ++ [Token.symbol s]).length ≤ n := by simpa using hn
  rw [locate, List.take_of_length_le hlength, List.flatMap_append, List.foldl_append, locate,
    List.take_of_length_le (Nat.le_of_lt hn), List.flatMap_singleton, Token.raw,
    toList_char_toString]
  rfl

end

namespace Script

variable {limit i : ℕ} {source : String} {script : Script}

theorem tokens_of_parse_ok (hok : Script.parse limit source = .ok script) :
    script.tokens = enclose (tokenize source) := by
  by_cases hne : tokenize source = []
  · rw [parse_of_empty hne] at hok
    obtain rfl := Except.ok.inj hok
    rw [hne]
  · exact (reads_of_parse_ok hne hok).1

/-- Only the opening bracket is left out of the count of a script, so the closing one is counted. -/
theorem locate_enclose (htokens : script.tokens = enclose (tokenize source)) (i : ℕ) :
    script.locate i = CurlyScript.locate (tokenize source ++ [.symbol .closeCurly]) (i - 1) := by
  rw [locate, htokens]
  rfl

theorem locate_of_lt_size (hok : Script.parse limit source = .ok script)
    (hi : i < script.tokens.size) :
    script.locate i = CurlyScript.locate (tokenize source) (i - 1) := by
  have htokens := tokens_of_parse_ok hok
  rw [htokens, size_enclose] at hi
  rw [locate_enclose htokens, locate_append_of_le (by omega)]

theorem locate_of_size_le (hok : Script.parse limit source = .ok script)
    (hi : script.tokens.size ≤ i) :
    script.locate i = (Location.ofChar source source.length).advance '\x7d' := by
  have htokens := tokens_of_parse_ok hok
  rw [htokens, size_enclose] at hi
  rw [locate_enclose htokens, locate_append_singleton_of_lt _ (by omega),
    locate_tokenize_of_length_le (by omega)]
  rfl

theorem locate_eq_iff (hok : Script.parse limit source = .ok script) :
    script.locate i = CurlyScript.locate (tokenize source) (i - 1) ↔ i < script.tokens.size := by
  refine ⟨fun hsame => ?_, locate_of_lt_size hok⟩
  by_contra hi
  have hpast := locate_of_size_le hok (Nat.le_of_not_lt hi)
  rw [hsame] at hpast
  exact absurd (hpast ▸ locate_tokenize_le source (i - 1)) (Location.lt_advance _ _).not_ge

theorem locate_le_iff (hok : Script.parse limit source = .ok script) :
    script.locate i ≤ .ofChar source source.length ↔ i < script.tokens.size := by
  refine ⟨fun hle => ?_, fun hi => ?_⟩
  · by_contra hi
    rw [locate_of_size_le hok (Nat.le_of_not_lt hi)] at hle
    exact absurd hle (Location.lt_advance _ _).not_ge
  · rw [locate_of_lt_size hok hi]
    exact locate_tokenize_le source _

/-- The outermost block begins with the first token and ends behind the last one, and all that is
    in it ends before its closing bracket. -/
theorem part_bounds (hok : Script.parse limit source = .ok script)
    {path : List Nat} {part : Node} (hpart : script.root.at? path = some part) :
    part.span.start < script.tokens.size ∧
      (part.span.stop < script.tokens.size ↔ path ≠ []) := by
  by_cases hempty : source = ""
  · rw [parse_of_empty (tokenize_eq_nil_iff.mpr hempty)] at hok
    obtain rfl := Except.ok.inj hok
    obtain _ | ⟨k, path⟩ := path
    · obtain rfl := Option.some.inj hpart
      simp [size_enclose, Node.span]
    · cases hpart
  · have hne := mt tokenize_eq_nil_iff.mp hempty
    obtain ⟨-, hreads⟩ := reads_of_parse_ok hne hok
    obtain ⟨statements, hroot, -⟩ := exists_statements_of_parse_ok hne hok
    have hspans := hreads.wellSpanned (Nat.le_refl _) (solid_of_parse_ok hne hok)
    have hlt := (hspans path part hpart).start_lt_stop
    have hle := (hspans path part hpart).stop_le_size
    refine ⟨Nat.lt_of_lt_of_le hlt hle, ?_⟩
    cases path with
    | nil =>
      obtain rfl := Option.some.inj hpart
      simp [hroot, Node.span]
    | cons k path =>
      obtain ⟨child, hchild, hbelow⟩ := Node.at?_cons_eq_some_iff.mp hpart
      have hmem := List.mem_of_getElem? hchild
      have hwithin := ((hspans [] script.root rfl).stops child hmem).2 (.inl (by rw [hroot]; rfl))
      have hstop := Node.stop_le_of_at? ((Node.everywhere_iff.mp hspans).2 child hmem) hbelow
      rw [hroot] at hwithin
      exact ⟨fun _ => List.cons_ne_nil k path, fun _ => Nat.lt_of_le_of_lt hstop hwithin⟩

/-- A script and its source place a token alike exactly if the script has that token. What lies past
    its tokens, the script places one column past the end of the source. Among the ends of the parts
    of a script this is so for the outermost block and for no other part. -/
theorem locate_agrees_inside (hok : Script.parse limit source = .ok script) :
    (∀ i, script.locate i = CurlyScript.locate (tokenize source) (i - 1) ↔
      i < script.tokens.size) ∧
    (∀ i, script.locate i ≤ .ofChar source source.length ↔ i < script.tokens.size) ∧
    (∀ i, script.tokens.size ≤ i →
      CurlyScript.locate (tokenize source) (i - 1) = .ofChar source source.length ∧
      (script.locate i).line = (Location.ofChar source source.length).line ∧
      (script.locate i).column = (Location.ofChar source source.length).column + 1) ∧
    ∀ path part, script.root.at? path = some part →
      script.locate part.span.start = CurlyScript.locate (tokenize source) (part.span.start - 1) ∧
      (script.locate part.span.stop = CurlyScript.locate (tokenize source) (part.span.stop - 1) ↔
        path ≠ []) := by
  refine ⟨fun i => locate_eq_iff hok, fun i => locate_le_iff hok, fun i hi => ?_,
    fun path part hpart => ?_⟩
  · have hlength : (tokenize source).length ≤ i - 1 := by
      rw [tokens_of_parse_ok hok, size_enclose] at hi
      omega
    rw [locate_of_size_le hok hi]
    exact ⟨locate_tokenize_of_length_le hlength, rfl, rfl⟩
  · obtain ⟨hstart, hstop⟩ := part_bounds hok hpart
    exact ⟨(locate_eq_iff hok).mpr hstart, (locate_eq_iff hok).trans hstop⟩

/-- The end of the only statement is placed where the source ends, the end of the block is not. -/
theorem locate_agrees_inside_word :
    let script : Script :=
      ⟨enclose [.text "x"], .block ⟨0, 3⟩ [.identifier ⟨1, 2⟩ "x"]⟩
    Script.parse 2 "x" = .ok script ∧
      script.root.at? [0] = some (.identifier ⟨1, 2⟩ "x") ∧
      script.locate 2 = CurlyScript.locate (tokenize "x") (2 - 1) ∧
      3 = script.root.span.stop ∧
      script.locate 3 ≠ CurlyScript.locate (tokenize "x") (3 - 1) ∧
      ¬ script.locate 3 ≤ .ofChar "x" "x".length := by
  intro script
  have hok : Script.parse 2 "x" = .ok script := by cbv
  obtain ⟨hsame, hinside, -, hparts⟩ := locate_agrees_inside hok
  have hsize : ¬ 3 < script.tokens.size := by decide
  exact ⟨hok, rfl, (hparts [0] (.identifier ⟨1, 2⟩ "x") rfl).2.mpr (List.cons_ne_nil 0 []), rfl,
    mt (hsame 3).mp hsize, mt (hinside 3).mp hsize⟩

/-- The end of the source is one place to a script and another one to its source. -/
theorem locate_disagrees_at_end :
    ¬ ∀ (limit : ℕ) (source : String) (script : Script),
      Script.parse limit source = .ok script →
        ∀ i, script.locate i = CurlyScript.locate (tokenize source) (i - 1) := by
  intro hall
  have hok : Script.parse 2 "x" =
      .ok ⟨enclose [.text "x"], .block ⟨0, 3⟩ [.identifier ⟨1, 2⟩ "x"]⟩ := by cbv
  have hplace : CurlyScript.locate (tokenize "x") (3 - 1) = ⟨1, 2⟩ := by decide +kernel
  have hpast : (⟨enclose [.text "x"], .block ⟨0, 3⟩ [.identifier ⟨1, 2⟩ "x"]⟩ : Script).locate 3 =
      ⟨1, 3⟩ := by decide +kernel
  have hsame := hall 2 "x" _ hok 3
  rw [hplace, hpast] at hsame
  exact absurd hsame (by decide)

end Script

end CurlyScript
