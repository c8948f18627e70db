import CurlyScript.Proofs.Grammar.Extent
import CurlyScript.Script

namespace CurlyScript

theorem size_enclose (tokens : List Token) : (Script.enclose tokens).size = tokens.length + 2 := by
  simp [Script.enclose]

theorem skipBlanks_enclose (tokens : List Token) : (Script.enclose tokens).skipBlanks 0 = 0 :=
  TokenStream.skipBlanks_eq_self (List.getElem?_toArray ..) rfl

theorem sees_openCurly_enclose (tokens : List Token) :
    (Script.enclose tokens).sees ((Script.enclose tokens).skipBlanks 0) .openCurly = true := by
  rw [skipBlanks_enclose]
  rfl

namespace Script

/-- The script of which a node is the root, unless tokens are left behind the node. -/
def ofParsed (tokens : TokenStream) (parsed : Parsed) : Except ParseError Script :=
  match tokens.describe? parsed.cursor.token with
  | none => .ok ⟨tokens, parsed.node⟩
  | some extra => .error (.malformed ⟨.unexpected (some extra), parsed.cursor.token⟩)

theorem parse_of_empty {source : String} (hempty : tokenize source = []) (limit : Nat) :
    Script.parse limit source = .ok ⟨enclose [], .empty ⟨0, 2⟩⟩ := by
  rw [parse, parseLogged, hempty]
  rfl

theorem parse_of_nonempty {source : String} (hne : tokenize source ≠ []) (limit : Nat) :
    Script.parse limit source =
      (Session.parse ⟨enclose (tokenize source), limit, {}⟩ ⟨0, none⟩).1.bind
        (ofParsed (enclose (tokenize source))) := by
  have hisEmpty : (tokenize source).isEmpty = false := by
    rwa [List.isEmpty_eq_false_iff]
  simp only [parse, parseLogged, hisEmpty, rootOf, Bool.false_eq_true, if_false]
  cases (Session.parse ⟨enclose (tokenize source), limit, {}⟩ ⟨0, none⟩).1 with
  | error error => rfl
  | ok parsed =>
    simp only [Except.bind, ofParsed]
    cases (enclose (tokenize source)).describe? parsed.cursor.token <;> rfl

/-- The outermost block leaves no token behind. -/
theorem ofParsed_enclose (tokens : List Token) (node : Node) :
    ofParsed (enclose tokens) ⟨node, .fresh (tokens.length + 2)⟩ =
      .ok ⟨enclose tokens, node⟩ := by
  have hnone : (Script.enclose tokens).describe? (tokens.length + 2) = none := by
    rw [TokenStream.describe?, Array.getElem?_eq_none (Nat.le_of_eq (size_enclose tokens))]
    rfl
  rw [Script.ofParsed]
  dsimp only
  rw [Cursor.fresh_token, hnone]

theorem eq_of_ofParsed {tokens : TokenStream} {parsed : Parsed} {script : Script}
    (hok : ofParsed tokens parsed = .ok script) :
    script = ⟨tokens, parsed.node⟩ ∧ tokens.size ≤ parsed.cursor.token := by
  unfold ofParsed at hok
  split at hok
  · next hnone =>
    rw [TokenStream.describe?, Option.map_eq_none_iff, Array.getElem?_eq_none_iff] at hnone
    exact ⟨(Except.ok.inj hok).symm, hnone⟩
  · cases hok

/-- An accepted script is what was parsed of the tokens in the outermost block, all of them. -/
theorem exists_parsed_of_parse_ok {source : String} {limit : Nat} {script : Script}
    (hne : tokenize source ≠ []) (hok : Script.parse limit source = .ok script) :
    ∃ parsed, (Session.parse ⟨enclose (tokenize source), limit, {}⟩ ⟨0, none⟩).1 = .ok parsed ∧
      script = ⟨enclose (tokenize source), parsed.node⟩ ∧
        (enclose (tokenize source)).size ≤ parsed.cursor.token := by
  rw [parse_of_nonempty hne] at hok
  cases hparsed : (Session.parse ⟨enclose (tokenize source), limit, {}⟩ ⟨0, none⟩).1 with
  | error error =>
    rw [hparsed] at hok
    cases hok
  | ok parsed =>
    rw [hparsed] at hok
    exact ⟨parsed, rfl, eq_of_ofParsed hok⟩

/-- The limit of an accepted script sufficed for its tokens. -/
theorem fits_of_parse_ok {source : String} {limit : Nat} {script : Script}
    (hne : tokenize source ≠ []) (hok : Script.parse limit source = .ok script) :
    Request.Fits script.tokens (limit + 1) ⟨0, none⟩ := by
  obtain ⟨parsed, hparsed, rfl, -⟩ := exists_parsed_of_parse_ok hne hok
  exact (Session.parse_eq_ok_iff.mp hparsed).1

/-- The parse of an accepted script stops behind the last token. -/
theorem exists_root_of_parse_ok {source : String} {limit : Nat} {script : Script}
    (hne : tokenize source ≠ []) (hok : Script.parse limit source = .ok script) :
    ∃ root, (Session.parse ⟨enclose (tokenize source), limit, {}⟩ ⟨0, none⟩).1 =
        .ok ⟨root, .fresh (enclose (tokenize source)).size⟩ ∧
      script = ⟨enclose (tokenize source), root⟩ ∧
        Reads (enclose (tokenize source)) 0 root (enclose (tokenize source)).size := by
  obtain ⟨parsed, hparsed, rfl, hsize⟩ := exists_parsed_of_parse_ok hne hok
  obtain ⟨root, stop, hreads, rfl⟩ := (agrees _ 0 parsed).mp (Session.verdict_of_ok hparsed)
  obtain rfl := Nat.le_antisymm (hreads.stop_le_size (Nat.zero_le _)) hsize
  exact ⟨root, hparsed, rfl, hreads⟩

/-- A script was read from the first token through the last. -/
theorem reads_of_parse_ok {source : String} {limit : Nat} {script : Script}
    (hne : tokenize source ≠ []) (hok : Script.parse limit source = .ok script) :
    script.tokens = enclose (tokenize source) ∧
      Reads script.tokens 0 script.root script.tokens.size := by
  obtain ⟨root, -, rfl, hreads⟩ := exists_root_of_parse_ok hne hok
  exact ⟨rfl, hreads⟩

theorem ofParsed_ne_tooDeep (tokens : TokenStream) (parsed : Parsed) (stop : TooDeep) :
    ofParsed tokens parsed ≠ .error (.tooDeep stop) := by
  unfold ofParsed
  split <;> simp

theorem parse_trimmedTo {low high : Nat} (hle : low ≤ high) (source : String) :
    TrimmedTo low (Script.parse low source) (Script.parse high source) := by
  by_cases hempty : tokenize source = []
  · rw [parse_of_empty hempty, parse_of_empty hempty]
    exact .inl rfl
  · rw [parse_of_nonempty hempty, parse_of_nonempty hempty]
    exact (Session.parse_trimmedTo hle).bind _

theorem parse_eq_tooDeep_iff {source : String} (hne : tokenize source ≠ []) {limit : Nat} :
    (∃ position, Script.parse limit source = .error (.tooDeep ⟨limit, position⟩)) ↔
      Request.NestsBeyond (enclose (tokenize source)) limit ⟨0, none⟩ := by
  rw [← Session.parse_eq_tooDeep_iff, parse_of_nonempty hne]
  cases (Session.parse ⟨enclose (tokenize source), limit, {}⟩ ⟨0, none⟩).1 with
  | error error => simp only [Except.bind, Except.error.injEq]
  | ok parsed =>
    simp only [Except.bind, ofParsed_ne_tooDeep, exists_false, reduceCtorEq]

end Script

/-- Less room for nesting never changes what a parse comes to, but may make it give up, and it does
    so exactly if some part nests too deeply, also where a rule would get by without that part. -/
theorem nesting_limit_only_trims {low high : Nat} (hle : low ≤ high) :
    (∀ ts request,
      TrimmedTo low (Session.parse ⟨ts, low, {}⟩ request).1
        (Session.parse ⟨ts, high, {}⟩ request).1 ∧
      ((∃ position,
          (Session.parse ⟨ts, low, {}⟩ request).1 = .error (.tooDeep ⟨low, position⟩)) ↔
        request.NestsBeyond ts low)) ∧
    ∀ source,
      TrimmedTo low (Script.parse low source) (Script.parse high source) ∧
      (tokenize source ≠ [] →
        ((∃ position, Script.parse low source = .error (.tooDeep ⟨low, position⟩)) ↔
          Request.NestsBeyond (Script.enclose (tokenize source)) low ⟨0, none⟩)) := by
  constructor
  · exact fun ts request => ⟨Session.parse_trimmedTo hle, Session.parse_eq_tooDeep_iff⟩
  · exact fun source =>
      ⟨Script.parse_trimmedTo hle source, fun hne => Script.parse_eq_tooDeep_iff hne⟩

/-- A call asks for its callee, which asks whether a type stands there. -/
theorem nesting_limit_only_trims_call :
    1 ≤ 2 ∧ TrimmedTo 1 (Script.parse 1 "a()") (Script.parse 2 "a()") ∧
      Script.parse 1 "a()" = .error (.tooDeep ⟨1, 1⟩) :=
  ⟨by decide, ((nesting_limit_only_trims (by decide)).2 "a()").1, by cbv⟩

end CurlyScript
