import CurlyScript.Proofs.Inquiry.Choice
import CurlyScript.Proofs.Inquiry.Conduct
import CurlyScript.Proofs.Script.Spans
import CurlyScript.Proofs.Session.History

namespace CurlyScript

namespace Node

/-- At the end of a path there is nothing but the empty node that stands for missing input. -/
def MissingAt (path : List Nat) (node : Node) : Prop :=
  ∃ part, node.at? path = some part ∧ part.kind = .empty

/-- A path that leads from function to body and to nothing else. -/
def ThroughBodies : List Nat → Node → Prop
  | [], _ => True
  | k :: path, node =>
    ∃ body, node.body? = some body ∧ node.children[k]? = some body ∧ ThroughBodies path body

variable {node body : Node} {path path' : List Nat}

theorem solid_iff_not_missingAt : node.Solid ↔ ∀ path, ¬ node.MissingAt path :=
  ⟨fun hsolid path ⟨part, hpart, hkind⟩ => hsolid path part hpart hkind,
    fun hmissing path part hpart hkind => hmissing path ⟨part, hpart, hkind⟩⟩

theorem missingAt_nil : node.MissingAt [] ↔ node.kind = .empty :=
  ⟨fun ⟨_, hpart, hkind⟩ => Option.some.inj hpart ▸ hkind, fun hkind => ⟨node, rfl, hkind⟩⟩

theorem missingAt_cons {k : Nat} :
    node.MissingAt (k :: path) ↔
      ∃ child, node.children[k]? = some child ∧ child.MissingAt path := by
  constructor
  · rintro ⟨part, hpart, hkind⟩
    obtain ⟨child, hchild, hbelow⟩ := at?_cons_eq_some_iff.mp hpart
    exact ⟨child, hchild, part, hbelow, hkind⟩
  · rintro ⟨child, hchild, part, hbelow, hkind⟩
    exact ⟨part, at?_cons_eq_some_iff.mpr ⟨child, hchild, hbelow⟩, hkind⟩

theorem children_of_empty (hkind : node.kind = .empty) : node.children = [] := by
  cases node <;> cases hkind
  rfl

theorem missingAt_cons_of_body? (hbody : node.body? = some body) {k : Nat} :
    node.MissingAt (k :: path) ↔ k = 0 ∧ body.MissingAt path := by
  rw [missingAt_cons, children_of_body? hbody]
  cases k with
  | zero => simp
  | succ k => simp

/-- Where a path leads through bodies, nothing is missing beside its end. -/
theorem ThroughBodies.eq_of_missingAt (hbodies : node.ThroughBodies path)
    (hmissing : node.MissingAt path) (hmissing' : node.MissingAt path') : path' = path := by
  induction path generalizing node path' with
  | nil =>
    cases path' with
    | nil => rfl
    | cons k path' =>
      obtain ⟨child, hchild, -⟩ := missingAt_cons.mp hmissing'
      rw [children_of_empty (missingAt_nil.mp hmissing)] at hchild
      cases hchild
  | cons k path ih =>
    obtain ⟨body, hbody, hk, hbodies⟩ := hbodies
    obtain ⟨rfl, hbelow⟩ := (missingAt_cons_of_body? hbody).mp hmissing
    cases path' with
    | nil =>
      rw [children_of_empty (missingAt_nil.mp hmissing')] at hk
      cases hk
    | cons k' path' =>
      obtain ⟨rfl, hbelow'⟩ := (missingAt_cons_of_body? hbody).mp hmissing'
      rw [ih hbodies hbelow hbelow']

end Node

section

variable {ts : TokenStream} {start stop : Nat} {node : Node}

/-- A node is solid unless it is missing or a function, which may lack its body. -/
theorem Reads.solid_or_body (hreads : Reads ts start node stop) :
    node.Solid ∨ (node.kind = .empty ∧ ts.size ≤ start ∧ stop = start) ∨
      ∃ body place, node.body? = some body ∧ start ≤ place ∧ place ≤ ts.size ∧
        Reads ts place body stop := by
  have hskip := ts.le_skipBlanks start
  cases hreads with
  | empty hend => exact .inr (.inl ⟨rfl, hend, rfl⟩)
  | named hopening hbody =>
    have hplace := congrArg Opening.place? hopening
    have hlt := TokenStream.lt_of_opening hplace
    exact .inr (.inr ⟨_, _, rfl, by omega, TokenStream.place_le_size hplace, hbody⟩)
  | inline hopening hbody =>
    have hplace := congrArg Opening.place? hopening
    have hlt := TokenStream.lt_of_opening hplace
    exact .inr (.inr ⟨_, _, rfl, by omega, TokenStream.place_le_size hplace, hbody⟩)
  | grouping _ hinner hclose _ => exact .inl (hinner.solid_of_sees hclose)
  | block _ hlist =>
    refine .inl (Node.everywhere_iff.mpr ⟨?_, hlist.solid⟩)
    rintro ⟨⟩
  | call _ hlist =>
    refine .inl (Node.everywhere_iff.mpr ⟨?_, List.forall_mem_cons.mpr ⟨?_, hlist.solid⟩⟩)
    · rintro ⟨⟩
    · apply Node.solid_of_leaf _ rfl
      rintro ⟨⟩
  | groupingCall _ hinner hclose _ hlist =>
    refine .inl (Node.everywhere_iff.mpr
      ⟨?_, List.forall_mem_cons.mpr ⟨hinner.solid_of_sees hclose, hlist.solid⟩⟩)
    rintro ⟨⟩
  | string | word =>
    refine .inl (Node.solid_of_leaf ?_ rfl)
    rintro ⟨⟩

/-- What is missing from a node is the body of its innermost function, for which no input is
    left. -/
theorem Reads.missing {path : List Nat} (hreads : Reads ts start node stop)
    (hmissing : node.MissingAt path) : stop = max start ts.size ∧ node.ThroughBodies path := by
  induction path generalizing start node with
  | nil =>
    obtain hsolid | ⟨-, hend, rfl⟩ | ⟨body, -, hbody, -⟩ := hreads.solid_or_body
    · exact absurd hmissing (Node.solid_iff_not_missingAt.mp hsolid [])
    · exact ⟨(Nat.max_eq_left hend).symm, trivial⟩
    · have hchildren := Node.children_of_body? hbody
      rw [Node.children_of_empty (Node.missingAt_nil.mp hmissing)] at hchildren
      cases hchildren
  | cons k path ih =>
    obtain hsolid | ⟨hkind, -⟩ | ⟨body, place, hbody, hle, hsize, hreads⟩ := hreads.solid_or_body
    · exact absurd hmissing (Node.solid_iff_not_missingAt.mp hsolid (k :: path))
    · obtain ⟨child, hchild, -⟩ := Node.missingAt_cons.mp hmissing
      rw [Node.children_of_empty hkind] at hchild
      cases hchild
    · obtain ⟨rfl, hbelow⟩ := (Node.missingAt_cons_of_body? hbody).mp hmissing
      obtain ⟨hstop, hbodies⟩ := ih hreads hbelow
      have hchild : node.children[0]? = some body := by rw [Node.children_of_body? hbody]; rfl
      exact ⟨by omega, body, hbody, hchild, hbodies⟩

/-- A grouping does not yield the empty node, since its closing parenthesis is input. -/
theorem Rule.kind_ne_empty_of_groupingAt {i : Nat} {parsed : Parsed}
    (hok : (groupingAt ts (.fresh i)).eval (verdict ts) = .ok parsed) :
    parsed.node.kind ≠ .empty := by
  obtain ⟨-, inner, hinner, hclose, rfl⟩ := eval_groupingAt_eq_ok_iff.mp hok
  obtain ⟨node, stop, hreads, rfl⟩ := (agrees ts (i + 1) inner).mp hinner
  exact (hreads.solid_of_sees hclose).kind_ne

/-- Where there is input left, no rule yields the empty node. -/
theorem kind_ne_empty_of_verdict_ok {request : Request} {parsed : Parsed}
    (hlt : request.start < ts.size) (hok : verdict ts request = .ok parsed) :
    parsed.node.kind ≠ .empty := by
  rw [verdict_eq, Request.inquiry, if_pos hlt, Cursor.fresh_skipBlanks] at hok
  obtain ⟨-, rule, -, -, -, hmatched⟩ := eval_tryRules_eq_ok_iff.mp hok
  cases hkind : rule.kind? with
  | some kind =>
    rw [Rule.kind_eq_of_eval hmatched hkind]
    rintro rfl
    cases rule <;> cases hkind
  | none =>
    cases rule with
    | grouping => exact Rule.kind_ne_empty_of_groupingAt hmatched
    | _ => cases hkind

/-- Where no input is left, nothing stands that a filter asks for. -/
theorem verdict_filtered_ne_ok (hge : ts.size ≤ start) (filter : NodeFilter) (parsed : Parsed) :
    verdict ts ⟨start, some filter⟩ ≠ .ok parsed := by
  rw [verdict_eq, Request.inquiry, if_neg (Nat.not_lt.mpr hge)]
  rintro ⟨⟩

end

theorem Script.root_of_parse_empty {limit : Nat} {script : Script}
    (hok : Script.parse limit "" = .ok script) : script.root = .empty ⟨0, 2⟩ := by
  rw [Script.parse_of_empty (tokenize_eq_nil_iff.mpr rfl)] at hok
  exact congrArg Script.root (Except.ok.inj hok).symm

/-- Empty nodes stand only where the input ends. A script has one only if there is no input at all.
    In what is read of tokens as they are one at most is missing: the body of the innermost of
    nested functions, at the end of the input. No filter is satisfied with nothing. -/
theorem missing_only_at_end :
    (∀ limit source script, Script.parse limit source = .ok script →
      ((∃ path, script.root.MissingAt path) ↔ source = "") ∧
        (source = "" → script.root = .empty ⟨0, 2⟩)) ∧
    (∀ ts limit history start parsed,
      ((Session.parseAll ⟨ts, limit, {}⟩ history).parse ⟨start, none⟩).1 = .ok parsed →
        ∀ path, parsed.node.MissingAt path →
          parsed.cursor.token = max start ts.size ∧ parsed.node.ThroughBodies path ∧
            ∀ path', parsed.node.MissingAt path' → path' = path) ∧
    ∀ ts limit history start filter parsed,
      ((Session.parseAll ⟨ts, limit, {}⟩ history).parse ⟨start, some filter⟩).1 = .ok parsed →
        parsed.node.kind ≠ .empty := by
  refine ⟨?_, ?_, ?_⟩
  · intro limit source script hok
    refine ⟨⟨fun ⟨path, hmissing⟩ => ?_, ?_⟩, ?_⟩
    · by_contra hne
      have hsolid := Script.solid_of_parse_ok (mt tokenize_eq_nil_iff.mp hne) hok
      exact Node.solid_iff_not_missingAt.mp hsolid path hmissing
    · rintro rfl
      refine ⟨[], Node.missingAt_nil.mpr ?_⟩
      rw [Script.root_of_parse_empty hok]
      rfl
    · rintro rfl
      exact Script.root_of_parse_empty hok
  · intro ts limit history start parsed hok path hmissing
    obtain ⟨node, stop, hreads, rfl⟩ :=
      (agrees ts start parsed).mp (Session.verdict_of_parseAll_ok hok)
    obtain ⟨rfl, hbodies⟩ := hreads.missing hmissing
    exact ⟨rfl, hbodies, fun path' => hbodies.eq_of_missingAt hmissing⟩
  · intro ts limit history start filter parsed hok
    have hverdict := Session.verdict_of_parseAll_ok hok
    by_cases hlt : start < ts.size
    · exact kind_ne_empty_of_verdict_ok hlt hverdict
    · exact absurd hverdict (verdict_filtered_ne_ok (Nat.le_of_not_lt hlt) filter parsed)

/-- A function whose body is a function that has none. A filter finds the outer one. -/
theorem missing_only_at_end_arrows :
    let tokens : TokenStream := #[.text "f", .symbol .openParen, .symbol .closeParen,
      .symbol .equal, .symbol .rightChevron, .text "g", .symbol .openParen, .symbol .closeParen,
      .symbol .equal, .symbol .rightChevron]
    let root := Node.inlineFunction ⟨0, 10⟩ (.inlineFunction ⟨5, 10⟩ (.empty ⟨0, 10⟩))
    (Script.parse 2 "" = .ok ⟨Script.enclose [], .empty ⟨0, 2⟩⟩ ∧
      ∃ path, (Node.empty ⟨0, 2⟩).MissingAt path) ∧
    ((Session.parse ⟨tokens, 3, {}⟩ ⟨0, none⟩).1 = .ok ⟨root, .fresh 10⟩ ∧
      root.MissingAt [0, 0] ∧ root.ThroughBodies [0, 0] ∧
        ∀ path, root.MissingAt path → path = [0, 0]) ∧
    (Session.parse ⟨tokens, 3, {}⟩ ⟨0, some (.only .functionDefinition)⟩).1 =
        .ok ⟨root, .fresh 10⟩ ∧
      root.kind ≠ .empty := by
  intro tokens root
  have hempty : Script.parse 2 "" = .ok ⟨Script.enclose [], .empty ⟨0, 2⟩⟩ := by cbv
  have hany : (Session.parse ⟨tokens, 3, {}⟩ ⟨0, none⟩).1 = .ok ⟨root, .fresh 10⟩ := by cbv
  have hfunction : (Session.parse ⟨tokens, 3, {}⟩ ⟨0, some (.only .functionDefinition)⟩).1 =
      .ok ⟨root, .fresh 10⟩ := by cbv
  have hmissing : root.MissingAt [0, 0] := ⟨.empty ⟨0, 10⟩, rfl, rfl⟩
  obtain ⟨hscript, hbody, hfiltered⟩ := missing_only_at_end
  obtain ⟨-, hbodies, honly⟩ := hbody tokens 3 [] 0 _ hany [0, 0] hmissing
  exact ⟨⟨hempty, (hscript 2 "" _ hempty).1.mpr rfl⟩, ⟨hany, hmissing, hbodies, honly⟩, hfunction,
    hfiltered tokens 3 [] 0 (.only .functionDefinition) _ hfunction⟩

end CurlyScript
