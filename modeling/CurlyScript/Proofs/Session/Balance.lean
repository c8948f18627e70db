import CurlyScript.Proofs.Grammar.Brackets
import CurlyScript.Proofs.Grammar.Quoted

namespace CurlyScript

/-- What was read from an index on takes up whole strings and brackets with their partners, and the
    cursor behind it has nothing open. -/
def Parsed.BalancedFrom (ts : TokenStream) (i : Nat) (parsed : Parsed) : Prop :=
  ∃ stop, parsed.cursor = .fresh stop ∧ ts.Balanced i stop

/-- A list is balanced up to the bracket that ends it, which closes nothing of the list. -/
def Delimiters.BalancedFrom (ts : TokenStream) (delimiters : Delimiters) (i : Nat)
    (cursor : Cursor) : Prop :=
  ∃ close, cursor = .fresh (close + 1) ∧ ts.Balanced i close ∧
    ts.sees close delimiters.closer = true

def Request.BalancedBy (ts : TokenStream) (request : Request) (verdict : Verdict) : Prop :=
  ∀ parsed, verdict = .ok parsed → parsed.BalancedFrom ts request.start

/-- The contract under which every part that is read is balanced. Anything may be asked. -/
def balancing (ts : TokenStream) : Contract Unit where
  allows _ _ := True
  answers _ request verdict _ := request.BalancedBy ts verdict

section

variable {ts : TokenStream} {delimiters : Delimiters}

theorem Delimiters.Usual.isNeutral_separator (husual : delimiters.Usual) :
    (Token.symbol delimiters.separator).isNeutral = true := by
  obtain rfl | rfl := husual <;> rfl

theorem Delimiters.invariant_balancing (husual : delimiters.Usual) (i : Nat) :
    delimiters.Invariant ts (balancing ts)
      (fun cursor _ => ∃ j, cursor = .fresh j ∧ ts.Balanced i j)
      fun cursor _ => delimiters.BalancedFrom ts i cursor where
  blanks := by
    rintro _ _ ⟨j, rfl, hbefore⟩
    exact ⟨_, Cursor.fresh_skipBlanks .., hbefore.trans (ts.balanced_skipBlanks j)⟩
  separator := by
    rintro _ _ ⟨j, rfl, hbefore⟩ htoken
    rw [husual.plain.separator]
    exact ⟨j + 1, rfl, hbefore.trans (TokenStream.balanced_token htoken husual.isNeutral_separator)⟩
  closer := by
    rintro _ _ ⟨j, rfl, hbefore⟩ htoken
    rw [husual.plain.closer]
    exact ⟨j, rfl, hbefore, TokenStream.sees_iff.mpr htoken⟩
  allows _ _ _ _ := trivial
  item := by
    rintro _ _ ⟨j, rfl, hbefore⟩ parsed _ hparsed
    obtain ⟨stop, hcursor, hitem⟩ := hparsed parsed rfl
    rw [hcursor]
    exact ⟨stop, Cursor.fresh_moveTo .., hbefore.trans hitem⟩

theorem Delimiters.items_balancing (husual : delimiters.Usual) (budget i : Nat)
    (found : List Node) (declined : Unit → Prop) :
    (delimiters.items ts budget (.fresh i) found).Keeps (balancing ts)
      (fun result _ => delimiters.BalancedFrom ts i result.2) declined () :=
  (invariant_balancing husual i).keeps_items declined budget found ⟨i, rfl, .refl ts i⟩

theorem Rule.blockAt_balancing (start i : Nat) :
    (blockAt ts start (.fresh i)).Keeps (balancing ts) (fun parsed _ => parsed.BalancedFrom ts i)
      (fun _ => True) () := by
  simp only [blockAt, Attempt.keeps_ite, Attempt.keeps_bind, Attempt.keeps_pure,
    Attempt.keeps_decline, Cursor.fresh_skip, Cursor.fresh_token]
  split
  · next hopen =>
    refine (Delimiters.items_balancing (.inl rfl) _ _ [] _).mono (fun result _ hresult => ?_)
      fun _ h => h
    obtain ⟨close, hcursor, hinner, hclose⟩ := hresult
    exact ⟨close + 1, hcursor, hinner.enclosed rfl hopen hclose⟩
  · trivial

theorem Rule.stringAt_balancing (start i : Nat) :
    (stringAt ts start (.fresh i)).Keeps (balancing ts) (fun parsed _ => parsed.BalancedFrom ts i)
      (fun _ => True) () := by
  simp only [stringAt, Cursor.fresh_token]
  split
  · trivial
  · next token htoken =>
    split
    · trivial
    · next quote hquote =>
      rw [Cursor.fresh_advance_quote hquote]
      split
      · next tokens next hrest =>
        obtain ⟨close, hcloses, -, rfl⟩ := restOfString_eq_ok_iff.mp hrest
        have hopen : ts.quoteAt? i = some quote := by
          rw [TokenStream.quoteAt?, htoken]
          exact hquote
        exact ⟨close + 1, rfl, TokenStream.balanced_string hopen hcloses⟩
      · exact Attempt.keeps_rejected ..

theorem Rule.parameterList_balancing {matched : Cursor → Unit → Prop} (i : Nat)
    (hmatched : ts.Balanced i (i + 2) → matched (.fresh (i + 2)) ()) :
    (parameterList ts (.fresh i)).Keeps (balancing ts) matched (fun _ => True) () :=
  keeps_parameterList trivial fun hopen hclose =>
    hmatched (TokenStream.Balanced.enclosed rfl hopen (.refl ts _) hclose)

theorem Rule.nameAfterType_balancing {matched : String × Cursor → Unit → Prop} (i : Nat)
    (hmatched : ∀ name next, ts.Balanced i next → matched (name, .fresh next) ()) :
    (nameAfterType ts (.fresh i)).Keeps (balancing ts) matched (fun _ => True) () := by
  refine keeps_nameAfterType trivial (fun _ => trivial) fun parsed name _ hparsed => ?_
  obtain ⟨stop, hcursor, hname⟩ := hparsed parsed rfl
  rw [hcursor, Cursor.fresh_token, Cursor.fresh_moveTo]
  exact hmatched name stop hname

theorem Rule.namedBody_balancing {i j : Nat} (start : Nat) (name : String)
    (hbefore : ts.Balanced i j) :
    (namedBody start name (.fresh j)).Keeps (balancing ts)
      (fun parsed _ => parsed.BalancedFrom ts i) (fun _ => True) () := by
  simp only [namedBody, Attempt.keeps_bind, Attempt.keeps_require, Attempt.keeps_pure]
  refine ⟨trivial, fun parsed _ hparsed => ?_⟩
  obtain ⟨stop, hcursor, hbody⟩ := hparsed parsed rfl
  refine ⟨stop, ?_, hbefore.trans hbody⟩
  rw [hcursor, Cursor.fresh_token, Cursor.fresh_moveTo]

theorem Rule.namedFunctionAt_balancing (start i : Nat) :
    (namedFunctionAt ts start (.fresh i)).Keeps (balancing ts)
      (fun parsed _ => parsed.BalancedFrom ts i) (fun _ => True) () := by
  simp only [namedFunctionAt, Attempt.keeps_bind, Attempt.keeps_probe]
  refine ⟨trivial, fun first _ hfirst => ?_, fun _ _ _ => trivial⟩
  obtain ⟨j, hcursor, hbefore⟩ := hfirst first rfl
  simp only [hcursor, Cursor.fresh_token, Cursor.fresh_moveTo]
  split
  · next hspace =>
    have hafter := hbefore.trans (TokenStream.balanced_symbol hspace rfl)
    rw [Cursor.fresh_advance_symbol rfl rfl]
    simp only [Attempt.keeps_bind]
    refine nameAfterType_balancing _ fun name next hname => ?_
    refine parameterList_balancing next fun hparameters => ?_
    rw [Cursor.fresh_skipBlanks]
    exact namedBody_balancing start name
      (((hafter.trans hname).trans hparameters).trans (ts.balanced_skipBlanks _))
  · split
    · trivial
    · next name hname =>
      simp only [Attempt.keeps_bind, Attempt.keeps_ite]
      refine parameterList_balancing j fun hparameters => ?_
      rw [Cursor.fresh_skipBlanks, Cursor.fresh_token]
      split
      · exact namedBody_balancing start name
          ((hbefore.trans hparameters).trans (ts.balanced_skipBlanks _))
      · trivial

theorem Rule.inlineFunctionAt_balancing (start i : Nat) :
    (inlineFunctionAt ts start (.fresh i)).Keeps (balancing ts)
      (fun parsed _ => parsed.BalancedFrom ts i) (fun _ => True) () := by
  simp only [inlineFunctionAt, Attempt.keeps_bind, Attempt.keeps_probe]
  refine ⟨trivial, fun type _ htype => ?_, fun _ _ _ => trivial⟩
  obtain ⟨j, hcursor, hbefore⟩ := htype type rfl
  rw [hcursor, Cursor.fresh_token, Cursor.fresh_moveTo]
  refine parameterList_balancing j fun hparameters => ?_
  simp only [Attempt.keeps_eat, Attempt.keeps_require, Attempt.keeps_pure,
    Cursor.fresh_skipBlanks, Cursor.fresh_token]
  split
  · next hequal =>
    rw [Cursor.fresh_advance_symbol rfl rfl, Cursor.fresh_token]
    split
    · next hchevron =>
      rw [Cursor.fresh_advance_symbol rfl rfl, Cursor.fresh_skipBlanks, Cursor.fresh_token]
      refine ⟨trivial, fun body _ hbody => ?_⟩
      obtain ⟨stop, hcursor', hbalanced⟩ := hbody body rfl
      rw [hcursor', Cursor.fresh_token, Cursor.fresh_moveTo]
      have harrow := (TokenStream.balanced_symbol hequal rfl).trans
        (TokenStream.balanced_symbol hchevron rfl)
      have hhead := (hbefore.trans hparameters).trans (ts.balanced_skipBlanks _)
      exact ⟨stop, rfl, ((hhead.trans harrow).trans (ts.balanced_skipBlanks _)).trans hbalanced⟩
    · trivial
  · trivial

theorem Rule.executionAt_balancing (start i : Nat) :
    (executionAt ts start (.fresh i)).Keeps (balancing ts)
      (fun parsed _ => parsed.BalancedFrom ts i) (fun _ => True) () := by
  simp only [executionAt, Attempt.keeps_bind, Attempt.keeps_probe, Attempt.keeps_ite,
    Attempt.keeps_pure, Attempt.keeps_decline]
  refine ⟨trivial, fun callee _ hcallee => ?_, fun _ _ _ => trivial⟩
  obtain ⟨j, hcursor, hbefore⟩ := hcallee callee rfl
  simp only [hcursor, Cursor.fresh_token, Cursor.fresh_moveTo, Cursor.fresh_skipBlanks,
    Cursor.fresh_skip]
  split
  · next hopen =>
    refine (Delimiters.items_balancing (.inr rfl) _ _ [] _).mono (fun result _ hresult => ?_)
      fun _ h => h
    obtain ⟨close, hcursor', hinner, hclose⟩ := hresult
    have hcall := hinner.enclosed rfl hopen hclose
    exact ⟨close + 1, hcursor', (hbefore.trans (ts.balanced_skipBlanks j)).trans hcall⟩
  · trivial

/-- The one place where the cursor itself counts a bracket and its partner. -/
theorem Rule.groupingAt_balancing (i : Nat) :
    (groupingAt ts (.fresh i)).Keeps (balancing ts) (fun parsed _ => parsed.BalancedFrom ts i)
      (fun _ => True) () := by
  simp only [groupingAt, Attempt.keeps_bind, Attempt.keeps_eat, Attempt.keeps_require,
    Attempt.keeps_pure, Cursor.advance_token, Cursor.fresh_token]
  split
  · next hopen =>
    refine ⟨trivial, fun inner _ hinner => ?_⟩
    obtain ⟨stop, hcursor, hbalanced⟩ := hinner inner rfl
    simp only [hcursor, Cursor.skipBlanks_token, Cursor.moveTo_token, Cursor.fresh_token]
    split
    · next hclose =>
      exact ⟨ts.skipBlanks stop + 1, rfl,
        (hbalanced.trans (ts.balanced_skipBlanks stop)).enclosed rfl hopen hclose⟩
    · trivial
  · trivial

theorem Rule.identifierAt_balancing (start i : Nat) :
    (identifierAt ts start (.fresh i)).Keeps (balancing ts)
      (fun parsed _ => parsed.BalancedFrom ts i) (fun _ => True) () := by
  simp only [identifierAt, Cursor.fresh_token]
  split
  · next content htoken =>
    simp only [Attempt.keeps_ite, Attempt.keeps_pure, Attempt.keeps_decline,
      Cursor.fresh_advance_text]
    split
    · exact ⟨i + 1, rfl, TokenStream.balanced_token htoken rfl⟩
    · trivial
  · trivial

theorem Rule.attempt_balancing (ts : TokenStream) (start i : Nat) (rule : Rule) :
    (rule.attempt ts start (.fresh i)).Keeps (balancing ts)
      (fun parsed _ => parsed.BalancedFrom ts i) (fun _ => True) () := by
  cases rule with
  | block => exact blockAt_balancing start i
  | string => exact stringAt_balancing start i
  | namedFunction => exact namedFunctionAt_balancing start i
  | inlineFunction => exact inlineFunctionAt_balancing start i
  | execution => exact executionAt_balancing start i
  | grouping => exact groupingAt_balancing i
  | identifier => exact identifierAt_balancing start i

/-- Whatever the filter is, a node is balanced if the parts it asks for are. -/
theorem Request.inquiry_balancing (ts : TokenStream) (request : Request) :
    (request.inquiry ts).Keeps (balancing ts) (fun verdict _ => request.BalancedBy ts verdict)
      () := by
  have herror (error : SyntaxError) (_ : Unit) : request.BalancedBy ts (.error error) :=
    fun _ h => nomatch h
  unfold Request.inquiry
  split
  · rw [Cursor.fresh_skipBlanks]
    have hmatched (parsed : Parsed) (_ : Unit)
        (hparsed : parsed.BalancedFrom ts (ts.skipBlanks request.start)) :
        request.BalancedBy ts (.ok parsed) := by
      rintro _ ⟨⟩
      obtain ⟨stop, hcursor, hbalanced⟩ := hparsed
      exact ⟨stop, hcursor, (ts.balanced_skipBlanks _).trans hbalanced⟩
    have hrules (rule : Rule) (_ : rule ∈ Rule.candidates request.filter) (_ : Unit)
        (_ : True) := rule.attempt_balancing ts request.start (ts.skipBlanks request.start)
    exact keeps_tryRules hmatched herror hrules trivial
  · split
    · rintro _ ⟨⟩
      exact ⟨request.start, rfl, .refl ts _⟩
    · exact herror _ ()

theorem answerAfresh_balanced {limit levels : Nat} {request : Request} {parsed : Parsed}
    (hanswer : answerAfresh ts limit levels request = .ok (.ok parsed)) :
    parsed.BalancedFrom ts request.start := by
  induction levels generalizing request parsed with
  | zero => cases hanswer
  | succ levels ih =>
    obtain ⟨_, hpost⟩ := (request.inquiry_balancing ts).exists_of_run_eq_ok
      (fun _ other verdict _ hother => ⟨(), fun inner hinner => ih (hinner ▸ hother)⟩) hanswer
    exact hpost parsed rfl

/-- The cursor behind a node says what a plain scan of the tokens of the node says: nothing is left
    open. In that scan every closing bracket outside of strings closes a bracket of its shape, so
    that there is always one to be closed. -/
theorem Session.parse_ok_scan {limit : Nat} {request : Request} {parsed : Parsed}
    (hparse : (Session.parse ⟨ts, limit, {}⟩ request).1 = .ok parsed) :
    request.start ≤ parsed.cursor.token ∧
      (request.start ≤ ts.size → parsed.cursor.token ≤ ts.size) ∧
      parsed.cursor.depth = 0 ∧ parsed.cursor.quote = none ∧
      (ts.scan request.start parsed.cursor.token).depth = parsed.cursor.depth ∧
      (ts.scan request.start parsed.cursor.token).quote = parsed.cursor.quote ∧
      ∀ k s, request.start ≤ k → k < parsed.cursor.token → ts.sees k s = true →
        s.isClosingBracket = true → (ts.scan request.start k).quote = none →
        0 < (ts.scan request.start k).depth ∧ ∃ opened, ts.Closes request.start opened k := by
  rw [Session.parse_empty, outcome_eq_ok] at hparse
  obtain ⟨stop, hcursor, hbalanced⟩ := answerAfresh_balanced hparse
  have hbegin := ts.scan_self request.start
  have hsettles := hbalanced.settles request.start (Nat.le_refl _) (by rw [hbegin]; rfl)
  have hscan := hsettles.scan_eq.trans hbegin
  rw [hcursor, Cursor.fresh_token, hscan]
  refine ⟨hbalanced.le, hbalanced.le_size, rfl, rfl, rfl, rfl, ?_⟩
  intro k s hle hlt hsees hs houtside
  obtain ⟨opened, hcloses⟩ := hsettles.closes k s hle hlt hsees hs houtside
  refine ⟨?_, opened, hcloses⟩
  rw [hcloses.depth_eq]
  exact Nat.succ_pos _

end

/-- The first closing parenthesis stands in a string and closes nothing. The last one closes the
    call. -/
theorem Session.parse_ok_scan_string :
    let ts : TokenStream := #[.text "f", .symbol .openParen, .symbol .singleQuote,
      .symbol .closeParen, .symbol .singleQuote, .symbol .closeParen]
    (Session.parse ⟨ts, 1, {}⟩ ⟨0, none⟩).1 = .ok ⟨.execution ⟨0, 6⟩ (.identifier ⟨0, 1⟩ "f")
        [.string ⟨2, 5⟩ [.symbol .closeParen]], .fresh 6⟩ ∧
      (ts.scan 0 3).quote = some .single ∧ ∃ opened, ts.Closes 0 opened 5 := by
  intro ts
  have hparse : (Session.parse ⟨ts, 1, {}⟩ ⟨0, none⟩).1 = .ok ⟨.execution ⟨0, 6⟩
      (.identifier ⟨0, 1⟩ "f") [.string ⟨2, 5⟩ [.symbol .closeParen]], .fresh 6⟩ := by cbv
  obtain ⟨-, -, -, -, -, -, hcloses⟩ := Session.parse_ok_scan hparse
  have hlast := hcloses 5 .closeParen (by decide) (by decide) (by decide) rfl (by decide)
  exact ⟨hparse, by decide, hlast.2⟩

end CurlyScript
