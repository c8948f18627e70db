import CurlyScript.Proofs.Inquiry.Oracle

namespace CurlyScript

namespace Inquiry

variable {α β : Type} {asks : Request → Prop} {notes : Step → Prop} {post : α → Prop}

/-- Whatever it is told, an inquiry asks only such questions, notes only such steps and ends only in
    such results. -/
def Behaves (asks : Request → Prop) (notes : Step → Prop) (post : α → Prop) : Inquiry α → Prop
  | .done result => post result
  | .ask request resume => asks request ∧ ∀ verdict, (resume verdict).Behaves asks notes post
  | .note step next => notes step ∧ next.Behaves asks notes post

theorem Behaves.mono {notes' : Step → Prop} {post' : α → Prop} (hnotes : ∀ s, notes s → notes' s)
    (hpost : ∀ a, post a → post' a) {inquiry : Inquiry α}
    (hbehaves : inquiry.Behaves asks notes post) : inquiry.Behaves asks notes' post' := by
  induction inquiry with
  | done result => exact hpost result hbehaves
  | ask request resume ih => exact ⟨hbehaves.1, fun verdict => ih verdict (hbehaves.2 verdict)⟩
  | note step next ih => exact ⟨hnotes step hbehaves.1, ih hbehaves.2⟩

theorem behaves_bind {post : β → Prop} (inquiry : Inquiry α) (f : α → Inquiry β) :
    (inquiry >>= f).Behaves asks notes post ↔
      inquiry.Behaves asks notes fun a => (f a).Behaves asks notes post := by
  change (inquiry.bind f).Behaves asks notes post ↔ _
  induction inquiry with
  | done result => rfl
  | ask request resume ih => simp only [Inquiry.bind, Behaves, ih]
  | note step next ih => simp only [Inquiry.bind, Behaves, ih]

theorem Behaves.post_eval {inquiry : Inquiry α} (hbehaves : inquiry.Behaves asks notes post)
    (oracle : Oracle) : post (inquiry.eval oracle) := by
  induction inquiry with
  | done result => exact hbehaves
  | ask request resume ih => exact ih (oracle request) (hbehaves.2 _)
  | note step next ih => exact ih hbehaves.2

end Inquiry

namespace Attempt

variable {α β : Type} {asks : Request → Prop}

/-- A rule that asks only such questions, whatever it is told, and yields only such results. It
    notes nothing: that is left to the one who tries the rule. -/
def Behaves (asks : Request → Prop) (post : α → Prop) (attempt : Attempt α) : Prop :=
  Inquiry.Behaves asks (fun _ => False) (fun result => ∀ a, result = .ok a → post a) attempt.run

theorem Behaves.mono {post post' : α → Prop} {attempt : Attempt α}
    (hbehaves : attempt.Behaves asks post) (hpost : ∀ a, post a → post' a) :
    attempt.Behaves asks post' :=
  Inquiry.Behaves.mono (fun _ h => h) (fun _ h a ha => hpost a (h a ha)) hbehaves

variable (post : α → Prop)

@[simp] theorem behaves_pure (a : α) : (pure a : Attempt α).Behaves asks post ↔ post a :=
  ⟨fun h => h a rfl, fun h _ ha => Except.ok.inj ha ▸ h⟩

@[simp] theorem behaves_throw (refusal : Refusal) :
    (throw refusal : Attempt α).Behaves asks post :=
  fun _ h => nomatch h

@[simp] theorem behaves_decline : (decline : Attempt α).Behaves asks post :=
  behaves_throw post .declined

@[simp] theorem behaves_reject (fault : Fault) (position : Nat) :
    (reject fault position : Attempt α).Behaves asks post :=
  behaves_throw post _

@[simp] theorem behaves_ite (c : Prop) [Decidable c] (a b : Attempt α) :
    (if c then a else b).Behaves asks post ↔
      if c then a.Behaves asks post else b.Behaves asks post := by
  split <;> rfl

@[simp] theorem behaves_bind {post : β → Prop} (attempt : Attempt α) (f : α → Attempt β) :
    (attempt >>= f).Behaves asks post ↔ attempt.Behaves asks fun a => (f a).Behaves asks post := by
  refine (Inquiry.behaves_bind attempt.run _).trans ⟨?_, ?_⟩
  · refine Inquiry.Behaves.mono (fun _ h => h) fun result hpost => ?_
    rintro a rfl
    exact hpost
  · refine Inquiry.Behaves.mono (fun _ h => h) fun result hpost => ?_
    match result with
    | .ok a => exact hpost a rfl
    | .error refusal => exact fun _ h => nomatch h

@[simp] theorem behaves_verdictOn {post : Verdict → Prop} (request : Request) :
    (verdictOn request).Behaves asks post ↔ asks request ∧ ∀ verdict, post verdict :=
  and_congr_right fun _ => forall_congr' fun verdict =>
    ⟨fun h => h verdict rfl, fun h _ ha => Except.ok.inj ha ▸ h⟩

@[simp] theorem behaves_require {post : Parsed → Prop} (request : Request) :
    (require request).Behaves asks post ↔ asks request ∧ ∀ parsed, post parsed := by
  simp only [require, behaves_bind, behaves_verdictOn]
  refine and_congr_right fun _ => ⟨fun h parsed => (behaves_pure post parsed).mp (h (.ok parsed)),
    fun h => ?_⟩
  rintro (error | parsed)
  · exact behaves_throw post _
  · exact (behaves_pure post parsed).mpr (h parsed)

@[simp] theorem behaves_probe {post : Parsed → Prop} (request : Request) :
    (probe request).Behaves asks post ↔ asks request ∧ ∀ parsed, post parsed := by
  simp only [probe, behaves_bind, behaves_verdictOn]
  refine and_congr_right fun _ => ⟨fun h parsed => (behaves_pure post parsed).mp (h (.ok parsed)),
    fun h => ?_⟩
  rintro (error | parsed)
  · exact behaves_decline post
  · exact (behaves_pure post parsed).mpr (h parsed)

@[simp] theorem behaves_eat {post : Cursor → Prop} (ts : TokenStream) (s : Symbol)
    (cursor : Cursor) :
    (eat ts s cursor).Behaves asks post ↔
      (ts.sees cursor.token s = true → post (cursor.advance (.symbol s))) := by
  unfold eat
  simp

end Attempt

/-- A request that a rule may ask: for any construct, for a type or for what can be called. -/
def Request.Usual (request : Request) : Prop :=
  request.filter = none ∨ request.filter = some .types ∨ request.filter = some .callables

section

variable {ts : TokenStream} {start : Nat} {cursor : Cursor}

theorem Request.usual_any (i : Nat) : Request.Usual ⟨i, none⟩ :=
  .inl rfl

theorem Request.usual_types (i : Nat) : Request.Usual ⟨i, some .types⟩ :=
  .inr (.inl rfl)

theorem Request.usual_callables (i : Nat) : Request.Usual ⟨i, some .callables⟩ :=
  .inr (.inr rfl)

theorem Delimiters.items_behaves (delimiters : Delimiters) (budget : Nat) (cursor : Cursor)
    (found : List Node) :
    (delimiters.items ts budget cursor found).Behaves Request.Usual fun _ => True := by
  induction budget generalizing cursor found with
  | zero => exact Attempt.behaves_reject _ _ _
  | succ budget ih =>
    simp only [items]
    split
    · exact Attempt.behaves_reject _ _ _
    · simp only [Attempt.behaves_ite, Attempt.behaves_pure, Attempt.behaves_bind,
        Attempt.behaves_require, ih, Request.usual_any]
      split
      · trivial
      · split
        · trivial
        · refine ⟨trivial, fun parsed => ?_⟩
          split
          · trivial
          · exact Attempt.behaves_reject _ _ _

namespace Rule

theorem blockAt_behaves :
    (blockAt ts start cursor).Behaves Request.Usual fun parsed => parsed.node.kind = .block := by
  simp only [blockAt, Attempt.behaves_ite, Attempt.behaves_bind, Attempt.behaves_pure, Node.kind,
    Delimiters.read, Delimiters.items_behaves, Attempt.behaves_decline, ite_self]

theorem stringAt_behaves :
    (stringAt ts start cursor).Behaves Request.Usual fun parsed => parsed.node.kind = .string := by
  unfold stringAt
  split
  · exact Attempt.behaves_decline _
  · split
    · exact Attempt.behaves_decline _
    · split
      · exact (Attempt.behaves_pure _ _).mpr rfl
      · exact Attempt.behaves_throw _ _

theorem parameterList_behaves :
    (parameterList ts cursor).Behaves Request.Usual fun _ => True := by
  simp only [parameterList, Attempt.behaves_bind, Attempt.behaves_eat, implies_true]

theorem nameAfterType_behaves :
    (nameAfterType ts cursor).Behaves Request.Usual fun _ => True := by
  unfold nameAfterType
  split
  · simp only [Attempt.behaves_bind, Attempt.behaves_verdictOn]
    refine ⟨Request.usual_types _, fun verdict => ?_⟩
    split
    · exact Attempt.behaves_reject _ _ _
    · split
      · exact Attempt.behaves_reject _ _ _
      · exact (Attempt.behaves_pure _ _).mpr trivial
  · exact Attempt.behaves_decline _

theorem namedBody_behaves (name : String) :
    (namedBody start name cursor).Behaves Request.Usual fun parsed =>
      parsed.node.kind = .functionDefinition := by
  simp only [namedBody, Attempt.behaves_bind, Attempt.behaves_require, Attempt.behaves_pure,
    Request.usual_any, Node.kind, implies_true, and_self]

theorem namedFunctionAt_behaves :
    (namedFunctionAt ts start cursor).Behaves Request.Usual fun parsed =>
      parsed.node.kind = .functionDefinition := by
  simp only [namedFunctionAt, Attempt.behaves_bind, Attempt.behaves_probe]
  refine ⟨Request.usual_types _, fun first => ?_⟩
  split
  · simp only [Attempt.behaves_bind, namedBody_behaves]
    exact nameAfterType_behaves.mono fun _ _ => parameterList_behaves
  · split
    · exact Attempt.behaves_decline _
    · simp only [Attempt.behaves_bind, Attempt.behaves_ite, namedBody_behaves,
        Attempt.behaves_decline, ite_self]
      exact parameterList_behaves

theorem inlineFunctionAt_behaves :
    (inlineFunctionAt ts start cursor).Behaves Request.Usual fun parsed =>
      parsed.node.kind = .functionDefinition := by
  simp only [inlineFunctionAt, Attempt.behaves_bind, Attempt.behaves_probe, Attempt.behaves_eat,
    Attempt.behaves_require, Attempt.behaves_pure, Request.usual_any, Node.kind, implies_true,
    and_self]
  exact ⟨Request.usual_types _, fun type => parameterList_behaves⟩

theorem executionAt_behaves :
    (executionAt ts start cursor).Behaves Request.Usual fun parsed =>
      parsed.node.kind = .execution := by
  simp only [executionAt, Attempt.behaves_bind, Attempt.behaves_probe, Attempt.behaves_ite,
    Attempt.behaves_pure, Delimiters.read, Node.kind, Delimiters.items_behaves,
    Attempt.behaves_decline, ite_self]
  exact ⟨Request.usual_callables _, fun _ => trivial⟩

theorem groupingAt_behaves :
    (groupingAt ts cursor).Behaves Request.Usual fun _ => True := by
  simp only [groupingAt, Attempt.behaves_bind, Attempt.behaves_eat, Attempt.behaves_require,
    Attempt.behaves_pure, Request.usual_any, implies_true, and_self]

theorem identifierAt_behaves :
    (identifierAt ts start cursor).Behaves Request.Usual fun parsed =>
      parsed.node.kind = .identifier := by
  unfold identifierAt
  split
  · split
    · exact (Attempt.behaves_pure _ _).mpr rfl
    · exact Attempt.behaves_decline _
  · exact Attempt.behaves_decline _

/-- A rule that has a kind yields constructs of that kind. -/
theorem attempt_behaves (rule : Rule) :
    (rule.attempt ts start cursor).Behaves Request.Usual fun parsed =>
      ∀ kind, rule.kind? = some kind → parsed.node.kind = kind := by
  have hyields {kind : NodeKind} {attempt : Attempt Parsed}
      (hattempt : attempt.Behaves Request.Usual fun parsed => parsed.node.kind = kind) :
      attempt.Behaves Request.Usual fun parsed =>
        ∀ other, some kind = some other → parsed.node.kind = other :=
    hattempt.mono fun _ hkind _ hother => hkind.trans (Option.some.inj hother)
  cases rule with
  | block => exact hyields blockAt_behaves
  | string => exact hyields stringAt_behaves
  | namedFunction => exact hyields namedFunctionAt_behaves
  | inlineFunction => exact hyields inlineFunctionAt_behaves
  | execution => exact hyields executionAt_behaves
  | grouping => exact groupingAt_behaves.mono fun _ _ _ hkind => nomatch hkind
  | identifier => exact hyields identifierAt_behaves

theorem kind_eq_of_eval {rule : Rule} {oracle : Oracle} {parsed : Parsed} {kind : NodeKind}
    (hmatched : (rule.attempt ts start cursor).eval oracle = .ok parsed)
    (hkind : rule.kind? = some kind) : parsed.node.kind = kind :=
  (attempt_behaves rule).post_eval oracle parsed hmatched kind hkind

end Rule

/-- Apart from what is noted when a request is entered, only the outcome of each rule is noted. -/
theorem tryRules_behaves (rules : List Rule) :
    (tryRules ts start cursor rules).Behaves Request.Usual
      (fun step => ∀ request, step ≠ .entered request) fun _ => True := by
  induction rules with
  | nil => trivial
  | cons rule rest ih =>
    rw [tryRules, Inquiry.behaves_bind]
    refine Inquiry.Behaves.mono (fun _ h => h.elim) (fun result _ => ?_) (Rule.attempt_behaves rule)
    match result with
    | .ok parsed => exact ⟨nofun, trivial⟩
    | .error .declined => exact ⟨nofun, ih⟩
    | .error (.rejected error) => trivial

end

end CurlyScript
