import CurlyScript.Proofs.Inquiry.Conduct
import CurlyScript.Proofs.Script.Outcome
import CurlyScript.Proofs.Session.History

namespace CurlyScript

/-- The request on which work begins with an event, if it is such an event. -/
def Event.entered? : Event → Option Request
  | .step _ (.entered request) => some request
  | _ => none

/-- The requests that were worked on, in order. Those answered from the journal are not among
    them. -/
def enteredIn (events : Array Event) : List Request :=
  events.toList.filterMap Event.entered?

namespace Journal

def entered (journal : Journal) : List Request :=
  enteredIn journal.events

/-- A journal in which every request of the grammar's own is worked on at most once. -/
structure Tidy (ts : TokenStream) (journal : Journal) : Prop where
  nodup : journal.entered.Nodup
  usual : ∀ request ∈ journal.entered, request.Usual ∧ request.start < ts.size

/-- A tidy journal in which all that was begun is settled or else `pending`, which is what is still
    worked on further up. -/
structure Orderly (ts : TokenStream) (pending : Request → Prop) (journal : Journal) : Prop
    extends journal.Tidy ts where
  settled : ∀ request ∈ journal.entered, journal.Knows request ∨ pending request

variable {ts : TokenStream} {pending : Request → Prop} {journal : Journal}

theorem entered_log (journal : Journal) (event : Event) :
    (journal.log event).entered = journal.entered ++ event.entered?.toList := by
  rw [entered, entered, enteredIn, enteredIn, log, Array.toList_push, List.filterMap_append,
    List.filterMap_cons]
  cases event.entered? <;> rfl

theorem orderly_empty (ts : TokenStream) (pending : Request → Prop) :
    Journal.Orderly ts pending {} where
  nodup := List.nodup_nil
  usual _ hmem := nomatch hmem
  settled _ hmem := nomatch hmem

/-- Steps other than beginning to work on a request leave the order as it is. -/
theorem Orderly.log (horderly : journal.Orderly ts pending) {event : Event}
    (hevent : event.entered? = none) : (journal.log event).Orderly ts pending := by
  have hentered : (journal.log event).entered = journal.entered := by
    rw [entered_log, hevent, Option.toList_none, List.append_nil]
  constructor
  · constructor
    · rw [hentered]
      exact horderly.nodup
    · rw [hentered]
      exact horderly.usual
  · rw [hentered]
    exact horderly.settled

/-- Work may begin on a request that is neither settled nor pending. From then on it is pending. -/
theorem Orderly.enter (horderly : journal.Orderly ts pending) {request : Request}
    (husual : request.Usual) (hlt : request.start < ts.size) (hunknown : ¬ journal.Knows request)
    (hidle : ¬ pending request) (level : Nat) :
    (journal.log (.step level (.entered request))).Orderly ts
      fun other => other = request ∨ pending other := by
  have hentered : (journal.log (.step level (.entered request))).entered =
      journal.entered ++ [request] :=
    entered_log ..
  constructor
  · constructor
    · rw [hentered, ← List.concat_eq_append, List.nodup_concat]
      refine ⟨fun hmem => ?_, horderly.nodup⟩
      exact (horderly.settled request hmem).elim hunknown hidle
    · rw [hentered, List.forall_mem_append, List.forall_mem_singleton]
      exact ⟨horderly.usual, husual, hlt⟩
  · rw [hentered, List.forall_mem_append, List.forall_mem_singleton]
    exact ⟨fun other hmem => (horderly.settled other hmem).imp id .inr, .inr (.inl rfl)⟩

/-- A pending request is settled by remembering the verdict on it. -/
theorem Orderly.remember {request : Request}
    (horderly : journal.Orderly ts fun other => other = request ∨ pending other)
    (verdict : Verdict) : (journal.remember request verdict).Orderly ts pending where
  nodup := horderly.nodup
  usual := horderly.usual
  settled other hmem := by
    rw [knows_remember]
    obtain hknown | heq | hpending := horderly.settled other hmem
    · exact .inl (.inr hknown)
    · exact .inl (.inl heq)
    · exact .inr hpending

theorem Orderly.mono (horderly : journal.Orderly ts pending) {pending' : Request → Prop}
    (hpending : ∀ request, pending request → pending' request) : journal.Orderly ts pending' where
  toTidy := horderly.toTidy
  settled request hmem := (horderly.settled request hmem).imp id (hpending request)

/-- All that can be worked on: three requests at each token. -/
def usualRequests (ts : TokenStream) : List Request :=
  (List.range ts.size).flatMap fun i => [⟨i, none⟩, ⟨i, some .types⟩, ⟨i, some .callables⟩]

theorem length_usualRequests (ts : TokenStream) : (usualRequests ts).length = 3 * ts.size := by
  rw [usualRequests, List.length_flatMap]
  simp [Nat.mul_comm]

theorem Tidy.subset_usualRequests (htidy : journal.Tidy ts) :
    journal.entered ⊆ usualRequests ts := by
  intro request hmem
  obtain ⟨husual, hlt⟩ := htidy.usual request hmem
  obtain ⟨start, filter⟩ := request
  refine List.mem_flatMap.mpr ⟨start, List.mem_range.mpr hlt, ?_⟩
  obtain rfl | rfl | rfl : filter = none ∨ filter = some .types ∨ filter = some .callables := husual
  · exact List.mem_cons_self
  · exact List.mem_cons_of_mem _ List.mem_cons_self
  · exact List.mem_cons_of_mem _ (List.mem_cons_of_mem _ List.mem_cons_self)

theorem Tidy.length_le (htidy : journal.Tidy ts) : journal.entered.length ≤ 3 * ts.size := by
  rw [← length_usualRequests]
  exact (htidy.nodup.subperm htidy.subset_usualRequests).length_le

end Journal

/-- What is left of the order when a computation ends: all of it, unless the computation was given
    up, which leaves requests that were begun and not settled. -/
def LeavesOrder {α : Type} (ts : TokenStream) (pending : Request → Prop) :
    Except TooDeep α × Journal → Prop
  | (.ok _, next) => next.Orderly ts pending
  | (.error _, next) => next.Tidy ts

/-- Works on nothing a second time, whatever is pending meanwhile, and settles what it begins. -/
def Recorder.KeepsOrder {α : Type} (ts : TokenStream) (pending : Request → Prop)
    (recorder : Recorder α) : Prop :=
  ∀ journal, journal.Faithful ts → journal.Orderly ts pending →
    LeavesOrder ts pending (recorder.runFrom journal)

section

variable {ts : TokenStream} {limit levels : Nat} {pending : Request → Prop}

theorem LeavesOrder.tidy {α : Type} {result : Except TooDeep α × Journal}
    (hleaves : LeavesOrder ts pending result) : result.2.Tidy ts := by
  obtain ⟨stop | a, next⟩ := result
  · exact hleaves
  · exact hleaves.toTidy

/-- Order is kept by an inquiry that begins no request by itself if it is kept by the answers. -/
theorem Inquiry.run_keepsOrder {α : Type} {post : α → Prop} {inquiry : Inquiry α}
    (hbehaves : inquiry.Behaves Request.Usual (fun step => ∀ request, step ≠ .entered request) post)
    (hanswer : ∀ other ∈ inquiry.asks (verdict ts), other.Usual →
      (answer ts limit levels other).KeepsOrder ts pending) (level : Nat) :
    (inquiry.run (answer ts limit levels) fun step =>
      modify (·.log (.step level step))).KeepsOrder ts pending := by
  induction inquiry with
  | done result => exact fun _ _ horderly => horderly
  | ask request resume ih =>
    intro journal hfaithful horderly
    have hfirst := hanswer request (List.mem_cons_self ..) hbehaves.1 journal hfaithful horderly
    rw [run, Recorder.runFrom_bind]
    obtain ⟨stop, next, hrun⟩ | ⟨next, hrun, hnext⟩ := answer_cases limit levels request hfaithful
    · rw [hrun] at hfirst ⊢
      exact hfirst
    · rw [hrun] at hfirst ⊢
      refine ih _ (hbehaves.2 _) (fun other hother => ?_) next hnext hfirst
      exact hanswer other (List.mem_cons_of_mem _ hother)
  | note step rest ih =>
    intro journal hfaithful horderly
    have hevent : (Event.step level step).entered? = none := by
      cases step with
      | entered request => exact absurd rfl (hbehaves.1 request)
      | matched rule stop => rfl
      | declined rule => rfl
    rw [run, Recorder.runFrom_bind, Recorder.runFrom_modify]
    exact ih hbehaves.2 hanswer _ hfaithful (horderly.log hevent)

/-- While a request is worked out it is pending itself. -/
theorem Request.run_inquiry_leavesOrder {request : Request} {journal : Journal}
    (husual : request.Usual) (hunknown : ¬ journal.Knows request) (hidle : ¬ pending request)
    (hfaithful : journal.Faithful ts) (horderly : journal.Orderly ts pending)
    (hanswer : ∀ other ∈ (request.inquiry ts).asks (verdict ts), other.Usual →
      (answer ts limit levels other).KeepsOrder ts fun r => r = request ∨ pending r) (level : Nat) :
    LeavesOrder ts (fun r => r = request ∨ pending r)
      (((request.inquiry ts).run (answer ts limit levels) fun step =>
        modify (·.log (.step level step))).runFrom journal) := by
  unfold Request.inquiry at hanswer ⊢
  split at hanswer
  · next hlt =>
    rw [if_pos hlt, Inquiry.run, Recorder.runFrom_bind, Recorder.runFrom_modify]
    exact Inquiry.run_keepsOrder (tryRules_behaves _) hanswer level _ hfaithful
      (horderly.enter husual hlt hunknown hidle level)
  · next hge =>
    rw [if_neg hge]
    cases request.filter <;> exact horderly.mono fun _ => .inr

/-- A request is worked on only if the journal does not have its verdict. It was not begun before,
    since what is pending needs more levels. -/
theorem answer_keepsOrder {request : Request} (husual : request.Usual)
    (hpending : ∀ other, pending other → request.need ts < other.need ts) :
    (answer ts limit levels request).KeepsOrder ts pending := by
  induction levels generalizing request pending with
  | zero => exact fun _ _ horderly => horderly.toTidy
  | succ levels ih =>
    intro journal hfaithful horderly
    rw [answer_succ]
    cases hlookup : journal.lookup request with
    | some found => exact horderly
    | none =>
      have hunknown : ¬ journal.Knows request := by simp [Journal.Knows, hlookup]
      have hidle : ¬ pending request := fun h => Nat.lt_irrefl _ (hpending request h)
      have hleaves := Request.run_inquiry_leavesOrder husual hunknown hidle hfaithful horderly
        (fun other hother husual => ih husual fun r hr => by
          have hneed := need_lt_of_mem_asks hother
          obtain rfl | hr := hr
          · exact hneed
          · exact hneed.trans (hpending r hr)) (limit - levels)
      dsimp only
      split
      · next hstop =>
        rw [hstop] at hleaves
        exact hleaves
      · next found next hfound =>
        rw [hfound] at hleaves
        exact hleaves.remember found

end

/-- A new session works on nothing twice. -/
theorem Session.tidy_parse (ts : TokenStream) (limit : Nat) {request : Request}
    (husual : request.Usual) : (Session.parse ⟨ts, limit, {}⟩ request).2.journal.Tidy ts := by
  have hkeeps : (answer ts limit (limit + 1) request).KeepsOrder ts fun _ => False :=
    answer_keepsOrder husual fun _ hpending => hpending.elim
  exact (hkeeps {} (Journal.faithful_empty ts) (Journal.orderly_empty ts _)).tidy

namespace Script

theorem entered_parseLogged_of_empty {source : String} (hempty : tokenize source = [])
    (limit : Nat) : enteredIn (parseLogged limit source).2 = [] := by
  rw [parseLogged, hempty]
  rfl

/-- The work on a script is that on its outermost block. -/
theorem entered_parseLogged_of_nonempty {source : String} (hne : tokenize source ≠ [])
    (limit : Nat) : enteredIn (parseLogged limit source).2 =
      (Session.parse ⟨enclose (tokenize source), limit, {}⟩ ⟨0, none⟩).2.journal.entered := by
  have hisEmpty : (tokenize source).isEmpty = false := by
    rwa [List.isEmpty_eq_false_iff]
  have hrootOf : (rootOf limit (enclose (tokenize source))).2 =
      (Session.parse ⟨enclose (tokenize source), limit, {}⟩ ⟨0, none⟩).2.journal :=
    rfl
  simp only [parseLogged, hisEmpty, Bool.false_eq_true, if_false]
  rw [← hrootOf]
  cases (rootOf limit (enclose (tokenize source))).1 with
  | error error => rfl
  | ok root => exact (Journal.entered_log ..).trans (List.append_nil _)

end Script

/-- No request is worked on twice, whether a script is accepted, at fault or given up, and only
    three requests arise at a token. So the work on a script is linear in the number of its tokens,
    the two brackets of the outermost block included. -/
theorem each_request_entered_once (limit : Nat) (source : String) :
    (enteredIn (Script.parseLogged limit source).2).Nodup ∧
      (∀ request ∈ enteredIn (Script.parseLogged limit source).2, request.filter = none ∨
        request.filter = some .types ∨ request.filter = some .callables) ∧
      (enteredIn (Script.parseLogged limit source).2).length ≤
        3 * (Script.enclose (tokenize source)).size := by
  by_cases hempty : tokenize source = []
  · rw [Script.entered_parseLogged_of_empty hempty]
    exact ⟨List.nodup_nil, fun _ hmem => (List.not_mem_nil hmem).elim, Nat.zero_le _⟩
  · have htidy := Session.tidy_parse (Script.enclose (tokenize source)) limit (Request.usual_any 0)
    rw [Script.entered_parseLogged_of_nonempty hempty]
    exact ⟨htidy.nodup, fun request hmem => (htidy.usual request hmem).1, htidy.length_le⟩

/-- What a bracket holds may be a call, its callee or a type, and is worked on once for each. -/
example : (enteredIn (Script.parseLogged 8 "(a)").2).map Request.start = [0, 1, 1, 1, 2, 2, 2] := by
  cbv

end CurlyScript
