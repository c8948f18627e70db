import CurlyScript.Proofs.Grammar.Failing

namespace CurlyScript

namespace TokenStream

variable {ts : TokenStream} {i : Nat}

theorem skipBlanks_le_size (hle : i ≤ ts.size) : ts.skipBlanks i ≤ ts.size := by
  fun_induction skipBlanks ts i with
  | case1 i hlt hblank ih => exact ih hlt
  | case2 i hlt hblank => exact hle
  | case3 i hge => exact hle

theorem skipBlanks_of_size_le (hle : ts.size ≤ i) : ts.skipBlanks i = i := by
  rw [skipBlanks, dif_neg (Nat.not_lt.mpr hle)]

theorem lt_size_of_hasParameters (hparameters : ts.hasParameters i = true) : i + 1 < ts.size :=
  lt_size_of_sees (Bool.and_eq_true_iff.mp hparameters).2

theorem lt_size_of_wordAt? {name : String} (hword : ts.wordAt? i = some name) : i < ts.size :=
  (Array.getElem?_eq_some_iff.mp (wordAt?_eq_some.mp hword).1).1

/-- The part that an opening tells lies in the stream or just behind it. -/
theorem place_le_size {place : Nat} (hplace : (ts.opening i).place? = some place) :
    place ≤ ts.size := by
  have hshows := ts.opening_shows i
  cases hopening : ts.opening i with
  | named name body =>
    rw [hopening] at hshows hplace
    obtain rfl := Option.some.inj hplace
    obtain ⟨_, -, -, -, hparameters, rfl⟩ | ⟨-, -, -, hcurly⟩ := hshows
    · exact skipBlanks_le_size (lt_size_of_hasParameters hparameters)
    · exact Nat.le_of_lt (lt_size_of_sees hcurly)
  | inline body =>
    rw [hopening] at hshows hplace
    obtain rfl := Option.some.inj hplace
    obtain ⟨_, -, -, -, harrow, rfl⟩ := hshows
    exact skipBlanks_le_size (lt_size_of_sees harrow)
  | call callee arguments =>
    rw [hopening] at hshows hplace
    obtain rfl := Option.some.inj hplace
    obtain ⟨-, hparen, rfl⟩ := hshows
    exact lt_size_of_sees hparen
  | _ =>
    rw [hopening] at hplace
    cases hplace

/-- Where a body is told, it is told without the blanks before it. -/
theorem skipBlanks_of_opening_named {name : String} {body : Nat}
    (hopening : ts.opening i = .named name body) : ts.skipBlanks body = body := by
  obtain ⟨_, -, -, -, -, rfl⟩ | ⟨-, -, rfl, -⟩ := shows_of_opening_eq hopening
  all_goals exact ts.skipBlanks_skipBlanks _

theorem skipBlanks_of_opening_inline {body : Nat} (hopening : ts.opening i = .inline body) :
    ts.skipBlanks body = body := by
  obtain ⟨_, -, -, -, -, rfl⟩ := shows_of_opening_eq hopening
  exact ts.skipBlanks_skipBlanks _

end TokenStream

section

variable {ts : TokenStream} {delimiters : Delimiters} {start i stop : Nat} {node : Node}
  {nodes : List Node} {error : SyntaxError}

theorem Reads.le (hreads : Reads ts start node stop) : start ≤ stop :=
  (agrees ts start).le hreads

/-- What comes after a node lies behind its place. -/
theorem Reads.le_skipBlanks (hreads : Reads ts start node stop) : start ≤ ts.skipBlanks stop :=
  Nat.le_trans hreads.le (ts.le_skipBlanks stop)

theorem Reads.lt (hreads : Reads ts start node stop) (hlt : start < ts.size) : start < stop := by
  have hmoved := (verdict_advances ts _ _ ((agrees ts start).verdict_eq hreads)).2 hlt
  rwa [Cursor.fresh_token] at hmoved

theorem ReadsList.lt {i stop : Nat} {nodes : List Node} :
    ReadsList ts delimiters i nodes stop → ts.skipBlanks i < stop
  | .close _ => Nat.lt_succ_self _
  | .separator _ hrest => by
    have hskip := ts.le_skipBlanks (ts.skipBlanks i + 1)
    have hlater := hrest.lt
    omega
  | .item _ hnode _ hrest => by
    have hle := hnode.le_skipBlanks
    have hlater := hrest.lt
    rw [TokenStream.skipBlanks_skipBlanks] at hlater
    omega

/-- A list ends with a token of its own. -/
theorem ReadsList.start_lt (hlist : ReadsList ts delimiters i nodes stop) : i < stop :=
  Nat.lt_of_le_of_lt (ts.le_skipBlanks i) hlist.lt

theorem ReadsList.stop_le_size {i stop : Nat} {nodes : List Node} :
    ReadsList ts delimiters i nodes stop → stop ≤ ts.size
  | .close hclose => TokenStream.lt_size_of_sees hclose
  | .separator _ hrest => hrest.stop_le_size
  | .item _ _ _ hrest => hrest.stop_le_size

/-- A list ends with its closing bracket. -/
theorem ReadsList.sees_closer {delimiters : Delimiters} {i stop : Nat} {nodes : List Node} :
    ReadsList ts delimiters i nodes stop → ts.sees (stop - 1) delimiters.closer = true
  | .close hclose => hclose
  | .separator _ hrest => hrest.sees_closer
  | .item _ _ _ hrest => hrest.sees_closer

theorem Reads.stop_le_size {start stop : Nat} {node : Node} :
    Reads ts start node stop → start ≤ ts.size → stop ≤ ts.size
  | .empty _, hle => hle
  | .block _ hlist, _ => hlist.stop_le_size
  | .string _ _ hclose _, _ => TokenStream.lt_size_of_quoteAt? hclose
  | .named hopening hbody, _ =>
    hbody.stop_le_size (TokenStream.place_le_size (congrArg Opening.place? hopening))
  | .inline hopening hbody, _ =>
    hbody.stop_le_size (TokenStream.place_le_size (congrArg Opening.place? hopening))
  | .call _ hlist, _ => hlist.stop_le_size
  | .word hopening, _ =>
    TokenStream.lt_size_of_wordAt? (TokenStream.shows_of_opening_eq hopening)
  | .grouping _ _ hclose _, _ => TokenStream.lt_size_of_sees hclose
  | .groupingCall _ _ _ _ hlist, _ => hlist.stop_le_size

/-- What an opening bracket begins is a block. -/
theorem Reads.exists_statements (hreads : Reads ts start node stop)
    (hblock : ts.opening (ts.skipBlanks start) = .block) :
    ∃ statements, node = .block ⟨start, stop⟩ statements ∧
      ReadsList ts .statements (ts.skipBlanks start + 1) statements stop := by
  cases hreads with
  | empty hend =>
    have hlt := TokenStream.lt_size_of_sees (TokenStream.shows_of_opening_eq hblock)
    have hskip := ts.le_skipBlanks start
    omega
  | block _ hlist => exact ⟨_, rfl, hlist⟩
  | string hopening | named hopening | inline hopening | call hopening | word hopening
  | grouping hopening | groupingCall hopening =>
    rw [hblock] at hopening
    cases hopening

mutual

/-- A fault shows where something is looked for or later. -/
theorem Fails.le_position {start : Nat} {error : SyntaxError} :
    Fails ts start error → ts.skipBlanks start ≤ error.position
  | .block _ hlist => by
    have hlater := hlist.le_position
    have hskip := ts.le_skipBlanks (ts.skipBlanks start + 1)
    omega
  | .string hopening _ =>
    Nat.le_of_lt (TokenStream.lt_size_of_quoteAt? (TokenStream.shows_of_opening_eq hopening))
  | .named hopening hbody => by
    have hlater := hbody.le_position
    have hplace := TokenStream.lt_of_opening (congrArg Opening.place? hopening)
    rw [TokenStream.skipBlanks_of_opening_named hopening] at hlater
    omega
  | .misnamed _ => Nat.le_add_right _ 2
  | .inline hopening hbody => by
    have hlater := hbody.le_position
    have hplace := TokenStream.lt_of_opening (congrArg Opening.place? hopening)
    rw [TokenStream.skipBlanks_of_opening_inline hopening] at hlater
    omega
  | .call hopening hlist => by
    have hplace := TokenStream.lt_of_opening (congrArg Opening.place? hopening)
    have hlater := Nat.le_trans (ts.le_skipBlanks _) hlist.le_position
    omega
  | .inner _ hinner => by
    have hlater := hinner.le_position
    have hskip := ts.le_skipBlanks (ts.skipBlanks start + 1)
    omega
  | .ungrouped _ _ _ => Nat.le_refl _
  | .groupingCall _ hinner _ _ hlist => by
    have hle := hinner.le_skipBlanks
    have hafter := Nat.le_trans (Nat.add_le_add_right hle 1) (ts.le_skipBlanks _)
    have hlater := Nat.le_trans (ts.le_skipBlanks _) hlist.le_position
    omega
  | .nothing _ _ => Nat.le_refl _

theorem FailsList.le_position {delimiters : Delimiters} {i : Nat} {error : SyntaxError} :
    FailsList ts delimiters i error → ts.skipBlanks i ≤ error.position
  | .separator _ hrest => by
    have hlater := hrest.le_position
    have hskip := ts.le_skipBlanks (ts.skipBlanks i + 1)
    omega
  | .ended _ => Nat.le_refl _
  | .item _ hnode => by
    have hlater := hnode.le_position
    rwa [TokenStream.skipBlanks_skipBlanks] at hlater
  | .undelimited _ hnode _ => hnode.le_skipBlanks
  | .rest _ hnode _ hrest => by
    have hlater := hrest.le_position
    rw [TokenStream.skipBlanks_skipBlanks] at hlater
    exact Nat.le_trans hnode.le_skipBlanks hlater

end

theorem Fails.start_le_position (hfails : Fails ts start error) : start ≤ error.position :=
  Nat.le_trans (ts.le_skipBlanks start) hfails.le_position

theorem FailsList.start_le_position (hfails : FailsList ts delimiters i error) :
    i ≤ error.position :=
  Nat.le_trans (ts.le_skipBlanks i) hfails.le_position

mutual

/-- No fault shows behind the end of the input. -/
theorem Fails.position_le_size {start : Nat} {error : SyntaxError} :
    Fails ts start error → start ≤ ts.size → error.position ≤ ts.size
  | .block hopening hlist, _ =>
    hlist.position_le_size (TokenStream.lt_size_of_sees (TokenStream.shows_of_opening_eq hopening))
  | .string _ _, _ => Nat.le_refl _
  | .named hopening hbody, _ =>
    hbody.position_le_size (TokenStream.place_le_size (congrArg Opening.place? hopening))
  | .misnamed hopening, _ => by
    obtain ⟨_, -, -, htext, -⟩ := TokenStream.shows_of_opening_eq hopening
    obtain ⟨_, htoken⟩ := TokenStream.hasText_iff.mp htext
    exact Nat.le_of_lt (Array.getElem?_eq_some_iff.mp htoken).1
  | .inline hopening hbody, _ =>
    hbody.position_le_size (TokenStream.place_le_size (congrArg Opening.place? hopening))
  | .call hopening hlist, _ =>
    hlist.position_le_size (TokenStream.place_le_size (congrArg Opening.place? hopening))
  | .inner hopening hinner, _ =>
    hinner.position_le_size (TokenStream.lt_size_of_sees (TokenStream.shows_of_opening_eq hopening))
  | .ungrouped _ _ _, hle => TokenStream.skipBlanks_le_size hle
  | .groupingCall _ _ _ hcall hlist, _ =>
    hlist.position_le_size (TokenStream.lt_size_of_sees hcall)
  | .nothing _ _, hle => TokenStream.skipBlanks_le_size hle

theorem FailsList.position_le_size {delimiters : Delimiters} {i : Nat} {error : SyntaxError} :
    FailsList ts delimiters i error → i ≤ ts.size → error.position ≤ ts.size
  | .separator hseparator hrest, _ =>
    hrest.position_le_size (TokenStream.lt_size_of_sees hseparator)
  | .ended _, hle => TokenStream.skipBlanks_le_size hle
  | .item _ hnode, hle => hnode.position_le_size (TokenStream.skipBlanks_le_size hle)
  | .undelimited _ hnode _, hle => TokenStream.skipBlanks_le_size
      (hnode.stop_le_size (TokenStream.skipBlanks_le_size hle))
  | .rest _ _ hend hrest, _ =>
    hrest.position_le_size (Nat.le_of_lt (Delimiters.lt_size_of_seenAt hend))

end

end

section

variable {ts : TokenStream} {i k : Nat}

/-- No parenthesis is opened from one index on up to another. -/
def TokenStream.Unopened (ts : TokenStream) (start stop : Nat) : Prop :=
  start ≤ stop ∧ ∀ k, start ≤ k → k < stop → ts.sees k .openParen = false

namespace TokenStream

theorem Unopened.refl (ts : TokenStream) (i : Nat) : ts.Unopened i i :=
  ⟨Nat.le_refl i, fun _ hle hlt => absurd hle (Nat.not_le.mpr hlt)⟩

theorem Unopened.succ (hunopened : ts.Unopened i k) (hk : ts.sees k .openParen = false) :
    ts.Unopened i (k + 1) := by
  refine ⟨Nat.le_succ_of_le hunopened.1, fun j hle hlt => ?_⟩
  obtain rfl | hlt := Nat.eq_or_lt_of_le (Nat.le_of_lt_succ hlt)
  · exact hk
  · exact hunopened.2 j hle hlt

theorem Unopened.skipBlanks (hunopened : ts.Unopened i k) : ts.Unopened i (ts.skipBlanks k) := by
  fun_induction TokenStream.skipBlanks ts k with
  | case1 k hlt hblank ih =>
    apply ih (hunopened.succ _)
    rw [Bool.eq_false_iff]
    intro hparen
    obtain ⟨_, hsame⟩ := Array.getElem?_eq_some_iff.mp (sees_iff.mp hparen)
    rw [hsame] at hblank
    cases hblank
  | case2 | case3 => exact hunopened

/-- Behind the end of the input nothing is opened. -/
theorem unopened_of_size_le (hle : ts.size ≤ k) : ts.Unopened ts.size k := by
  refine ⟨hle, fun j hj _ => ?_⟩
  rw [sees, Array.getElem?_eq_none hj]
  rfl

/-- A grouping ends with brackets that close. -/
theorem Unopened.grouped (hunopened : ts.Unopened i k)
    (hclose : ts.sees (ts.skipBlanks k) .closeParen = true) :
    ts.Unopened i (ts.skipBlanks k + 1) :=
  hunopened.skipBlanks.succ (sees_eq_false hclose (by decide))

end TokenStream

/-- Behind a node there is at most the end of the groupings that it stands in. -/
theorem Reads.unopened {start stop : Nat} {node : Node} :
    Reads ts start node stop → ts.Unopened node.span.stop stop
  | .empty hend => TokenStream.unopened_of_size_le hend
  | .block _ _ => .refl ts _
  | .string _ _ _ _ => .refl ts _
  | .named _ _ => .refl ts _
  | .inline _ _ => .refl ts _
  | .call _ _ => .refl ts _
  | .word _ => .refl ts _
  | .grouping _ hinner hclose _ => hinner.unopened.grouped hclose
  | .groupingCall _ _ _ _ _ => .refl ts _

end

end CurlyScript
