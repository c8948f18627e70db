import CurlyScript.Proofs.Grammar.Portability
import CurlyScript.Proofs.Script.Spans

namespace CurlyScript

namespace Node

variable {node : Node} {ts : TokenStream}

/-- Whatever is nested in a construct lies within its span. -/
theorem span_bounds_of_at? {path : List Nat} {part : Node}
    (hspans : node.Everywhere (·.WellSpanned ts)) (hpart : node.at? path = some part) :
    node.span.start ≤ part.span.start ∧ part.span.stop ≤ node.span.stop := by
  induction path generalizing node with
  | nil =>
    obtain rfl := Option.some.inj hpart
    exact ⟨Nat.le_refl _, Nat.le_refl _⟩
  | cons k path ih =>
    obtain ⟨child, hchild, hbelow⟩ := at?_cons_eq_some_iff.mp hpart
    obtain ⟨hspan, hchildren⟩ := everywhere_iff.mp hspans
    have hmem := List.mem_of_getElem? hchild
    obtain ⟨hstart, hstop⟩ := ih (hchildren child hmem) hbelow
    have hle : node.span.start ≤ child.span.start := by
      obtain hlt | ⟨-, -, heq⟩ := hspan.starts k child hchild <;> omega
    exact ⟨Nat.le_trans hle hstart, Nat.le_trans hstop (hspan.stops child hmem).1⟩

/-- Nothing in a construct begins or ends before the construct begins. -/
theorem everywhere_start_le (hspans : node.Everywhere (·.WellSpanned ts)) :
    node.Everywhere fun part => node.span.start ≤ part.span.start ∧
      node.span.start ≤ part.span.stop := by
  intro path part hpart
  have hlt := (hspans path part hpart).start_lt_stop
  have hstart := (span_bounds_of_at? hspans hpart).1
  exact ⟨hstart, by omega⟩

/-- Nothing is lost when a construct is moved down to the first index: moved up again it is the
    same. -/
theorem moved_down_up (hspans : node.Everywhere (·.WellSpanned ts)) :
    (node.moved (· - node.span.start)).moved (· + node.span.start) = node := by
  refine moved_moved_eq_self fun path part hpart => ?_
  obtain ⟨hstart, hstop⟩ := everywhere_start_le hspans path part hpart
  rw [Span.moved, Span.moved, Nat.sub_add_cancel hstart, Nat.sub_add_cancel hstop]

end Node

/-- What is portable is read from the tokens of its span alone. -/
theorem Node.Portable.parse_extract {ts : TokenStream} {limit : Nat} {node : Node}
    (hportable : node.Portable ts (limit + 1)) :
    (Session.parse ⟨ts.extract node.span.start node.span.stop, limit, {}⟩ ⟨0, none⟩).1 =
      .ok ⟨node.moved (· - node.span.start), .fresh (node.span.stop - node.span.start)⟩ := by
  have hstops : TokenStream.StopsAt (ts.extract node.span.start node.span.stop)
      (node.span.stop - node.span.start) := by
    apply TokenStream.stopsAt_of_size_le
    rw [Array.size_extract]
    omega
  obtain ⟨hreads, hfits⟩ := hportable _ _ (TokenStream.carries_extract ..) hstops
  rw [Nat.sub_self] at hreads hfits
  exact Session.parse_eq_ok_iff.mpr ⟨hfits, (agrees _ 0).verdict_eq hreads⟩

/-- Every part of an accepted script is a parse of its own: with the same limit its tokens alone are
    read as the part, through the last of them, and only the place is another. -/
theorem Script.parse_ok_reparses {limit : Nat} {source : String} {script : Script}
    (hne : source ≠ "") (hok : Script.parse limit source = .ok script) :
    script.tokens = enclose (tokenize source) ∧ script.root.Everywhere fun part =>
      (Session.parse ⟨script.tokens.extract part.span.start part.span.stop, limit, {}⟩
          ⟨0, none⟩).1 =
        .ok ⟨part.moved (· - part.span.start), .fresh (part.span.stop - part.span.start)⟩ ∧
      (part.moved (· - part.span.start)).moved (· + part.span.start) = part := by
  have hne' := mt tokenize_eq_nil_iff.mp hne
  obtain ⟨htokens, hreads⟩ := reads_of_parse_ok hne' hok
  have hsolid := solid_of_parse_ok hne' hok
  have hportable := hreads.portable hsolid (fits_of_parse_ok hne' hok)
  have hspans := hreads.wellSpanned (Nat.le_refl _) hsolid
  refine ⟨htokens, fun path part hpart => ⟨(hportable path part hpart).parse_extract, ?_⟩⟩
  exact Node.moved_down_up (hspans.at? hpart)

/-- With two levels for its callee a call is read in its block, and the same two levels do for the
    call alone. -/
theorem Script.parse_ok_reparses_call :
    ("a()" ≠ "" ∧ Script.parse 2 "a()" =
      .ok ⟨enclose [.text "a", .symbol .openParen, .symbol .closeParen],
        .block ⟨0, 5⟩ [.execution ⟨1, 4⟩ (.identifier ⟨1, 2⟩ "a") []]⟩) ∧
    (Session.parse ⟨#[.text "a", .symbol .openParen, .symbol .closeParen], 2, {}⟩ ⟨0, none⟩).1 =
      .ok ⟨.execution ⟨0, 3⟩ (.identifier ⟨0, 1⟩ "a") [], .fresh 3⟩ := by
  have hne : "a()" ≠ "" := by decide
  have hok : Script.parse 2 "a()" =
      .ok ⟨enclose [.text "a", .symbol .openParen, .symbol .closeParen],
        .block ⟨0, 5⟩ [.execution ⟨1, 4⟩ (.identifier ⟨1, 2⟩ "a") []]⟩ := by cbv
  exact ⟨⟨hne, hok⟩, ((Script.parse_ok_reparses hne hok).2 [0] _ rfl).1⟩

end CurlyScript
