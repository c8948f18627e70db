import CurlyScript.Proofs.Grammar.Parts
import CurlyScript.Proofs.Layout.Placing

namespace CurlyScript

/-- The tokens from `stop` on make something else of a construct that would otherwise end there.
    What stands in parentheses is called, a name is called or turns out to be a type or the name of
    a definition, and a call without arguments turns out to be the beginning of a definition. A
    function goes on with its body. Nothing goes on behind a block or a string. -/
inductive Node.GoesOn (ts : TokenStream) (stop : Nat) : Node → Prop
  | call {node : Node} (hgrouped : node.span.stop < stop)
      (hparen : ts.sees (ts.skipBlanks stop) .openParen = true) : GoesOn ts stop node
  | word {span : Span} {name : String} (hspan : span.stop = stop)
      (hafter : ts.afterWord name stop ≠ .word name) : GoesOn ts stop (.identifier span name)
  | definition {span : Span} {callee : Node} (hspan : span.stop = stop)
      (hempty : callee.span.stop + 2 = stop) (hbody : ts.BodyAt (ts.skipBlanks stop)) :
      GoesOn ts stop (.execution span callee [])
  | named {span : Span} {name : String} {body : Node} (hspan : span.stop = stop)
      (hbody : GoesOn ts stop body) : GoesOn ts stop (.namedFunction span name body)
  | inline {span : Span} {body : Node} (hspan : span.stop = stop)
      (hbody : GoesOn ts stop body) : GoesOn ts stop (.inlineFunction span body)

variable {ts : TokenStream}

/-- Nothing goes on where items end or the input does. -/
theorem TokenStream.StopsAt.not_goesOn {stop : Nat} {node : Node} (hstops : ts.StopsAt stop) :
    ¬ node.GoesOn ts stop := by
  intro hgoesOn
  induction hgoesOn with
  | call _ hparen =>
    rw [hstops.sees_eq_false (by decide)] at hparen
    cases hparen
  | word _ hafter => exact hafter (TokenStream.afterWord_of_stopsAt hstops)
  | definition _ _ hbody => exact hstops.not_bodyAt hbody
  | named _ _ ih | inline _ _ ih => exact ih

/-- What is in parentheses can only be called, since its span ends before they do. -/
theorem Node.GoesOn.sees_openParen {stop : Nat} {node : Node} (hgoesOn : node.GoesOn ts stop)
    (hgrouped : node.span.stop < stop) : ts.sees (ts.skipBlanks stop) .openParen = true := by
  cases hgoesOn with
  | call _ hparen => exact hparen
  | word hspan | definition hspan | named hspan | inline hspan =>
    exact absurd hspan (Nat.ne_of_lt hgrouped)

/-- The span of a node does not go on behind it. -/
theorem Reads.span_stop_le {start stop : Nat} {node : Node} :
    Reads ts start node stop → node.kind ≠ .empty → node.span.stop ≤ stop
  | .empty _, hkind => absurd rfl hkind
  | @Reads.grouping _ _ next _ _ hinner _ _, hkind => by
    have hskip := ts.le_skipBlanks next
    have hle := hinner.span_stop_le hkind
    omega
  | .block _ _, _ | .string _ _ _ _, _ | .named _ _, _ | .inline _ _, _ | .call _ _, _
  | .word _, _ | .groupingCall _ _ _ _ _, _ => Nat.le_refl _

/-- Between what is called in parentheses and the end of its arguments stand three brackets. -/
theorem Reads.span_stop_add_two_lt {start next stop : Nat} {node : Node} {arguments : List Node}
    (hinner : Reads ts start node next) (hkind : node.kind ≠ .empty)
    (hlist : ReadsList ts .arguments (ts.skipBlanks (ts.skipBlanks next + 1) + 1) arguments stop) :
    node.span.stop + 2 < stop := by
  have hskip := ts.le_skipBlanks next
  have hskip' := ts.le_skipBlanks (ts.skipBlanks next + 1)
  have hle := hinner.span_stop_le hkind
  have hlt := hlist.start_lt
  omega

/-- A call that ends two tokens behind its name has nothing between its parentheses. -/
theorem ReadsList.hasParameters {i stop : Nat} {arguments : List Node}
    (hlist : ReadsList ts .arguments (ts.skipBlanks i + 1) arguments stop)
    (hparen : ts.sees (ts.skipBlanks i) .openParen = true) (hstop : stop = i + 2) :
    ts.hasParameters i = true := by
  have hskip := ts.le_skipBlanks i
  have hlt := hlist.start_lt
  have hblank : ts.skipBlanks i = i := by omega
  have hclose := hlist.sees_closer
  rw [hblank] at hparen
  rw [hstop] at hclose
  rw [TokenStream.hasParameters, Bool.and_eq_true]
  exact ⟨hparen, hclose⟩

/-- With a body behind it, a name with empty parentheses is no call. -/
theorem TokenStream.not_bodyAt_of_opening_call {i place : Nat} {callee : String}
    (hopening : ts.opening i = .call callee place) (hparameters : ts.hasParameters (i + 1) = true) :
    ¬ ts.BodyAt (ts.skipBlanks (i + 3)) := by
  have hword := (shows_of_opening_eq hopening).1
  rw [opening_of_wordAt? hword] at hopening
  rintro (hcurly | ⟨hequal, hchevron⟩)
  · rw [afterWord_untyped hparameters hcurly] at hopening
    cases hopening
  · rw [afterWord_inline hparameters hequal hchevron] at hopening
    cases hopening

/-- A node ends where nothing more can be had. -/
theorem Reads.not_goesOn {start stop : Nat} {node : Node} :
    Reads ts start node stop → node.Solid → ¬ node.GoesOn ts stop
  | .empty _, hsolid => absurd rfl hsolid.kind_ne
  | .block _ _, _ | .string _ _ _ _, _ => by
    rintro (⟨hgrouped, -⟩ | _)
    exact absurd hgrouped (Nat.lt_irrefl _)
  | .named _ hbody, hsolid => by
    rintro (⟨hgrouped, -⟩ | _ | _ | ⟨-, hgoesOn⟩ | _)
    · exact absurd hgrouped (Nat.lt_irrefl _)
    · exact hbody.not_goesOn (hsolid.child (List.mem_singleton_self _)) hgoesOn
  | .inline _ hbody, hsolid => by
    rintro (⟨hgrouped, -⟩ | _ | _ | _ | ⟨-, hgoesOn⟩)
    · exact absurd hgrouped (Nat.lt_irrefl _)
    · exact hbody.not_goesOn (hsolid.child (List.mem_singleton_self _)) hgoesOn
  | .call hopening hlist, _ => by
    rintro (⟨hgrouped, -⟩ | _ | ⟨-, hempty, hbody⟩)
    · exact absurd hgrouped (Nat.lt_irrefl _)
    · obtain ⟨-, hparen, rfl⟩ := TokenStream.shows_of_opening_eq hopening
      have hparameters := hlist.hasParameters hparen hempty.symm
      exact TokenStream.not_bodyAt_of_opening_call hopening hparameters (hempty ▸ hbody)
  | .word hopening, _ => by
    rintro (⟨hgrouped, -⟩ | ⟨-, hafter⟩)
    · exact absurd hgrouped (Nat.lt_irrefl _)
    · rw [TokenStream.opening_of_wordAt? (TokenStream.shows_of_opening_eq hopening)] at hopening
      exact hafter hopening
  | @Reads.grouping _ _ next _ _ hinner _ hcall, hsolid => by
    have hle := Nat.le_trans (hinner.span_stop_le hsolid.kind_ne) (ts.le_skipBlanks next)
    intro hgoesOn
    exact absurd (hgoesOn.sees_openParen (Nat.lt_succ_of_le hle)) (Bool.eq_false_iff.mp hcall)
  | .groupingCall _ hinner _ _ hlist, hsolid => by
    have hlt := hinner.span_stop_add_two_lt (hsolid.child (List.mem_cons_self ..)).kind_ne hlist
    rintro (⟨hgrouped, -⟩ | _ | ⟨-, hempty, -⟩)
    · exact absurd hgrouped (Nat.lt_irrefl _)
    · exact absurd hempty (Nat.ne_of_lt hlt)

end CurlyScript
