import CurlyScript.Proofs.Dump.Outline
import CurlyScript.Proofs.Script.Verbatim
import Mathlib.Logic.Function.Basic

namespace CurlyScript

namespace Node

variable {node other : Node} {part : Nat × Node} {depth : Nat}

theorem newline_notMem_of_isWord {name : String} (hname : isWord name = true) :
    '\n' ∉ name.toList := by
  rw [isWord, Bool.and_eq_true, List.all_eq_true] at hname
  exact fun hmem => absurd (hname.2 '\n' hmem) (by decide)

theorem newline_notMem_details (hlegible : node.Legible) : '\n' ∉ node.details := by
  have hdigits (n : Nat) : '\n' ∉ Nat.toDigits 10 n := notMem_toDigits_ten (by decide)
  cases node with
  | empty | inlineFunction => exact List.not_mem_nil
  | block | execution => simp [details, hdigits]
  | string span tokens => simp [details, newline_notMem_quoted]
  | identifier span name | namedFunction span name body =>
    simp [details, newline_notMem_of_isWord hlegible]

/-- A legible construct takes one line. -/
theorem newline_notMem_line (hlegible : part.2.Legible) : '\n' ∉ line part := by
  have hlabel : '\n' ∉ part.2.label.toList := by cases part.2 <;> simp [label]
  have hspan : '\n' ∉ part.2.span.shown := part.2.span.notMem_shown (by decide) (by decide)
  simp [line, toList_headline, hlabel, newline_notMem_details hlegible, hspan]

/-- What is everywhere in a construct is in its outline. -/
theorem Everywhere.of_mem_outline {P : Node → Prop} (hall : node.Everywhere P)
    (hpart : part ∈ node.outline depth) : P part.2 := by
  induction node using induction_on_children generalizing depth with
  | h node ih =>
    obtain ⟨hnode, hchildren⟩ := everywhere_iff.mp hall
    rw [outline_eq_cons] at hpart
    obtain rfl | hbelow := List.mem_cons.mp hpart
    · exact hnode
    · obtain ⟨child, hchild, hmem⟩ := List.mem_flatMap.mp hbelow
      exact ih child hchild (hchildren child hchild) hmem

theorem newline_notMem_lines (hlegible : node.Everywhere Legible) :
    ∀ shown ∈ (node.outline 0).map line, '\n' ∉ shown :=
  List.forall_mem_map.mpr fun _ hpart => newline_notMem_line (hlegible.of_mem_outline hpart)

/-- A dump of legible constructs can be taken apart into the entries of its lines. -/
theorem entries_eq_of_dump_eq (hnode : node.Everywhere Legible) (hother : other.Everywhere Legible)
    (h : node.dump = other.dump) : node.entries 0 = other.entries 0 := by
  have hlines : (node.outline 0).map line = (other.outline 0).map line := by
    apply lines_injective (newline_notMem_lines hnode) (newline_notMem_lines hother)
    rw [← toList_dump, ← toList_dump, h]
  -- What a line holds can be read from it, so it is enough that the lines are the same.
  have hentries : Function.FactorsThrough entry line := fun _ _ => entry_eq_of_line_eq
  have : Nonempty (Nat × String × Span) := ⟨entry (0, node)⟩
  obtain ⟨read, hread⟩ := (Function.factorsThrough_iff entry).mp hentries
  rw [entries, entries, hread, ← List.map_map, hlines, List.map_map]

/-- A dump has as many newlines as there are constructs, and one of them at its end. -/
theorem count_newline_dump (hlegible : node.Everywhere Legible) :
    node.dump.toList.count '\n' = node.count := by
  rw [toList_dump, count_newline_lines (newline_notMem_lines hlegible), List.length_map,
    length_outline]

theorem exists_dump_eq (node : Node) : ∃ text, node.dump = text ++ "\n" := by
  obtain hnil | ⟨before, last, hlast⟩ := (node.outline 0).eq_nil_or_concat
  · rw [outline_eq_cons] at hnil
    cases hnil
  · rw [dump, hlast]
    refine ⟨String.join (before.map fun entry => entry.2.dumpLine entry.1) ++
      (String.ofList (List.replicate (2 * last.1) ' ') ++ last.2.headline ++
        " [" ++ toString last.2.span.start ++ ".." ++ toString last.2.span.stop ++ "]"), ?_⟩
    simp [dumpLine, String.append_assoc]

/-- The names that a construct itself holds are words. -/
def WordNamed : Node → Prop
  | .identifier _ name | .namedFunction _ name _ => isWord name = true
  | _ => True

end Node

section

variable {ts : TokenStream}

theorem TokenStream.isWord_of_wordAt? {i : Nat} {name : String} (hword : ts.wordAt? i = some name) :
    isWord name = true :=
  (wordAt?_eq_some.mp hword).2

theorem TokenStream.isWord_of_opening_named {i body : Nat} {name : String}
    (hopening : ts.opening i = .named name body) : isWord name = true := by
  obtain ⟨-, -, -, hword, -, -⟩ | ⟨hword, -⟩ := shows_of_opening_eq hopening
  · exact isWord_of_wordAt? hword
  · exact isWord_of_wordAt? hword

mutual

/-- Nothing but words is ever read as a name. -/
theorem Reads.wordNamed {start stop : Nat} {node : Node} :
    Reads ts start node stop → node.Everywhere Node.WordNamed
  | .empty _ | .string _ _ _ _ => Node.everywhere_iff.mpr ⟨trivial, List.forall_mem_nil _⟩
  | .word hopening => Node.everywhere_iff.mpr
      ⟨TokenStream.isWord_of_wordAt? (TokenStream.shows_of_opening_eq hopening),
        List.forall_mem_nil _⟩
  | .block _ hlist => Node.everywhere_iff.mpr ⟨trivial, hlist.wordNamed⟩
  | .named hopening hbody => Node.everywhere_iff.mpr
      ⟨TokenStream.isWord_of_opening_named hopening,
        List.forall_mem_singleton.mpr hbody.wordNamed⟩
  | .inline _ hbody =>
    Node.everywhere_iff.mpr ⟨trivial, List.forall_mem_singleton.mpr hbody.wordNamed⟩
  | .call hopening hlist =>
    have hcallee := Node.everywhere_iff.mpr
      ⟨TokenStream.isWord_of_wordAt? (TokenStream.shows_of_opening_eq hopening).1,
        List.forall_mem_nil _⟩
    Node.everywhere_iff.mpr ⟨trivial, List.forall_mem_cons.mpr ⟨hcallee, hlist.wordNamed⟩⟩
  | .grouping _ hinner _ _ => hinner.wordNamed
  | .groupingCall _ hinner _ _ hlist => Node.everywhere_iff.mpr
      ⟨trivial, List.forall_mem_cons.mpr ⟨hinner.wordNamed, hlist.wordNamed⟩⟩

theorem ReadsList.wordNamed {delimiters : Delimiters} {i stop : Nat} {nodes : List Node} :
    ReadsList ts delimiters i nodes stop → ∀ node ∈ nodes, node.Everywhere Node.WordNamed
  | .close _ => List.forall_mem_nil _
  | .separator _ hrest => hrest.wordNamed
  | .item _ hnode _ hrest => List.forall_mem_cons.mpr ⟨hnode.wordNamed, hrest.wordNamed⟩

end

end

/-- The trees of scripts are legible. -/
theorem Script.legible_of_parse_ok {limit : Nat} {source : String} {script : Script}
    (hok : Script.parse limit source = .ok script) : script.root.Everywhere Node.Legible := by
  by_cases hne : tokenize source = []
  · rw [parse_of_empty hne] at hok
    obtain rfl := Except.ok.inj hok
    exact Node.everywhere_iff.mpr ⟨trivial, List.forall_mem_nil _⟩
  · obtain ⟨htokens, hreads⟩ := reads_of_parse_ok hne hok
    intro path part hpart
    have hnamed := hreads.wordNamed path part hpart
    have hstands := hreads.all_stand path part hpart
    cases part with
    | string span tokens =>
      obtain ⟨quote, gap, hquoted⟩ := hstands.quotedIn htokens
      exact hquoted.tokenize_eq.symm
    | identifier | namedFunction => exact hnamed
    | _ => trivial

/-- The dump of a tree tells the tree, with all spans and all tokens of its strings, and it gives
    every construct one line, if names are words and the texts of strings tell their tokens. That is
    so in every tree of a script. -/
theorem dump_loses_nothing :
    (∀ node other : Node, node.Everywhere Node.Legible → other.Everywhere Node.Legible →
      node.dump = other.dump → node = other) ∧
    (∀ node : Node, node.Everywhere Node.Legible →
      node.dump.toList.count '\n' = node.count ∧ ∃ text, node.dump = text ++ "\n") ∧
    ∀ limit source script, Script.parse limit source = .ok script →
      script.root.Everywhere Node.Legible := by
  refine ⟨?_, ?_, ?_⟩
  · exact fun node other hnode hother hdump =>
      Node.eq_of_entries_eq hnode hother (Node.entries_eq_of_dump_eq hnode hother hdump)
  · exact fun node hlegible => ⟨Node.count_newline_dump hlegible, node.exists_dump_eq⟩
  · exact fun limit source script => Script.legible_of_parse_ok

/-- The text of the string looks like the end of a line with a span and goes on to another line. -/
theorem dump_loses_nothing_forged :
    let text := "\" [1..2]\n"
    let captured : List Token := [.symbol .doubleQuote, .symbol .space, .symbol .openSquare,
      .text "1", .symbol .period, .symbol .period, .text "2", .symbol .closeSquare,
      .symbol .newline]
    let body : List Token := .symbol .singleQuote :: (captured ++ [.symbol .singleQuote])
    let root : Node := .block ⟨0, 13⟩ [.string ⟨1, 12⟩ captured]
    let other : Node := .block ⟨0, 13⟩ [.string ⟨1, 12⟩ (tokenize text)]
    Script.parse 2 ("'" ++ text ++ "'") = .ok ⟨Script.enclose body, root⟩ ∧
      root.Everywhere Node.Legible ∧ other.Everywhere Node.Legible ∧
      root.dump = "Block (1) [0..13]\n  String \"\\\" [1..2]\\n\" [1..12]\n" ∧
      other.dump = root.dump ∧ other = root ∧ root.dump.toList.count '\n' = root.count := by
  intro text captured body root other
  obtain ⟨hknown, hlines, hscripts⟩ := dump_loses_nothing
  have hbody : tokenize ("'" ++ text ++ "'") = body := by decide +kernel
  have hparse : (Session.parse ⟨Script.enclose body, 2, {}⟩ ⟨0, none⟩).1 =
      .ok ⟨root, .fresh 13⟩ := by cbv
  have hne : tokenize ("'" ++ text ++ "'") ≠ [] := hbody ▸ List.cons_ne_nil _ _
  have hok : Script.parse 2 ("'" ++ text ++ "'") = .ok ⟨Script.enclose body, root⟩ := by
    rw [Script.parse_of_nonempty hne, hbody, hparse]
    exact Script.ofParsed_enclose body root
  have hroot : root.Everywhere Node.Legible := hscripts 2 _ _ hok
  have hother : other.Everywhere Node.Legible := by
    have htext : tokenize text = captured := by decide +kernel
    simpa only [other, htext] using hroot
  have hdump : root.dump = "Block (1) [0..13]\n  String \"\\\" [1..2]\\n\" [1..12]\n" := by
    decide +kernel
  have hsame : other.dump = root.dump := by decide +kernel
  exact ⟨hok, hroot, hother, hdump, hsame, hknown other root hother hroot hsame,
    (hlines root hroot).1⟩

end CurlyScript
