import CurlyScript.Node.Dump
import CurlyScript.Proofs.Dump.Escaping

namespace CurlyScript

/-- A span as a dump shows it behind a space. -/
def Span.shown (span : Span) : List Char :=
  '[' :: (Nat.toDigits 10 span.start ++ '.' :: '.' :: (Nat.toDigits 10 span.stop ++ [']']))

section

variable {c d : Char} {m n : Nat}

theorem notMem_toDigits_ten (hc : c.isDigit = false) : c ∉ Nat.toDigits 10 n := by
  intro hmem
  have hdigit := Nat.isDigit_of_mem_toDigits (by decide) (by decide) hmem
  exact Bool.false_ne_true (hc.symm.trans hdigit)

theorem Span.notMem_shown {span : Span} (hc : c.isDigit = false) (hmarks : c ∉ ['[', '.', ']']) :
    c ∉ span.shown := by
  simp only [List.mem_cons, List.not_mem_nil, or_false, not_or] at hmarks
  simp only [shown, List.mem_cons, List.mem_append, List.not_mem_nil, or_false, not_or]
  exact ⟨hmarks.1, notMem_toDigits_ten hc, hmarks.2.1, hmarks.2.1, notMem_toDigits_ten hc,
    hmarks.2.2⟩

theorem Span.shown_injective {s t : Span} (h : s.shown = t.shown) : s = t := by
  obtain ⟨hstart, hrest⟩ := append_cons_inj_of_notMem_left (notMem_toDigits_ten (by decide))
    (notMem_toDigits_ten (by decide)) (List.cons.inj h).2
  have hstop := List.append_cancel_right (List.cons.inj hrest).2
  have hstart' : s.start = t.start := toDigits_injective (by decide) (by decide) hstart
  have hstop' : s.stop = t.stop := toDigits_injective (by decide) (by decide) hstop
  cases s
  cases t
  exact congrArg₂ Span.mk hstart' hstop'

/-- An indentation ends where something else than a space stands. -/
theorem replicate_space_append_inj {xs ys : List Char} (hc : c ≠ ' ') (hd : d ≠ ' ')
    (h : List.replicate m ' ' ++ c :: xs = List.replicate n ' ' ++ d :: ys) :
    m = n ∧ c :: xs = d :: ys := by
  induction m generalizing n with
  | zero =>
    cases n with
    | zero => exact ⟨rfl, h⟩
    | succ n => exact absurd (List.cons.inj h).1 hc
  | succ m ih =>
    cases n with
    | zero => exact absurd (List.cons.inj h).1.symm hd
    | succ n =>
      obtain ⟨rfl, hrest⟩ := ih (List.cons.inj h).2
      exact ⟨rfl, hrest⟩

/-- Lines that end in newlines, and hold none themselves, can be told apart. -/
theorem lines_injective {xs ys : List (List Char)} (hx : ∀ x ∈ xs, '\n' ∉ x)
    (hy : ∀ y ∈ ys, '\n' ∉ y)
    (h : xs.flatMap (· ++ ['\n']) = ys.flatMap (· ++ ['\n'])) : xs = ys := by
  refine flatMap_injective_of_append
    (fun x _ => List.append_ne_nil_of_right_ne_nil x (List.cons_ne_nil _ _)) ?_ hx hy h
  intro x y us vs hx hy hlines
  rw [List.append_assoc, List.append_assoc] at hlines
  exact append_cons_inj_of_notMem_left hx hy hlines

theorem count_newline_lines {xs : List (List Char)} (hx : ∀ x ∈ xs, '\n' ∉ x) :
    (xs.flatMap (· ++ ['\n'])).count '\n' = xs.length := by
  induction xs with
  | nil => rfl
  | cons x xs ih =>
    rw [List.forall_mem_cons] at hx
    rw [List.flatMap_cons, List.count_append, List.count_append, List.count_eq_zero_of_not_mem hx.1,
      ih hx.2, List.length_cons, List.count_singleton_self]
    omega

end

namespace Node

/-- What a headline says behind the label. -/
def details : Node → List Char
  | .block _ statements => ' ' :: '(' :: (Nat.toDigits 10 statements.length ++ [')'])
  | .string _ tokens => ' ' :: (quoted (textOf tokens)).toList
  | .identifier _ name | .namedFunction _ name _ => ' ' :: name.toList
  | .execution _ _ arguments =>
    ' ' :: '(' :: (Nat.toDigits 10 arguments.length ++ " args)".toList)
  | .empty _ | .inlineFunction _ _ => []

/-- What the line of a construct holds: its depth, its headline and its span. -/
def entry (part : Nat × Node) : Nat × String × Span :=
  (part.1, part.2.headline, part.2.span)

/-- A line of a dump without its end. -/
def line (part : Nat × Node) : List Char :=
  List.replicate (2 * part.1) ' ' ++ (part.2.headline.toList ++ ' ' :: part.2.span.shown)

variable {node other : Node} {part part' : Nat × Node}

theorem toList_dumpLine (part : Nat × Node) :
    (part.2.dumpLine part.1).toList = line part ++ ['\n'] := by
  simp [dumpLine, line, Span.shown]

theorem toList_dump (node : Node) :
    node.dump.toList = ((node.outline 0).map line).flatMap (· ++ ['\n']) := by
  simp [dump, String.toList_join, List.flatMap_map, toList_dumpLine]

theorem toList_headline (node : Node) :
    node.headline.toList = node.label.toList ++ node.details := by
  cases node with
  | empty | inlineFunction => exact (List.append_nil _).symm
  | block _ statements =>
    change ("Block (" ++ toString statements.length ++ ")").toList = "Block".toList ++ _
    simp [details]
  | execution _ _ arguments =>
    change ("Execution (" ++ toString arguments.length ++ " args)").toList =
      "Execution".toList ++ _
    simp [details]
  | string _ tokens =>
    change ("String " ++ quoted (textOf tokens)).toList = "String".toList ++ _
    simp [details]
  | identifier _ name =>
    change ("Identifier " ++ name).toList = "Identifier".toList ++ _
    simp [details]
  | namedFunction _ name _ =>
    change ("NamedFunctionDefinition " ++ name).toList = "NamedFunctionDefinition".toList ++ _
    simp [details]

theorem exists_headline_eq_cons (node : Node) :
    ∃ c rest, node.headline.toList = c :: rest ∧ c ≠ ' ' := by
  rw [toList_headline]
  cases node <;> simp [label]

/-- The first two letters of a label tell it from the others. -/
theorem label_eq_of_headline_eq (h : node.headline = other.headline) :
    node.label = other.label := by
  have hletters := congrArg (fun headline => headline.toList.take 2) h
  simp only [toList_headline] at hletters
  cases node <;> cases other <;> simp [label] at hletters ⊢

theorem details_eq_of_headline_eq (h : node.headline = other.headline) :
    node.details = other.details := by
  have hsame := congrArg String.toList h
  rw [toList_headline, toList_headline, label_eq_of_headline_eq h] at hsame
  exact List.append_cancel_left hsame

/-- The line of a construct can be taken apart into what it holds. -/
theorem entry_eq_of_line_eq (h : line part = line part') : entry part = entry part' := by
  obtain ⟨depth, node⟩ := part
  obtain ⟨depth', other⟩ := part'
  obtain ⟨c, rest, hnode, hc⟩ := node.exists_headline_eq_cons
  obtain ⟨d, rest', hother, hd⟩ := other.exists_headline_eq_cons
  have hspace (span : Span) : ' ' ∉ span.shown := span.notMem_shown (by decide) (by decide)
  simp only [line, hnode, hother, List.cons_append] at h
  obtain ⟨hdepth, htext⟩ := replicate_space_append_inj hc hd h
  rw [← List.cons_append, ← List.cons_append] at htext
  obtain ⟨hheadline, hspan⟩ :=
    append_cons_inj_of_notMem_right (hspace node.span) (hspace other.span) htext
  rw [← hnode, ← hother, String.toList_inj] at hheadline
  obtain rfl : depth = depth' := by omega
  simp only [entry, hheadline, Span.shown_injective hspan]

end Node

end CurlyScript
