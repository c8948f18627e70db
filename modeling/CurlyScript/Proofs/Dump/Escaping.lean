import CurlyScript.Text.Quoted
import Mathlib.Data.List.Basic

namespace CurlyScript

section

variable {α : Type} {a : α} {xs ys us vs : List α}

/-- What stands before the first of some mark and what stands after it can be told apart. -/
theorem append_cons_inj_of_notMem_left (hx : a ∉ xs) (hy : a ∉ ys)
    (h : xs ++ a :: us = ys ++ a :: vs) : xs = ys ∧ us = vs := by
  induction xs generalizing ys with
  | nil =>
    cases ys with
    | nil => exact ⟨rfl, (List.cons.inj h).2⟩
    | cons y ys => exact absurd (List.cons.inj h).1 (List.ne_of_not_mem_cons hy)
  | cons x xs ih =>
    cases ys with
    | nil => exact absurd (List.cons.inj h).1.symm (List.ne_of_not_mem_cons hx)
    | cons y ys =>
      obtain ⟨rfl, htail⟩ := List.cons.inj h
      obtain ⟨rfl, hrest⟩ :=
        ih (List.not_mem_of_not_mem_cons hx) (List.not_mem_of_not_mem_cons hy) htail
      exact ⟨rfl, hrest⟩

/-- The same with the last mark. -/
theorem append_cons_inj_of_notMem_right (hu : a ∉ us) (hv : a ∉ vs)
    (h : xs ++ a :: us = ys ++ a :: vs) : xs = ys ∧ us = vs := by
  have hreverse := congrArg List.reverse h
  simp only [List.reverse_append, List.reverse_cons, List.append_assoc,
    List.singleton_append] at hreverse
  obtain ⟨hafter, hbefore⟩ := append_cons_inj_of_notMem_left
    (mt List.mem_reverse.mp hu) (mt List.mem_reverse.mp hv) hreverse
  exact ⟨List.reverse_inj.mp hbefore, List.reverse_inj.mp hafter⟩

/-- What is written piece by piece can be told apart if the piece in front always can be, whatever
    comes after it. -/
theorem flatMap_injective_of_append {β : Type} {p : α → Prop} {f : α → List β}
    (hne : ∀ x, p x → f x ≠ [])
    (hfront : ∀ x y us vs, p x → p y → f x ++ us = f y ++ vs → x = y ∧ us = vs)
    (hx : ∀ x ∈ xs, p x) (hy : ∀ y ∈ ys, p y) (h : xs.flatMap f = ys.flatMap f) : xs = ys := by
  induction xs generalizing ys with
  | nil =>
    cases ys with
    | nil => rfl
    | cons y ys =>
      rw [List.flatMap_nil, List.flatMap_cons, eq_comm, List.append_eq_nil_iff] at h
      exact absurd h.1 (hne y (hy y List.mem_cons_self))
  | cons x xs ih =>
    cases ys with
    | nil =>
      rw [List.flatMap_nil, List.flatMap_cons, List.append_eq_nil_iff] at h
      exact absurd h.1 (hne x (hx x List.mem_cons_self))
    | cons y ys =>
      rw [List.forall_mem_cons] at hx hy
      rw [List.flatMap_cons, List.flatMap_cons] at h
      obtain ⟨rfl, hrest⟩ := hfront x y _ _ hx.1 hy.1 h
      rw [ih hx.2 hy.2 hrest]

end

section

variable {b m n : Nat} {c d : Char} {xs ys : List Char}

theorem digitChar_injOn (hm : m < 16) (hn : n < 16) (h : m.digitChar = n.digitChar) : m = n := by
  have hall : ∀ m < 16, ∀ n < 16, m.digitChar = n.digitChar → m = n := by decide
  exact hall m hm n hn h

/-- A number can be read back from its digits. -/
theorem toDigits_injective (hb : 1 < b) (hb' : b ≤ 16) (h : b.toDigits m = b.toDigits n) :
    m = n := by
  induction m using Nat.strongRecOn generalizing n with
  | ind m ih =>
    rw [Nat.toDigits_eq_if hb, Nat.toDigits_eq_if (n := n) hb] at h
    split at h <;> split at h
    · next hm hn =>
      exact digitChar_injOn (Nat.lt_of_lt_of_le hm hb') (Nat.lt_of_lt_of_le hn hb')
        (List.cons.inj h).1
    · rw [List.singleton_eq_append_iff] at h
      simp [Nat.toDigits_ne_nil] at h
    · rw [List.append_eq_singleton_iff] at h
      simp [Nat.toDigits_ne_nil] at h
    · next hm hn =>
      obtain ⟨hhigh, hlow⟩ := List.append_inj' h rfl
      have hdiv := ih (m / b) (Nat.div_lt_self (by omega) hb) hhigh
      have hmod := digitChar_injOn (Nat.lt_of_lt_of_le (Nat.mod_lt m (by omega)) hb')
        (Nat.lt_of_lt_of_le (Nat.mod_lt n (by omega)) hb') (List.cons.inj hlow).1
      rw [← Nat.div_add_mod m b, hdiv, hmod, Nat.div_add_mod]

theorem exists_digitChar_of_mem_toDigits (hb : 1 < b) (hc : c ∈ b.toDigits n) :
    ∃ digit : Nat, c = digit.digitChar := by
  induction n using Nat.strongRecOn with
  | ind n ih =>
    rw [Nat.toDigits_eq_if hb] at hc
    split at hc
    · exact ⟨n, List.mem_singleton.mp hc⟩
    · obtain hhigh | hlow := List.mem_append.mp hc
      · exact ih (n / b) (Nat.div_lt_self (by omega) hb) hhigh
      · exact ⟨n % b, List.mem_singleton.mp hlow⟩

/-- The letters that stand behind a backslash, with what they stand for. -/
def escapeMarks : List (Char × Char) :=
  [('"', '"'), ('\\', '\\'), ('0', '\x00'), ('t', '\t'), ('r', '\r'), ('n', '\n')]

/-- A character is written as itself, or behind a backslash with a letter of its own or with its
    number. -/
theorem escape_cases (c : Char) :
    (escape c = [c] ∧ c ≠ '\\' ∧ c ≠ '\n') ∨
      (∃ mark, escape c = ['\\', mark] ∧ escapeMarks.lookup mark = some c) ∨
      escape c = '\\' :: 'u' :: '{' :: (Nat.toDigits 16 c.toNat ++ ['}']) := by
  unfold escape
  split_ifs with hquote hbackslash hzero htab hreturn hnewline hhidden
  · exact .inr (.inl ⟨'"', rfl, by rw [hquote]; rfl⟩)
  · exact .inr (.inl ⟨'\\', rfl, by rw [hbackslash]; rfl⟩)
  · exact .inr (.inl ⟨'0', rfl, by rw [hzero]; rfl⟩)
  · exact .inr (.inl ⟨'t', rfl, by rw [htab]; rfl⟩)
  · exact .inr (.inl ⟨'r', rfl, by rw [hreturn]; rfl⟩)
  · exact .inr (.inl ⟨'n', rfl, by rw [hnewline]; rfl⟩)
  · exact .inr (.inr rfl)
  · exact .inl ⟨rfl, hbackslash, hnewline⟩

/-- It can be read back which character comes first and where it ends. -/
theorem escape_append_inj (h : escape c ++ xs = escape d ++ ys) : c = d ∧ xs = ys := by
  have hnumber : escapeMarks.lookup 'u' = none := rfl
  have hbrace (n : Nat) : '}' ∉ Nat.toDigits 16 n := by
    intro hmem
    obtain ⟨digit, hdigit⟩ := exists_digitChar_of_mem_toDigits (by decide) hmem
    exact Nat.digitChar_ne '}' (by decide) hdigit.symm
  -- The first two characters tell which of the three ways it is written in.
  obtain ⟨hc, hc', -⟩ | ⟨mark, hc, hmark⟩ | hc := escape_cases c <;>
    obtain ⟨hd, hd', -⟩ | ⟨mark', hd, hmark'⟩ | hd := escape_cases d <;>
    rw [hc, hd] at h <;>
    simp only [List.cons_append, List.nil_append, List.append_assoc, List.cons.injEq] at h
  · exact h
  · exact absurd h.1 hc'
  · exact absurd h.1 hc'
  · exact absurd h.1.symm hd'
  · obtain ⟨-, rfl, hrest⟩ := h
    exact ⟨Option.some.inj (hmark.symm.trans hmark'), hrest⟩
  · rw [h.2.1, hnumber] at hmark
    cases hmark
  · exact absurd h.1.symm hd'
  · rw [← h.2.1, hnumber] at hmark'
    cases hmark'
  · obtain ⟨hdigits, hrest⟩ := append_cons_inj_of_notMem_left (hbrace _) (hbrace _) h.2.2.2
    exact ⟨Char.toNat_inj.mp (toDigits_injective (by decide) (by decide) hdigits), hrest⟩

theorem escape_ne_nil (c : Char) : escape c ≠ [] := by
  obtain ⟨hc, -⟩ | ⟨mark, hc, -⟩ | hc := escape_cases c <;> rw [hc] <;> exact List.cons_ne_nil _ _

theorem flatMap_escape_injective (h : xs.flatMap escape = ys.flatMap escape) : xs = ys :=
  flatMap_injective_of_append (p := fun _ => True) (fun c _ => escape_ne_nil c)
    (fun _ _ _ _ _ _ hcd => escape_append_inj hcd) (fun _ _ => trivial) (fun _ _ => trivial) h

theorem newline_notMem_escape (c : Char) : '\n' ∉ escape c := by
  obtain ⟨hc, -, hnewline⟩ | ⟨mark, hc, hmark⟩ | hc := escape_cases c <;> rw [hc]
  · rw [List.mem_singleton]
    exact Ne.symm hnewline
  · rintro hmem
    obtain rfl : '\n' = mark := by simpa using hmem
    cases hmark
  · intro hmem
    have hdigit : '\n' ∈ Nat.toDigits 16 c.toNat := by simpa using hmem
    obtain ⟨digit, hdigit⟩ := exists_digitChar_of_mem_toDigits (by decide) hdigit
    exact Nat.digitChar_ne '\n' (by decide) hdigit.symm

end

/-- A text can be read back from how it is written between its quotes. -/
theorem quoted_injective {s t : String} (h : quoted s = quoted t) : s = t := by
  rw [quoted, quoted, String.ofList_inj, List.append_cancel_right_eq, List.cons.injEq] at h
  exact String.toList_inj.mp (flatMap_escape_injective h.2)

/-- A text that is quoted is on one line. -/
theorem newline_notMem_quoted (text : String) : '\n' ∉ (quoted text).toList := by
  rw [quoted, String.toList_ofList, List.mem_append, List.mem_cons, List.mem_flatMap,
    List.mem_singleton]
  rintro ((hquote | ⟨c, -, hmem⟩) | hquote)
  · cases hquote
  · exact newline_notMem_escape c hmem
  · cases hquote

end CurlyScript
