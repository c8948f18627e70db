import CurlyScript.Location
import CurlyScript.Node
import CurlyScript.Proofs.Lexing.Canonical
import Mathlib.Data.List.DropRight
import Mathlib.Data.Prod.Lex
import Mathlib.Order.Interval.Set.Basic

namespace CurlyScript

namespace Location

/-- Places come in the order in which people read. -/
instance : LinearOrder Location :=
  LinearOrder.lift' (fun place => toLex (place.line, place.column)) fun place other h => by
    cases place
    cases other
    exact congrArg (fun p : ℕ × ℕ => Location.mk p.1 p.2) h

variable {place other : Location}

theorem lt_iff :
    place < other ↔
      place.line < other.line ∨ place.line = other.line ∧ place.column < other.column :=
  Prod.Lex.toLex_lt_toLex

theorem lt_advance (place : Location) (c : Char) : place < place.advance c := by
  rw [lt_iff, advance]
  split
  · exact .inl (Nat.lt_succ_self _)
  · exact .inr ⟨rfl, Nat.lt_succ_self _⟩

/-- The place behind some characters: their newlines make the line, and what is behind the last of
    those makes the column. -/
def after (chars : List Char) : Location :=
  ⟨1 + chars.count '\n', 1 + (chars.rtakeWhile (· ≠ '\n')).length⟩

variable {chars more : List Char}

/-- A newline leaves nothing behind the last one, and any other character adds to what is there. -/
theorem after_append_singleton (chars : List Char) (c : Char) :
    after (chars ++ [c]) = (after chars).advance c := by
  by_cases hc : c = '\n'
  · subst hc
    rw [advance, if_pos rfl, after, List.count_append, List.count_singleton_self,
      List.rtakeWhile_concat_neg _ _ _ (by decide)]
    rfl
  · rw [advance, if_neg hc, after, List.count_append,
      List.count_eq_zero.mpr (mt List.mem_singleton.mp (Ne.symm hc)),
      List.rtakeWhile_concat_pos _ _ _ (by simpa using hc), List.length_append]
    rfl

/-- Character by character one comes to the place behind them all. -/
theorem foldl_advance (chars : List Char) : chars.foldl advance {} = after chars := by
  induction chars using List.reverseRecOn with
  | nil => rfl
  | append_singleton chars c ih => rw [List.foldl_concat, ih, after_append_singleton]

theorem after_lt_after_append (hmore : more ≠ []) : after chars < after (chars ++ more) := by
  induction more using List.reverseRecOn with
  | nil => exact absurd rfl hmore
  | append_singleton more c ih =>
    rw [← List.append_assoc, after_append_singleton]
    by_cases hnil : more = []
    · subst hnil
      rw [List.append_nil]
      exact lt_advance _ c
    · exact (ih hnil).trans (lt_advance _ c)

/-- The place of a character of a source, or of its end. -/
def ofChar (source : String) (k : ℕ) : Location :=
  after (source.toList.take k)

end Location

theorem Node.textOf_append (before after : List Token) :
    textOf (before ++ after) = textOf before ++ textOf after := by
  rw [textOf, List.map_append, String.join_append, textOf, textOf]

theorem Node.textOf_cons (token : Token) (tokens : List Token) :
    textOf (token :: tokens) = token.raw ++ textOf tokens := by
  rw [textOf, List.map_cons, String.join_cons, textOf]

theorem Node.toList_textOf (tokens : List Token) :
    (textOf tokens).toList = tokens.flatMap (·.raw.toList) := by
  rw [textOf, String.toList_join, List.flatMap_map]

/-- The place of a token is the one behind the text of the tokens before it. -/
theorem locate_eq_after (tokens : List Token) (n : ℕ) :
    locate tokens n = .after (Node.textOf (tokens.take n)).toList := by
  rw [Node.toList_textOf, ← Location.foldl_advance, locate]

section

variable {tokens : List Token} {source : String} {n : ℕ}

theorem Node.textOf_take_succ (hn : n < tokens.length) :
    textOf (tokens.take (n + 1)) = textOf (tokens.take n) ++ tokens[n].raw := by
  rw [List.take_succ_eq_append_getElem hn, textOf_append, textOf_cons]
  exact congrArg _ String.append_empty

/-- A token that is written down at all moves the place on. -/
theorem locate_lt_locate_succ (hn : n < tokens.length) (hraw : tokens[n].raw ≠ "") :
    locate tokens n < locate tokens (n + 1) := by
  rw [locate_eq_after, locate_eq_after, Node.textOf_take_succ hn, String.toList_append]
  exact Location.after_lt_after_append (toList_ne_nil_iff.mpr hraw)

theorem locate_strictMonoOn (hraw : ∀ token ∈ tokens, token.raw ≠ "") :
    StrictMonoOn (locate tokens) (Set.Iic tokens.length) := by
  intro m _ n hn hlt
  induction n, hlt using Nat.le_induction with
  | base => exact locate_lt_locate_succ hn (hraw _ (List.getElem_mem hn))
  | succ n _ ih =>
    exact (ih (Nat.le_of_succ_le hn)).trans
      (locate_lt_locate_succ hn (hraw _ (List.getElem_mem hn)))

theorem raw_ne_empty_of_mem_tokenize {token : Token} (hmem : token ∈ tokenize source) :
    token.raw ≠ "" := by
  have hpieces := (segments_split source).isPiece
  rw [← map_raw_tokenize, List.forall_mem_map] at hpieces
  exact (hpieces token hmem).ne_empty

/-- The text of the first tokens is where a source begins. -/
theorem textOf_take_append_textOf_drop (source : String) (n : ℕ) :
    Node.textOf ((tokenize source).take n) ++ Node.textOf ((tokenize source).drop n) = source := by
  rw [← Node.textOf_append, List.take_append_drop, Node.textOf, join_raw_tokenize]

theorem locate_tokenize (source : String) (n : ℕ) :
    locate (tokenize source) n =
      .ofChar source (Node.textOf ((tokenize source).take n)).length := by
  have hchars := congrArg String.toList (textOf_take_append_textOf_drop source n)
  rw [String.toList_append] at hchars
  rw [locate_eq_after, Location.ofChar, ← hchars, ← String.length_toList, List.take_left]

/-- What a token is written as stands in its source right behind the text of the tokens before. -/
theorem raw_prefix_drop (hn : n < (tokenize source).length) :
    (tokenize source)[n].raw.toList <+:
      source.toList.drop (Node.textOf ((tokenize source).take n)).length := by
  have hchars := congrArg String.toList (textOf_take_append_textOf_drop source (n + 1))
  rw [Node.textOf_take_succ hn, String.toList_append, String.toList_append,
    List.append_assoc] at hchars
  rw [← hchars, ← String.length_toList, List.drop_left]
  exact List.prefix_append _ _

theorem locate_tokenize_of_length_le (hn : (tokenize source).length ≤ n) :
    locate (tokenize source) n = .ofChar source source.length := by
  rw [locate_tokenize, List.take_of_length_le hn, Node.textOf, join_raw_tokenize]

theorem locate_tokenize_strictMonoOn (source : String) :
    StrictMonoOn (locate (tokenize source)) (Set.Iic (tokenize source).length) :=
  locate_strictMonoOn fun _ => raw_ne_empty_of_mem_tokenize

/-- No offset leads past the end of the source. -/
theorem locate_tokenize_le (source : String) (n : ℕ) :
    locate (tokenize source) n ≤ .ofChar source source.length := by
  obtain hn | hn := Nat.le_total n (tokenize source).length
  · rw [← locate_tokenize_of_length_le (Nat.le_refl _)]
    exact (locate_tokenize_strictMonoOn source).monotoneOn hn (Set.mem_Iic.mpr (Nat.le_refl _)) hn
  · exact (locate_tokenize_of_length_le hn).le

end

/-- The line of a token is one more than the newlines before it, and its column is one more than
    the characters since the last of those. In the tokens of a source every token has the place of
    the character it starts with, later tokens have later places, and behind them all is the end of
    the source. -/
theorem locations_exact :
    (∀ (tokens : List Token) (n : ℕ),
      (locate tokens n).line = 1 + (Node.textOf (tokens.take n)).toList.count '\n' ∧
      (locate tokens n).column =
        1 + ((Node.textOf (tokens.take n)).toList.rtakeWhile (· ≠ '\n')).length) ∧
    ∀ source : String,
      (∀ (n : ℕ) (hn : n < (tokenize source).length),
        let k := (Node.textOf ((tokenize source).take n)).length
        (tokenize source)[n].raw ≠ "" ∧
          (tokenize source)[n].raw.toList <+: source.toList.drop k ∧
          locate (tokenize source) n = .ofChar source k) ∧
      StrictMonoOn (locate (tokenize source)) (Set.Iic (tokenize source).length) ∧
      Set.InjOn (locate (tokenize source)) (Set.Iic (tokenize source).length) ∧
      ∀ n, (tokenize source).length ≤ n →
        locate (tokenize source) n = .ofChar source source.length := by
  refine ⟨fun tokens n => ?_, fun source => ?_⟩
  · rw [locate_eq_after]
    exact ⟨rfl, rfl⟩
  · have hmono := locate_tokenize_strictMonoOn source
    exact ⟨fun n hn => ⟨raw_ne_empty_of_mem_tokenize (List.getElem_mem hn), raw_prefix_drop hn,
      locate_tokenize source n⟩, hmono, hmono.injOn, fun n => locate_tokenize_of_length_le⟩

/-- An operator of two characters, a blank line and an offset past the end. -/
theorem locations_exact_operator :
    let source := "a+=\n\nb"
    let tokens : List Token := [.text "a", .text "+=", .symbol .newline, .symbol .newline, .text "b"]
    tokenize source = tokens ∧ 4 < tokens.length ∧ tokens.length ≤ 7 ∧
      locate tokens 4 = .ofChar source 5 ∧ Location.ofChar source 5 = ⟨3, 1⟩ ∧
      locate tokens 1 < locate tokens 4 ∧ locate tokens 1 ≠ locate tokens 4 ∧
      locate tokens 7 = .ofChar source 6 ∧ (locate tokens 7).column = 2 := by
  intro source tokens
  have htokens : tokenize source = tokens := by decide +kernel
  obtain ⟨hclosed, hsource⟩ := locations_exact
  obtain ⟨hplace, hmono, hinj, hend⟩ := hsource source
  have hfour := (hplace 4 (by rw [htokens]; decide)).2.2
  have hbefore : (Node.textOf (tokens.take 4)).length = 5 := by decide +kernel
  have hlength : source.length = 6 := by decide +kernel
  rw [htokens, hbefore] at hfour
  rw [htokens, hlength] at hend
  rw [htokens] at hmono hinj
  have hone : 1 ∈ Set.Iic tokens.length := by decide
  have hlast : 4 ∈ Set.Iic tokens.length := by decide
  exact ⟨htokens, by decide, by decide, hfour, by decide +kernel, hmono hone hlast (by decide),
    fun h => absurd (hinj hone hlast h) (by decide), hend 7 (by decide),
    (hclosed tokens 7).2.trans (by decide +kernel)⟩

end CurlyScript
