import CurlyScript.Proofs.Lexing.Canonical

namespace CurlyScript

/-- Where one text ends and the other begins, two characters meet that both combine, or neither of
    which combines or separates. With an empty text nothing meets. -/
def RunsOn (a b : String) : Prop :=
  ∃ c ∈ a.toList.getLast?, ∃ d ∈ b.toList.head?,
    (isCombining c = true ∧ isCombining d = true) ∨
      ((isCombining c = false ∧ isSeparating c = false) ∧
        isCombining d = false ∧ isSeparating d = false)

section

variable {a b piece last first : String} {c d : Char}

theorem joins_iff_meet :
    joins c d = true ↔ (isCombining c = true ∧ isCombining d = true) ∨
      ((isCombining c = false ∧ isSeparating c = false) ∧
        isCombining d = false ∧ isSeparating d = false) := by
  rw [joins_iff, ← charClass_eq_combining_iff, ← charClass_eq_combining_iff,
    ← charClass_eq_plain_iff, ← charClass_eq_plain_iff]
  cases charClass c <;> cases charClass d <;> simp

theorem runsOn_iff_joins :
    RunsOn a b ↔ ∃ c ∈ a.toList.getLast?, ∃ d ∈ b.toList.head?, joins c d = true := by
  simp only [RunsOn, joins_iff_meet]

theorem joins_eq_false_of_not_runsOn (hnot : ¬ RunsOn a b) :
    ∀ c ∈ a.toList.getLast?, ∀ d ∈ b.toList.head?, joins c d = false := by
  intro c hc d hd
  rw [← Bool.not_eq_true]
  exact fun hjoins => hnot (runsOn_iff_joins.mpr ⟨c, hc, d, hd, hjoins⟩)

theorem not_runsOn_of_empty (hempty : a = "" ∨ b = "") : ¬ RunsOn a b := by
  rintro ⟨c, hc, d, hd, -⟩
  obtain rfl | rfl := hempty
  · cases hc
  · cases hd

/-- Two characters or more are no symbol. -/
theorem Token.classify_append (hlast : last ≠ "") (hfirst : first ≠ "") :
    classify (last ++ first) = .text (last ++ first) := by
  rw [classify_eq_text_iff]
  intro s hs
  have hlength := congrArg (fun text => text.toList.length) hs
  have hlast := List.length_pos_of_ne_nil (toList_ne_nil_iff.mpr hlast)
  have hfirst := List.length_pos_of_ne_nil (toList_ne_nil_iff.mpr hfirst)
  simp only [String.toList_append, List.length_append, toList_char_toString,
    List.length_singleton] at hlength
  omega

theorem ne_empty_of_mem_split (hpiece : piece ∈ split a) : piece ≠ "" :=
  ((segments_split a).isPiece piece hpiece).ne_empty

end

/-- A text is cut into pieces and tokens part by part wherever its parts do not run on. Where they
    do, the piece that ends the first part and the piece that begins the second are one piece, which
    is a text token, and all other pieces and tokens are those of the parts. -/
theorem lexing_compositional (a b : String) :
    (a = "" ∨ b = "" ∨ ¬ RunsOn a b →
      split (a ++ b) = split a ++ split b ∧ tokenize (a ++ b) = tokenize a ++ tokenize b) ∧
    (RunsOn a b →
      ∃ before last first after, split a = before ++ [last] ∧ split b = first :: after ∧
        split (a ++ b) = before ++ (last ++ first) :: after ∧
        tokenize (a ++ b) =
          (tokenize a).dropLast ++ .text (last ++ first) :: (tokenize b).tail) := by
  constructor
  · rw [← or_assoc]
    intro hends
    have hcut := joins_eq_false_of_not_runsOn (hends.elim not_runsOn_of_empty id)
    exact ⟨split_append hcut, tokenize_append hcut⟩
  · intro hruns
    obtain ⟨c, hc, d, hd, hjoins⟩ := runsOn_iff_joins.mp hruns
    obtain ⟨before, last, first, after, ha, hb, hsplit⟩ := split_append_of_joins hc hd hjoins
    have hlast : last ≠ "" := ne_empty_of_mem_split (by rw [ha]; exact List.mem_concat_self)
    have hfirst : first ≠ "" := ne_empty_of_mem_split (by rw [hb]; exact List.mem_cons_self)
    refine ⟨before, last, first, after, ha, hb, hsplit, ?_⟩
    rw [tokenize, tokenize, tokenize, hsplit, ha, hb, List.map_append, List.map_append,
      List.map_cons, List.map_cons, Token.classify_append hlast hfirst]
    simp only [List.map_cons, List.map_nil, List.dropLast_concat, List.tail_cons]

/-- An operator that is cut in two is put together again, and a word after an operator is not. -/
theorem lexing_compositional_operator :
    (¬ RunsOn "x+" "y" ∧ tokenize ("x+" ++ "y") = tokenize "x+" ++ tokenize "y") ∧
      RunsOn "x+" "=y" ∧
      ∃ before last first after, split "x+" = before ++ [last] ∧ split "=y" = first :: after ∧
        split ("x+" ++ "=y") = before ++ (last ++ first) :: after := by
  have hnot : ¬ RunsOn "x+" "y" := by
    rintro ⟨c, hc, d, hd, hmeet⟩
    obtain rfl : '+' = c := Option.some.inj hc
    obtain rfl : 'y' = d := Option.some.inj hd
    revert hmeet
    decide
  have hruns : RunsOn "x+" "=y" := ⟨'+', rfl, '=', rfl, .inl ⟨rfl, rfl⟩⟩
  obtain ⟨before, last, first, after, ha, hb, hsplit, -⟩ :=
    (lexing_compositional "x+" "=y").2 hruns
  exact ⟨⟨hnot, ((lexing_compositional "x+" "y").1 (.inr (.inr hnot))).2⟩, hruns, before, last,
    first, after, ha, hb, hsplit⟩

end CurlyScript
