import CurlyScript.Proofs.Lexing.Segments

namespace CurlyScript

/-- Text that a source can be cut into: a mark that separates without being a symbol, several
    operators, or a run of other characters. A single operator is a symbol and never text. -/
def IsTextPiece (content : String) : Prop :=
  content = "!" ∨ content = "?" ∨ (IsCombiningRun content ∧ 2 ≤ content.length) ∨ IsPlainRun content

namespace Token

/-- An operator as a symbol, or several of them as text. -/
def IsOperators : Token → Prop
  | .text content => IsCombiningRun content
  | .symbol s => isCombining s.char = true

/-- Text of characters that neither combine nor separate. -/
def IsPlainText : Token → Prop
  | .text content => IsPlainRun content
  | .symbol _ => False

end Token

/-- Tokens as they come from a source: every text could be a piece of one, and no two neighbours
    would have become one piece. -/
structure Canonical (tokens : List Token) : Prop where
  texts : ∀ content, .text content ∈ tokens → IsTextPiece content
  apart : tokens.IsChain fun a b =>
    ¬ (a.IsOperators ∧ b.IsOperators) ∧ ¬ (a.IsPlainText ∧ b.IsPlainText)

section

variable {c : Char} {content : String}

/-- All operators are symbols. -/
theorem exists_symbol_of_isCombining (hc : isCombining c = true) : ∃ s : Symbol, s.char = c := by
  rw [isCombining, List.contains_iff_mem] at hc
  have hsome : (Symbol.ofChar? c).isSome = true :=
    List.all_eq_true.mp (show List.all _ (fun c => (Symbol.ofChar? c).isSome) = true by decide) c hc
  obtain ⟨s, hs⟩ := Option.isSome_iff_exists.mp hsome
  exact ⟨s, Symbol.char_of_ofChar? hs⟩

/-- The characters that separate are symbols, but for two marks. -/
theorem exists_symbol_of_isSeparating (hc : isSeparating c = true) (hexclamation : c ≠ '!')
    (hquestion : c ≠ '?') : ∃ s : Symbol, s.char = c := by
  rw [isSeparating, List.contains_iff_mem] at hc
  have hmark : (c == '!' || c == '?' || (Symbol.ofChar? c).isSome) = true :=
    List.all_eq_true.mp (show List.all _ (fun c => c == '!' || c == '?' ||
      (Symbol.ofChar? c).isSome) = true by decide) c hc
  simp only [beq_false_of_ne hexclamation, beq_false_of_ne hquestion, Bool.false_or] at hmark
  obtain ⟨s, hs⟩ := Option.isSome_iff_exists.mp hmark
  exact ⟨s, Symbol.char_of_ofChar? hs⟩

theorem Symbol.isCombining_or_isSeparating (s : Symbol) :
    isCombining s.char = true ∨ isSeparating s.char = true := by
  cases s <;> decide

theorem isCombiningRun_char : IsCombiningRun c.toString ↔ isCombining c = true := by
  rw [IsCombiningRun, ← toList_ne_nil_iff, toList_char_toString, List.forall_mem_singleton]
  exact and_iff_right (List.cons_ne_nil c [])

theorem Symbol.isPiece (s : Symbol) : IsPiece s.char.toString := by
  obtain hcombining | hseparating := s.isCombining_or_isSeparating
  · exact .inr (.inl (isCombiningRun_char.mpr hcombining))
  · exact .inl ⟨s.char, hseparating, rfl⟩

/-- No symbol stands for a character of plain text. -/
theorem Symbol.not_isPlainRun (s : Symbol) : ¬ IsPlainRun s.char.toString := by
  rintro ⟨-, hplain⟩
  rw [toList_char_toString, List.forall_mem_singleton] at hplain
  obtain hcombining | hseparating := s.isCombining_or_isSeparating
  · exact Bool.false_ne_true (hplain.1.symm.trans hcombining)
  · exact Bool.false_ne_true (hplain.2.symm.trans hseparating)

theorem Token.classify_symbol (s : Symbol) : classify s.char.toString = .symbol s := by
  rw [classify, toList_char_toString]
  simp only [Symbol.ofChar?_char]

/-- What is classified as text is whatever no symbol is written as. -/
theorem Token.classify_eq_text_iff :
    classify content = .text content ↔ ∀ s : Symbol, content ≠ s.char.toString := by
  constructor
  · rintro htext s rfl
    rw [classify_symbol] at htext
    cases htext
  · intro hsymbol
    cases hclassify : classify content with
    | text raw =>
      have hraw := raw_classify content
      rw [hclassify] at hraw
      rw [← hraw, Token.raw]
    | symbol s =>
      have hraw := raw_classify content
      rw [hclassify] at hraw
      exact absurd hraw.symm (hsymbol s)

/-- Whatever may be a piece and is no symbol may be a text, and nothing else. -/
theorem isTextPiece_iff :
    IsTextPiece content ↔ IsPiece content ∧ ∀ s : Symbol, content ≠ s.char.toString := by
  constructor
  · rintro (rfl | rfl | ⟨hcombining, hlength⟩ | hplain)
    · exact ⟨.inl ⟨'!', rfl, rfl⟩, fun s => by cases s <;> decide⟩
    · exact ⟨.inl ⟨'?', rfl, rfl⟩, fun s => by cases s <;> decide⟩
    · refine ⟨.inr (.inl hcombining), ?_⟩
      rintro s rfl
      rw [← String.length_toList, toList_char_toString, List.length_singleton] at hlength
      omega
    · refine ⟨.inr (.inr hplain), ?_⟩
      rintro s rfl
      exact s.not_isPlainRun hplain
  · rintro ⟨⟨c, hc, rfl⟩ | hcombining | hplain, hsymbol⟩
    · by_cases hexclamation : c = '!'
      · exact .inl (congrArg Char.toString hexclamation)
      · by_cases hquestion : c = '?'
        · exact .inr (.inl (congrArg Char.toString hquestion))
        · obtain ⟨s, rfl⟩ := exists_symbol_of_isSeparating hc hexclamation hquestion
          exact absurd rfl (hsymbol s)
    · refine .inr (.inr (.inl ⟨hcombining, Nat.lt_of_not_le fun hshort => ?_⟩))
      obtain ⟨c, rest, hchars⟩ := List.exists_cons_of_ne_nil (toList_ne_nil_iff.mpr hcombining.1)
      have hrest : rest = [] := by
        rw [← String.length_toList, hchars, List.length_cons] at hshort
        exact List.length_eq_zero_iff.mp (by omega)
      obtain ⟨s, rfl⟩ := exists_symbol_of_isCombining
        (hcombining.2 c (by rw [hchars]; exact List.mem_cons_self ..))
      apply hsymbol s
      rw [← String.toList_inj, hchars, hrest, toList_char_toString]
    · exact .inr (.inr (.inr hplain))

end

namespace Token

variable {token : Token} {tokens : List Token}

theorem isOperators_iff : token.IsOperators ↔ IsCombiningRun token.raw := by
  cases token with
  | text content => rfl
  | symbol s => exact isCombiningRun_char.symm

theorem isPlainText_iff : token.IsPlainText ↔ IsPlainRun token.raw := by
  cases token with
  | text content => rfl
  | symbol s => exact ⟨False.elim, s.not_isPlainRun⟩

/-- A token comes back from its characters, and they are a piece, exactly if it is a symbol or its
    text may be one. -/
theorem isPiece_raw_and_classify_iff :
    (IsPiece token.raw ∧ classify token.raw = token) ↔
      ∀ content, token = .text content → IsTextPiece content := by
  cases token with
  | text content =>
    simp only [raw, classify_eq_text_iff, text.injEq, forall_eq', isTextPiece_iff]
  | symbol s =>
    simp only [raw, classify_symbol, s.isPiece, reduceCtorEq, false_implies, implies_true, and_true]

end Token

/-- Canonical tokens are those that are cut and classified as they are. -/
theorem canonical_iff {tokens : List Token} :
    Canonical tokens ↔ Segments (String.join (tokens.map Token.raw)) (tokens.map Token.raw) ∧
      ∀ token ∈ tokens, Token.classify token.raw = token := by
  have hapart : (tokens.map Token.raw).IsChain (fun a b =>
        ¬ (IsCombiningRun a ∧ IsCombiningRun b) ∧ ¬ (IsPlainRun a ∧ IsPlainRun b)) ↔
      tokens.IsChain fun a b =>
        ¬ (a.IsOperators ∧ b.IsOperators) ∧ ¬ (a.IsPlainText ∧ b.IsPlainText) := by
    simp only [List.isChain_map, Token.isOperators_iff, Token.isPlainText_iff]
  have htexts : (∀ content, .text content ∈ tokens → IsTextPiece content) ↔
      ∀ token ∈ tokens, IsPiece token.raw ∧ Token.classify token.raw = token := by
    simp only [Token.isPiece_raw_and_classify_iff]
    exact ⟨fun h token htoken content hcontent => h content (hcontent ▸ htoken),
      fun h content hcontent => h _ hcontent content rfl⟩
  constructor
  · rintro ⟨hall, hchain⟩
    have hpieces := htexts.mp hall
    exact ⟨⟨rfl, List.forall_mem_map.mpr fun token htoken => (hpieces token htoken).1,
      hapart.mpr hchain⟩, fun token htoken => (hpieces token htoken).2⟩
  · rintro ⟨⟨-, hpieces, hchain⟩, hclassify⟩
    exact ⟨htexts.mpr fun token htoken =>
      ⟨List.forall_mem_map.mp hpieces token htoken, hclassify token htoken⟩, hapart.mp hchain⟩

theorem map_raw_tokenize (source : String) : (tokenize source).map Token.raw = split source := by
  rw [tokenize, List.map_map]
  exact (List.map_congr_left fun piece _ => Token.raw_classify piece).trans (List.map_id' _)

/-- Nothing of a source is lost in its tokens. -/
theorem join_raw_tokenize (source : String) :
    String.join ((tokenize source).map Token.raw) = source := by
  rw [map_raw_tokenize]
  exact (segments_split source).join_eq

/-- The tokens of a source are canonical. -/
theorem canonical_tokenize (source : String) : Canonical (tokenize source) := by
  rw [canonical_iff, join_raw_tokenize, map_raw_tokenize]
  refine ⟨segments_split source, fun token htoken => ?_⟩
  obtain ⟨piece, -, rfl⟩ := List.mem_map.mp htoken
  rw [Token.raw_classify]

/-- Canonical tokens are those of what they are written as. -/
theorem Canonical.tokenize_join_raw {tokens : List Token} (hcanonical : Canonical tokens) :
    tokenize (String.join (tokens.map Token.raw)) = tokens := by
  obtain ⟨hsegments, hclassify⟩ := canonical_iff.mp hcanonical
  rw [tokenize, hsegments.split_eq, List.map_map]
  exact (List.map_congr_left hclassify).trans (List.map_id' tokens)

/-- A source and its tokens determine each other: whatever is cut into tokens can be written down
    again, and the tokens that survive being written down are the canonical ones. -/
theorem tokenize_inverse_of_raw :
    (∀ source, String.join ((tokenize source).map Token.raw) = source) ∧
      ∀ tokens, tokenize (String.join (tokens.map Token.raw)) = tokens ↔ Canonical tokens := by
  refine ⟨join_raw_tokenize, fun tokens => ⟨fun hsame => ?_, Canonical.tokenize_join_raw⟩⟩
  have hcanonical := canonical_tokenize (String.join (tokens.map Token.raw))
  rwa [hsame] at hcanonical

/-- Two operators in a row are one text, however they were written down. -/
example : tokenize (String.join ([.symbol .add, .symbol .equal].map Token.raw)) = [.text "+="] := by
  cbv

end CurlyScript
