import CurlyScript.Grammar.Construct
import CurlyScript.Proofs.Lexing.Segments

namespace CurlyScript

/-- A run of spaces and newlines, or nothing. -/
def IsBlank (gap : String) : Prop :=
  ∀ c ∈ gap.toList, c = ' ' ∨ c = '\n'

instance (gap : String) : Decidable (IsBlank gap) :=
  List.decidableBAll (fun c => c = ' ' ∨ c = '\n') gap.toList

/-- Nothing before this text joins it: it is empty or begins with a separating character. -/
def Detached (text : String) : Prop :=
  ∀ c ∈ text.toList.head?, isSeparating c = true

theorem tokenize_append_of_detached (a : String) {b : String} (hb : Detached b) :
    tokenize (a ++ b) = tokenize a ++ tokenize b :=
  tokenize_append fun c _ d hd => joins_of_separating_right (hb d hd) c

theorem tokenize_append_of_separating {a : String} (ha : ∀ c ∈ a.toList, isSeparating c = true)
    (b : String) : tokenize (a ++ b) = tokenize a ++ tokenize b :=
  tokenize_append fun c hc d _ => joins_of_separating_left (ha c (List.mem_of_getLast? hc)) d

theorem IsBlank.separating {gap : String} (hgap : IsBlank gap) :
    ∀ c ∈ gap.toList, isSeparating c = true := by
  intro c hc
  obtain rfl | rfl := hgap c hc <;> rfl

theorem tokenize_blank_append {gap : String} (hgap : IsBlank gap) (text : String) :
    tokenize (gap ++ text) = tokenize gap ++ tokenize text :=
  tokenize_append_of_separating hgap.separating text

section

variable (raw : String) (s : Symbol) (hraw : raw = s.char.toString)
  (hs : isSeparating s.char = true)

include hraw

theorem toList_eq_of_symbol : raw.toList = [s.char] := by
  rw [hraw, toList_char_toString]

theorem tokenize_symbol : tokenize raw = [.symbol s] := by
  rw [tokenize, hraw, split_singleton]
  simp [Token.classify, Symbol.ofChar?_char]

include hs

theorem detached_symbol_append (text : String) : Detached (raw ++ text) := by
  intro c hc
  rw [String.toList_append, toList_eq_of_symbol raw s hraw] at hc
  obtain rfl := Option.some.inj hc
  exact hs

theorem detached_symbol : Detached raw := by
  have hdetached := detached_symbol_append raw s hraw hs ""
  rwa [String.append_empty] at hdetached

/-- A symbol that separates is a token of its own, whatever comes after it. -/
theorem tokenize_symbol_append (text : String) :
    tokenize (raw ++ text) = .symbol s :: tokenize text := by
  rw [tokenize_append_of_separating, tokenize_symbol raw s hraw]
  · rfl
  · rw [toList_eq_of_symbol raw s hraw]
    intro c hc
    rwa [List.mem_singleton.mp hc]

theorem tokenize_append_symbol (text : String) :
    tokenize (text ++ raw) = tokenize text ++ [.symbol s] := by
  rw [tokenize_append_of_detached text (detached_symbol raw s hraw hs), tokenize_symbol raw s hraw]

end

theorem IsBlank.detached {gap : String} (hgap : IsBlank gap) : Detached gap :=
  fun c hc => hgap.separating c (List.mem_of_head? hc)

theorem IsBlank.detached_append {gap text : String} (hgap : IsBlank gap) (htext : Detached text) :
    Detached (gap ++ text) := by
  intro c hc
  rw [String.toList_append, List.head?_append] at hc
  cases hhead : gap.toList.head? with
  | none =>
    rw [hhead] at hc
    exact htext c hc
  | some d =>
    rw [hhead] at hc
    obtain rfl := Option.some.inj hc
    exact hgap.separating d (List.mem_of_head? hhead)

theorem contains_eq_false_of_word {chars : List Char} {c : Char}
    (hchars : chars.all (fun d => !(d.isAlphanum || d == '_')) = true)
    (hc : (c.isAlphanum || c == '_') = true) : chars.contains c = false := by
  rw [Bool.eq_false_iff]
  intro h
  have hnot := List.all_eq_true.mp hchars c (List.contains_iff_mem.mp h)
  rw [hc] at hnot
  cases hnot

theorem charClass_of_word {c : Char} (hc : (c.isAlphanum || c == '_') = true) :
    charClass c = .plain := by
  have hcombining : isCombining c = false := contains_eq_false_of_word (by decide) hc
  have hseparating : isSeparating c = false := contains_eq_false_of_word (by decide) hc
  rw [charClass, hcombining, hseparating]
  rfl

theorem classify_of_plain {raw : String} (hraw : ∀ c ∈ raw.toList, charClass c = .plain) :
    Token.classify raw = .text raw := by
  unfold Token.classify
  split
  · next c hchars =>
    have hc : charClass c = .plain := hraw c (by rw [hchars]; exact List.mem_singleton_self c)
    split
    · next s hs =>
      rw [← Symbol.char_of_ofChar? hs] at hc
      cases s <;> simp [charClass, isCombining, isSeparating, Symbol.char] at hc
    · rfl
  · rfl

/-- A name is a plain run, and it is no symbol. -/
theorem tokenize_word {name : String} (hname : isWord name = true) :
    tokenize name = [.text name] := by
  rw [isWord, Bool.and_eq_true, Bool.not_eq_true', List.all_eq_true] at hname
  have hplain (c : Char) (hc : c ∈ name.toList) : charClass c = .plain :=
    charClass_of_word (hname.2 c hc)
  have hne : name ≠ "" := by
    rw [Ne, ← String.isEmpty_iff, hname.1]
    exact Bool.false_ne_true
  have hrun : IsPlainRun name := isPlainRun_iff.mpr ⟨hne, hplain⟩
  rw [tokenize, IsPiece.split_eq (.inr (.inr hrun)), List.map_singleton, classify_of_plain hplain]

theorem tokenize_word_append {name text : String} (hname : isWord name = true)
    (htext : Detached text) : tokenize (name ++ text) = .text name :: tokenize text := by
  rw [tokenize_append_of_detached name htext, tokenize_word hname]
  rfl

/-- Blanks are whitespace and nothing else. -/
theorem IsBlank.isWhitespace {gap : String} (hgap : IsBlank gap) :
    ∀ token ∈ tokenize gap, token.isWhitespace = true := by
  obtain ⟨chars, rfl⟩ : ∃ chars, gap = String.ofList chars := ⟨gap.toList, by simp⟩
  induction chars with
  | nil => exact fun _ h => nomatch h
  | cons c chars ih =>
    have hcons : String.ofList (c :: chars) = c.toString ++ String.ofList chars :=
      String.ofList_cons
    have hrest : IsBlank (String.ofList chars) := fun d hd => hgap d (by
      rw [String.toList_ofList] at hd ⊢
      exact List.mem_cons_of_mem c hd)
    obtain rfl | rfl := hgap c (by simp)
    · rw [hcons, tokenize_symbol_append (Char.toString ' ') .space rfl rfl, List.forall_mem_cons]
      exact ⟨rfl, ih hrest⟩
    · rw [hcons, tokenize_symbol_append (Char.toString '\n') .newline rfl rfl, List.forall_mem_cons]
      exact ⟨rfl, ih hrest⟩

theorem Symbol.char_of_quote? {s : Symbol} {quote : Quote} (hquote : s.quote? = some quote) :
    s.char = quote.char := by
  cases s <;> cases hquote <;> rfl

/-- No quote arises in a text that does not contain it. -/
theorem quote?_ne_of_mem_tokenize {content : String} {quote : Quote}
    (hcontent : quote.char ∉ content.toList) :
    ∀ token ∈ tokenize content, token.quote? ≠ some quote := by
  intro token htoken hquote
  obtain ⟨piece, hpiece, rfl⟩ := List.mem_map.mp htoken
  obtain ⟨s, hs, hsquote⟩ := Option.bind_eq_some_iff.mp hquote
  have hraw := Token.raw_classify piece
  cases hclassify : Token.classify piece with
  | text text =>
    rw [hclassify] at hs
    cases hs
  | symbol s' =>
    rw [hclassify] at hs hraw
    obtain rfl := Option.some.inj hs
    have hchars : piece.toList = [s'.char] := by
      rw [← hraw, Token.raw, toList_char_toString]
    apply hcontent
    rw [← (segments_split content).join_eq, String.toList_join, ← Symbol.char_of_quote? hsquote]
    exact List.mem_flatMap.mpr ⟨piece, hpiece, by rw [hchars]; exact List.mem_singleton_self _⟩

theorem tokenize_eq_nil_iff {text : String} : tokenize text = [] ↔ text = "" := by
  rw [tokenize, List.map_eq_nil_iff]
  constructor
  · intro hnil
    rw [← (segments_split text).join_eq, hnil]
    rfl
  · rintro rfl
    rfl

end CurlyScript
