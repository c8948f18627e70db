import CurlyScript.Proofs.Layout.Spelling
import CurlyScript.Proofs.Script.Outcome

namespace CurlyScript

section

variable {name type before inner after gap text : String}

theorem tokenize_openParen (text : String) :
    tokenize ("(" ++ text) = .symbol .openParen :: tokenize text :=
  tokenize_symbol_append "(" .openParen rfl rfl text

theorem tokenize_closeParen (text : String) :
    tokenize (")" ++ text) = .symbol .closeParen :: tokenize text :=
  tokenize_symbol_append ")" .closeParen rfl rfl text

theorem tokenize_parameters (text : String) :
    tokenize ("()" ++ text) = .symbol .openParen :: .symbol .closeParen :: tokenize text := by
  have hparameters : "()" = "(" ++ ")" := rfl
  rw [hparameters, String.append_assoc, tokenize_openParen, tokenize_closeParen]

theorem detached_parameters (text : String) : Detached ("()" ++ text) := by
  have hparameters : "()" = "(" ++ ")" := rfl
  rw [hparameters, String.append_assoc]
  exact detached_symbol_append "(" .openParen rfl rfl _

theorem tokenize_arrow (text : String) :
    tokenize ("=>" ++ text) = .symbol .equal :: .symbol .rightChevron :: tokenize text := by
  have harrow : "=>" = "=" ++ ">" := rfl
  rw [harrow, String.append_assoc, tokenize_append_of_detached "="
    (detached_symbol_append ">" .rightChevron rfl rfl _), tokenize_symbol "=" .equal rfl,
    tokenize_symbol_append ">" .rightChevron rfl rfl]
  rfl

theorem tokenize_enclosed (opener closer : String) (o c : Symbol) (ho : opener = o.char.toString)
    (hc : closer = c.char.toString) (hos : isSeparating o.char = true)
    (hcs : isSeparating c.char = true) (text : String) :
    tokenize (opener ++ text ++ closer) = .symbol o :: (tokenize text ++ [.symbol c]) := by
  rw [String.append_assoc, tokenize_symbol_append opener o ho hos,
    tokenize_append_symbol closer c hc hcs]

theorem tokenize_call (hname : isWord name = true) (hgap : IsBlank gap) (text : String) :
    tokenize (name ++ gap ++ "(" ++ text ++ ")") = .text name :: (tokenize gap ++
      .symbol .openParen :: (tokenize text ++ [.symbol .closeParen])) := by
  simp only [String.append_assoc]
  rw [tokenize_word_append hname (hgap.detached_append
    (detached_symbol_append "(" .openParen rfl rfl _)), tokenize_blank_append hgap,
    tokenize_openParen, tokenize_append_symbol ")" .closeParen rfl rfl]

theorem tokenize_grouped (hbefore : IsBlank before) (inner : String) (hafter : IsBlank after) :
    tokenize ("(" ++ before ++ inner ++ after ++ ")") = .symbol .openParen :: (tokenize before ++
      (tokenize inner ++ (tokenize after ++ [.symbol .closeParen]))) := by
  simp only [String.append_assoc]
  rw [tokenize_openParen, tokenize_blank_append hbefore, tokenize_append_of_detached inner
    (hafter.detached_append (detached_symbol ")" .closeParen rfl rfl)),
    tokenize_blank_append hafter, tokenize_symbol ")" .closeParen rfl]

theorem tokenize_groupedCall (hbefore : IsBlank before) (inner : String) (hafter : IsBlank after)
    (hgap : IsBlank gap) (text : String) :
    tokenize ("(" ++ before ++ inner ++ after ++ ")" ++ gap ++ "(" ++ text ++ ")") =
      .symbol .openParen :: (tokenize before ++ (tokenize inner ++ (tokenize after ++
        .symbol .closeParen :: (tokenize gap ++
          .symbol .openParen :: (tokenize text ++ [.symbol .closeParen]))))) := by
  simp only [String.append_assoc]
  rw [tokenize_openParen, tokenize_blank_append hbefore, tokenize_append_of_detached inner
    (hafter.detached_append (detached_symbol_append ")" .closeParen rfl rfl _)),
    tokenize_blank_append hafter, tokenize_closeParen, tokenize_blank_append hgap,
    tokenize_openParen, tokenize_append_symbol ")" .closeParen rfl rfl]

theorem tokenize_typed (htype : isWord type = true) (hname : isWord name = true)
    (hgap : IsBlank gap) (text : String) :
    tokenize (type ++ " " ++ name ++ "()" ++ gap ++ text) = .text type :: .symbol .space ::
      .text name :: .symbol .openParen :: .symbol .closeParen ::
        (tokenize gap ++ tokenize text) := by
  simp only [String.append_assoc]
  rw [tokenize_word_append htype (detached_symbol_append " " .space rfl rfl _),
    tokenize_symbol_append " " .space rfl rfl, tokenize_word_append hname (detached_parameters _),
    tokenize_parameters, tokenize_blank_append hgap]

theorem tokenize_untyped (hname : isWord name = true) (hgap : IsBlank gap) (text : String) :
    tokenize (name ++ "()" ++ gap ++ "\x7b" ++ text ++ "\x7d") = .text name ::
      .symbol .openParen :: .symbol .closeParen :: (tokenize gap ++
        .symbol .openCurly :: (tokenize text ++ [.symbol .closeCurly])) := by
  simp only [String.append_assoc]
  rw [tokenize_word_append hname (detached_parameters _), tokenize_parameters,
    tokenize_blank_append hgap, tokenize_symbol_append "\x7b" .openCurly rfl rfl,
    tokenize_append_symbol "\x7d" .closeCurly rfl rfl]

theorem tokenize_inline (htype : isWord type = true) (hbefore : IsBlank before)
    (hafter : IsBlank after) (text : String) :
    tokenize (type ++ "()" ++ before ++ "=>" ++ after ++ text) = .text type ::
      .symbol .openParen :: .symbol .closeParen :: (tokenize before ++
        .symbol .equal :: .symbol .rightChevron :: (tokenize after ++ tokenize text)) := by
  simp only [String.append_assoc]
  rw [tokenize_word_append htype (detached_parameters _), tokenize_parameters,
    tokenize_blank_append hbefore, tokenize_arrow, tokenize_blank_append hafter]

variable {delimiters : Delimiters}

theorem Delimiters.Usual.separating (husual : delimiters.Usual) :
    isSeparating delimiters.separator.char = true := by
  obtain rfl | rfl := husual <;> decide

theorem tokenize_separator (husual : delimiters.Usual) (hgap : IsBlank gap) (text : String) :
    tokenize (gap ++ delimiters.separator.char.toString ++ text) =
      tokenize gap ++ .symbol delimiters.separator :: tokenize text := by
  rw [String.append_assoc, tokenize_blank_append hgap,
    tokenize_symbol_append _ delimiters.separator rfl husual.separating]

theorem tokenize_last (hbefore : IsBlank before) (text : String) (hafter : IsBlank after) :
    tokenize (before ++ text ++ after) = tokenize before ++ (tokenize text ++ tokenize after) := by
  have hdetached := hafter.detached
  rw [String.append_assoc, tokenize_blank_append hbefore,
    tokenize_append_of_detached text hdetached]

theorem tokenize_item (husual : delimiters.Usual) (hbefore : IsBlank before) (inner : String)
    (hafter : IsBlank after) (text : String) :
    tokenize (before ++ inner ++ after ++ delimiters.separator.char.toString ++ text) =
      tokenize before ++ (tokenize inner ++ (tokenize after ++
        .symbol delimiters.separator :: tokenize text)) := by
  simp only [String.append_assoc]
  rw [tokenize_blank_append hbefore, tokenize_append_of_detached inner (hafter.detached_append
    (detached_symbol_append _ delimiters.separator rfl husual.separating _)),
    tokenize_blank_append hafter,
    tokenize_symbol_append _ delimiters.separator rfl husual.separating]

end

/-- Cut into tokens, the text of a list can be read as its items, and so can the text of each of
    them. -/
theorem RendersList.spells {delimiters : Delimiters} {trees : List Tree} {text : String}
    (hrenders : RendersList delimiters trees text) (husual : delimiters.Usual) :
    SpellsList delimiters (tokenize text) trees := by
  induction hrenders using @RendersList.rec (fun tree text _ => Spells (tokenize text) tree) _ with
  | identifier hname =>
    rw [tokenize_word hname]
    exact spells_identifier hname
  | @string quote content hcontent =>
    have hsymbol : quote.char.toString = quote.symbol.char.toString := by cases quote <;> rfl
    have hseparating : isSeparating quote.symbol.char = true := by cases quote <;> rfl
    rw [tokenize_enclosed _ _ quote.symbol quote.symbol hsymbol hsymbol hseparating hseparating]
    exact spells_string hcontent
  | block _ hlist =>
    rw [tokenize_enclosed "\x7b" "\x7d" .openCurly .closeCurly rfl rfl rfl rfl]
    exact spells_block (hlist (.inl rfl))
  | call hname hgap _ hlist =>
    rw [tokenize_call hname hgap]
    exact spells_call hname hgap.isWhitespace (hlist (.inr rfl))
  | groupedCall hbefore _ hafter hgap _ hinner hlist =>
    rw [tokenize_groupedCall hbefore _ hafter hgap]
    exact spells_groupedCall hinner hbefore.isWhitespace hafter.isWhitespace hgap.isWhitespace
      (hlist (.inr rfl))
  | typed htype hname hgap _ hbody =>
    rw [tokenize_typed htype hname hgap]
    exact spells_typed htype hname hgap.isWhitespace hbody
  | untyped hname hgap _ hlist =>
    rw [tokenize_untyped hname hgap]
    exact spells_untyped hname hgap.isWhitespace (hlist (.inl rfl))
  | inline htype hbefore hafter _ hbody =>
    rw [tokenize_inline htype hbefore hafter]
    exact spells_inline htype hbefore.isWhitespace hafter.isWhitespace hbody
  | grouped hbefore _ hafter hinner =>
    rw [tokenize_grouped hbefore _ hafter]
    exact spells_grouped hinner hbefore.isWhitespace hafter.isWhitespace
  | blank hgap => exact spellsList_blank husual hgap.isWhitespace
  | separator hgap _ hrest =>
    rw [tokenize_separator husual hgap]
    exact spellsList_separator husual hgap.isWhitespace (hrest husual)
  | last hbefore _ hafter htree =>
    rw [tokenize_last hbefore _ hafter]
    exact spellsList_last husual hbefore.isWhitespace htree hafter.isWhitespace
  | item hbefore _ hafter _ htree hrest =>
    rw [tokenize_item husual hbefore _ hafter]
    exact spellsList_item husual hbefore.isWhitespace htree hafter.isWhitespace (hrest husual)

end CurlyScript
