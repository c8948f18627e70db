import CurlyScript.Proofs.Lexing.Loop
import Mathlib.Data.List.SplitBy

namespace CurlyScript

/-- One or more combining characters and nothing else. -/
def IsCombiningRun (piece : String) : Prop :=
  piece ≠ "" ∧ ∀ c ∈ piece.toList, isCombining c = true

/-- One or more characters that neither combine nor separate, and nothing else. -/
def IsPlainRun (piece : String) : Prop :=
  piece ≠ "" ∧ ∀ c ∈ piece.toList, isCombining c = false ∧ isSeparating c = false

/-- What may be a piece on its own, wherever it comes from. -/
def IsPiece (piece : String) : Prop :=
  (∃ c, isSeparating c = true ∧ piece = c.toString) ∨ IsCombiningRun piece ∨ IsPlainRun piece

/-- The pieces make up the source, and no two neighbours could be one longer piece. -/
structure Segments (source : String) (pieces : List String) : Prop where
  join_eq : String.join pieces = source
  isPiece : ∀ piece ∈ pieces, IsPiece piece
  apart : pieces.IsChain fun a b =>
    ¬ (IsCombiningRun a ∧ IsCombiningRun b) ∧ ¬ (IsPlainRun a ∧ IsPlainRun b)

/-- All characters of a piece are of one class. -/
def HasClass (kind : CharClass) (piece : String) : Prop :=
  piece ≠ "" ∧ ∀ c ∈ piece.toList, charClass c = kind

section

variable {c : Char} {kind kind' : CharClass} {piece other : String}

theorem isCombiningRun_iff : IsCombiningRun piece ↔ HasClass .combining piece := by
  simp only [IsCombiningRun, HasClass, charClass_eq_combining_iff]

theorem isPlainRun_iff : IsPlainRun piece ↔ HasClass .plain piece := by
  simp only [IsPlainRun, HasClass, charClass_eq_plain_iff]

theorem toList_ne_nil_iff : piece.toList ≠ [] ↔ piece ≠ "" :=
  not_congr String.toList_eq_nil_iff

theorem HasClass.unique (hclass : HasClass kind piece) (hclass' : HasClass kind' piece) :
    kind = kind' := by
  obtain ⟨c, rest, hchars⟩ := List.exists_cons_of_ne_nil (toList_ne_nil_iff.mpr hclass.1)
  have hc : c ∈ piece.toList := by
    rw [hchars]
    exact List.mem_cons_self ..
  rw [← hclass.2 c hc, hclass'.2 c hc]

theorem HasClass.isCombiningRun_iff (hclass : HasClass kind piece) :
    IsCombiningRun piece ↔ kind = .combining := by
  rw [CurlyScript.isCombiningRun_iff]
  refine ⟨hclass.unique, ?_⟩
  rintro rfl
  exact hclass

theorem HasClass.isPlainRun_iff (hclass : HasClass kind piece) :
    IsPlainRun piece ↔ kind = .plain := by
  rw [CurlyScript.isPlainRun_iff]
  refine ⟨hclass.unique, ?_⟩
  rintro rfl
  exact hclass

/-- Two pieces stay apart unless they are runs of one kind. -/
theorem HasClass.apart_iff (hclass : HasClass kind piece) (hclass' : HasClass kind' other) :
    (¬ (IsCombiningRun piece ∧ IsCombiningRun other) ∧ ¬ (IsPlainRun piece ∧ IsPlainRun other)) ↔
      ¬ (kind = kind' ∧ kind ≠ .separating) := by
  rw [hclass.isCombiningRun_iff, hclass'.isCombiningRun_iff, hclass.isPlainRun_iff,
    hclass'.isPlainRun_iff]
  cases kind <;> cases kind' <;> simp

theorem hasClass_singleton (c : Char) : HasClass (charClass c) c.toString := by
  refine ⟨String.singleton_ne_empty, fun d hd => ?_⟩
  rw [toList_char_toString, List.mem_singleton] at hd
  rw [hd]

theorem HasClass.concat (hclass : HasClass kind piece) (hc : charClass c = kind) :
    HasClass kind (piece ++ c.toString) := by
  refine ⟨fun h => hclass.1 (String.append_eq_empty_iff.mp h).1, ?_⟩
  rw [String.toList_append, List.forall_mem_append]
  exact ⟨hclass.2, hc ▸ (hasClass_singleton c).2⟩

theorem HasClass.isChain (hclass : HasClass kind piece) (hkind : kind ≠ .separating) :
    piece.toList.IsChain fun c d => joins c d = true := by
  refine (List.pairwise_of_forall_mem_list fun c hc d hd => ?_).isChain
  rw [joins_iff, hclass.2 c hc, hclass.2 d hd]
  exact ⟨rfl, hkind⟩

theorem HasClass.isPiece (hclass : HasClass kind piece) (hkind : kind ≠ .separating) :
    IsPiece piece := by
  cases kind with
  | combining => exact .inr (.inl (CurlyScript.isCombiningRun_iff.mpr hclass))
  | separating => exact absurd rfl hkind
  | plain => exact .inr (.inr (CurlyScript.isPlainRun_iff.mpr hclass))

theorem isPiece_singleton (c : Char) : IsPiece c.toString := by
  by_cases hc : charClass c = .separating
  · exact .inl ⟨c, charClass_eq_separating_iff.mp hc, rfl⟩
  · exact (hasClass_singleton c).isPiece hc

theorem IsPiece.exists_hasClass (hpiece : IsPiece piece) : ∃ kind, HasClass kind piece := by
  obtain ⟨c, -, rfl⟩ | hcombining | hplain := hpiece
  · exact ⟨charClass c, hasClass_singleton c⟩
  · exact ⟨.combining, isCombiningRun_iff.mp hcombining⟩
  · exact ⟨.plain, isPlainRun_iff.mp hplain⟩

theorem IsPiece.ne_empty (hpiece : IsPiece piece) : piece ≠ "" := by
  obtain ⟨kind, hclass⟩ := hpiece.exists_hasClass
  exact hclass.1

/-- Nothing joins where pieces that are apart meet. -/
theorem IsPiece.joins_eq_false (hpiece : IsPiece piece) (hother : IsPiece other)
    (hapart : ¬ (IsCombiningRun piece ∧ IsCombiningRun other) ∧
      ¬ (IsPlainRun piece ∧ IsPlainRun other)) :
    ∀ c ∈ piece.toList.getLast?, ∀ d ∈ other.toList.head?, joins c d = false := by
  obtain ⟨kind, hclass⟩ := hpiece.exists_hasClass
  obtain ⟨kind', hclass'⟩ := hother.exists_hasClass
  rw [hclass.apart_iff hclass'] at hapart
  intro c hc d hd
  rwa [← Bool.not_eq_true, joins_iff, hclass.2 c (List.mem_of_getLast? hc),
    hclass'.2 d (List.mem_of_head? hd)]

/-- The characters of a piece join all the way. -/
theorem IsPiece.isChain (hpiece : IsPiece piece) :
    piece.toList.IsChain fun c d => joins c d = true := by
  obtain ⟨c, -, rfl⟩ | hcombining | hplain := hpiece
  · rw [toList_char_toString]
    exact List.isChain_singleton c
  · exact (isCombiningRun_iff.mp hcombining).isChain (by decide)
  · exact (isPlainRun_iff.mp hplain).isChain (by decide)

end

section

variable {source : String} {pieces before : List String} {last : String} {c : Char}
  {kind : CharClass}

/-- One more character is a piece of its own if it is apart from the last one. -/
theorem Segments.concat (hsegments : Segments source pieces)
    (hlast : ∀ piece ∈ pieces.getLast?, HasClass kind piece)
    (hapart : ¬ (kind = charClass c ∧ kind ≠ .separating)) :
    Segments (source ++ c.toString) (pieces ++ [c.toString]) := by
  constructor
  · rw [← hsegments.join_eq]
    simp only [String.join_append, String.join_cons, String.join_nil, String.append_empty]
  · rw [List.forall_mem_append, List.forall_mem_singleton]
    exact ⟨hsegments.isPiece, isPiece_singleton c⟩
  · refine List.isChain_append.mpr ⟨hsegments.apart, List.isChain_singleton _,
      fun piece hpiece other hother => ?_⟩
    obtain rfl := Option.some.inj hother
    exact ((hlast piece hpiece).apart_iff (hasClass_singleton c)).mpr hapart

/-- One more character makes the last run longer if it is of the same class. The piece before stays
    apart, since the class is the same. -/
theorem Segments.extend (hsegments : Segments source (before ++ [last]))
    (hlast : HasClass kind last) (hc : charClass c = kind) (hkind : kind ≠ .separating) :
    Segments (source ++ c.toString) (before ++ [last ++ c.toString]) := by
  have hlonger := hlast.concat hc
  obtain ⟨hbefore, -⟩ := List.forall_mem_append.mp hsegments.isPiece
  obtain ⟨hchain, -, hmeet⟩ := List.isChain_append.mp hsegments.apart
  constructor
  · rw [← hsegments.join_eq]
    simp only [String.join_append, String.join_cons, String.join_nil, String.append_empty,
      String.append_assoc]
  · rw [List.forall_mem_append, List.forall_mem_singleton]
    exact ⟨hbefore, hlonger.isPiece hkind⟩
  · refine List.isChain_append.mpr ⟨hchain, List.isChain_singleton _,
      fun piece hpiece other hother => ?_⟩
    obtain rfl := Option.some.inj hother
    obtain ⟨kind', hclass⟩ := (hbefore piece (List.mem_of_getLast? hpiece)).exists_hasClass
    rw [hclass.apart_iff hlonger, ← hclass.apart_iff hlast]
    exact hmeet piece hpiece last rfl

end

namespace Lexer

/-- The class of the last piece, as the flag and the buffer tell it. -/
def kind (lexer : Lexer) : CharClass :=
  if lexer.buffer.isEmpty then .separating
  else if lexer.combining then .combining
  else .plain

/-- What is kept of a text that was read: its pieces would be those of a source that ends here, and
    the flag and the buffer tell what the last one is. -/
structure HasRead (lexer : Lexer) (text : String) : Prop where
  segments : Segments text (lexer.run [])
  hasClass : ∀ piece ∈ (lexer.run []).getLast?, HasClass lexer.kind piece
  begun : lexer.combining = true → lexer.buffer ≠ ""

variable {lexer : Lexer} {text : String} {c : Char}

theorem kind_step (lexer : Lexer) (c : Char) : (lexer.step c).kind = charClass c := by
  rw [kind, isEmpty_buffer_step, combining_step, charClass]
  cases hc : isCombining c with
  | true => rw [isSeparating_eq_false hc]; rfl
  | false => rfl

theorem begun_step (lexer : Lexer) (c : Char) (hcombining : (lexer.step c).combining = true) :
    (lexer.step c).buffer ≠ "" := by
  rw [combining_step] at hcombining
  exact buffer_step_ne_empty lexer c (isSeparating_eq_false hcombining)

theorem goesOn_iff (hbegun : lexer.combining = true → lexer.buffer ≠ "") :
    lexer.goesOn c = true ↔ lexer.kind = charClass c ∧ lexer.kind ≠ .separating := by
  rw [Ne, ← String.isEmpty_iff] at hbegun
  rw [goesOn, kind, charClass]
  revert hbegun
  cases isCombining c <;> cases isSeparating c <;> cases lexer.combining <;>
    cases lexer.buffer.isEmpty <;> decide

/-- The initial state has read nothing. -/
theorem hasRead_empty : HasRead {} "" where
  segments := ⟨rfl, fun _ h => (List.not_mem_nil h).elim, .nil⟩
  hasClass := fun _ h => nomatch h
  begun := fun h => nomatch h

theorem HasRead.step (hread : lexer.HasRead text) (c : Char) :
    (lexer.step c).HasRead (text ++ c.toString) := by
  obtain ⟨hsegments, hclass, hbegun⟩ := hread
  cases hgoes : lexer.goesOn c with
  | true =>
    -- The buffer is the last piece, and it is a run of the class that the character has.
    obtain ⟨hkind, hne⟩ := (goesOn_iff hbegun).mp hgoes
    have hbuffer : lexer.buffer ≠ "" := by
      rw [Ne, ← String.isEmpty_iff]
      intro hempty
      exact hne (by rw [kind, if_pos hempty])
    have hlonger : (lexer.step c).run [] = lexer.raw.toList ++ [lexer.buffer ++ c.toString] := by
      rw [step_of_goesOn lexer c hgoes, String.push_eq_append]
      exact run_nil_of_buffer _ fun h => hbuffer (String.append_eq_empty_iff.mp h).1
    rw [run_nil_of_buffer lexer hbuffer] at hsegments hclass
    have hlast : HasClass lexer.kind lexer.buffer := hclass _ List.getLast?_concat
    refine ⟨?_, ?_, begun_step lexer c⟩
    · rw [hlonger]
      exact hsegments.extend hlast hkind.symm hne
    · rw [hlonger, kind_step, ← hkind, List.getLast?_concat]
      rintro _ ⟨⟩
      exact hlast.concat hkind.symm
  | false =>
    -- All pieces so far are complete, and the character cannot make the last one longer.
    have hmore : (lexer.step c).run [] = lexer.run [] ++ [c.toString] := by
      rw [← run_cons, run_of_goesOn_eq_false lexer c [] hgoes, run_singleton]
    have hapart : ¬ (lexer.kind = charClass c ∧ lexer.kind ≠ .separating) := by
      rw [← goesOn_iff hbegun, hgoes]
      exact Bool.false_ne_true
    refine ⟨?_, ?_, begun_step lexer c⟩
    · rw [hmore]
      exact hsegments.concat hclass hapart
    · rw [hmore, kind_step, List.getLast?_concat]
      rintro _ ⟨⟩
      exact hasClass_singleton c

theorem HasRead.foldl_step (hread : lexer.HasRead text) (chars : List Char) :
    (chars.foldl Lexer.step lexer).HasRead (text ++ String.ofList chars) := by
  induction chars generalizing lexer text with
  | nil => simpa using hread
  | cons c chars ih =>
    rw [String.ofList_cons, ← String.append_assoc]
    exact ih (hread.step c)

end Lexer

theorem segments_split (source : String) : Segments source (split source) := by
  have hread := Lexer.hasRead_empty.foldl_step source.toList
  rw [String.ofList_toList, String.empty_append] at hread
  exact hread.segments

theorem IsPiece.split_eq {piece : String} (hpiece : IsPiece piece) : split piece = [piece] := by
  have hne := toList_ne_nil_iff.mpr hpiece.ne_empty
  have hsplit := split_of_isChain piece.toList hne hpiece.isChain
  rwa [String.ofList_toList] at hsplit

/-- Pieces that are apart are read one after the other. -/
theorem Segments.split_eq {source : String} {pieces : List String}
    (hsegments : Segments source pieces) : split source = pieces := by
  induction pieces generalizing source with
  | nil =>
    rw [← hsegments.join_eq]
    rfl
  | cons piece pieces ih =>
    obtain ⟨hjoin, hall, hchain⟩ := hsegments
    obtain ⟨hpiece, hall⟩ := List.forall_mem_cons.mp hall
    obtain ⟨hnext, hchain⟩ := List.isChain_cons.mp hchain
    have hcut : ∀ c ∈ piece.toList.getLast?, ∀ d ∈ (String.join pieces).toList.head?,
        joins c d = false := by
      cases pieces with
      | nil => exact fun _ _ _ hd => nomatch hd
      | cons other pieces =>
        have hother : IsPiece other := hall other List.mem_cons_self
        rw [String.toList_join, List.flatMap_cons,
          List.head?_append_of_ne_nil _ (toList_ne_nil_iff.mpr hother.ne_empty)]
        exact hpiece.joins_eq_false hother (hnext other rfl)
    rw [← hjoin, String.join_cons, split_append hcut, hpiece.split_eq, ih ⟨rfl, hall, hchain⟩]
    rfl

/-- The longest runs of characters that join are the pieces. -/
theorem split_eq_splitBy (source : String) :
    split source = (source.toList.splitBy joins).map String.ofList := by
  obtain ⟨hjoin, hpieces, hapart⟩ := segments_split source
  have hne : [] ∉ (split source).map String.toList := by
    rintro h
    obtain ⟨piece, hpiece, hnil⟩ := List.mem_map.mp h
    exact toList_ne_nil_iff.mpr (hpieces piece hpiece).ne_empty hnil
  have hruns : ∀ chars ∈ (split source).map String.toList,
      chars.IsChain fun c d => joins c d = true := by
    rw [List.forall_mem_map]
    exact fun piece hpiece => (hpieces piece hpiece).isChain
  have hcut : ((split source).map String.toList).IsChain fun a b =>
      ∃ ha hb, joins (a.getLast ha) (b.head hb) = false := by
    rw [List.isChain_map]
    refine hapart.imp_of_mem_imp fun a b ha hb h => ?_
    have hane := toList_ne_nil_iff.mpr (hpieces a ha).ne_empty
    have hbne := toList_ne_nil_iff.mpr (hpieces b hb).ne_empty
    exact ⟨hane, hbne, (hpieces a ha).joins_eq_false (hpieces b hb) h
      _ (List.getLast?_eq_some_getLast hane) _ (List.head?_eq_some_head hbne)⟩
  have hsource : source.toList = ((split source).map String.toList).flatten := by
    rw [← List.flatMap_def, ← String.toList_join, hjoin]
  rw [hsource, List.splitBy_flatten hne hruns hcut, List.map_map]
  simp [Function.comp_def]

/-- The pieces of a source are the one way to cut it into separating characters and runs that
    could not be longer. -/
theorem split_eq_iff_segments (source : String) (pieces : List String) :
    split source = pieces ↔ Segments source pieces := by
  constructor
  · rintro rfl
    exact segments_split source
  · exact Segments.split_eq

/-- The exclamation mark separates, and operators in a row are one piece. -/
example : split "a+=b!!" = ["a", "+=", "b", "!", "!"] := by cbv

end CurlyScript
