import CurlyScript.Segmentation
import Mathlib.Data.List.Chain

namespace CurlyScript

/-- How a character joins its neighbours. Only runs of combining characters and runs of plain
    characters stay together, so a separating character is always a piece of its own. -/
inductive CharClass where
  | combining
  | separating
  | plain
  deriving DecidableEq, Repr

/-- The class of a character. No character is both combining and separating. -/
def charClass (c : Char) : CharClass :=
  if isCombining c then .combining else if isSeparating c then .separating else .plain

/-- Whether two neighbouring characters belong to one piece. -/
def joins (c d : Char) : Bool :=
  charClass c == charClass d && charClass c != .separating

section

variable {c d : Char}

theorem isCombining_eq_false {c : Char} (hc : isSeparating c = true) : isCombining c = false := by
  rw [isSeparating, List.contains_iff_mem] at hc
  have hnot : (!isCombining c) = true :=
    List.all_eq_true.mp (show List.all _ (fun c => !isCombining c) = true by decide) c hc
  rwa [Bool.not_eq_true'] at hnot

theorem isSeparating_eq_false {c : Char} (hc : isCombining c = true) : isSeparating c = false := by
  rw [← Bool.not_eq_true]
  intro hseparating
  rw [isCombining_eq_false hseparating] at hc
  cases hc

theorem charClass_eq_combining_iff : charClass c = .combining ↔ isCombining c = true := by
  unfold charClass
  cases isCombining c with
  | true => simp
  | false => cases isSeparating c <;> simp

theorem charClass_eq_plain_iff :
    charClass c = .plain ↔ isCombining c = false ∧ isSeparating c = false := by
  unfold charClass
  cases isCombining c with
  | true => simp
  | false => cases isSeparating c <;> simp

theorem charClass_eq_separating (hc : isSeparating c = true) : charClass c = .separating := by
  rw [charClass, isCombining_eq_false hc, hc]
  rfl

theorem charClass_eq_separating_iff : charClass c = .separating ↔ isSeparating c = true := by
  refine ⟨fun h => ?_, charClass_eq_separating⟩
  unfold charClass at h
  split at h
  · cases h
  · split at h
    · next hseparating => exact hseparating
    · cases h

theorem joins_iff : joins c d = true ↔ charClass c = charClass d ∧ charClass c ≠ .separating := by
  rw [joins, Bool.and_eq_true, beq_iff_eq, bne_iff_ne]

theorem joins_of_separating_left (hc : isSeparating c = true) (d : Char) : joins c d = false := by
  rw [joins, charClass_eq_separating hc]
  simp

theorem joins_of_separating_right (hd : isSeparating d = true) (c : Char) :
    joins c d = false := by
  rw [joins, charClass_eq_separating hd]
  cases charClass c <;> rfl

end

namespace Lexer

/-- Whether a character goes on with the piece that is being read. -/
def goesOn (lexer : Lexer) (c : Char) : Bool :=
  if isCombining c then lexer.combining
  else !isSeparating c && !lexer.combining && !lexer.buffer.isEmpty

/-- The same state with more pieces before it. -/
def preceded (pieces : Array String) (lexer : Lexer) : Lexer :=
  { lexer with raw := pieces ++ lexer.raw }

section

variable (lexer : Lexer) (pieces : Array String) (c d : Char) (chars rest : List Char)

/-- Nothing but the pieces is left of a state that is flushed. -/
theorem flush_eq_preceded : lexer.flush = preceded lexer.flush.raw {} := by
  unfold flush
  split
  · next hempty =>
    rw [String.isEmpty_iff] at hempty
    simp [preceded, hempty]
  · simp [preceded]

@[simp] theorem combining_flush : lexer.flush.combining = false := by
  unfold flush
  split <;> rfl

@[simp] theorem buffer_flush : lexer.flush.buffer = "" := by
  rw [flush_eq_preceded]
  rfl

theorem flush_preceded : (preceded pieces lexer).flush = preceded pieces lexer.flush := by
  unfold flush preceded
  split <;> simp

theorem flush_flush : lexer.flush.flush = lexer.flush := by
  rw [flush_eq_preceded lexer, flush_preceded]
  rfl

/-- The pieces that are complete play no part in how a character is read. -/
theorem step_preceded : (preceded pieces lexer).step c = preceded pieces (lexer.step c) := by
  have hflush := flush_preceded lexer pieces
  have hcombining : (preceded pieces lexer).combining = lexer.combining := rfl
  unfold step
  rw [hflush, hcombining]
  split
  · split <;> rfl
  · split
    · simp [preceded]
    · split <;> rfl

theorem foldl_step_preceded :
    chars.foldl step (preceded pieces lexer) = preceded pieces (chars.foldl step lexer) := by
  induction chars generalizing lexer with
  | nil => rfl
  | cons c chars ih => rw [List.foldl_cons, step_preceded, ih, List.foldl_cons]

theorem run_preceded :
    (preceded pieces lexer).run chars = pieces.toList ++ lexer.run chars := by
  rw [run, foldl_step_preceded, flush_preceded, run]
  exact Array.toList_append

theorem run_cons : lexer.run (c :: chars) = (lexer.step c).run chars := rfl

theorem run_append : lexer.run (chars ++ rest) = (chars.foldl step lexer).run rest := by
  rw [run, List.foldl_append, run]

theorem combining_of_goesOn (hgoes : lexer.goesOn c = true) :
    lexer.combining = isCombining c ∧ isSeparating c = false := by
  unfold goesOn at hgoes
  split at hgoes
  · next hc => exact ⟨hgoes.trans hc.symm, isSeparating_eq_false hc⟩
  · next hc =>
    simp only [Bool.and_eq_true, Bool.not_eq_true'] at hgoes
    exact ⟨hgoes.1.2.trans (Bool.eq_false_iff.mpr hc).symm, hgoes.1.1⟩

/-- A character that goes on is one character more in the buffer. -/
theorem step_of_goesOn (hgoes : lexer.goesOn c = true) :
    lexer.step c = { lexer with buffer := lexer.buffer.push c } := by
  obtain ⟨hcombining, hseparating⟩ := combining_of_goesOn lexer c hgoes
  cases hc : isCombining c <;> simp [step, hc, hcombining, hseparating]

/-- Any other character is read as if what is before it were complete. -/
theorem step_flush (hnot : lexer.goesOn c = false) : lexer.flush.step c = lexer.step c := by
  unfold goesOn at hnot
  unfold step
  rw [flush_flush, combining_flush]
  split at hnot
  · next hc => simp [hc, hnot]
  · next hc =>
    simp only [hc, Bool.false_eq_true, ↓reduceIte]
    split
    · rfl
    · next hplain =>
      cases hcombining : lexer.combining with
      | true => rfl
      | false =>
        have hempty : lexer.buffer.isEmpty = true := by simpa [hplain, hcombining] using hnot
        simp [flush, hempty, hcombining]

theorem combining_step : (lexer.step c).combining = isCombining c := by
  unfold step
  split
  · next hc => exact hc.symm
  · next hc =>
    rw [Bool.not_eq_true] at hc
    rw [hc]
    split
    · exact combining_flush lexer
    · split
      · exact combining_flush lexer
      · next hcombining => exact Bool.eq_false_iff.mpr hcombining

theorem isEmpty_buffer_step : (lexer.step c).buffer.isEmpty = isSeparating c := by
  have hpush (text : String) : (text.push c).isEmpty = false :=
    String.isEmpty_eq_false_iff.mpr String.push_ne_empty
  unfold step
  split
  · next hc => rw [hpush, isSeparating_eq_false hc]
  · split
    · next hseparating => rw [hseparating, buffer_flush]; rfl
    · next hseparating => rw [hpush, Bool.eq_false_iff.mpr hseparating]

theorem buffer_step_ne_empty (hc : isSeparating c = false) : (lexer.step c).buffer ≠ "" := by
  rw [Ne, ← String.isEmpty_iff, isEmpty_buffer_step, hc]
  exact Bool.false_ne_true

/-- The flag and the buffer that are left depend on the last character only, as far as they decide
    what becomes of the next one. -/
theorem goesOn_step : (lexer.step c).goesOn d = joins c d := by
  unfold goesOn
  rw [combining_step, isEmpty_buffer_step, joins, charClass, charClass]
  cases isCombining c <;> cases isSeparating c <;> cases isCombining d <;>
    cases isSeparating d <;> rfl

/-- What does not go on is read as a text of its own. -/
theorem run_of_goesOn_eq_false (hnot : lexer.goesOn c = false) :
    lexer.run (c :: chars) = lexer.run [] ++ run {} (c :: chars) := by
  rw [run_cons, ← step_flush lexer c hnot, ← run_cons, flush_eq_preceded, run_preceded]
  rfl

theorem run_nil_of_buffer (hbuffer : lexer.buffer ≠ "") :
    lexer.run [] = lexer.raw.toList ++ [lexer.buffer] := by
  have hflush : lexer.flush = { raw := lexer.raw.push lexer.buffer } := by
    rw [flush, if_neg (by rwa [String.isEmpty_iff])]
  rw [run, List.foldl_nil, hflush]
  exact Array.toList_push

/-- A character that does not separate begins a piece. -/
theorem step_empty (hc : isSeparating c = false) :
    step {} c = { buffer := c.toString, combining := isCombining c } := by
  unfold step
  split
  · next hcombining => rw [hcombining]; rfl
  · next hcombining => rw [hc, Bool.eq_false_iff.mpr hcombining]; rfl

theorem run_singleton : run {} [c] = [c.toString] := by
  cases hc : isSeparating c with
  | true => simp [run, step, isCombining_eq_false hc, hc, flush]
  | false =>
    rw [run_cons, step_empty c hc]
    exact run_nil_of_buffer _ String.singleton_ne_empty

/-- What is in the buffer goes in front of the first piece that is completed, and nothing else
    changes. -/
theorem run_append_buffer {buffer : String} (hbuffer : buffer ≠ "") (last : String)
    (combining : Bool) :
    ∃ first after, run { buffer, combining } chars = first :: after ∧
      run { buffer := last ++ buffer, combining } chars = (last ++ first) :: after := by
  have hlonger {buffer : String} (hbuffer : buffer ≠ "") : last ++ buffer ≠ "" := by
    rw [Ne, String.append_eq_empty_iff]
    exact fun h => hbuffer h.2
  induction chars generalizing buffer with
  | nil =>
    exact ⟨buffer, [], run_nil_of_buffer { buffer, combining } hbuffer,
      run_nil_of_buffer { buffer := last ++ buffer, combining } (hlonger hbuffer)⟩
  | cons c chars ih =>
    have hsame : goesOn { buffer := last ++ buffer, combining } c =
        goesOn { buffer, combining } c := by
      rw [goesOn, goesOn, String.isEmpty_eq_false_iff.mpr hbuffer,
        String.isEmpty_eq_false_iff.mpr (hlonger hbuffer)]
    -- Both buffers grow alike until a character comes that completes both.
    cases hgoes : goesOn { buffer, combining } c with
    | true =>
      rw [run_cons, run_cons, step_of_goesOn _ _ hgoes, step_of_goesOn _ _ (hsame.trans hgoes)]
      simp only [String.push_eq_append, String.append_assoc]
      exact ih (String.push_eq_append c ▸ String.push_ne_empty)
    | false =>
      rw [run_of_goesOn_eq_false _ _ _ hgoes,
        run_of_goesOn_eq_false _ _ _ (hsame.trans hgoes), run_nil_of_buffer _ hbuffer,
        run_nil_of_buffer _ (hlonger hbuffer)]
      exact ⟨buffer, run {} (c :: chars), rfl, rfl⟩

/-- What goes on makes one piece with the buffer. -/
theorem run_of_goesOn (hgoes : lexer.goesOn c = true) :
    ∃ first after, run {} (c :: chars) = first :: after ∧
      lexer.run (c :: chars) = lexer.raw.toList ++ (lexer.buffer ++ first) :: after := by
  obtain ⟨hcombining, hseparating⟩ := combining_of_goesOn lexer c hgoes
  have hne : c.toString ≠ "" := String.singleton_ne_empty
  obtain ⟨first, after, hfirst, hwhole⟩ :=
    run_append_buffer chars hne lexer.buffer lexer.combining
  have hpreceded : lexer.step c = preceded lexer.raw
      { buffer := lexer.buffer ++ c.toString, combining := lexer.combining } := by
    rw [step_of_goesOn lexer c hgoes, preceded, Array.append_empty]
    rfl
  refine ⟨first, after, ?_, ?_⟩
  · rw [run_cons, step_empty c hseparating, ← hcombining, hfirst]
  · rw [run_cons, hpreceded, run_preceded, hwhole]

end

end Lexer

section

variable {a b : String} {c d : Char}

theorem exists_step_of_mem_getLast? {chars : List Char} (hc : c ∈ chars.getLast?) :
    ∃ lexer : Lexer, chars.foldl Lexer.step {} = lexer.step c := by
  obtain ⟨before, rfl⟩ := List.getLast?_eq_some_iff.mp hc
  exact ⟨before.foldl Lexer.step {}, List.foldl_append⟩

theorem split_append_eq_run (a b : String) :
    split (a ++ b) = Lexer.run (a.toList.foldl Lexer.step {}) b.toList := by
  rw [split, String.toList_append, Lexer.run_append]

theorem split_eq_of_foldl_step {lexer : Lexer}
    (hstate : a.toList.foldl Lexer.step {} = lexer.step c)
    (hbuffer : (lexer.step c).buffer ≠ "") :
    split a = (lexer.step c).raw.toList ++ [(lexer.step c).buffer] := by
  rw [← Lexer.run_nil_of_buffer _ hbuffer, ← hstate]
  rfl

/-- The state that the first text leaves is forgotten if no piece goes across. -/
theorem split_append
    (hcut : ∀ c ∈ a.toList.getLast?, ∀ d ∈ b.toList.head?, joins c d = false) :
    split (a ++ b) = split a ++ split b := by
  rw [split_append_eq_run, split, split]
  cases hb : b.toList with
  | nil => exact (List.append_nil _).symm
  | cons d rest =>
    rw [hb] at hcut
    cases hlast : a.toList.getLast? with
    | none =>
      rw [List.getLast?_eq_none_iff.mp hlast]
      rfl
    | some c =>
      obtain ⟨lexer, hlexer⟩ := exists_step_of_mem_getLast? hlast
      have hnot : (lexer.step c).goesOn d = false := by
        rw [Lexer.goesOn_step]
        exact hcut c hlast d rfl
      rw [hlexer, Lexer.run_of_goesOn_eq_false _ _ _ hnot, ← hlexer]
      rfl

theorem tokenize_append
    (hcut : ∀ c ∈ a.toList.getLast?, ∀ d ∈ b.toList.head?, joins c d = false) :
    tokenize (a ++ b) = tokenize a ++ tokenize b := by
  rw [tokenize, split_append hcut, List.map_append]
  rfl

/-- What the first text leaves in the buffer is made one piece with the first piece of the second
    if their characters join. -/
theorem split_append_of_joins (hc : c ∈ a.toList.getLast?) (hd : d ∈ b.toList.head?)
    (hjoins : joins c d = true) :
    ∃ before last first after, split a = before ++ [last] ∧ split b = first :: after ∧
      split (a ++ b) = before ++ (last ++ first) :: after := by
  obtain ⟨lexer, hlexer⟩ := exists_step_of_mem_getLast? hc
  obtain ⟨rest, hb⟩ := List.head?_eq_some_iff.mp hd
  have hgoes : (lexer.step c).goesOn d = true := by rwa [Lexer.goesOn_step]
  have hc : isSeparating c = false := by
    rw [← Bool.not_eq_true, ← charClass_eq_separating_iff]
    exact (joins_iff.mp hjoins).2
  have hbuffer := Lexer.buffer_step_ne_empty lexer c hc
  obtain ⟨first, after, hfirst, hwhole⟩ := Lexer.run_of_goesOn _ _ rest hgoes
  refine ⟨(lexer.step c).raw.toList, (lexer.step c).buffer, first, after,
    split_eq_of_foldl_step hlexer hbuffer, ?_, ?_⟩
  · rw [split, hb, hfirst]
  · rw [split_append_eq_run, hlexer, hb, hwhole]

theorem toList_char_toString (c : Char) : c.toString.toList = [c] := by
  rw [Char.toString, String.toList_singleton]

theorem split_singleton (c : Char) : split c.toString = [c.toString] := by
  rw [split, toList_char_toString, Lexer.run_singleton]

/-- Characters that join all the way are one piece. -/
theorem split_of_isChain (chars : List Char) (hne : chars ≠ [])
    (hchain : chars.IsChain fun c d => joins c d = true) :
    split (String.ofList chars) = [String.ofList chars] := by
  induction chars with
  | nil => exact absurd rfl hne
  | cons c chars ih =>
    cases chars with
    | nil => exact split_singleton c
    | cons d rest =>
      rw [List.isChain_cons_cons] at hchain
      have hcons : String.ofList (c :: d :: rest) = c.toString ++ String.ofList (d :: rest) :=
        String.ofList_cons
      obtain ⟨before, last, first, after, hc, hd, hwhole⟩ :=
        split_append_of_joins (a := c.toString) (b := String.ofList (d :: rest))
          (by simp) (by simp) hchain.1
      rw [split_singleton] at hc
      rw [ih (List.cons_ne_nil d rest) hchain.2] at hd
      obtain ⟨rfl, rfl⟩ := List.append_singleton_inj.mp (show [] ++ _ = before ++ [last] from hc)
      obtain ⟨rfl, rfl⟩ := List.cons.inj hd
      rw [hcons, hwhole]
      rfl

end

end CurlyScript
