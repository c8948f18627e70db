import CurlyScript.Proofs.Grammar.Completion
import CurlyScript.Proofs.Grammar.Levels
import CurlyScript.Proofs.Grammar.Parts

namespace CurlyScript

def Span.moved (f : Nat → Nat) (span : Span) : Span :=
  ⟨f span.start, f span.stop⟩

namespace Node

mutual

/-- A construct as it is where its tokens stand at other indices. -/
def moved (f : Nat → Nat) : Node → Node
  | .empty span => .empty (span.moved f)
  | .block span statements => .block (span.moved f) (allMoved f statements)
  | .string span tokens => .string (span.moved f) tokens
  | .identifier span name => .identifier (span.moved f) name
  | .execution span callee arguments =>
    .execution (span.moved f) (callee.moved f) (allMoved f arguments)
  | .namedFunction span name body => .namedFunction (span.moved f) name (body.moved f)
  | .inlineFunction span body => .inlineFunction (span.moved f) (body.moved f)

def allMoved (f : Nat → Nat) : List Node → List Node
  | [] => []
  | node :: nodes => node.moved f :: allMoved f nodes

end

theorem allMoved_eq_map (f : Nat → Nat) (nodes : List Node) :
    allMoved f nodes = nodes.map (moved f) := by
  induction nodes with
  | nil => rfl
  | cons node nodes ih => rw [allMoved, ih, List.map_cons]

theorem span_moved (f : Nat → Nat) (node : Node) : (node.moved f).span = node.span.moved f := by
  cases node <;> rfl

@[simp] theorem kind_moved (f : Nat → Nat) (node : Node) : (node.moved f).kind = node.kind := by
  cases node <;> rfl

theorem children_moved (f : Nat → Nat) (node : Node) :
    (node.moved f).children = node.children.map (moved f) := by
  cases node <;> simp [moved, children, allMoved_eq_map]

theorem moved_id (node : Node) : node.moved id = node := by
  induction node using induction_on_children with
  | h node ih =>
    have hsame : node.children.map (moved id) = node.children := by
      rw [List.map_congr_left ih, List.map_id']
    cases node <;> simp_all [moved, allMoved_eq_map, children, Span.moved]

/-- Nothing gets lost when a construct is moved. -/
theorem Solid.moved {node : Node} (hsolid : node.Solid) (f : Nat → Nat) :
    (node.moved f).Solid := by
  induction node using induction_on_children with
  | h node ih =>
    rw [Solid, everywhere_iff, kind_moved, children_moved, List.forall_mem_map]
    exact ⟨hsolid.kind_ne, fun child hchild => ih child hchild (hsolid.child hchild)⟩

/-- A construct that is moved and moved back is as it was. -/
theorem moved_moved_eq_self {f g : Nat → Nat} {node : Node}
    (hback : node.Everywhere fun part => (part.span.moved f).moved g = part.span) :
    (node.moved f).moved g = node := by
  induction node using induction_on_children with
  | h node ih =>
    obtain ⟨hspan, hchildren⟩ := everywhere_iff.mp hback
    have hsame : node.children.map (fun child => (child.moved f).moved g) = node.children := by
      rw [List.map_congr_left fun child hchild => ih child hchild (hchildren child hchild),
        List.map_id']
    cases node <;> simp_all [moved, allMoved_eq_map, children, span, Function.comp_def]

end Node

section

variable {ts ts' : TokenStream} {f : Nat → Nat} {low high i body : Nat} {name : String}

namespace TokenStream

/-- A definition that lies before the end of what two inputs have in common begins in both. -/
theorem Carries.opening_named (hcarries : ts.Carries f ts' low high) (hlow : low ≤ i)
    (hbody : body < high) (hopening : ts.opening i = .named name body) :
    ts'.opening (f i) = .named name (f body) := by
  have hlt := lt_of_opening (congrArg Opening.place? hopening)
  obtain ⟨type, hword, hspace, hname, hparameters, rfl⟩ | ⟨hword, hparameters, rfl, hcurly⟩ :=
    shows_of_opening_eq hopening
  · have hskip := ts.le_skipBlanks (i + 5)
    rw [← hcarries.wordAt?_eq (by omega) (by omega)] at hword hname
    rw [← hcarries.sees_eq (by omega) (by omega)] at hspace
    rw [← hcarries.hasParameters_eq (by omega) (by omega)] at hparameters
    rw [hcarries.add hlow (by omega)] at hspace hname hparameters
    rw [← hcarries.skipBlanks_eq (by omega) hbody, hcarries.add hlow (by omega),
      opening_of_wordAt? hword, afterWord_typed hspace hname hparameters]
  · have hskip := ts.le_skipBlanks (i + 3)
    rw [← hcarries.wordAt?_eq (by omega) (by omega)] at hword
    rw [← hcarries.hasParameters_eq (by omega) (by omega), hcarries.add hlow (by omega)]
      at hparameters
    rw [← hcarries.sees_eq (by omega) hbody] at hcurly
    rw [← hcarries.skipBlanks_eq (by omega) hbody, hcarries.add hlow (by omega)] at hcurly ⊢
    rw [opening_of_wordAt? hword, afterWord_untyped hparameters hcurly]

theorem Carries.opening_inline (hcarries : ts.Carries f ts' low high) (hlow : low ≤ i)
    (hbody : body < high) (hopening : ts.opening i = .inline body) :
    ts'.opening (f i) = .inline (f body) := by
  have hlt := lt_of_opening (congrArg Opening.place? hopening)
  obtain ⟨type, hword, hparameters, hequal, hchevron, rfl⟩ := shows_of_opening_eq hopening
  have hskip := ts.le_skipBlanks (i + 3)
  have hskip' := ts.le_skipBlanks (ts.skipBlanks (i + 3) + 2)
  rw [← hcarries.wordAt?_eq (by omega) (by omega)] at hword
  rw [← hcarries.hasParameters_eq (by omega) (by omega), hcarries.add hlow (by omega)]
    at hparameters
  rw [← hcarries.sees_eq (by omega) (by omega)] at hequal hchevron
  rw [hcarries.succ _ (by omega) (by omega)] at hchevron
  rw [← hcarries.skipBlanks_eq (by omega) (by omega), hcarries.add hlow (by omega)]
    at hequal hchevron
  rw [← hcarries.skipBlanks_eq (by omega) hbody, hcarries.add (by omega) (by omega),
    ← hcarries.skipBlanks_eq (by omega) (by omega), hcarries.add hlow (by omega),
    opening_of_wordAt? hword, afterWord_inline hparameters hequal hchevron]

end TokenStream

end

/-- A node that was read in one input is read in another, where its tokens stand at other indices,
    and it takes no more levels there. -/
structure Carried (ts : TokenStream) (f : Nat → Nat) (ts' : TokenStream) (start : Nat)
    (node : Node) (stop : Nat) : Prop where
  reads : Reads ts' (f start) (node.moved f) (f stop)
  fits : ∀ levels, Request.Fits ts levels ⟨start, none⟩ → Request.Fits ts' levels ⟨f start, none⟩

/-- The same for the items of a list. What was found before them does not matter, nor does how many
    more tokens may be looked at, as long as they suffice. -/
structure CarriedList (ts : TokenStream) (f : Nat → Nat) (ts' : TokenStream)
    (delimiters : Delimiters) (i : Nat) (nodes : List Node) (stop : Nat) : Prop where
  reads : ReadsList ts' delimiters (f i) (Node.allMoved f nodes) (f stop)
  within : ∀ levels budget budget' found found', ts.size - i ≤ budget →
    (delimiters.items ts budget (.fresh i) found).Within ts levels →
      (delimiters.items ts' budget' (.fresh (f i)) found').Within ts' levels

section

variable {ts ts' : TokenStream} {f : Nat → Nat} {low high start stop i next place body : Nat}
  {name : String} {node : Node} {nodes : List Node} {delimiters : Delimiters}

theorem CarriedList.within_read (hlist : CarriedList ts f ts' delimiters i nodes stop)
    {levels : Nat} (hwithin : (delimiters.read ts (.fresh i)).Within ts levels) :
    (delimiters.read ts' (.fresh (f i))).Within ts' levels :=
  hlist.within levels _ _ [] [] (Nat.le_refl _) hwithin

/-- It suffices that what is told where a node begins takes no more levels in the other input. -/
theorem Carried.of_opening {opening opening' : Opening} (hcarries : ts.Carries f ts' low high)
    (hlow : low ≤ start) (hlt : ts.skipBlanks start < high)
    (hopening : ts.opening (ts.skipBlanks start) = opening)
    (hopening' : ts'.opening (f (ts.skipBlanks start)) = opening') (hsome : opening ≠ .nothing)
    (hsome' : opening' ≠ .nothing)
    (hreads : ts'.skipBlanks (f start) = f (ts.skipBlanks start) →
      Reads ts' (f start) (node.moved f) (f stop))
    (hfits : ∀ levels, opening.Fits ts levels (ts.skipBlanks start) →
      opening'.Fits ts' levels (f (ts.skipBlanks start))) :
    Carried ts f ts' start node stop := by
  have hskip := hcarries.skipBlanks_eq hlow hlt
  subst hopening hopening'
  refine ⟨hreads hskip, fun levels hlevels => ?_⟩
  have hsize' := Nat.lt_of_le_of_lt (ts'.le_skipBlanks (f start))
    (hskip ▸ TokenStream.lt_size_of_opening hsome')
  obtain ⟨fewer, hfewer, hopens⟩ := hlevels.opening_fits rfl hsome
  have hfits' := hfits fewer hopens
  rw [← hskip] at hfits'
  exact Request.Fits.mono ((fits_iff_opening hsize').mpr hfits') hfewer

theorem Carried.block {statements : List Node} (hcarries : ts.Carries f ts' low high)
    (hlow : low ≤ start) (hlt : ts.skipBlanks start < high)
    (hopening : ts.opening (ts.skipBlanks start) = .block)
    (hlist : CarriedList ts f ts' .statements (ts.skipBlanks start + 1) statements stop) :
    Carried ts f ts' start (.block ⟨start, stop⟩ statements) stop := by
  have hskip := ts.le_skipBlanks start
  have hcurly : ts.sees (ts.skipBlanks start) .openCurly = true :=
    TokenStream.shows_of_opening_eq hopening
  rw [← hcarries.sees_eq (by omega) hlt] at hcurly
  have hopening' := TokenStream.opening_of_openCurly hcurly
  have hreads := hlist.reads
  have hplace := hcarries.succ _ (Nat.le_trans hlow hskip) hlt
  refine .of_opening hcarries hlow hlt hopening hopening' nofun nofun (fun hsame => ?_)
    fun levels hfits => ?_
  · rw [hplace, ← hsame] at hreads
    exact .block (hsame ▸ hopening') hreads
  · have hwithin := hlist.within_read hfits
    rwa [hplace] at hwithin

theorem Carried.string {close : Nat} {quote : Quote} (hcarries : ts.Carries f ts' low high)
    (hlow : low ≤ start) (hhigh : close < high)
    (hopening : ts.opening (ts.skipBlanks start) = .string quote)
    (hlt : ts.skipBlanks start < close) (hclose : ts.quoteAt? close = some quote)
    (hopen : ∀ i, ts.skipBlanks start < i → i < close → ts.quoteAt? i ≠ some quote) :
    Carried ts f ts' start
      (.string ⟨start, close + 1⟩ (ts.extract (ts.skipBlanks start + 1) close).toList)
      (close + 1) := by
  have hskip := ts.le_skipBlanks start
  have hquote : ts.quoteAt? (ts.skipBlanks start) = some quote :=
    TokenStream.shows_of_opening_eq hopening
  rw [← hcarries.quoteAt?_eq (by omega) (by omega)] at hquote hclose
  have hopening' := TokenStream.opening_of_quoteAt? hquote
  refine .of_opening hcarries hlow (by omega) hopening hopening' nofun nofun (fun hsame => ?_)
    fun _ _ => trivial
  rw [Node.moved, Span.moved, hcarries.succ close (by omega) hhigh,
    ← hcarries.extract_eq (by omega) hlt (Nat.le_of_lt hhigh),
    hcarries.succ _ (by omega) (by omega), ← hsame]
  refine .string (hsame ▸ hopening') (hsame ▸ hcarries.lt (by omega) hlt (by omega)) hclose ?_
  -- An index in the other input lies between the quotes only if it comes from one between them.
  rw [hsame]
  intro j hafter hbefore
  obtain ⟨n, rfl⟩ := Nat.exists_eq_add_of_lt hafter
  obtain ⟨m, rfl⟩ := Nat.exists_eq_add_of_lt hlt
  rw [Nat.add_assoc _ m, hcarries.add (by omega) (by omega)] at hbefore
  rw [Nat.add_assoc, ← hcarries.add (by omega) (by omega),
    hcarries.quoteAt?_eq (by omega) (by omega)]
  exact hopen _ (by omega) (by omega)

theorem Carried.named (hcarries : ts.Carries f ts' low high) (hlow : low ≤ start)
    (hlt : body < high) (hopening : ts.opening (ts.skipBlanks start) = .named name body)
    (hbody : Carried ts f ts' body node stop) :
    Carried ts f ts' start (.namedFunction ⟨start, stop⟩ name node) stop := by
  have hskip := ts.le_skipBlanks start
  have hplace := TokenStream.lt_of_opening (congrArg Opening.place? hopening)
  have hopening' := hcarries.opening_named (by omega) hlt hopening
  refine .of_opening hcarries hlow (by omega) hopening hopening' nofun nofun
    (fun hsame => ?_) hbody.fits
  exact .named (hsame ▸ hopening') hbody.reads

theorem Carried.inline (hcarries : ts.Carries f ts' low high) (hlow : low ≤ start)
    (hlt : body < high) (hopening : ts.opening (ts.skipBlanks start) = .inline body)
    (hbody : Carried ts f ts' body node stop) :
    Carried ts f ts' start (.inlineFunction ⟨start, stop⟩ node) stop := by
  have hskip := ts.le_skipBlanks start
  have hplace := TokenStream.lt_of_opening (congrArg Opening.place? hopening)
  have hopening' := hcarries.opening_inline (by omega) hlt hopening
  refine .of_opening hcarries hlow (by omega) hopening hopening' nofun nofun
    (fun hsame => ?_) hbody.fits
  exact .inline (hsame ▸ hopening') hbody.reads

/-- A name is read on its own wherever nothing goes on behind it, whatever came after it in the
    first input. -/
theorem TokenStream.Carries.reads_name (hcarries : ts.Carries f ts' low high) (hlow : low ≤ start)
    (hlt : ts.skipBlanks start < high) (hword : ts.wordAt? (ts.skipBlanks start) = some name)
    (hafter : ts'.afterWord name (f (ts.skipBlanks start + 1)) = .word name) :
    Reads ts' (f start) (.identifier ⟨f start, f (ts.skipBlanks start + 1)⟩ name)
        (f (ts.skipBlanks start + 1)) ∧
      ∀ levels, 2 ≤ levels → Request.Fits ts' levels ⟨f start, none⟩ := by
  have hskip := Nat.le_trans hlow (ts.le_skipBlanks start)
  have hsame := hcarries.skipBlanks_eq hlow hlt
  rw [← hcarries.wordAt?_eq hskip hlt] at hword
  rw [hcarries.succ _ hskip hlt, ← hsame] at hafter ⊢
  rw [← hsame] at hword
  have hopening' : ts'.opening (ts'.skipBlanks (f start)) = .word name := by
    rw [TokenStream.opening_of_wordAt? hword, hafter]
  refine ⟨.word hopening', fun levels hlevels => ?_⟩
  have hsize := Nat.lt_of_le_of_lt (ts'.le_skipBlanks (f start))
    (TokenStream.lt_size_of_wordAt? hword)
  obtain ⟨levels, rfl⟩ := Nat.exists_eq_add_of_le' hlevels
  rw [fits_iff_opening hsize, hopening']
  exact Nat.succ_pos levels

theorem Carried.word (hcarries : ts.Carries f ts' low high) (hlow : low ≤ start)
    (hlt : ts.skipBlanks start < high) (hopening : ts.opening (ts.skipBlanks start) = .word name)
    (hafter : ts'.afterWord name (f (ts.skipBlanks start + 1)) = .word name) :
    Carried ts f ts' start (.identifier ⟨start, ts.skipBlanks start + 1⟩ name)
      (ts.skipBlanks start + 1) := by
  have hword : ts.wordAt? (ts.skipBlanks start) = some name :=
    TokenStream.shows_of_opening_eq hopening
  obtain ⟨hreads, hfits⟩ := hcarries.reads_name hlow hlt hword hafter
  refine ⟨hreads, fun levels hlevels => hfits levels ?_⟩
  obtain ⟨fewer, hfewer, hpos⟩ := hlevels.opening_fits hopening nofun
  exact Nat.lt_of_le_of_lt (Nat.succ_le_of_lt hpos) hfewer

/-- A call is known by its arguments, and one without any by there being no body behind it. -/
theorem Carried.call {arguments : List Node} (hcarries : ts.Carries f ts' low high)
    (hlow : low ≤ start) (hlt : place ≤ high)
    (hopening : ts.opening (ts.skipBlanks start) = .call name place)
    (hlist : CarriedList ts f ts' .arguments place arguments stop)
    (hbody : arguments = [] → f (ts.skipBlanks start + 1) + 2 = f stop →
      ¬ ts'.BodyAt (ts'.skipBlanks (f stop))) :
    Carried ts f ts' start (.execution ⟨start, stop⟩
      (.identifier ⟨ts.skipBlanks start, ts.skipBlanks start + 1⟩ name) arguments) stop := by
  have hskip := ts.le_skipBlanks start
  have hskip' := ts.le_skipBlanks (ts.skipBlanks start + 1)
  obtain ⟨hword, hparen, rfl⟩ := TokenStream.shows_of_opening_eq hopening
  have hplace := hcarries.succ (ts.skipBlanks start) (by omega) (by omega)
  have hbehind := hcarries.skipBlanks_eq (i := ts.skipBlanks start + 1) (by omega) hlt
  have harguments := hcarries.succ (ts.skipBlanks (ts.skipBlanks start + 1)) (by omega) hlt
  rw [← hcarries.wordAt?_eq (by omega) (by omega)] at hword
  rw [← hcarries.sees_eq (by omega) hlt, ← hbehind, hplace] at hparen
  have hreads := hlist.reads
  rw [harguments, ← hbehind, hplace] at hreads
  have hnoBody : Node.allMoved f arguments = [] → f stop = f (ts.skipBlanks start) + 1 + 2 →
      ¬ ts'.BodyAt (ts'.skipBlanks (f stop)) := by
    rw [Node.allMoved_eq_map, List.map_eq_nil_iff]
    exact fun hnil hstop => hbody hnil (by rw [hplace, hstop])
  have hopening' := TokenStream.opening_of_wordAt? hword
  rw [TokenStream.afterWord_call hparen hreads hnoBody] at hopening'
  refine .of_opening hcarries hlow (by omega) hopening hopening' nofun nofun (fun hsame => ?_)
    fun levels hfits => ⟨hfits.1, ?_⟩
  · rw [Node.moved, Span.moved, Node.moved, Span.moved, hplace, ← hsame]
    rw [← hsame] at hopening' hreads
    exact .call hopening' hreads
  · have hwithin := hlist.within_read hfits.2
    rwa [harguments, ← hbehind, hplace] at hwithin

/-- Parentheses with nothing to be called behind them only group, and the levels for arguments are
    not needed. -/
theorem Carried.grouping (hcarries : ts.Carries f ts' low high) (hlow : low ≤ start)
    (hlt : ts.skipBlanks start < next) (hhigh : ts.skipBlanks next < high)
    (hopening : ts.opening (ts.skipBlanks start) = .parenthesis)
    (hinner : Carried ts f ts' (ts.skipBlanks start + 1) node next)
    (hclose : ts.sees (ts.skipBlanks next) .closeParen = true)
    (hcall : ts'.sees (ts'.skipBlanks (f (ts.skipBlanks next + 1))) .openParen = false) :
    Carried ts f ts' start node (ts.skipBlanks next + 1) := by
  have hskip := ts.le_skipBlanks start
  have hskip' := ts.le_skipBlanks next
  have hopening' := hcarries.opening_parenthesis (by omega) (by omega) hopening
  have hplace := hcarries.succ (ts.skipBlanks start) (by omega) (by omega)
  have hbehind := hcarries.skipBlanks_eq (i := next) (by omega) hhigh
  rw [← hcarries.sees_eq (by omega) hhigh, ← hbehind] at hclose
  rw [hcarries.succ _ (by omega) hhigh, ← hbehind] at hcall
  have hreads := hinner.reads
  rw [hplace] at hreads
  refine .of_opening hcarries hlow (by omega) hopening hopening' nofun nofun (fun hsame => ?_)
    fun levels hfits => ?_
  · rw [hcarries.succ _ (by omega) hhigh, ← hbehind]
    rw [← hsame] at hopening' hreads
    exact .grouping hopening' hreads hclose hcall
  · refine ⟨hplace ▸ hinner.fits _ hfits.1, fun inner hverdict _ hcall' => ?_⟩
    -- Arguments would be behind the parentheses, but there are none.
    rw [(agrees ts' _).verdict_eq hreads, Except.ok.injEq] at hverdict
    rw [← hverdict, Cursor.fresh_token, hcall] at hcall'
    cases hcall'

theorem Carried.groupingCall {arguments : List Node} (hcarries : ts.Carries f ts' low high)
    (hlow : low ≤ start) (hlt : ts.skipBlanks start < next)
    (hhigh : ts.skipBlanks (ts.skipBlanks next + 1) < high)
    (hopening : ts.opening (ts.skipBlanks start) = .parenthesis)
    (hnode : Reads ts (ts.skipBlanks start + 1) node next)
    (hinner : Carried ts f ts' (ts.skipBlanks start + 1) node next)
    (hclose : ts.sees (ts.skipBlanks next) .closeParen = true)
    (hcall : ts.sees (ts.skipBlanks (ts.skipBlanks next + 1)) .openParen = true)
    (hlist : CarriedList ts f ts' .arguments (ts.skipBlanks (ts.skipBlanks next + 1) + 1) arguments
      stop) :
    Carried ts f ts' start (.execution ⟨start, stop⟩ node arguments) stop := by
  have hskip := ts.le_skipBlanks start
  have hskip₂ := ts.le_skipBlanks next
  have hskip₃ := ts.le_skipBlanks (ts.skipBlanks next + 1)
  have hopening' := hcarries.opening_parenthesis (by omega) (by omega) hopening
  have hplace := hcarries.succ (ts.skipBlanks start) (by omega) (by omega)
  have hbehind := hcarries.skipBlanks_eq (i := next) (by omega) (by omega)
  have hbehind' := hcarries.skipBlanks_eq (i := ts.skipBlanks next + 1) (by omega) hhigh
  rw [hcarries.succ _ (by omega) (by omega), ← hbehind] at hbehind'
  have harguments := hcarries.succ (ts.skipBlanks (ts.skipBlanks next + 1)) (by omega) hhigh
  rw [← hbehind'] at harguments
  have hclose' := hclose
  have hcall' := hcall
  rw [← hcarries.sees_eq (by omega) (by omega), ← hbehind] at hclose'
  rw [← hcarries.sees_eq (by omega) hhigh, ← hbehind'] at hcall'
  have hreads := hinner.reads
  have hreads' := hlist.reads
  rw [hplace] at hreads
  rw [harguments] at hreads'
  refine .of_opening hcarries hlow (by omega) hopening hopening' nofun nofun (fun hsame => ?_)
    fun levels hfits => ?_
  · rw [← hsame] at hopening' hreads
    exact .groupingCall hopening' hreads hclose' hcall' hreads'
  · refine ⟨hplace ▸ hinner.fits _ hfits.1, fun inner hverdict _ _ => ?_⟩
    rw [(agrees ts' _).verdict_eq hreads, Except.ok.injEq] at hverdict
    have hwithin := hlist.within_read
      (hfits.2 _ ((agrees ts _).verdict_eq hnode) hclose hcall)
    rwa [← hverdict, Cursor.fresh_token, ← harguments]

theorem CarriedList.close (hplain : delimiters.Plain) (hcarries : ts.Carries f ts' low high)
    (hlow : low ≤ i) (hlt : ts.skipBlanks i < high)
    (hclose : ts.sees (ts.skipBlanks i) delimiters.closer = true) :
    CarriedList ts f ts' delimiters i [] (ts.skipBlanks i + 1) := by
  have hskip := ts.le_skipBlanks i
  have hsame := hcarries.skipBlanks_eq hlow hlt
  rw [← hcarries.sees_eq (by omega) hlt, ← hsame] at hclose
  refine ⟨?_, fun _ _ _ _ _ _ _ => Delimiters.within_items_of_closer hplain hclose⟩
  rw [hcarries.succ _ (by omega) hlt, ← hsame]
  exact .close hclose

theorem CarriedList.separator (hplain : delimiters.Plain) (hcarries : ts.Carries f ts' low high)
    (hlow : low ≤ i) (hlt : ts.skipBlanks i < high)
    (hseparator : ts.sees (ts.skipBlanks i) delimiters.separator = true)
    (hrest : CarriedList ts f ts' delimiters (ts.skipBlanks i + 1) nodes stop) :
    CarriedList ts f ts' delimiters i nodes stop := by
  have hskip := ts.le_skipBlanks i
  have hsize := TokenStream.lt_size_of_sees hseparator
  have hsame := hcarries.skipBlanks_eq hlow hlt
  have hplace := hcarries.succ _ (Nat.le_trans hlow hskip) hlt
  have hseparator' := hseparator
  rw [← hcarries.sees_eq (by omega) hlt, ← hsame] at hseparator'
  rw [← hsame] at hplace
  constructor
  · have hreads := hrest.reads
    rw [hplace] at hreads
    exact .separator hseparator' hreads
  · intro levels budget budget' found found' hbudget hwithin
    obtain ⟨budget, rfl⟩ := Nat.exists_eq_succ_of_ne_zero (show budget ≠ 0 by omega)
    obtain _ | budget' := budget'
    -- Where no more tokens may be looked at nothing is asked.
    · exact Delimiters.within_items_zero
    · rw [Delimiters.within_items_of_separator hplain hseparator] at hwithin
      rw [Delimiters.within_items_of_separator hplain hseparator', ← hplace]
      exact hrest.within levels _ _ _ _ (by omega) hwithin

theorem CarriedList.item (hcarries : ts.Carries f ts' low high)
    (hlow : low ≤ i) (hlt : ts.skipBlanks i < next) (hhigh : ts.skipBlanks next < high)
    (hstart : delimiters.seenAt ts (ts.skipBlanks i) = false)
    (hnode : Reads ts (ts.skipBlanks i) node next)
    (hcarried : Carried ts f ts' (ts.skipBlanks i) node next)
    (hend : delimiters.seenAt ts (ts.skipBlanks next) = true)
    (hrest : CarriedList ts f ts' delimiters (ts.skipBlanks next) nodes stop) :
    CarriedList ts f ts' delimiters i (node :: nodes) stop := by
  have hskip := ts.le_skipBlanks i
  have hskip' := ts.le_skipBlanks next
  have hsize := Delimiters.lt_size_of_seenAt hend
  have hsame := hcarries.skipBlanks_eq hlow (by omega)
  have hbehind := hcarries.skipBlanks_eq (i := next) (by omega) hhigh
  have hstart' := hstart
  have hend' := hend
  rw [← hcarries.seenAt_eq (by omega) (by omega), ← hsame] at hstart'
  rw [← hcarries.seenAt_eq (by omega) hhigh, ← hbehind] at hend'
  have hreads := hcarried.reads
  rw [← hsame] at hreads
  constructor
  · have hreads' := hrest.reads
    rw [← hbehind] at hreads'
    exact .item hstart' hreads hend' hreads'
  · intro levels budget budget' found found' hbudget hwithin
    obtain ⟨budget, rfl⟩ := Nat.exists_eq_succ_of_ne_zero (show budget ≠ 0 by omega)
    obtain _ | budget' := budget'
    · exact Delimiters.within_items_zero
    · have hle := hreads.le_skipBlanks
      have hsize' := Delimiters.lt_size_of_seenAt hend'
      rw [Delimiters.within_items_of_item hstart (by omega) hnode hend] at hwithin
      rw [Delimiters.within_items_of_item hstart' (by omega) hreads hend', hsame, hbehind]
      exact ⟨hcarried.fits levels hwithin.1,
        hrest.within levels _ _ _ _ (by omega) hwithin.2⟩

end

end CurlyScript
