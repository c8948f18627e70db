import CurlyScript.Proofs.Grammar.Continuing
import CurlyScript.Proofs.Grammar.Displacement

namespace CurlyScript

section

variable {ts ts' : TokenStream} {f : Nat → Nat} {low high : Nat}

theorem TokenStream.Carries.stopsAt_of_sees {i : Nat} {s : Symbol}
    (hcarries : ts.Carries f ts' low high) (hlow : low ≤ i) (hlt : ts.skipBlanks i < high)
    (hsees : ts.sees (ts.skipBlanks i) s = true)
    (hs : s ∈ [Symbol.semiColon, .closeCurly, .comma, .closeParen]) : ts'.StopsAt (f i) := by
  rw [← hcarries.sees_eq (Nat.le_trans hlow (ts.le_skipBlanks i)) hlt,
    ← hcarries.skipBlanks_eq hlow hlt] at hsees
  exact .of_sees hsees hs

theorem TokenStream.Carries.stopsAt_of_seenAt {i : Nat} {delimiters : Delimiters}
    (husual : delimiters.Usual) (hcarries : ts.Carries f ts' low high) (hlow : low ≤ i)
    (hlt : ts.skipBlanks i < high) (hseen : delimiters.seenAt ts (ts.skipBlanks i) = true) :
    ts'.StopsAt (f i) := by
  rw [← hcarries.seenAt_eq (Nat.le_trans hlow (ts.le_skipBlanks i)) hlt,
    ← hcarries.skipBlanks_eq hlow hlt] at hseen
  exact husual.stopsAt hseen

mutual

/-- What was read from tokens that another input has too is read there from the same tokens, if it
    does not go on behind them. In the first input it may: a node does not depend on that. -/
theorem Reads.carried {start stop : Nat} {node : Node} :
    Reads ts start node stop → node.Solid → ts.Carries f ts' low high → low ≤ start →
      stop ≤ high → ¬ (node.moved f).GoesOn ts' (f stop) → Carried ts f ts' start node stop
  | .empty _, hsolid, _, _, _, _ => absurd rfl hsolid.kind_ne
  | @Reads.block _ start _ _ hopening hlist, _, hcarries, hlow, hhigh, _ => by
    have hskip := ts.le_skipBlanks start
    have hlt := hlist.start_lt
    exact .block hcarries hlow (by omega) hopening
      (hlist.carried (.inl rfl) hcarries (by omega) hhigh)
  | .string hopening hlt hclose hopen, _, hcarries, hlow, hhigh, _ =>
    .string hcarries hlow hhigh hopening hlt hclose hopen
  | .named hopening hbody, hsolid, hcarries, hlow, hhigh, hends => by
    have hinner := hsolid.child (List.mem_singleton_self _)
    have hbounds := hbody.place_bounds (congrArg Opening.place? hopening) hinner
    exact .named hcarries hlow (by omega) hopening
      (hbody.carried hinner hcarries (by omega) hhigh (mt (.named rfl) hends))
  | .inline hopening hbody, hsolid, hcarries, hlow, hhigh, hends => by
    have hinner := hsolid.child (List.mem_singleton_self _)
    have hbounds := hbody.place_bounds (congrArg Opening.place? hopening) hinner
    exact .inline hcarries hlow (by omega) hopening
      (hbody.carried hinner hcarries (by omega) hhigh (mt (.inline rfl) hends))
  | @Reads.call _ start place stop _ _ hopening hlist, _, hcarries, hlow, hhigh, hends => by
    have hskip := ts.le_skipBlanks start
    have hplace := TokenStream.lt_of_opening (congrArg Opening.place? hopening)
    have hlt := hlist.start_lt
    refine .call hcarries hlow (by omega) hopening
      (hlist.carried (.inr rfl) hcarries (by omega) hhigh) ?_
    rintro rfl hempty hbody
    exact hends (.definition rfl hempty hbody)
  | .word hopening, _, hcarries, hlow, hhigh, hends => by
    refine .word hcarries hlow hhigh hopening ?_
    by_contra hafter
    exact hends (.word rfl hafter)
  | @Reads.grouping _ start next _ hopening hinner hclose hcall, hsolid, hcarries, hlow, hhigh,
      hends => by
    have hskip := ts.le_skipBlanks start
    have hskip' := ts.le_skipBlanks next
    have hle := hinner.le
    have hbounds := hinner.span_bounds hsolid.kind_ne
    have hspan := hinner.span_stop_le hsolid.kind_ne
    -- What the parentheses hold ends with the closing one, which the other input has as well.
    have hstops := hcarries.stopsAt_of_sees (by omega) hhigh hclose (by decide)
    refine .grouping hcarries hlow hle hhigh hopening
      (hinner.carried hsolid hcarries (by omega) (by omega) hstops.not_goesOn) hclose ?_
    have hgrouped : (node.moved f).span.stop < f (ts.skipBlanks next + 1) := by
      rw [Node.span_moved]
      exact hcarries.lt (by omega) (by omega) hhigh
    exact Bool.eq_false_iff.mpr fun hparen => hends (.call hgrouped hparen)
  | @Reads.groupingCall _ start next stop _ _ hopening hinner hclose hcall hlist, hsolid, hcarries,
      hlow, hhigh, _ => by
    have hskip := ts.le_skipBlanks start
    have hskip₂ := ts.le_skipBlanks next
    have hskip₃ := ts.le_skipBlanks (ts.skipBlanks next + 1)
    have hle := hinner.le
    have hlt := hlist.start_lt
    have hstops := hcarries.stopsAt_of_sees (by omega) (by omega) hclose (by decide)
    have hcallee := hsolid.child (List.mem_cons_self ..)
    exact .groupingCall hcarries hlow hle (by omega) hopening hinner
      (hinner.carried hcallee hcarries (by omega) (by omega) hstops.not_goesOn) hclose hcall
      (hlist.carried (.inr rfl) hcarries (by omega) hhigh)

theorem ReadsList.carried {delimiters : Delimiters} {i stop : Nat} {nodes : List Node} :
    ReadsList ts delimiters i nodes stop → delimiters.Usual → ts.Carries f ts' low high →
      low ≤ i → stop ≤ high → CarriedList ts f ts' delimiters i nodes stop
  | .close hclose, husual, hcarries, hlow, hhigh => .close husual.plain hcarries hlow hhigh hclose
  | @ReadsList.separator _ _ i _ _ hseparator hrest, husual, hcarries, hlow, hhigh => by
    have hskip := ts.le_skipBlanks i
    have hlt := hrest.start_lt
    exact .separator husual.plain hcarries hlow (by omega) hseparator
      (hrest.carried husual hcarries (by omega) hhigh)
  | @ReadsList.item _ _ i next _ _ _ hstart hnode hend hrest, husual, hcarries, hlow, hhigh => by
    have hskip := ts.le_skipBlanks i
    have hskip' := ts.le_skipBlanks next
    have hlt := hrest.start_lt
    have hsolid := hnode.solid_of_seenAt hend
    have hmoved := hnode.lt_of_solid hsolid
    have hstops := hcarries.stopsAt_of_seenAt husual (by omega) (by omega) hend
    exact .item hcarries hlow hmoved (by omega) hstart hnode
      (hnode.carried hsolid hcarries (by omega) (by omega) hstops.not_goesOn) hend
      (hrest.carried husual hcarries (by omega) hhigh)

end

end

/-- A construct is read, with so many levels, wherever the tokens of its span stand and nothing goes
    on behind them. -/
def Node.Portable (ts : TokenStream) (levels : Nat) (node : Node) : Prop :=
  ∀ f ts', ts.Carries f ts' node.span.start node.span.stop → ts'.StopsAt (f node.span.stop) →
    Reads ts' (f node.span.start) (node.moved f) (f node.span.stop) ∧
      Request.Fits ts' levels ⟨f node.span.start, none⟩

section

variable {ts : TokenStream} {levels : Nat}

theorem Reads.portable_self {start stop : Nat} {node : Node} (hreads : Reads ts start node stop)
    (hsolid : node.Solid) (hfits : Request.Fits ts levels ⟨start, none⟩)
    (hspan : node.span = ⟨start, stop⟩) : node.Portable ts levels := by
  intro f ts' hcarries hstops
  rw [hspan] at hcarries hstops ⊢
  have hcarried := hreads.carried hsolid hcarries (Nat.le_refl _) (Nat.le_refl _) hstops.not_goesOn
  exact ⟨hcarried.reads, hcarried.fits levels hfits⟩

/-- The name of a callee was no node of its own, but it is one where nothing goes on behind it. -/
theorem Node.portable_name {i : Nat} {name : String} (hword : ts.wordAt? i = some name)
    (hlevels : 2 ≤ levels) : (Node.identifier ⟨i, i + 1⟩ name).Portable ts levels := by
  intro f ts' hcarries hstops
  have hskip := TokenStream.skipBlanks_of_wordAt? hword
  rw [← hskip] at hword
  have hname := hcarries.reads_name (Nat.le_refl i) (by rw [hskip]; exact Nat.lt_succ_self i)
    hword (by rw [hskip]; exact TokenStream.afterWord_of_stopsAt hstops)
  rw [hskip] at hname
  exact ⟨hname.1, hname.2 levels hlevels⟩

mutual

/-- Whatever a node has in it can be read on its own with the levels that the node takes. -/
theorem Reads.portable {start stop : Nat} {node : Node} :
    Reads ts start node stop → node.Solid → Request.Fits ts levels ⟨start, none⟩ →
      node.Everywhere (·.Portable ts levels)
  | .empty _, hsolid, _ => absurd rfl hsolid.kind_ne
  | hreads@(.block hopening hlist), hsolid, hfits => by
    obtain ⟨fewer, hfewer, hwithin⟩ := hfits.opening_fits hopening nofun
    exact Node.everywhere_iff.mpr ⟨hreads.portable_self hsolid hfits rfl,
      hlist.portable (.inl rfl) (Nat.le_refl _) hwithin (Nat.le_of_lt hfewer)⟩
  | hreads@(.string _ _ _ _), hsolid, hfits | hreads@(.word _), hsolid, hfits =>
    Node.everywhere_iff.mpr ⟨hreads.portable_self hsolid hfits rfl, List.forall_mem_nil _⟩
  | hreads@(.named hopening hbody), hsolid, hfits
  | hreads@(.inline hopening hbody), hsolid, hfits => by
    obtain ⟨fewer, hfewer, hfits'⟩ := hfits.opening_fits hopening nofun
    exact Node.everywhere_iff.mpr ⟨hreads.portable_self hsolid hfits rfl,
      List.forall_mem_singleton.mpr (hbody.portable (hsolid.child (List.mem_singleton_self _))
        (hfits'.mono (Nat.le_of_lt hfewer)))⟩
  | hreads@(.call hopening hlist), hsolid, hfits => by
    obtain ⟨fewer, hfewer, hpos, hwithin⟩ := hfits.opening_fits hopening nofun
    have hword := (TokenStream.shows_of_opening_eq hopening).1
    have hname := Node.portable_name hword (Nat.lt_of_le_of_lt (Nat.succ_le_of_lt hpos) hfewer)
    exact Node.everywhere_iff.mpr ⟨hreads.portable_self hsolid hfits rfl,
      List.forall_mem_cons.mpr ⟨Node.everywhere_iff.mpr ⟨hname, List.forall_mem_nil _⟩,
        hlist.portable (.inr rfl) (Nat.le_refl _) hwithin (Nat.le_of_lt hfewer)⟩⟩
  | .grouping hopening hinner _ _, hsolid, hfits => by
    obtain ⟨fewer, hfewer, hfits', -⟩ := hfits.opening_fits hopening nofun
    exact hinner.portable hsolid (hfits'.mono (by omega))
  | hreads@(.groupingCall hopening hinner hclose hcall hlist), hsolid, hfits => by
    obtain ⟨fewer, hfewer, hfits', harguments⟩ := hfits.opening_fits hopening nofun
    have hwithin := harguments _ ((agrees ts _).verdict_eq hinner) hclose hcall
    have hcallee := hsolid.child (List.mem_cons_self ..)
    exact Node.everywhere_iff.mpr ⟨hreads.portable_self hsolid hfits rfl,
      List.forall_mem_cons.mpr ⟨hinner.portable hcallee (hfits'.mono (by omega)),
        hlist.portable (.inr rfl) (Nat.le_refl _) hwithin (Nat.le_of_lt hfewer)⟩⟩

theorem ReadsList.portable {delimiters : Delimiters} {i stop budget fewer : Nat}
    {nodes found : List Node} : ReadsList ts delimiters i nodes stop → delimiters.Usual →
      ts.size - i ≤ budget →
        (delimiters.items ts budget (.fresh i) found).Within ts fewer → fewer ≤ levels →
          ∀ node ∈ nodes, node.Everywhere (·.Portable ts levels)
  | .close _, _, _, _, _ => List.forall_mem_nil _
  | .separator hseparator hrest, husual, hbudget, hwithin, hfewer => by
    have hskip := ts.le_skipBlanks i
    have hsize := TokenStream.lt_size_of_sees hseparator
    obtain ⟨budget, rfl⟩ := Nat.exists_eq_succ_of_ne_zero (show budget ≠ 0 by omega)
    rw [Delimiters.within_items_of_separator husual.plain hseparator] at hwithin
    exact hrest.portable husual (by omega) hwithin hfewer
  | @ReadsList.item _ _ i next _ _ _ hstart hnode hend hrest, husual, hbudget, hwithin, hfewer => by
    have hskip := ts.le_skipBlanks i
    have hskip' := ts.le_skipBlanks next
    have hsize := Delimiters.lt_size_of_seenAt hend
    have hsolid := hnode.solid_of_seenAt hend
    have hmoved := hnode.lt_of_solid hsolid
    obtain ⟨budget, rfl⟩ := Nat.exists_eq_succ_of_ne_zero (show budget ≠ 0 by omega)
    rw [Delimiters.within_items_of_item hstart (by omega) hnode hend] at hwithin
    exact List.forall_mem_cons.mpr ⟨hnode.portable hsolid (hwithin.1.mono hfewer),
      hrest.portable husual (by omega) hwithin.2 hfewer⟩

end

end

end CurlyScript
