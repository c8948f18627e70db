import CurlyScript.Proofs.Grammar.Carried
import CurlyScript.Proofs.Layout.Placing

namespace CurlyScript

namespace TokenStream

/-- Two inputs are the same before an index. -/
def AgreeBelow (ts ts' : TokenStream) (p : Nat) : Prop :=
  ∀ i, i < p → ts'[i]? = ts[i]?

section

variable {ts ts' : TokenStream} {p i : Nat}

theorem AgreeBelow.mono {q : Nat} (hagree : AgreeBelow ts ts' p) (hle : q ≤ p) :
    AgreeBelow ts ts' q :=
  fun i hi => hagree i (Nat.lt_of_lt_of_le hi hle)

/-- Every index before `p` keeps its place. -/
theorem AgreeBelow.carries (hagree : AgreeBelow ts ts' p) : ts.Carries id ts' 0 p :=
  ⟨fun _ _ _ => rfl, fun i _ hi => hagree i hi⟩

theorem AgreeBelow.sees_eq (hagree : AgreeBelow ts ts' p) (hlt : i < p) (s : Symbol) :
    ts'.sees i s = ts.sees i s :=
  hagree.carries.sees_eq (Nat.zero_le i) hlt s

theorem AgreeBelow.quoteAt?_eq (hagree : AgreeBelow ts ts' p) (hlt : i < p) :
    ts'.quoteAt? i = ts.quoteAt? i :=
  hagree.carries.quoteAt?_eq (Nat.zero_le i) hlt

theorem AgreeBelow.wordAt?_eq (hagree : AgreeBelow ts ts' p) (hlt : i < p) :
    ts'.wordAt? i = ts.wordAt? i :=
  hagree.carries.wordAt?_eq (Nat.zero_le i) hlt

theorem AgreeBelow.hasParameters_eq (hagree : AgreeBelow ts ts' p) (hlt : i + 1 < p) :
    ts'.hasParameters i = ts.hasParameters i :=
  hagree.carries.hasParameters_eq (Nat.zero_le i) hlt

theorem AgreeBelow.seenAt_eq (hagree : AgreeBelow ts ts' p) (hlt : i < p)
    (delimiters : Delimiters) : delimiters.seenAt ts' i = delimiters.seenAt ts i :=
  hagree.carries.seenAt_eq (Nat.zero_le i) hlt delimiters

theorem AgreeBelow.skipBlanks_through (hagree : AgreeBelow ts ts' (ts.skipBlanks i)) :
    ts'.skipBlanks i = ts'.skipBlanks (ts.skipBlanks i) :=
  hagree.carries.skipBlanks_through (Nat.zero_le i) (Nat.le_refl _)

theorem AgreeBelow.skipBlanks_eq (hagree : AgreeBelow ts ts' p) (hlt : ts.skipBlanks i < p) :
    ts'.skipBlanks i = ts.skipBlanks i :=
  hagree.carries.skipBlanks_eq (Nat.zero_le i) hlt

end

/-- The input before an index, with other tokens put there. -/
def continuedAt (ts : TokenStream) (p : Nat) (ext : List Token) : TokenStream :=
  ts.extract 0 p ++ ext.toArray

section

variable {ts : TokenStream} {p : Nat} (hle : p ≤ ts.size) (ext : List Token)

include hle

theorem size_continuedAt : (ts.continuedAt p ext).size = p + ext.length := by
  simp [continuedAt, hle]

theorem agreeBelow_continuedAt : AgreeBelow ts (ts.continuedAt p ext) p := by
  intro i hi
  rw [continuedAt, Array.getElem?_append_left (by simp; omega), Array.getElem?_extract]
  simp [hi]

theorem holds_continuedAt : (ts.continuedAt p ext).Holds p ext := by
  have hholds := holds_toArray (ts.extract 0 p).toList ext []
  have hlength : (ts.extract 0 p).toList.length = p := by simp [hle]
  rwa [List.append_nil, hlength, ← List.append_toArray, Array.toArray_toList] at hholds

theorem stopsAt_continuedAt : (ts.continuedAt p ext).StopsAt (p + ext.length) :=
  stopsAt_of_size_le (Nat.le_of_eq (size_continuedAt hle ext))

end

end TokenStream

end CurlyScript
