import CurlyScript.Node

namespace CurlyScript.Node

mutual

/-- Whether two nodes are the same, spans included. -/
def same : Node → Node → Bool
  | .empty s, .empty t => s == t
  | .block s xs, .block t ys => s == t && sameAll xs ys
  | .string s xs, .string t ys => s == t && xs == ys
  | .identifier s x, .identifier t y => s == t && x == y
  | .execution s x xs, .execution t y ys => s == t && same x y && sameAll xs ys
  | .namedFunction s x b, .namedFunction t y c => s == t && x == y && same b c
  | .inlineFunction s b, .inlineFunction t c => s == t && same b c
  | _, _ => false

/-- Whether two lists hold the same nodes in the same order. -/
def sameAll : List Node → List Node → Bool
  | [], [] => true
  | x :: xs, y :: ys => same x y && sameAll xs ys
  | _, _ => false

end

mutual

theorem same_iff (a b : Node) : same a b = true ↔ a = b := by
  cases a with
  | empty s => cases b <;> simp [same]
  | block s xs =>
    cases b with
    | block t ys => simp [same, sameAll_iff xs ys]
    | _ => simp [same]
  | string s xs => cases b <;> simp [same]
  | identifier s x => cases b <;> simp [same]
  | execution s x xs =>
    cases b with
    | execution t y ys => simp [same, same_iff x y, sameAll_iff xs ys, and_assoc]
    | _ => simp [same]
  | namedFunction s x body =>
    cases b with
    | namedFunction t y c => simp [same, same_iff _ c, and_assoc]
    | _ => simp [same]
  | inlineFunction s body =>
    cases b with
    | inlineFunction t c => simp [same, same_iff _ c]
    | _ => simp [same]

theorem sameAll_iff (xs ys : List Node) : sameAll xs ys = true ↔ xs = ys := by
  cases xs with
  | nil => cases ys <;> simp [sameAll]
  | cons x xs =>
    cases ys with
    | nil => simp [sameAll]
    | cons y ys => simp [sameAll, same_iff x y, sameAll_iff xs ys]

end

instance : DecidableEq Node :=
  fun a b => decidable_of_iff _ (same_iff a b)

end CurlyScript.Node
