import CurlyScript.Proofs.Layout.Parsing
import CurlyScript.Proofs.Script.Outcome

namespace CurlyScript

/-- A script of a source consists of the trees, apart from places. The empty source has no
    outermost block. -/
def Script.Shows (script : Script) (source : String) (trees : List Tree) : Prop :=
  if source = "" then
    trees = [] ∧ script.root = .empty ⟨0, script.tokens.size⟩
  else ∃ statements, script.root = .block ⟨0, script.tokens.size⟩ statements ∧
    Node.allUnplaced statements = Tree.nodes trees

section

variable {trees : List Tree} {source : String}

/-- The outermost block is read whole. -/
theorem RendersList.exists_verdict (hrenders : RendersList .statements trees source) :
    ∃ statements, Node.allUnplaced statements = Tree.nodes trees ∧
      verdict (Script.enclose (tokenize source)) ⟨0, none⟩ =
        .ok ⟨.block ⟨0, (tokenize source).length + 2⟩ statements,
          .fresh ((tokenize source).length + 2)⟩ := by
  have hskip := skipBlanks_enclose (tokenize source)
  have hholds : (Script.enclose (tokenize source)).Holds 0
      (.symbol .openCurly :: (tokenize source ++ [.symbol .closeCurly])) := by
    have harray := TokenStream.holds_toArray []
      (.symbol .openCurly :: (tokenize source ++ [.symbol .closeCurly])) []
    rwa [List.nil_append, List.append_nil] at harray
  rw [← hskip] at hholds
  obtain ⟨statements, hsame, hreads⟩ := (hrenders.spells (.inl rfl)).exists_reads_block hholds
  have hstop : (Script.enclose (tokenize source)).skipBlanks 0 + 1 + (tokenize source).length + 1 =
      (tokenize source).length + 2 := by
    rw [hskip]
    omega
  rw [hstop] at hreads
  exact ⟨statements, hsame, (agrees _ 0).verdict_eq hreads⟩

theorem Tree.nodes_eq_nil_iff : Tree.nodes trees = [] ↔ trees = [] := by
  cases trees with
  | nil => simp only [Tree.nodes]
  | cons tree trees => simp only [Tree.nodes, List.cons_ne_nil]

/-- Nothing renders only nothing. -/
theorem RendersList.eq_nil (hrenders : RendersList .statements trees "") : trees = [] := by
  have hclose : TokenStream.sees #[.symbol .closeCurly] 0 .closeCurly = true := rfl
  have hskip := TokenStream.skipBlanks_of_sees hclose rfl
  obtain ⟨nodes, hnodes, hsame⟩ :=
    hrenders.spells (.inl rfl) #[.symbol .closeCurly] 0 0 trivial rfl hclose
  rw [readsList_iff_of_closer Delimiters.plain_statements (by rw [hskip]; exact hclose)] at hnodes
  rw [hnodes.1, Node.allUnplaced] at hsame
  exact Tree.nodes_eq_nil_iff.mp hsame.symm

/-- However a list of trees is laid out as a source, it comes back from it: less room for nesting
    than two levels a token may make the parse give up, but nothing else comes of it. -/
theorem Script.parse_rendered (hrenders : RendersList .statements trees source) :
    ∃ script : Script, script.Shows source trees ∧
      (∀ limit, TrimmedTo limit (Script.parse limit source) (.ok script)) ∧
      ∀ limit, 2 * (tokenize source).length + 4 ≤ limit →
        Script.parse limit source = .ok script := by
  by_cases hempty : source = ""
  · subst hempty
    have hnone : tokenize "" = [] := rfl
    refine ⟨⟨Script.enclose [], .empty ⟨0, 2⟩⟩, ?_, fun limit => .inl ?_, fun limit _ => ?_⟩
    · rw [Script.Shows, if_pos rfl]
      exact ⟨hrenders.eq_nil, rfl⟩
    · exact Script.parse_of_empty hnone limit
    · exact Script.parse_of_empty hnone limit
  · have hne : tokenize source ≠ [] := fun h => hempty (tokenize_eq_nil_iff.mp h)
    obtain ⟨statements, hsame, hverdict⟩ := hrenders.exists_verdict
    refine ⟨⟨Script.enclose (tokenize source), .block ⟨0, (tokenize source).length + 2⟩ statements⟩,
      ?_, fun limit => ?_, fun limit hlimit => ?_⟩
    · rw [Script.Shows, if_neg hempty]
      refine ⟨statements, ?_, hsame⟩
      rw [size_enclose]
    · rw [Script.parse_of_nonempty hne]
      by_cases hbeyond : Request.NestsBeyond (Script.enclose (tokenize source)) limit ⟨0, none⟩
      · obtain ⟨position, hdeep⟩ := Session.parse_of_nestsBeyond hbeyond
        rw [hdeep]
        exact .inr ⟨position, rfl⟩
      · rw [Session.parse_of_not_nestsBeyond hbeyond, hverdict]
        exact .inl (Script.ofParsed_enclose _ _)
    · have hlevels : 2 * ((Script.enclose (tokenize source)).size - 0) ≤ limit := by
        rw [size_enclose]
        omega
      rw [Script.parse_of_nonempty hne, Session.parse_of_two_levels_a_token hlevels, hverdict]
      exact Script.ofParsed_enclose _ _

theorem Script.parse_rendered_definition :
    RendersList .statements [.named "int" "f" (.call (.identifier "g") [.identifier "x"])]
        "int f() g( x);" ∧
      ∃ script : Script, script.Shows "int f() g( x);"
          [.named "int" "f" (.call (.identifier "g") [.identifier "x"])] ∧
        Script.parse 32 "int f() g( x);" = .ok script := by
  have hargument : RendersList .arguments [.identifier "x"] (" " ++ "x" ++ "") :=
    .last (by decide) (.identifier (by decide)) (by decide)
  have hcall : Renders (.call (.identifier "g") [.identifier "x"])
      ("g" ++ "" ++ "(" ++ (" " ++ "x" ++ "") ++ ")") := .call (by decide) (by decide) hargument
  have hrenders : RendersList .statements
      [.named "int" "f" (.call (.identifier "g") [.identifier "x"])] "int f() g( x);" :=
    .item (by decide : IsBlank "") (.typed (by decide) (by decide) (by decide : IsBlank " ") hcall)
      (by decide : IsBlank "") (.blank (by decide : IsBlank ""))
  obtain ⟨script, hshows, -, hparse⟩ := Script.parse_rendered hrenders
  exact ⟨hrenders, script, hshows, hparse 32 (by decide)⟩

end

end CurlyScript
