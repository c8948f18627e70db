import CurlyScript.Proofs.Grammar.Allotment

namespace CurlyScript

/-- What may play a role other than that of a token in a string. -/
def Role.Admits (role : Role) : Token → Prop
  | .text content => isWord content = true
  | .symbol .equal => ∃ owner, role = .duty owner .arrowStem
  | .symbol .rightChevron => ∃ owner, role = .duty owner .arrowHead
  | .symbol s => s ∈ [.space, .newline, .openCurly, .closeCurly, .semiColon, .comma, .openParen,
      .closeParen, .singleQuote, .doubleQuote, .backQuote]

/-- Every token has one role in a tree, and every construct of the tree has its tokens: each of its
    duties is done by one token, in the order of the constructs, and tokens that belong together
    stand side by side. Brackets of all kinds are nested in each other, with separators directly in
    the brackets of their list. -/
structure Accounts (root : Node) (ts : TokenStream) (roles : List Role) : Prop where
  length_eq : roles.length = ts.size
  suits : ∀ (i : Nat) (role : Role), roles[i]? = some role → role.Suits root ts i
  ordered : (Node.rolesOf (root.inventory [])).Sublist roles
  once : ∀ path part, root.at? path = some part → ∀ run ∈ part.runs, ∀ duty ∈ run,
    roles.count (.duty path duty) = 1
  together : ∀ path part, root.at? path = some part → ∀ run ∈ part.runs,
    run.map (.duty path) <:+: roles
  typed : ∀ path, .duty path .resultType ∈ roles → roles.count (.duty path .resultType) = 1 ∧
    [.duty path .resultType, .blank, .duty path .name] <:+: roles
  nested : roles.foldlM Role.track [] = some []
  admits : ∀ (i : Nat) (token : Token) (role : Role), ts[i]? = some token →
    roles[i]? = some role → (∀ owner n, role ≠ .duty owner (.captured n)) → role.Admits token

section

variable {root part : Node} {ts : TokenStream} {i k : Nat} {path : List Nat} {duty : Duty}
  {role : Role} {roles : List Role} {pieces : List Piece}

theorem RolesSuit.suits (hsuit : RolesSuit root ts i roles) (hrole : roles[k]? = some role) :
    role.Suits root ts (i + k) := by
  induction roles generalizing i k with
  | nil => cases hrole
  | cons first roles ih =>
    cases k with
    | zero =>
      obtain rfl : first = role := Option.some.inj hrole
      exact hsuit.1
    | succ k =>
      have hrest := ih hsuit.2 hrole
      rwa [Nat.add_assoc, Nat.add_comm 1] at hrest

/-- Separators and types that may be left out are in no run. -/
theorem Node.ne_of_mem_runs (node : Node) :
    ∀ run ∈ node.runs, ∀ duty ∈ run, duty ≠ .separates ∧ duty ≠ .resultType := by
  cases node with
  | string span tokens =>
    rw [runs, List.forall_mem_singleton, List.forall_mem_cons]
    refine ⟨by decide, fun duty hduty => ?_⟩
    obtain rfl | ⟨m, -, rfl⟩ := mem_restOfString hduty
    · decide
    · simp
  | empty | block | identifier | execution | namedFunction | inlineFunction => simp [runs]

/-- A duty that is in some run is done as often as the inventory says. -/
theorem count_roles (hseparates : duty ≠ .separates) (hresultType : duty ≠ .resultType)
    (path : List Nat) (pieces : List Piece) :
    (pieces.flatMap Piece.roles).count (.duty path duty) =
      (Node.rolesOf (pieces.filterMap Piece.run?)).count (.duty path duty) := by
  induction pieces with
  | nil => rfl
  | cons piece pieces ih =>
    rw [List.flatMap_cons, List.count_append, ih]
    cases piece with
    | blank | openGroup | closeGroup => simp [Piece.roles, Piece.run?, List.filterMap_cons]
    | separator owner => simp [Piece.roles, Piece.run?, List.filterMap_cons, hseparates.symm]
    | run owner duties => simp [Piece.roles, Piece.run?, Node.rolesOf_cons]
    | typed owner =>
      have hother : Role.duty owner .resultType ≠ .duty path duty :=
        fun hsame => hresultType (Role.duty.inj hsame).2.symm
      have hblank : Role.blank ≠ .duty path duty := Role.noConfusion
      rw [Piece.roles, List.count_cons_of_ne hother, List.count_cons_of_ne hblank,
        ← List.count_append]
      exact congrArg (List.count _) Node.rolesOf_cons.symm

/-- The runs of some pieces have no types that may be left out. -/
def Untyped (pieces : List Piece) : Prop :=
  ∀ entry ∈ pieces.filterMap Piece.run?, Duty.resultType ∉ entry.2

theorem Untyped.notMem_run {owner : List Nat} {duties : List Duty} (huntyped : Untyped pieces)
    (hrun : .run owner duties ∈ pieces) : Duty.resultType ∉ duties :=
  huntyped _ (List.mem_filterMap.mpr ⟨_, hrun, rfl⟩)

/-- There is not more than one type for a name. -/
theorem Untyped.count_le (huntyped : Untyped pieces) (path : List Nat) :
    (pieces.flatMap Piece.roles).count (.duty path .resultType) ≤
      (pieces.flatMap Piece.roles).count (.duty path .name) := by
  rw [List.count_flatMap, List.count_flatMap]
  refine List.sum_le_sum fun piece hpiece => ?_
  cases piece with
  | run owner duties =>
    have hnone : Role.duty path .resultType ∉ duties.map (.duty owner) := by
      simp [huntyped.notMem_run hpiece]
    rw [Function.comp_apply, Piece.roles, List.count_eq_zero_of_not_mem hnone]
    exact Nat.zero_le _
  | typed owner => simp [Piece.roles, List.count_cons]
  | blank | openGroup | closeGroup | separator => simp [Piece.roles]

/-- A type that may be left out stands with its definition. -/
theorem Untyped.mem_typed (huntyped : Untyped pieces)
    (hmem : .duty path .resultType ∈ pieces.flatMap Piece.roles) : .typed path ∈ pieces := by
  obtain ⟨piece, hpiece, hrole⟩ := List.mem_flatMap.mp hmem
  cases piece with
  | run owner duties =>
    have hnone := huntyped.notMem_run hpiece
    simp [Piece.roles, hnone] at hrole
  | typed owner =>
    obtain rfl : path = owner := by simpa [Piece.roles] using hrole
    exact hpiece
  | blank | openGroup | closeGroup | separator => simp [Piece.roles] at hrole

/-- The runs stand among the roles in their order. -/
theorem sublist_roles (pieces : List Piece) :
    (Node.rolesOf (pieces.filterMap Piece.run?)).Sublist (pieces.flatMap Piece.roles) := by
  induction pieces with
  | nil => exact List.Sublist.refl _
  | cons piece pieces ih =>
    rw [List.flatMap_cons]
    cases piece with
    | blank | openGroup | closeGroup | separator => exact ih.trans (List.sublist_append_right ..)
    | run owner duties => exact ih.append_left _
    | typed owner => exact (ih.append_left _).trans (((List.Sublist.refl _).cons _).cons _)

theorem infix_of_mem {piece : Piece} (hpiece : piece ∈ pieces) :
    piece.roles <:+: pieces.flatMap Piece.roles :=
  List.infix_of_mem_flatten (List.mem_map_of_mem hpiece)

theorem Node.untyped (hinventory : pieces.filterMap Piece.run? = root.inventory path) :
    Untyped pieces := by
  intro entry hentry hmem
  rw [hinventory] at hentry
  obtain ⟨_, part, -, -, hrun⟩ := Node.mem_inventory_iff.mp hentry
  exact (part.ne_of_mem_runs _ hrun _ hmem).2 rfl

/-- A piece with some run holds the roles of the run side by side. -/
theorem Piece.infix_of_run? {piece : Piece} {owner : List Nat} {duties : List Duty}
    (hrun : piece.run? = some (owner, duties)) : duties.map (.duty owner) <:+: piece.roles := by
  cases piece with
  | run owner' duties' =>
    cases hrun
    exact List.infix_refl _
  | typed owner' =>
    cases hrun
    exact (List.suffix_append [Role.duty owner .resultType, .blank] _).isInfix
  | blank | openGroup | closeGroup | separator => cases hrun

theorem Role.admits_of_wordAt? {token : Token} {name : String} (htoken : ts[i]? = some token)
    (hword : ts.wordAt? i = some name) (role : Role) : role.Admits token := by
  obtain ⟨htext, hword⟩ := TokenStream.wordAt?_eq_some.mp hword
  obtain rfl : token = .text name := Option.some.inj (htoken.symm.trans htext)
  exact hword

theorem Role.admits_of_quoteAt? {token : Token} {quote : Quote} (htoken : ts[i]? = some token)
    (hquote : ts.quoteAt? i = some quote) (role : Role) : role.Admits token := by
  rw [TokenStream.quoteAt?, htoken, Option.bind_some] at hquote
  cases token with
  | text content => cases hquote
  | symbol s =>
    cases s with
    | singleQuote | doubleQuote | backQuote => simp [Role.Admits]
    | _ => cases hquote

theorem Role.admits_of_isWhitespace {token : Token} (hblank : token.isWhitespace = true)
    (role : Role) : role.Admits token := by
  cases token with
  | text content => cases hblank
  | symbol s =>
    cases s with
    | space | newline => simp [Role.Admits]
    | _ => cases hblank

theorem Node.usual_of_delimiters? {delimiters : Delimiters} (node : Node)
    (hdelimiters : node.delimiters? = some delimiters) : delimiters.Usual := by
  cases node with
  | block => exact .inl (Option.some.inj hdelimiters).symm
  | execution => exact .inr (Option.some.inj hdelimiters).symm
  | empty | string | identifier | namedFunction | inlineFunction => cases hdelimiters

theorem Duty.Suits.admits {task : Duty} {token : Token} (htoken : ts[i]? = some token)
    (hsuits : task.Suits ts i part) (hcaptured : ∀ n, task ≠ .captured n) :
    (Role.duty path task).Admits token := by
  have hsymbol {s : Symbol} (hsees : ts.sees i s = true) : token = .symbol s :=
    Option.some.inj (htoken.symm.trans (TokenStream.sees_iff.mp hsees))
  cases task with
  | opens =>
    obtain ⟨-, -, -, -, hsees⟩ | ⟨-, -, -, -, -, hsees⟩ := hsuits <;>
      simp [hsymbol hsees, Role.Admits]
  | separates =>
    obtain ⟨delimiters, hdelimiters, hsees⟩ := hsuits
    rw [hsymbol hsees]
    obtain rfl | rfl := part.usual_of_delimiters? hdelimiters <;>
      simp [Role.Admits, Delimiters.statements, Delimiters.arguments]
  | closes =>
    obtain ⟨-, delimiters, hdelimiters, hsees⟩ := hsuits
    rw [hsymbol hsees]
    obtain rfl | rfl := part.usual_of_delimiters? hdelimiters <;>
      simp [Role.Admits, Delimiters.statements, Delimiters.arguments]
  | openQuote =>
    obtain ⟨-, -, quote, -, -, hquote, -⟩ := hsuits
    exact Role.admits_of_quoteAt? htoken hquote _
  | captured n => exact absurd rfl (hcaptured n)
  | closeQuote =>
    obtain ⟨-, -, quote, -, hquote⟩ := hsuits
    exact Role.admits_of_quoteAt? htoken hquote _
  | name =>
    obtain ⟨name, hword, -⟩ := hsuits
    exact Role.admits_of_wordAt? htoken hword _
  | resultType =>
    obtain ⟨type, -, -, -, -, hword⟩ := hsuits
    exact Role.admits_of_wordAt? htoken hword _
  | type =>
    obtain ⟨type, -, -, -, -, hword⟩ := hsuits
    exact Role.admits_of_wordAt? htoken hword _
  | openParameters | closeParameters =>
    rw [hsymbol hsuits.2]
    simp [Role.Admits]
  | arrowStem =>
    obtain ⟨-, -, -, -, hsees⟩ := hsuits
    rw [hsymbol hsees]
    exact ⟨path, rfl⟩
  | arrowHead =>
    obtain ⟨-, -, -, hsees⟩ := hsuits
    rw [hsymbol hsees]
    exact ⟨path, rfl⟩

/-- Only in strings there is more than words, blanks, brackets, separators, quotes and arrows. -/
theorem Role.Suits.admits {token : Token} (htoken : ts[i]? = some token)
    (hsuits : role.Suits root ts i) (hcaptured : ∀ owner n, role ≠ .duty owner (.captured n)) :
    role.Admits token := by
  cases role with
  | blank =>
    obtain ⟨other, hother, hblank⟩ := hsuits
    obtain rfl : token = other := Option.some.inj (htoken.symm.trans hother)
    exact Role.admits_of_isWhitespace hblank _
  | openGroup | closeGroup =>
    have hsymbol := Option.some.inj (htoken.symm.trans (TokenStream.sees_iff.mp hsuits))
    rw [hsymbol]
    simp [Role.Admits]
  | duty owner task =>
    obtain ⟨part, -, -, -, htask⟩ := hsuits
    exact htask.admits htoken fun n hsame => hcaptured owner n (congrArg _ hsame)

theorem Allots.accounts (hallots : Allots root ts 0 ts.size [] [] (root.inventory []) pieces) :
    Accounts root ts (pieces.flatMap Piece.roles) where
  length_eq := (Nat.zero_add _).symm.trans hallots.stop_eq
  suits i role hrole := by
    have hsuits := hallots.suit.suits hrole
    rwa [Nat.zero_add] at hsuits
  ordered := by
    rw [← hallots.inventory_eq]
    exact sublist_roles pieces
  once path part hpart run hrun duty hduty := by
    obtain ⟨hseparates, hresultType⟩ := part.ne_of_mem_runs run hrun duty hduty
    have hmem := Node.mem_inventory [] hpart hrun
    rw [count_roles hseparates hresultType, hallots.inventory_eq]
    exact List.count_eq_one_of_mem (root.nodup_inventory [])
      (Node.mem_rolesOf.mpr ⟨run, hmem, hduty⟩)
  together path part hpart run hrun := by
    have hmem := Node.mem_inventory [] hpart hrun
    rw [← hallots.inventory_eq] at hmem
    obtain ⟨piece, hpiece, hpieceRun⟩ := List.mem_filterMap.mp hmem
    exact (Piece.infix_of_run? hpieceRun).trans (infix_of_mem hpiece)
  typed path hmem := by
    have huntyped := Node.untyped hallots.inventory_eq
    have hname := huntyped.count_le path
    rw [@count_roles .name (by decide) (by decide), hallots.inventory_eq] at hname
    have hone := List.nodup_iff_count_le_one.mp (root.nodup_inventory []) (.duty path .name)
    have hbegins : [.duty path .resultType, .blank, .duty path .name] <+:
        (Piece.typed path).roles := List.prefix_append _ _
    exact ⟨Nat.le_antisymm (hname.trans hone) (List.count_pos_iff.mpr hmem),
      hbegins.isInfix.trans (infix_of_mem (huntyped.mem_typed hmem))⟩
  nested := hallots.track_eq
  admits i token role htoken hrole := by
    have hsuits := hallots.suit.suits hrole
    rw [Nat.zero_add] at hsuits
    exact hsuits.admits htoken

end

end CurlyScript
