import CurlyScript.Proofs.Grammar.Accounts
import CurlyScript.Proofs.Layout.Lexing
import CurlyScript.Proofs.Script.Outcome

namespace CurlyScript

section

variable {α : Type} [DecidableEq α] {x y : α} {rest l : List α} {i j m : Nat}

theorem index_unique (hcount : l.count x = 1) (hi : l[i]? = some x) (hj : l[j]? = some x) :
    i = j := by
  have hnever {i j : Nat} (hi : l[i]? = some x) (hj : l[j]? = some x) : ¬ i < j := by
    intro hlt
    obtain ⟨hilt, hi⟩ := List.getElem?_eq_some_iff.mp hi
    obtain ⟨hjlt, hj⟩ := List.getElem?_eq_some_iff.mp hj
    have htwice : l.Duplicate x :=
      List.duplicate_iff_exists_distinct_get.mpr ⟨⟨i, hilt⟩, ⟨j, hjlt⟩, hlt, hi.symm, hj.symm⟩
    rw [List.duplicate_iff_two_le_count, hcount] at htwice
    exact absurd htwice (by decide)
  exact Nat.le_antisymm (Nat.le_of_not_lt (hnever hj hi)) (Nat.le_of_not_lt (hnever hi hj))

/-- What is found just once in a list takes along what comes behind it in a part of the list. -/
theorem getElem?_add_of_infix (hwithin : (x :: rest) <:+: l) (hcount : l.count x = 1)
    (hi : l[i]? = some x) (hm : (x :: rest)[m]? = some y) : l[i + m]? = some y := by
  obtain ⟨before, after, rfl⟩ := hwithin
  have hplace (k : Nat) (hk : k < (x :: rest).length) :
      (before ++ (x :: rest) ++ after)[before.length + k]? = (x :: rest)[k]? := by
    rw [List.append_assoc, List.getElem?_append_right (Nat.le_add_right ..),
      Nat.add_sub_cancel_left, List.getElem?_append_left hk]
  obtain rfl : i = before.length := index_unique hcount hi (hplace 0 (Nat.succ_pos _))
  rw [hplace m (List.getElem?_eq_some_iff.mp hm).1, hm]

end

theorem captured_mem_restOfString {n left m : Nat} (hle : n ≤ m) (hlt : m < n + left) :
    .captured m ∈ Duty.restOfString n left := by
  induction left generalizing n with
  | zero => exact absurd hlt (Nat.not_lt.mpr hle)
  | succ left ih =>
    obtain rfl | hnext := Nat.eq_or_lt_of_le hle
    · exact List.mem_cons_self ..
    · exact List.mem_cons_of_mem _ (ih hnext (by omega))

theorem closeQuote_mem_restOfString (n left : Nat) :
    .closeQuote ∈ Duty.restOfString n left := by
  induction left generalizing n with
  | zero => exact List.mem_singleton_self _
  | succ left ih => exact List.mem_cons_of_mem _ (ih (n + 1))

namespace TokenStream

variable {ts : TokenStream} {start i j : Nat}

/-- The first parenthesis that is opened from an index on is the only one. -/
theorem Unopened.unique (hi : ts.Unopened start i) (hsees : ts.sees i .openParen = true)
    (hj : ts.Unopened start j) (hsees' : ts.sees j .openParen = true) : i = j := by
  have hfirst {i j : Nat} (hi : ts.Unopened start i) (hsees : ts.sees i .openParen = true)
      (hj : ts.Unopened start j) : ¬ i < j := by
    intro hlt
    rw [hj.2 i hi.1 hlt] at hsees
    cases hsees
  exact Nat.le_antisymm (Nat.le_of_not_lt (hfirst hj hsees' hi))
    (Nat.le_of_not_lt (hfirst hi hsees hj))

theorem NamesAt.unique (hi : ts.NamesAt start i) (hj : ts.NamesAt start j) : i = j := by
  have hnever (hparen : ts.sees (ts.skipBlanks start + 1) .openParen = true)
      (hspace : ts.sees (ts.skipBlanks start + 1) .space = true) : False := by
    rw [sees_eq_false hparen (by decide)] at hspace
    cases hspace
  obtain ⟨hi, hparen⟩ | ⟨hi, hspace⟩ := hi
  · obtain ⟨hj, -⟩ | ⟨-, hspace⟩ := hj
    · rw [hi, hj]
    · exact (hnever hparen hspace).elim
  · obtain ⟨-, hparen⟩ | ⟨hj, -⟩ := hj
    · exact (hnever hparen hspace).elim
    · rw [hi, hj]

end TokenStream

/-- The duties that come first in their run. -/
def Duty.leading : List Duty :=
  [.opens, .closes, .openQuote, .name, .type, .arrowStem]

section

variable {root part : Node} {ts : TokenStream} {i j : Nat} {path : List Nat} {task : Duty}
  {role : Role} {roles roles' : List Role}

/-- Every duty but that of a separator or of a type that may be left out is part of a run. -/
theorem Duty.Suits.exists_run (hsuits : task.Suits ts i part) (hseparates : task ≠ .separates)
    (hresultType : task ≠ .resultType) :
    ∃ lead ∈ leading, ∃ rest, lead :: rest ∈ part.runs ∧ task ∈ lead :: rest := by
  cases task with
  | opens =>
    obtain ⟨_, _, rfl, -, -⟩ | ⟨_, _, _, rfl, -, -⟩ := hsuits
    · exact ⟨.opens, by decide, [], by simp [Node.runs], by simp⟩
    · exact ⟨.opens, by decide, [], by simp [Node.runs], by simp⟩
  | separates => exact absurd rfl hseparates
  | closes =>
    obtain ⟨-, delimiters, hdelimiters, -⟩ := hsuits
    cases part with
    | block | execution => exact ⟨.closes, by decide, [], by simp [Node.runs], by simp⟩
    | empty | string | identifier | namedFunction | inlineFunction => cases hdelimiters
  | openQuote =>
    obtain ⟨_, _, _, rfl, -⟩ := hsuits
    exact ⟨.openQuote, by decide, _, List.mem_singleton_self _, List.mem_cons_self ..⟩
  | captured n =>
    obtain ⟨_, _, rfl, hlt, -⟩ := hsuits
    exact ⟨.openQuote, by decide, _, List.mem_singleton_self _,
      List.mem_cons_of_mem _ (captured_mem_restOfString (Nat.zero_le n) (by omega))⟩
  | closeQuote =>
    obtain ⟨_, _, _, rfl, -⟩ := hsuits
    exact ⟨.openQuote, by decide, _, List.mem_singleton_self _,
      List.mem_cons_of_mem _ (closeQuote_mem_restOfString _ _)⟩
  | name =>
    obtain ⟨_, -, ⟨hname, -⟩ | ⟨_, _, rfl, -⟩⟩ := hsuits
    · cases part with
      | identifier => exact ⟨.name, by decide, [], by simp [Node.runs], by simp⟩
      | empty | block | string | execution | namedFunction | inlineFunction => cases hname
    · exact ⟨.name, by decide, _, List.mem_singleton_self _, by simp⟩
  | resultType => exact absurd rfl hresultType
  | type =>
    obtain ⟨_, _, _, rfl, -⟩ := hsuits
    exact ⟨.type, by decide, _, List.mem_cons_self .., by simp⟩
  | openParameters | closeParameters =>
    obtain ⟨hkind, -⟩ := hsuits
    cases part with
    | namedFunction => exact ⟨.name, by decide, _, List.mem_singleton_self _, by simp⟩
    | inlineFunction => exact ⟨.type, by decide, _, List.mem_cons_self .., by simp⟩
    | empty | block | string | identifier | execution => cases hkind
  | arrowStem | arrowHead =>
    obtain ⟨_, _, rfl, -⟩ := hsuits
    exact ⟨.arrowStem, by decide, [.arrowHead], by simp [Node.runs], by simp⟩

/-- Where the first duty of a run is done is fixed. -/
theorem Duty.Suits.unique (hleading : task ∈ leading) (hi : task.Suits ts i part)
    (hj : task.Suits ts j part) : i = j := by
  cases task with
  | opens =>
    obtain ⟨_, _, rfl, hi, -⟩ | ⟨_, _, _, rfl, hi⟩ := hi <;>
      obtain ⟨_, _, hsame, hj, -⟩ | ⟨_, _, _, hsame, hj⟩ := hj <;> cases hsame
    · rw [hi, hj]
    · exact hi.1.unique hi.2 hj.1 hj.2
  | closes => exact Nat.succ.inj (hi.1.trans hj.1.symm)
  | openQuote =>
    obtain ⟨_, _, _, rfl, hi, -⟩ := hi
    obtain ⟨_, _, _, hsame, hj, -⟩ := hj
    cases hsame
    rw [hi, hj]
  | name =>
    obtain ⟨_, -, ⟨hname, hi⟩ | ⟨_, _, rfl, hi⟩⟩ := hi <;>
      obtain ⟨_, -, ⟨hname', hj⟩ | ⟨_, _, hsame, hj⟩⟩ := hj
    · exact Nat.succ.inj (hi.trans hj.symm)
    · rw [hsame] at hname
      cases hname
    · cases hname'
    · cases hsame
      exact hi.unique hj
  | type =>
    obtain ⟨_, _, _, rfl, hi, -⟩ := hi
    obtain ⟨_, _, _, hsame, hj, -⟩ := hj
    cases hsame
    rw [hi, hj]
  | arrowStem =>
    obtain ⟨_, _, rfl, hi, -⟩ := hi
    obtain ⟨_, _, hsame, hj, -⟩ := hj
    cases hsame
    rw [hi, hj]
  | separates | captured | closeQuote | resultType | openParameters | closeParameters
  | arrowHead => exact absurd hleading (by simp [leading])

theorem Accounts.suits_duty (haccounts : Accounts root ts roles) (hpart : root.at? path = some part)
    (hrole : roles[i]? = some (.duty path task)) : task.Suits ts i part := by
  obtain ⟨part', hpart', -, -, hsuits⟩ := haccounts.suits i _ hrole
  rw [hpart] at hpart'
  rwa [Option.some.inj hpart']

/-- Both ways to give out the roles agree on the duties of a run. -/
theorem Accounts.duty_eq (haccounts : Accounts root ts roles) (haccounts' : Accounts root ts roles')
    (hrole : roles[i]? = some (.duty path task)) (hseparates : task ≠ .separates)
    (hresultType : task ≠ .resultType) : roles'[i]? = some (.duty path task) := by
  obtain ⟨part, hpart, -, -, hsuits⟩ := haccounts.suits i _ hrole
  obtain ⟨lead, hleading, rest, hrun, htask⟩ := hsuits.exists_run hseparates hresultType
  have honce := haccounts.once path part hpart _ hrun
  have honce' := haccounts'.once path part hpart _ hrun lead (List.mem_cons_self ..)
  have hcount := honce lead (List.mem_cons_self ..)
  obtain ⟨a, ha⟩ := List.mem_iff_getElem?.mp (List.count_pos_iff.mp (hcount ▸ Nat.one_pos))
  obtain ⟨b, hb⟩ := List.mem_iff_getElem?.mp (List.count_pos_iff.mp (honce' ▸ Nat.one_pos))
  -- The span of the construct fixes the place of the run, so it is the same for both.
  obtain rfl : a = b :=
    (haccounts.suits_duty hpart ha).unique hleading (haccounts'.suits_duty hpart hb)
  obtain ⟨m, hm⟩ := List.mem_iff_getElem?.mp (List.mem_map_of_mem (f := Role.duty path) htask)
  have hplace := getElem?_add_of_infix (haccounts.together path part hpart _ hrun) hcount ha hm
  have hplace' := getElem?_add_of_infix (haccounts'.together path part hpart _ hrun) honce' hb hm
  rwa [index_unique (honce task htask) hrole hplace]

/-- What a token is there for that does no duty of a run. -/
def Role.ofToken (owner : List Nat) : Token → Role
  | .text _ => .duty owner .resultType
  | .symbol .openParen => .openGroup
  | .symbol .closeParen => .closeGroup
  | .symbol .semiColon | .symbol .comma => .duty owner .separates
  | .symbol _ => .blank

/-- A role that is no duty of a run. -/
def Role.Loose : Role → Prop
  | .duty _ task => task = .separates ∨ task = .resultType
  | _ => True

theorem Role.Suits.exists_eq_ofToken {token : Token} (hloose : role.Loose)
    (hsuits : role.Suits root ts i) (htoken : ts[i]? = some token) :
    ∃ owner, role = .ofToken owner token := by
  cases role with
  | blank =>
    obtain ⟨other, hother, hblank⟩ := hsuits
    obtain rfl : token = other := Option.some.inj (htoken.symm.trans hother)
    refine ⟨[], ?_⟩
    cases token with
    | text content => cases hblank
    | symbol s => cases s <;> first | rfl | cases hblank
  | openGroup =>
    obtain rfl := Option.some.inj (htoken.symm.trans (TokenStream.sees_iff.mp hsuits))
    exact ⟨[], rfl⟩
  | closeGroup =>
    obtain rfl := Option.some.inj (htoken.symm.trans (TokenStream.sees_iff.mp hsuits))
    exact ⟨[], rfl⟩
  | duty owner task =>
    obtain ⟨part, -, -, -, htask⟩ := hsuits
    obtain rfl | rfl := hloose
    · obtain ⟨delimiters, hdelimiters, hsees⟩ := htask
      obtain rfl := Option.some.inj (htoken.symm.trans (TokenStream.sees_iff.mp hsees))
      obtain rfl | rfl := part.usual_of_delimiters? hdelimiters
      · exact ⟨owner, rfl⟩
      · exact ⟨owner, rfl⟩
    · obtain ⟨type, -, -, -, -, hword⟩ := htask
      obtain rfl := Option.some.inj (htoken.symm.trans (TokenStream.wordAt?_eq_some.mp hword).1)
      exact ⟨owner, rfl⟩

/-- Where a separator stands, the brackets of its list are the innermost ones. -/
theorem Accounts.exists_opened (haccounts : Accounts root ts roles)
    (hrole : roles[i]? = some (.duty path .separates)) :
    ∃ opened, (roles.take i).foldlM Role.track [] = some opened ∧
      opened.head? = some (.duty path .opens) := by
  obtain ⟨hlt, hrole⟩ := List.getElem?_eq_some_iff.mp hrole
  have hnested := haccounts.nested
  rw [← List.take_append_drop i roles, List.drop_eq_getElem_cons hlt, hrole, List.foldlM_append]
    at hnested
  obtain ⟨opened, hopened, hrest⟩ := Option.bind_eq_some_iff.mp hnested
  obtain ⟨_, htrack, -⟩ := Option.bind_eq_some_iff.mp hrest
  refine ⟨opened, hopened, ?_⟩
  by_contra hother
  rw [Role.track, if_neg hother] at htrack
  cases htrack

/-- A type stands two tokens before the name. -/
theorem Accounts.name_of_resultType (haccounts : Accounts root ts roles)
    (hrole : roles[i]? = some (.duty path .resultType)) :
    roles[i + 2]? = some (.duty path .name) := by
  obtain ⟨hcount, hwithin⟩ := haccounts.typed path (List.mem_of_getElem? hrole)
  exact getElem?_add_of_infix hwithin hcount hrole rfl

theorem Accounts.eq_of_loose {role' : Role} (haccounts : Accounts root ts roles)
    (haccounts' : Accounts root ts roles') (hbefore : roles.take i = roles'.take i)
    (hrole : roles[i]? = some role) (hrole' : roles'[i]? = some role') (hloose : role.Loose)
    (hloose' : role'.Loose) : role = role' := by
  have hlt : i < ts.size := by
    rw [← haccounts.length_eq]
    exact (List.getElem?_eq_some_iff.mp hrole).1
  have htoken := Array.getElem?_eq_getElem hlt
  obtain ⟨owner, rfl⟩ := (haccounts.suits i role hrole).exists_eq_ofToken hloose htoken
  obtain ⟨owner', rfl⟩ := (haccounts'.suits i role' hrole').exists_eq_ofToken hloose' htoken
  -- The token tells the roles apart up to their owners, which what stands around it gives away:
  -- the name behind a type, and the brackets that are open before a separator.
  cases htext : ts[i] with
  | text type =>
    rw [htext] at hrole hrole'
    have hname := haccounts.duty_eq haccounts' (haccounts.name_of_resultType hrole) (by decide)
      (by decide)
    rw [haccounts'.name_of_resultType hrole'] at hname
    cases hname
    rfl
  | symbol s =>
    rw [htext] at hrole hrole'
    cases s with
    | semiColon | comma =>
      obtain ⟨opened, hopened, hhead⟩ := haccounts.exists_opened hrole
      obtain ⟨opened', hopened', hhead'⟩ := haccounts'.exists_opened hrole'
      rw [hbefore, hopened'] at hopened
      cases hopened
      rw [hhead] at hhead'
      cases hhead'
      rfl
    | _ => rfl

theorem Accounts.role_of_not_loose (haccounts : Accounts root ts roles)
    (haccounts' : Accounts root ts roles') (hrole : roles[i]? = some role)
    (hfirm : ¬ role.Loose) : roles'[i]? = some role := by
  cases role with
  | duty path task =>
    obtain ⟨hseparates, hresultType⟩ := not_or.mp hfirm
    exact haccounts.duty_eq haccounts' hrole hseparates hresultType
  | blank | openGroup | closeGroup => exact absurd trivial hfirm

/-- Where two ways to give out the roles agree up to a token, they agree on the token. -/
theorem Accounts.role_eq (haccounts : Accounts root ts roles)
    (haccounts' : Accounts root ts roles') (hbefore : roles.take i = roles'.take i) :
    roles[i]? = roles'[i]? := by
  have hlength : roles.length = roles'.length := haccounts.length_eq.trans haccounts'.length_eq.symm
  by_cases hlt : i < roles.length
  · have hlt' : i < roles'.length := hlength ▸ hlt
    have hrole := List.getElem?_eq_getElem hlt
    have hrole' := List.getElem?_eq_getElem hlt'
    by_cases hloose : roles[i].Loose
    · by_cases hloose' : roles'[i].Loose
      · rw [hrole, hrole', haccounts.eq_of_loose haccounts' hbefore hrole hrole' hloose hloose']
      · exact (haccounts'.role_of_not_loose haccounts hrole' hloose').trans hrole'.symm
    · exact hrole.trans (haccounts.role_of_not_loose haccounts' hrole hloose).symm
  · rw [List.getElem?_eq_none (Nat.le_of_not_lt hlt),
      List.getElem?_eq_none (Nat.le_of_not_lt (hlength ▸ hlt))]

/-- The roles of all tokens are determined by the tree. -/
theorem Accounts.unique (haccounts : Accounts root ts roles)
    (haccounts' : Accounts root ts roles') : roles = roles' := by
  have hlength : roles.length = roles'.length := haccounts.length_eq.trans haccounts'.length_eq.symm
  -- By induction from the front, since whose separator it is depends on what came before.
  have hbefore (i : Nat) : roles.take i = roles'.take i := by
    induction i with
    | zero => rfl
    | succ i ih =>
      rw [List.take_add_one, List.take_add_one, ih, haccounts.role_eq haccounts' ih]
  have hwhole := hbefore roles.length
  rwa [List.take_length, hlength, List.take_length] at hwhole

end

/-- Every token of a script has one role in its tree, and every construct has its tokens. There is
    only one way to give out the roles. -/
theorem Script.parse_ok_accounts {limit : Nat} {source : String} {script : Script}
    (hne : source ≠ "") (hok : Script.parse limit source = .ok script) :
    script.tokens = enclose (tokenize source) ∧
      ∃! roles, Accounts script.root script.tokens roles := by
  obtain ⟨htokens, hreads⟩ := reads_of_parse_ok (mt tokenize_eq_nil_iff.mp hne) hok
  obtain ⟨pieces, hallots⟩ := hreads.allotted script.root.at?_nil []
  exact ⟨htokens, _, hallots.accounts, fun roles hroles => hroles.unique hallots.accounts⟩

/-- Two of the four brackets are those of the call. -/
theorem Script.parse_ok_accounts_call :
    ("a()" ≠ "" ∧ Script.parse 2 "a()" =
      .ok ⟨enclose [.text "a", .symbol .openParen, .symbol .closeParen],
        .block ⟨0, 5⟩ [.execution ⟨1, 4⟩ (.identifier ⟨1, 2⟩ "a") []]⟩) ∧
      ∃! roles, Accounts (.block ⟨0, 5⟩ [.execution ⟨1, 4⟩ (.identifier ⟨1, 2⟩ "a") []])
        (enclose [.text "a", .symbol .openParen, .symbol .closeParen]) roles := by
  have hne : "a()" ≠ "" := by decide
  have hok : Script.parse 2 "a()" =
      .ok ⟨enclose [.text "a", .symbol .openParen, .symbol .closeParen],
        .block ⟨0, 5⟩ [.execution ⟨1, 4⟩ (.identifier ⟨1, 2⟩ "a") []]⟩ := by cbv
  exact ⟨⟨hne, hok⟩, (parse_ok_accounts hne hok).2⟩

end CurlyScript
