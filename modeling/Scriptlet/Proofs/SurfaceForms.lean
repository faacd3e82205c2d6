import Scriptlet.Proofs.StatementPlaces
import Mathlib.Logic.Relation

/-! # Statements that are written shorter

Three forms of statements only write others shorter: `x op= e` stands for `x = x op (e)`, `loop` for
`while true`, and the declaration of several variables for one declaration for each of them. So in a
program that is read without a report each of them can be spelled out, in any place and at any depth,
and the same nodes are read, except for their places (`parseProgram_spelledOut`).

The tokens around such a form do not matter. Where it ends in the tokens is settled by what stands
behind it, because no expression and no list of variables has two ends (`Spans.unique`,
`Introduces.unique`).
-/
namespace Scriptlet

open ParseState Parse

/-! ## Where expressions and lists of variables end -/

section
variable {before : Pos} {seg seg' rest rest' : List Token} {u u' : Token} {e e' : Node}

/-- An expression has one end, since it is read in one way. -/
theorem Spans.unique (h : Spans before seg (.expression .disjunction e))
    (h' : Spans before seg' (.expression .disjunction e'))
    (heq : seg ++ u :: rest = seg' ++ u' :: rest') (hu : ¬ u.kind.extendsLevel .disjunction)
    (hu' : ¬ u'.kind.extendsLevel .disjunction) (hexposes : e'.exposesCall = false) :
    seg = seg' ∧ e = e' ∧ u = u' ∧ rest = rest' := by
  -- the tokens are read behind a token at the place `before`
  let first : Token := ⟨.newline, .text "", before⟩
  let budget := 12 * (seg.length + seg'.length) + 9
  have hread : Becomes e.exposesCall
      (expression budget .disjunction (between ([] ++ [first]) (seg ++ u :: rest) {} [])) _ :=
    h.expression_becomes hu (placeBefore_concat _ _ _) (by omega)
  have hread' : expression budget .disjunction
      (between ([] ++ [first]) (seg' ++ u' :: rest') {} []) = _ :=
    (h'.expression_becomes hu' (placeBefore_concat _ _ _) (by omega)).eq hexposes
  rw [heq] at hread
  cases hc : e.exposesCall with
  | true =>
    obtain ⟨s, herror⟩ := hread.exists_error hc
    rw [hread'] at herror
    cases herror
  | false =>
    have hsame := hread'.symm.trans (hread.eq hc)
    obtain ⟨rfl, hstate⟩ := EStateM.Result.ok.inj hsame
    have hlength : seg'.length = seg.length := by
      have hindex := congrArg (fun s => s.cursor.index) hstate
      simpa [between] using hindex
    obtain ⟨rfl, htail⟩ := List.append_inj heq hlength.symm
    obtain ⟨rfl, rfl⟩ := List.cons.inj htail
    exact ⟨rfl, rfl, rfl, rfl⟩

/-- **One variable of a declaration**, with its value or without one, and the node that it makes. -/
inductive Declarator (type : String) (isMutable : Bool) (before : Pos) :
    List Token → (isBare : Bool) → Node → Prop
  | initialised {x a : Token} {seg : List Token} {e : Node} (hx : x.kind = .identifier)
      (ha : a.kind = .assign) (value : Spans a.pos seg (.expression .disjunction e)) :
      Declarator type isMutable before (x :: a :: seg) false (.declaration x.text type isMutable e)
  | bare {x : Token} (hx : x.kind = .identifier) :
      Declarator type isMutable before [x] true (.declaration x.text type isMutable (.empty before))

section
variable {type : String} {isMutable isBare isBare' : Bool} {d d' : List Token} {n n' : Node}
  {ds ds' : List Node}

namespace Declarator

theorem introduces (h : Declarator type isMutable before d isBare n) :
    Introduces type isMutable before d isBare [n] := by
  cases h with
  | initialised hx ha value => exact .initialised hx ha value
  | bare hx => exact .bare hx

theorem introducesMore {c : Token} (h : Declarator type isMutable before d isBare n)
    (hc : c.kind = .comma) (more : Introduces type isMutable c.pos seg isBare' ds) :
    Introduces type isMutable before (d ++ c :: seg) isBare' (n :: ds) := by
  cases h with
  | initialised hx ha value => exact .initialisedMore hx ha value hc more
  | bare hx => exact .bareMore hx hc more

/-- A variable of a declaration has one end: no `=` stands behind it. -/
theorem unique (h : Declarator type isMutable before d isBare n)
    (h' : Declarator type isMutable before d' isBare' n')
    (heq : d ++ u :: rest = d' ++ u' :: rest')
    (hu : u.kind = .comma ∨ u.kind.followsStatement = true)
    (hu' : u'.kind = .comma ∨ u'.kind.followsStatement = true) (hexposes : n'.exposesCall = false) :
    d = d' ∧ isBare = isBare' ∧ n = n' ∧ u = u' ∧ rest = rest' := by
  have hends : ∀ {v : Token}, v.kind = .comma ∨ v.kind.followsStatement = true →
      v.kind ≠ .assign ∧ ¬ v.kind.extendsLevel .disjunction := by
    rintro v (hv | hv)
    · exact ⟨by simp [hv], hv ▸ TokenKind.not_extendsLevel_comma _⟩
    · refine ⟨fun ha => ?_, TokenKind.not_extendsLevel_of_follows _ hv⟩
      rw [ha] at hv
      cases hv
  cases h with
  | initialised hx ha value =>
    cases h' with
    | initialised hx' ha' value' =>
      simp only [List.cons_append, List.cons.injEq] at heq
      obtain ⟨rfl, rfl, heq⟩ := heq
      simp only [Node.exposesCall, Bool.or_eq_false_iff] at hexposes
      obtain ⟨rfl, rfl, rfl, rfl⟩ :=
        value.unique value' heq (hends hu).2 (hends hu').2 hexposes.2
      exact ⟨rfl, rfl, rfl, rfl, rfl⟩
    | bare hx' =>
      simp only [List.cons_append, List.nil_append, List.cons.injEq] at heq
      exact absurd (heq.2.1 ▸ ha) (hends hu').1
  | bare hx =>
    cases h' with
    | initialised hx' ha' value' =>
      simp only [List.cons_append, List.nil_append, List.cons.injEq] at heq
      exact absurd (heq.2.1 ▸ ha') (hends hu).1
    | bare hx' =>
      simp only [List.cons_append, List.nil_append, List.cons.injEq] at heq
      obtain ⟨rfl, rfl, rfl⟩ := heq
      exact ⟨rfl, rfl, rfl, rfl, rfl⟩

end Declarator

namespace Introduces

/-- Induction on a list of variables, from one variable to the next. -/
@[elab_as_elim] theorem byFirst
    {motive : ∀ before seg isBare ds, Introduces type isMutable before seg isBare ds → Prop}
    (last : ∀ {before d isBare n} (hd : Declarator type isMutable before d isBare n),
      motive before d isBare [n] hd.introduces)
    (more : ∀ {before d isBare n c seg isBare' ds}
      (hd : Declarator type isMutable before d isBare n) (hc : c.kind = .comma)
      (rest : Introduces type isMutable c.pos seg isBare' ds), motive c.pos seg isBare' ds rest →
      motive before (d ++ c :: seg) isBare' (n :: ds) (hd.introducesMore hc rest))
    (h : Introduces type isMutable before seg isBare ds) : motive before seg isBare ds h := by
  induction h with
  | initialised hk ha value => exact last (.initialised hk ha value)
  | bare hk => exact last (.bare hk)
  | initialisedMore hk ha value hc rest ih => exact more (.initialised hk ha value) hc rest ih
  | bareMore hk hc rest ih => exact more (.bare hk) hc rest ih

/-- A list of variables has one end: a comma does not follow a statement. -/
theorem unique (h : Introduces type isMutable before seg isBare ds)
    (h' : Introduces type isMutable before seg' isBare' ds')
    (heq : seg ++ u :: rest = seg' ++ u' :: rest') (hu : u.kind.followsStatement = true)
    (hu' : u'.kind.followsStatement = true) (hexposes : Node.exposesCallAny ds' = false) :
    seg = seg' ∧ isBare = isBare' ∧ ds = ds' ∧ u = u' ∧ rest = rest' := by
  have hcomma : ∀ {c v : Token} {p : Prop}, c = v → c.kind = .comma →
      v.kind.followsStatement = true → p := by
    rintro c _ p rfl hc hv
    rw [hc] at hv
    cases hv
  induction h using byFirst generalizing seg' isBare' ds' with
  | last hd =>
    cases h' using byFirst with
    | last hd' =>
      simp only [Node.exposesCallAny, Bool.or_false] at hexposes
      obtain ⟨rfl, rfl, rfl, rfl, rfl⟩ := hd.unique hd' heq (.inr hu) (.inr hu') hexposes
      exact ⟨rfl, rfl, rfl, rfl, rfl⟩
    | more hd' hc' more' =>
      simp only [Node.exposesCallAny, Bool.or_eq_false_iff] at hexposes
      rw [List.append_assoc, List.cons_append] at heq
      obtain ⟨-, -, -, hend, -⟩ := hd.unique hd' heq (.inr hu) (.inl hc') hexposes.1
      exact hcomma hend.symm hc' hu
  | more hd hc more ih =>
    rw [List.append_assoc, List.cons_append] at heq
    cases h' using byFirst with
    | last hd' =>
      simp only [Node.exposesCallAny, Bool.or_false] at hexposes
      obtain ⟨-, -, -, hend, -⟩ := hd.unique hd' heq (.inl hc) (.inr hu') hexposes
      exact hcomma hend hc hu'
    | more hd' hc' more' =>
      simp only [Node.exposesCallAny, Bool.or_eq_false_iff] at hexposes
      rw [List.append_assoc, List.cons_append] at heq
      obtain ⟨rfl, -, rfl, rfl, htail⟩ := hd.unique hd' heq (.inl hc) (.inl hc') hexposes.1
      obtain ⟨rfl, rfl, rfl, rfl, rfl⟩ := ih more' htail hexposes.2
      exact ⟨rfl, rfl, rfl, rfl, rfl⟩

end Introduces

end

end

/-! ## Expressions in other places -/

/-- A phrase is spanned behind a token at the given place too, except for places in it. -/
def Phrase.SpannedBehind (before : Pos) (seg : List Token) : Phrase → Prop
  | .expression l e => ∃ e', Spans before seg (.expression l e') ∧ e'.unplaced = e.unplaced
  | .arguments es =>
    ∃ es', Spans before seg (.arguments es') ∧ Node.unplacedAll es' = Node.unplacedAll es

theorem Level.unplaced_joined (l : Level) (operator : String) (a b : Node) :
    (l.joined operator a b).unplaced = l.joined operator a.unplaced b.unplaced := by
  cases l <;> simp only [Level.joined, Node.unplaced]

/-- **A phrase does not depend on what stands before it**, except for the place of a first `none`. -/
theorem Spans.spannedBehind {before : Pos} {seg : List Token} {p : Phrase} (h : Spans before seg p)
    (before' : Pos) : p.SpannedBehind before' seg := by
  induction h with
  | number hk => exact ⟨_, .number hk, rfl⟩
  | text hk => exact ⟨_, .text hk, rfl⟩
  | truth hk => exact ⟨_, .truth hk, rfl⟩
  | falsehood hk => exact ⟨_, .falsehood hk, rfl⟩
  | nothing hk => exact ⟨_, .nothing hk, rfl⟩
  | name hk => exact ⟨_, .name hk, rfl⟩
  | call hk hl hr args => exact ⟨_, .call hk hl hr args, rfl⟩
  | group hl hr inner => exact ⟨_, .group hl hr inner, rfl⟩
  | sign hk operand => exact ⟨_, .sign hk operand, rfl⟩
  | negation hk operand => exact ⟨_, .negation hk operand, rfl⟩
  | join op left hk right ihl =>
    obtain ⟨a', ha', hsame⟩ := ihl
    exact ⟨_, .join op ha' hk right, by rw [Level.unplaced_joined, Level.unplaced_joined, hsame]⟩
  | lift hl h ih =>
    obtain ⟨e', he', hsame⟩ := ih
    exact ⟨e', .lift hl he', hsame⟩
  | last h ih =>
    obtain ⟨e', he', hsame⟩ := ih
    exact ⟨[e'], .last he', by simp only [Node.unplacedAll, hsame]⟩
  | more first hc rest ihf =>
    obtain ⟨e', he', hsame⟩ := ihf
    exact ⟨_, .more he' hc rest, by simp only [Node.unplacedAll, hsame]⟩

/-! ## Spelling out a form -/

/-- The compound assignments and the operators that they are made of. -/
def compoundOperators : List (TokenKind × Operator) :=
  [(.plusAssign, .add), (.minusAssign, .sub), (.starAssign, .mul), (.slashAssign, .div),
   (.percentAssign, .mod), (.doubleStarAssign, .pow)]

/-- One variable of a declaration, with its value or without one, whatever the type is. -/
def IsDeclarator (d : List Token) : Prop :=
  ∃ type isMutable before isBare n, Declarator type isMutable before d isBare n

/-- **The declarations of single variables** that stand for a list of variables behind `k` and the
type `t`: each of them has its own `var` or `let`, its own type and a semicolon. -/
inductive DeclaredSeparately (k t : Token) : List Token → List Token → Prop
  | last {d : List Token} {k' t' s : Token} (hd : IsDeclarator d) (hk : k'.kind = k.kind)
      (ht : t'.kind = t.kind) (htext : t'.text = t.text) (hs : s.kind = .semicolon) :
      DeclaredSeparately k t d (k' :: t' :: (d ++ [s]))
  | more {d seg out : List Token} {c k' t' s : Token} (hd : IsDeclarator d)
      (hc : c.kind = .comma) (hk : k'.kind = k.kind) (ht : t'.kind = t.kind)
      (htext : t'.text = t.text) (hs : s.kind = .semicolon) (rest : DeclaredSeparately k t seg out) :
      DeclaredSeparately k t (d ++ c :: seg) (k' :: t' :: (d ++ s :: out))

/-- **A form is spelled out** in a list of tokens, between `l` and `r`. A statement ends before a
token `v` that can follow one. -/
inductive SpellsOut : List Token → List Token → Prop
  /-- `x op= e` becomes `x = x op (e)`. -/
  | update {l r seg : List Token} {x a v x' i o p q : Token} {op : Operator} {e : Node}
      (hx : x.kind = .identifier) (ha : compoundOperators.lookup a.kind = some op)
      (value : Spans a.pos seg (.expression .disjunction e))
      (hv : v.kind.followsStatement = true) (hi : i.kind = .assign) (hx' : x'.kind = .identifier)
      (hxtext : x'.text = x.text) (ho : o.kind = op.kind)
      (hotext : o.text = op.symbol) (hp : p.kind = .leftParen) (hq : q.kind = .rightParen) :
      SpellsOut (l ++ x :: a :: (seg ++ v :: r))
        (l ++ x :: i :: x' :: o :: p :: (seg ++ q :: v :: r))
  /-- `loop` becomes `while true`. -/
  | loop {l r : List Token} {t w b : Token} (ht : t.kind = .loopWord) (hw : w.kind = .whileWord)
      (hb : b.kind = .trueWord) : SpellsOut (l ++ t :: r) (l ++ w :: b :: r)
  /-- A declaration of several variables becomes several declarations. -/
  | declaration {l r seg out : List Token} {k t v : Token}
      (hk : k.kind = .varWord ∨ k.kind = .letWord)
      (ht : t.kind ∈ [TokenKind.intWord, .floatWord, .stringWord, .boolWord])
      (separate : DeclaredSeparately k t seg out) (hv : v.kind.followsStatement = true) :
      SpellsOut (l ++ k :: t :: (seg ++ v :: r)) (l ++ (out ++ v :: r))

/-! ## Compound assignments -/

/-- A compound assignment applies its operator. -/
theorem exists_arithmetic_of_lookup {k : TokenKind} {op : Operator}
    (h : compoundOperators.lookup k = some op) :
    k.marksStatement = true ∧
      ∃ op', compoundAssignments.lookup k = some op' ∧ ∀ a b, op.node a b = .arithmetic op' a b := by
  obtain ⟨l₁, l₂, hlist, -⟩ := List.lookup_eq_some_iff.mp h
  have hmem : (k, op) ∈ compoundOperators := by simp [hlist]
  simp only [compoundOperators, List.mem_cons, Prod.mk.injEq, List.not_mem_nil, or_false] at hmem
  rcases hmem with ⟨rfl, rfl⟩ | ⟨rfl, rfl⟩ | ⟨rfl, rfl⟩ | ⟨rfl, rfl⟩ | ⟨rfl, rfl⟩ | ⟨rfl, rfl⟩ <;>
    exact ⟨rfl, _, rfl, fun _ _ => rfl⟩

section
variable {scope : ScopeId} {σ σ' : Scopes} {seg : List Token} {x a : Token} {isBare : Bool}
  {ns : List Node}

/-- A statement with a name and the operator of a compound assignment in front is one. -/
theorem Composes.exists_value_of_update {op : Arithmetic} (hx : x.kind = .identifier)
    (ha : compoundAssignments.lookup a.kind = some op)
    (h : Composes scope σ (x :: a :: seg) σ' (.statement isBare ns)) :
    ∃ e, Spans a.pos seg (.expression .disjunction e) ∧ σ' = σ ∧ isBare = false ∧
      ns = [.assignment x.text (.arithmetic op (.identifier x.text a.pos) e)] := by
  generalize htokens : x :: a :: seg = tokens at h
  cases h with
  | update hk ha' value =>
    cases htokens
    obtain rfl := Option.some.inj (ha'.symm.trans ha)
    exact ⟨_, value, rfl, rfl, rfl⟩
  | call hk hl hr args =>
    cases htokens
    rw [hl] at ha
    cases ha
  | assignment hk ha' value =>
    cases htokens
    rw [ha'] at ha
    cases ha
  | declaration hk =>
    rw [← (List.cons.inj htokens).1, hx] at hk
    rcases hk with hk | hk <;> cases hk
  | conditional hk | conditionalElse hk | loop hk | endless hk | breakLoop hk | continueLoop hk =>
    rw [← (List.cons.inj htokens).1, hx] at hk
    cases hk

/-- What a compound assignment stands for. -/
theorem Clause.replacedBy_assignment {x' i o p q : Token} {op : Operator} {op' : Arithmetic}
    {e : Node} (hx : x.kind = .identifier) (hop : ∀ a b, op.node a b = .arithmetic op' a b)
    (value : Spans a.pos seg (.expression .disjunction e)) (hi : i.kind = .assign)
    (hx' : x'.kind = .identifier) (hxtext : x'.text = x.text) (ho : o.kind = op.kind)
    (hotext : o.text = op.symbol) (hp : p.kind = .leftParen) (hq : q.kind = .rightParen) :
    (Clause.statement false
      [.assignment x.text (.arithmetic op' (.identifier x.text a.pos) e)]).ReplacedBy scope σ
      (x :: i :: x' :: o :: p :: (seg ++ [q])) σ := by
  obtain ⟨e', hvalue, hsame⟩ := value.spannedBehind p.pos
  have hleft : Spans i.pos [x'] (.expression op.level.leftSide (.identifier x'.text x'.pos)) :=
    (Spans.name hx').weaken (Level.rank_le_nine _)
  have hright : Spans o.pos (p :: (seg ++ [q])) (.expression op.level.rightSide e') :=
    (Spans.group hp hq hvalue).weaken (Level.rank_le_nine _)
  have hjoin := (Spans.join op hleft ho hright).weaken (m := .disjunction) (Nat.zero_le _)
  rw [hotext, Operator.joined_symbol, hop, hxtext] at hjoin
  refine replacedBy_statement (.assignment hx hi hjoin) id ?_
  simp only [Node.unplacedAll, Node.unplaced, hsame]

end

/-! ## Endless loops -/

/-- A statement that begins with `loop` is an endless loop. -/
theorem Composes.exists_block_of_endless {scope : ScopeId} {σ σ' : Scopes} {seg : List Token}
    {t : Token} {isBare : Bool} {ns : List Node} (ht : t.kind = .loopWord)
    (h : Composes scope σ (t :: seg) σ' (.statement isBare ns)) :
    ∃ b, Composes scope σ seg σ' (.block b) ∧ isBare = false ∧
      ns = [.loop (.literal .bool (.bool true) t.pos) b] := by
  generalize htokens : t :: seg = tokens at h
  cases h with
  | endless hk block =>
    cases htokens
    exact ⟨_, block, rfl, rfl⟩
  | declaration hk =>
    rw [← (List.cons.inj htokens).1, ht] at hk
    rcases hk with hk | hk <;> cases hk
  | call hk | assignment hk | update hk | conditional hk | conditionalElse hk | loop hk | breakLoop hk
    | continueLoop hk =>
    rw [← (List.cons.inj htokens).1, ht] at hk
    cases hk

/-! ## Declarations -/

/-- A statement that begins with `var` or `let` is a declaration. -/
theorem Composes.exists_introduces_of_declaration {scope : ScopeId} {σ σ' : Scopes}
    {seg : List Token} {k : Token} {isBare : Bool} {ns : List Node}
    (hk : k.kind = .varWord ∨ k.kind = .letWord)
    (h : Composes scope σ (k :: seg) σ' (.statement isBare ns)) :
    ∃ t seg', seg = t :: seg' ∧ σ' = σ ∧
      Introduces t.text (decide (k.kind ≠ .letWord)) t.pos seg' isBare ns := by
  generalize htokens : k :: seg = tokens at h
  cases h with
  | declaration hk' ht declared =>
    cases htokens
    exact ⟨_, _, rfl, rfl, declared⟩
  | call hk' | assignment hk' | update hk' | conditional hk' | conditionalElse hk' | loop hk'
    | endless hk' | breakLoop hk' | continueLoop hk' =>
    rw [(List.cons.inj htokens).1, hk'] at hk
    rcases hk with hk | hk <;> cases hk

/-- The node of a single variable depends on its place only in a place. -/
theorem IsDeclarator.exists_node {d : List Token} (hd : IsDeclarator d) (type : String)
    (isMutable : Bool) :
    ∃ (isBare : Bool) (node : Pos → Node),
      (∀ before, Declarator type isMutable before d isBare (node before)) ∧
      ∀ p p', (node p).unplaced = (node p').unplaced := by
  obtain ⟨_, _, _, _, _, hd⟩ := hd
  cases hd with
  | initialised hx ha value =>
    exact ⟨false, fun _ => _, fun _ => .initialised hx ha value, fun _ _ => rfl⟩
  | bare hx => exact ⟨true, fun _ => _, fun _ => .bare hx, fun _ _ => rfl⟩

/-- **Separate declarations stand for a declaration of several variables.** -/
theorem DeclaredSeparately.exists_introduces {k t : Token} {seg out : List Token}
    (h : DeclaredSeparately k t seg out) (hk : k.kind = .varWord ∨ k.kind = .letWord)
    (ht : t.kind ∈ [TokenKind.intWord, .floatWord, .stringWord, .boolWord]) (scope : ScopeId)
    (σ : Scopes) (before : Pos) :
    ∃ isBare ds, Introduces t.text (decide (k.kind ≠ .letWord)) before seg isBare ds ∧
      (Clause.statement isBare ds).ReplacedBy scope σ out σ := by
  -- one of the declarations, and what stands behind its semicolon
  have hdeclares : ∀ {d : List Token} {k' t' s : Token} {isBare : Bool} {node : Pos → Node},
      (∀ before, Declarator t.text (decide (k.kind ≠ .letWord)) before d isBare (node before)) →
      k'.kind = k.kind → t'.kind = t.kind → t'.text = t.text → s.kind = .semicolon →
      ∀ {rest σ' ss}, Composes scope σ rest σ' (.body ss) →
        Composes scope σ (k' :: t' :: (d ++ s :: rest)) σ' (.body (node t'.pos :: ss)) := by
    intro d k' t' s isBare node hd hk' ht' htext hs rest σ' ss hrest
    rw [← hk'] at hk hd
    rw [← ht'] at ht
    rw [← htext] at hd
    exact .cons (.declaration hk ht (hd t'.pos).introduces) (.semicolon hs hrest)
      fun _ => ⟨s, rest, rfl, hs⟩
  induction h generalizing before with
  | @last d k' t' s hd hk' ht' htext hs =>
    obtain ⟨isBare, node, hone, hsame⟩ := hd.exists_node t.text (decide (k.kind ≠ .letWord))
    refine ⟨isBare, _, (hone before).introduces, [node t'.pos], ?_, fun rest σ' ss hrest _ => ?_⟩
    · simp only [Node.unplacedAll, hsame t'.pos before]
    · simpa using hdeclares hone hk' ht' htext hs hrest
  | @more d seg out c k' t' s hd hc hk' ht' htext hs rest ih =>
    obtain ⟨isBare, node, hone, hsame⟩ := hd.exists_node t.text (decide (k.kind ≠ .letWord))
    obtain ⟨isBare', ds, hds, ns, hns, hreplace⟩ := ih c.pos
    refine ⟨isBare', _, (hone before).introducesMore hc hds, node t'.pos :: ns, ?_,
      fun rest σ' ss hrest hsep => ?_⟩
    · simp only [Node.unplacedAll, hsame t'.pos before, hns]
    · simpa using hdeclares hone hk' ht' htext hs (hreplace rest σ' ss hrest hsep)

/-! ## Programs -/

/-- Tokens that are read as the given statements are, except for places, up to the end `u`. -/
def ReadsLike (u : Token) (σ : Scopes) (ss : List Node) (tokens : List Token) : Prop :=
  ∃ body more ss', tokens = body ++ u :: more ∧ Composes Scopes.root {} body σ (.body ss') ∧
    Node.unplacedAll ss' = Node.unplacedAll ss

section
variable {body more l r : List Token} {u key : Token} {σ : Scopes} {ss : List Node}

/-- **A statement is replaced in a program**, if the token that gives it away stands before the end;
otherwise that end has been passed. -/
theorem exists_readsLike (h : Composes Scopes.root {} body σ (.body ss))
    (hexposes : Node.exposesCallAny ss = false) (hu : u.kind = .endOfFile)
    (hkey : key.kind.marksStatement = true) (heq : body ++ u :: more = l ++ key :: r) :
    (∃ (a : StatementAt key) (before : List Token) (v : Token) (behind : List Token),
      l = before ++ a.pre ∧ r = a.post ++ v :: behind ∧ v.kind.followsStatement = true ∧
      Node.exposesCallAny a.nodes = false ∧
      ∀ seg, (Clause.statement a.isBare a.nodes).ReplacedBy a.scope a.σ seg a.σ' →
        ReadsLike u σ ss (before ++ seg ++ v :: behind)) ∨
    ∃ l', l = body ++ u :: l' := by
  rcases exists_of_append_eq heq with ⟨r', hbody, rfl⟩ | ⟨l', rfl, htail⟩
  · obtain ⟨a, before, behind, rfl, rfl, hin⟩ := h.exists_statementAt hkey hbody
    obtain ⟨v, vs, hv⟩ : ∃ v vs, behind ++ u :: more = v :: vs :=
      List.exists_cons_of_ne_nil (by simp)
    refine .inl ⟨a, before, v, vs, rfl, by rw [List.append_assoc, hv], ?_, hin.exposes hexposes, ?_⟩
    · refine hin.follows u (fun _ => by rw [hu]; rfl) v ?_
      cases behind with
      | nil => rw [← (List.cons.inj hv).1]; rfl
      | cons w ws => rw [← (List.cons.inj hv).1]; rfl
    · intro seg hseg
      obtain ⟨ss', hsame, hcomposes⟩ := hin.replace seg hseg
      exact ⟨_, more, ss', by rw [← hv, List.append_assoc _ behind], hcomposes, hsame⟩
  · have hne : u ≠ key := by
      rintro rfl
      rw [hu] at hkey
      cases hkey
    obtain ⟨l', rfl, -⟩ := exists_of_cons_eq htail hne
    exact .inr ⟨l', rfl⟩

/-- Behind the end of a program, nothing is read. -/
theorem readsLike_of_append (h : Composes Scopes.root {} body σ (.body ss)) (more : List Token) :
    ReadsLike u σ ss (body ++ u :: more) :=
  ⟨body, more, ss, rfl, h, rfl⟩

/-- A compound assignment is spelled out. -/
theorem readsLike_update {seg tail : List Token} {x a v x' i o p q : Token} {op : Operator} {e : Node}
    (h : Composes Scopes.root {} body σ (.body ss)) (hexposes : Node.exposesCallAny ss = false)
    (hu : u.kind = .endOfFile) (heq : body ++ u :: more = l ++ x :: a :: (seg ++ v :: tail))
    (hx : x.kind = .identifier) (ha : compoundOperators.lookup a.kind = some op)
    (value : Spans a.pos seg (.expression .disjunction e)) (hv : v.kind.followsStatement = true)
    (hi : i.kind = .assign) (hx' : x'.kind = .identifier) (hxtext : x'.text = x.text)
    (ho : o.kind = op.kind) (hotext : o.text = op.symbol) (hp : p.kind = .leftParen)
    (hq : q.kind = .rightParen) :
    ReadsLike u σ ss (l ++ x :: i :: x' :: o :: p :: (seg ++ q :: v :: tail)) := by
  obtain ⟨hkey, op', hlookup, hop⟩ := exists_arithmetic_of_lookup ha
  rw [List.append_cons l x] at heq
  rcases exists_readsLike h hexposes hu hkey heq with
    ⟨b, before, v', behind, hl, hr, hv', hnodes, hreplace⟩ | ⟨l', hl⟩
  · obtain ⟨x₀, hpre, -⟩ := b.exists_name (beginsStatement_of_lookup hlookup)
    rw [hpre] at hl
    obtain ⟨rfl, rfl⟩ : l = before ∧ x = x₀ := by simpa using List.append_inj' hl (by simp)
    have hcomposes := b.composes
    rw [hpre, List.singleton_append] at hcomposes
    obtain ⟨e', hvalue, hσ, hbare, hns⟩ := hcomposes.exists_value_of_update hx hlookup
    have hexposes' : e'.exposesCall = false := by
      simpa [hns, Node.exposesCallAny, Node.exposesCall, Node.isCall] using hnodes
    obtain ⟨rfl, rfl, rfl, rfl⟩ := value.unique hvalue hr
      (TokenKind.not_extendsLevel_of_follows _ hv) (TokenKind.not_extendsLevel_of_follows _ hv')
      hexposes'
    have hnew := hreplace (x :: i :: x' :: o :: p :: (b.post ++ [q])) (by
      rw [hns, hσ, hbare]
      exact Clause.replacedBy_assignment hx hop value hi hx' hxtext ho hotext hp hq)
    simpa using hnew
  · -- the name stands behind the end too
    obtain ⟨l', rfl⟩ : ∃ l', l = body ++ u :: l' := by
      rcases exists_of_append_eq hl with ⟨r', rfl, -⟩ | ⟨l'', -, hone⟩
      · exact ⟨r', rfl⟩
      · have hmem : u ∈ [x] := by simp [hone]
        rw [List.mem_singleton.mp hmem, hx] at hu
        cases hu
    rw [List.append_assoc, List.cons_append]
    exact readsLike_of_append h _

/-- An endless loop is spelled out. -/
theorem readsLike_loop {t w b : Token} (h : Composes Scopes.root {} body σ (.body ss))
    (hexposes : Node.exposesCallAny ss = false) (hu : u.kind = .endOfFile)
    (heq : body ++ u :: more = l ++ t :: r) (ht : t.kind = .loopWord) (hw : w.kind = .whileWord)
    (hb : b.kind = .trueWord) : ReadsLike u σ ss (l ++ w :: b :: r) := by
  rcases exists_readsLike h hexposes hu (by rw [ht]; rfl) heq with
    ⟨a, before, v, behind, hl, hr, -, -, hreplace⟩ | ⟨l', rfl⟩
  · have hpre := a.pre_eq_nil (by rw [ht]; rfl)
    have hcomposes := a.composes
    rw [hpre, List.nil_append] at hcomposes
    obtain ⟨block, hblock, hbare, hns⟩ := hcomposes.exists_block_of_endless ht
    have hnew := hreplace (w :: ([b] ++ a.post)) (by
      rw [hns, hbare]
      have htruth : Spans w.pos [b] (.expression .disjunction (.literal .bool (.bool true) b.pos)) :=
        (Spans.truth hb).weaken (Nat.zero_le _)
      refine Clause.replacedBy_statement (.loop hw htruth hblock) id ?_
      simp only [Node.unplacedAll, Node.unplaced])
    rw [hl, hpre, hr]
    simpa using hnew
  · rw [List.append_assoc, List.cons_append]
    exact readsLike_of_append h _

/-- A declaration of several variables is spelled out. -/
theorem readsLike_declaration {seg out tail : List Token} {k t v : Token}
    (h : Composes Scopes.root {} body σ (.body ss)) (hexposes : Node.exposesCallAny ss = false)
    (hu : u.kind = .endOfFile) (heq : body ++ u :: more = l ++ k :: t :: (seg ++ v :: tail))
    (hk : k.kind = .varWord ∨ k.kind = .letWord)
    (ht : t.kind ∈ [TokenKind.intWord, .floatWord, .stringWord, .boolWord])
    (separate : DeclaredSeparately k t seg out) (hv : v.kind.followsStatement = true) :
    ReadsLike u σ ss (l ++ (out ++ v :: tail)) := by
  have hkey : k.kind.marksStatement = true ∧ k.kind.beginsStatement = true := by
    rcases hk with hk | hk <;> rw [hk] <;> exact ⟨rfl, rfl⟩
  rcases exists_readsLike h hexposes hu hkey.1 heq with
    ⟨a, before, v', behind, hl, hr, hv', hnodes, hreplace⟩ | ⟨l', rfl⟩
  · have hpre := a.pre_eq_nil hkey.2
    have hcomposes := a.composes
    rw [hpre, List.nil_append] at hcomposes
    obtain ⟨t', seg', hpost, hσ, hintroduces⟩ := hcomposes.exists_introduces_of_declaration hk
    rw [hpost, List.cons_append] at hr
    obtain ⟨rfl, hrest⟩ := List.cons.inj hr
    obtain ⟨isBare, ds, hds, hnew⟩ := separate.exists_introduces hk ht a.scope a.σ t.pos
    obtain ⟨rfl, hbare, hns, rfl, rfl⟩ := hds.unique hintroduces hrest hv hv' hnodes
    have hwhole := hreplace out (by rwa [hσ, ← hbare, ← hns])
    rw [hl, hpre]
    simpa using hwhole
  · rw [List.append_assoc, List.cons_append]
    exact readsLike_of_append h _

/-- **A form that is spelled out is read as before.** -/
theorem SpellsOut.readsLike {tokens : List Token} (hspell : SpellsOut (body ++ u :: more) tokens)
    (h : Composes Scopes.root {} body σ (.body ss)) (hexposes : Node.exposesCallAny ss = false)
    (hu : u.kind = .endOfFile) : ReadsLike u σ ss tokens := by
  generalize heq : body ++ u :: more = before at hspell
  cases hspell with
  | update hx ha value hv hi hx' hxtext ho hotext hp hq =>
    exact readsLike_update h hexposes hu heq hx ha value hv hi hx' hxtext ho hotext hp hq
  | loop ht hw hb => exact readsLike_loop h hexposes hu heq ht hw hb
  | declaration hk ht separate hv =>
    exact readsLike_declaration h hexposes hu heq hk ht separate hv

end

/-- **Forms that write other statements shorter can be spelled out.** If a program is read without a
report, then so is what any number of such replacements make of it, in any places: the nodes are the
same, except for their places, and so are the scopes. -/
theorem parseProgram_spelledOut {tokens tokens' : List Token} {n : Node} {s : ParseState}
    (h : parseProgram tokens = .ok n s) (hquiet : s.reports = [])
    (hspell : Relation.ReflTransGen SpellsOut tokens tokens') :
    ∃ n' s', parseProgram tokens' = .ok n' s' ∧ s'.reports = [] ∧ n'.unplaced = n.unplaced ∧
      s'.scopes = s.scopes := by
  induction hspell with
  | refl => exact ⟨n, s, h, hquiet, rfl, rfl⟩
  | tail _ hstep ih =>
    obtain ⟨n₁, s₁, h₁, hquiet₁, hsame₁, hscopes₁⟩ := ih
    obtain ⟨body, u, more, σ, ss, rfl, hu, rfl, rfl, hcomposes, hexposes⟩ :=
      exists_composes_of_parseProgram h₁ hquiet₁
    obtain ⟨body', more', ss', rfl, hcomposes', hsame⟩ := hstep.readsLike hcomposes hexposes hu
    have hexposes' : Node.exposesCallAny ss' = false := by
      rw [← Node.exposesCallAny_unplaced, hsame, Node.exposesCallAny_unplaced, hexposes]
    refine ⟨_, _, hcomposes'.parseProgram_eq hexposes' hu more', rfl, ?_, hscopes₁⟩
    rw [← hsame₁, Node.unplaced, Node.unplaced, hsame]

/-- A token in the first line. -/
def Token.inFirstLine (kind : TokenKind) (column : Nat) (text : String) : Token :=
  ⟨kind, .text text, ⟨1, column⟩⟩

open Token (inFirstLine)

/-- The tokens of `a, b`. -/
def twoNames : List Token :=
  [inFirstLine .identifier 14 "a", inFirstLine .comma 15 ",", inFirstLine .identifier 17 "b"]

/-- The tokens of `let int a; let int b;`, the new ones at the end of the line. -/
def twoDeclarations : List Token :=
  [inFirstLine .letWord 30 "let", inFirstLine .intWord 30 "int", inFirstLine .identifier 14 "a",
    inFirstLine .semicolon 30 ";", inFirstLine .letWord 30 "let", inFirstLine .intWord 30 "int",
    inFirstLine .identifier 17 "b", inFirstLine .semicolon 30 ";"]

/-- The tokens of `1 + 2`. -/
def sumTokens : List Token :=
  [⟨.number, .int 1, ⟨1, 23⟩⟩, inFirstLine .plus 25 "+", ⟨.number, .int 2, ⟨1, 27⟩⟩]

/-- The tokens of `loop {let int a, b; x *= 1 + 2}`. -/
def shortForms : List Token :=
  inFirstLine .loopWord 0 "loop" :: inFirstLine .leftBrace 5 "\x7b" ::
    inFirstLine .letWord 6 "let" :: inFirstLine .intWord 10 "int" :: (twoNames ++
    inFirstLine .semicolon 18 ";" :: inFirstLine .identifier 20 "x" ::
    inFirstLine .starAssign 21 "*=" :: (sumTokens ++
    [inFirstLine .rightBrace 28 "\x7d", .endOfFile]))

/-- The tokens of `while true {let int a; let int b;; x = x * (1 + 2)}`, the new ones at the end of
the line. -/
def longForms : List Token :=
  [inFirstLine .whileWord 30 "while", inFirstLine .trueWord 30 "true",
    inFirstLine .leftBrace 5 "\x7b"] ++ twoDeclarations ++
    inFirstLine .semicolon 18 ";" :: inFirstLine .identifier 20 "x" ::
    inFirstLine .assign 30 "=" :: inFirstLine .identifier 30 "x" :: inFirstLine .star 30 "*" ::
    inFirstLine .leftParen 30 "(" :: (sumTokens ++
    [inFirstLine .rightParen 30 ")", inFirstLine .rightBrace 28 "\x7d", .endOfFile])

/-- Each of the three forms is spelled out once. -/
theorem spellsOut_shortForms : Relation.ReflTransGen SpellsOut shortForms longForms := by
  have hone : Spans ⟨1, 21⟩ [⟨.number, .int 1, ⟨1, 23⟩⟩] (.expression .sum _) :=
    (Spans.number rfl).weaken (by decide)
  have htwo : Spans ⟨1, 25⟩ [⟨.number, .int 2, ⟨1, 27⟩⟩] (.expression .product _) :=
    (Spans.number rfl).weaken (by decide)
  have hsum : Spans ⟨1, 21⟩ sumTokens (.expression .sum _) := Spans.join .add hone rfl htwo
  have hvalue := hsum.weaken (m := .disjunction) (Nat.zero_le _)
  have hname (x : Token) (hx : x.kind = .identifier) : IsDeclarator [x] :=
    ⟨"int", false, ⟨1, 10⟩, true, _, .bare hx⟩
  have hseparate : DeclaredSeparately (inFirstLine .letWord 6 "let") (inFirstLine .intWord 10 "int")
      twoNames twoDeclarations :=
    .more (d := [_]) (hname _ rfl) rfl rfl rfl rfl rfl
      (.last (d := [_]) (hname _ rfl) rfl rfl rfl rfl)
  let opening := [inFirstLine .whileWord 30 "while", inFirstLine .trueWord 30 "true"]
  have hloop : SpellsOut shortForms (opening ++ shortForms.drop 1) :=
    .loop (l := []) rfl rfl rfl
  have hdeclaration : SpellsOut (opening ++ shortForms.drop 1)
      (opening ++ inFirstLine .leftBrace 5 "\x7b" :: (twoDeclarations ++ shortForms.drop 7)) :=
    .declaration (l := opening ++ [_]) (.inr rfl) (by decide) hseparate rfl
  have hupdate : SpellsOut
      (opening ++ inFirstLine .leftBrace 5 "\x7b" :: (twoDeclarations ++ shortForms.drop 7))
      longForms :=
    .update (l := opening ++ [_] ++ twoDeclarations ++ [_]) rfl rfl hvalue rfl rfl rfl (by rfl) rfl
      rfl rfl rfl
  exact ((Relation.ReflTransGen.single hloop).tail hdeclaration).tail hupdate

/-- The tree of the program with the short forms and that of the other one differ in places only. -/
theorem shortForms_spelledOut :
    ∃ n s n' s', parseProgram shortForms = .ok n s ∧ s.reports = [] ∧
      Relation.ReflTransGen SpellsOut shortForms longForms ∧
      parseProgram longForms = .ok n' s' ∧ s'.reports = [] ∧ n'.unplaced = n.unplaced := by
  obtain ⟨n, s, hread, hquiet⟩ : ∃ n s, parseProgram shortForms = .ok n s ∧ s.reports = [] :=
    ⟨_, _, by with_unfolding_all rfl, by with_unfolding_all rfl⟩
  obtain ⟨n', s', hread', hquiet', hsame, -⟩ :=
    parseProgram_spelledOut hread hquiet spellsOut_shortForms
  exact ⟨n, s, n', s', hread, hquiet, spellsOut_shortForms, hread', hquiet', hsame⟩

end Scriptlet
