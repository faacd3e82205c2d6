import Scriptlet.Grammar
import Scriptlet.Proofs.Sequences

/-! # The shape of trees that are read without a mistake

A reader that makes a mistake reports it and gives an empty node, which then stands where any other
node could. So as long as nothing is reported, no such node is left: what is read in the place of an
operand is an expression, calls have arguments, conditional statements have branches, and blocks
stand where blocks belong (`Node.IsOperand`, `Node.Formed`). Every block has a scope that was opened
for it, inside the scope of the block around it. The scopes of the blocks, in the order of the text,
are those that have been opened (`Parse.Opened`), so no two blocks share one.

Expressions and simple statements open no scopes (`Parse.Gets`); statements with blocks do
(`Parse.Yields`).
-/
namespace Scriptlet

/-! ## Well-formed nodes -/

/-- Whether a node has a place. -/
def Node.isPlaced (n : Node) : Bool :=
  n.pos?.isSome

mutual

/-- An expression, with expressions in all places of operands and arguments. The parts that give a
node its place have one themselves. -/
def Node.IsOperand : Node → Prop
  | .empty _ | .identifier .. => True
  | .literal kind _ _ => kind ≠ .plain
  | .signed _ o | .negation o => o.isPlaced = true ∧ o.IsOperand
  | .logic _ l r | .comparison _ l r | .arithmetic _ l r =>
    l.isPlaced = true ∧ l.IsOperand ∧ r.IsOperand
  | .call _ es => es ≠ [] ∧ Node.AreOperands es
  | _ => False

/-- Expressions. -/
def Node.AreOperands : List Node → Prop
  | [] => True
  | e :: rest => e.IsOperand ∧ Node.AreOperands rest

end

mutual

/-- A statement, in the given scope, of which all parts are of the kinds that belong there. -/
def Node.Formed (σ : Scopes) (scope : ScopeId) : Node → Prop
  | .assignment _ v => v.IsOperand
  | .declaration _ _ _ v => v.isPlaced = true ∧ v.IsOperand
  | .call _ es => es ≠ [] ∧ Node.AreOperands es
  | .breakLoop | .continueLoop => True
  | .conditional bs o => bs ≠ [] ∧ Node.FormedBranches σ scope bs ∧ o.FormedLastPart σ scope
  | .loop c b => c.IsOperand ∧ b.FormedBlock σ scope
  | _ => False

/-- A block whose own scope is empty and lies in the given one. -/
def Node.FormedBlock (σ : Scopes) (scope : ScopeId) : Node → Prop
  | .block ss i => σ.frames[i]? = some { parent := some scope } ∧ Node.FormedAll σ i ss
  | _ => False

/-- What stands behind the branches of a conditional statement: a block, or nothing. -/
def Node.FormedLastPart (σ : Scopes) (scope : ScopeId) : Node → Prop
  | .otherwise b => b.FormedBlock σ scope
  | .empty _ => True
  | _ => False

/-- Statements in the given scope. -/
def Node.FormedAll (σ : Scopes) (scope : ScopeId) : List Node → Prop
  | [] => True
  | n :: rest => n.Formed σ scope ∧ Node.FormedAll σ scope rest

/-- Conditions with their blocks. -/
def Node.FormedBranches (σ : Scopes) (scope : ScopeId) : List (Node × Node) → Prop
  | [] => True
  | (c, b) :: rest => c.IsOperand ∧ b.FormedBlock σ scope ∧ Node.FormedBranches σ scope rest

end

/-- The scopes are there in the second, which may have more. -/
def Scopes.Within (σ σ' : Scopes) : Prop :=
  ∀ (i : ScopeId) (frame : Frame), σ.frames[i]? = some frame → σ'.frames[i]? = some frame

namespace Scopes

variable {σ σ' σ'' : Scopes}

theorem Within.refl (σ : Scopes) : σ.Within σ := fun _ _ h => h

theorem Within.trans (h : σ.Within σ') (h' : σ'.Within σ'') : σ.Within σ'' :=
  fun i frame hi => h' i frame (h i frame hi)

theorem Within.lt_size (h : σ.Within σ') {i : ScopeId} (hi : i < σ.frames.size) :
    i < σ'.frames.size := by
  obtain ⟨hi', -⟩ := Array.getElem?_eq_some_iff.mp (h i _ (Array.getElem?_eq_getElem hi))
  exact hi'

theorem within_openIn (σ : Scopes) (parent : ScopeId) : σ.Within (σ.openIn parent).1 := by
  intro i frame hi
  obtain ⟨hlt, -⟩ := Array.getElem?_eq_some_iff.mp hi
  show (σ.frames.push _)[i]? = some frame
  rw [Array.getElem?_push_lt hlt, ← Array.getElem?_eq_getElem hlt]
  exact hi

end Scopes

namespace Node

variable {σ σ' : Scopes} {scope : ScopeId}

mutual

theorem Formed.mono (h : σ.Within σ') {scope : ScopeId} :
    ∀ {n : Node}, n.Formed σ scope → n.Formed σ' scope
  | .assignment .., hn | .declaration .., hn | .call .., hn => hn
  | .breakLoop, _ | .continueLoop, _ => trivial
  | .conditional .., ⟨hne, hbs, ho⟩ => ⟨hne, FormedBranches.mono h hbs, FormedLastPart.mono h ho⟩
  | .loop .., ⟨hc, hb⟩ => ⟨hc, FormedBlock.mono h hb⟩

theorem FormedBlock.mono (h : σ.Within σ') {scope : ScopeId} :
    ∀ {n : Node}, n.FormedBlock σ scope → n.FormedBlock σ' scope
  | .block .., ⟨hi, hss⟩ => ⟨h _ _ hi, FormedAll.mono h hss⟩

theorem FormedLastPart.mono (h : σ.Within σ') {scope : ScopeId} :
    ∀ {n : Node}, n.FormedLastPart σ scope → n.FormedLastPart σ' scope
  | .otherwise _, hb => FormedBlock.mono h hb
  | .empty _, _ => trivial

theorem FormedAll.mono (h : σ.Within σ') {scope : ScopeId} :
    ∀ {ss : List Node}, FormedAll σ scope ss → FormedAll σ' scope ss
  | [], _ => trivial
  | _ :: _, ⟨hn, hss⟩ => ⟨Formed.mono h hn, FormedAll.mono h hss⟩

theorem FormedBranches.mono (h : σ.Within σ') {scope : ScopeId} :
    ∀ {bs : List (Node × Node)}, FormedBranches σ scope bs → FormedBranches σ' scope bs
  | [], _ => trivial
  | (_, _) :: _, ⟨hc, hb, hbs⟩ => ⟨hc, FormedBlock.mono h hb, FormedBranches.mono h hbs⟩

end

theorem FormedAll.append {ss ts : List Node} (hss : FormedAll σ scope ss)
    (hts : FormedAll σ scope ts) : FormedAll σ scope (ss ++ ts) := by
  induction ss with
  | nil => exact hts
  | cons n ss ih => exact ⟨hss.1, ih hss.2⟩

theorem scopeIdsAll_append (ss ts : List Node) :
    scopeIdsAll (ss ++ ts) = scopeIdsAll ss ++ scopeIdsAll ts := by
  induction ss with
  | nil => rfl
  | cons n ss ih => rw [List.cons_append, scopeIdsAll, scopeIdsAll, ih, List.append_assoc]

end Node

/-! ## Fresh scopes -/

/-- No scope binds a name, and all but the outermost lie inside an earlier one. -/
structure Scopes.IsFresh (σ : Scopes) : Prop where
  root : σ.frames[Scopes.root]? = some {}
  inner : ∀ i frame, i ≠ Scopes.root → σ.frames[i]? = some frame →
    ∃ p < i, frame = { parent := some p }

namespace Scopes

theorem isFresh_empty : ({} : Scopes).IsFresh where
  root := rfl
  inner i frame hi hframe := by
    cases i with
    | zero => exact absurd rfl hi
    | succ i => cases hframe

theorem IsFresh.size_pos {σ : Scopes} (h : σ.IsFresh) : 0 < σ.frames.size := by
  obtain ⟨hlt, -⟩ := Array.getElem?_eq_some_iff.mp h.root
  exact hlt

theorem IsFresh.bindings_eq_nil {σ : Scopes} (h : σ.IsFresh) (i : ScopeId) : σ.bindings i = [] := by
  rw [Scopes.bindings]
  by_cases hi : i = Scopes.root
  · rw [hi, h.root]
  · cases hframe : σ.frames[i]? with
    | none => rfl
    | some frame =>
      obtain ⟨p, -, rfl⟩ := h.inner i frame hi hframe
      rfl

theorem IsFresh.binds_eq_false {σ : Scopes} (h : σ.IsFresh) (i : ScopeId) (x : String) :
    σ.binds i x = false := by
  have howner : σ.owner? i x = none := by
    refine List.find?_eq_none.mpr fun j _ => ?_
    rw [h.bindings_eq_nil j]
    exact Bool.false_ne_true
  rw [Scopes.binds, howner]
  rfl

theorem IsFresh.openIn {σ : Scopes} (h : σ.IsFresh) {parent : ScopeId}
    (hp : parent < σ.frames.size) : (σ.openIn parent).1.IsFresh where
  root := within_openIn σ parent _ _ h.root
  inner i frame hi hframe := by
    change (σ.frames.push { parent := some parent })[i]? = some frame at hframe
    rw [Array.getElem?_push] at hframe
    split at hframe
    · rename_i heq
      cases hframe
      exact ⟨parent, heq ▸ hp, rfl⟩
    · exact h.inner i frame hi hframe

end Scopes

namespace Parse

variable {α β : Type}

/-! ## Readers that open no scopes -/

/-- The reader changes neither the scopes nor the reports. -/
def Still (x : Parse α) : Prop :=
  ∀ ⦃s : ParseState⦄ ⦃a : α⦄ ⦃s' : ParseState⦄, x s = .ok a s' →
    s'.scopes = s.scopes ∧ s'.reports = s.reports

theorem Still.bind {x : Parse α} {f : α → Parse β} (hx : Still x) (hf : ∀ a, Still (f a)) :
    Still (x >>= f) := by
  intro s b s' h
  obtain ⟨a, t, ha, hb⟩ := EStateM.bind_eq_ok.mp h
  obtain ⟨hscopes, hreports⟩ := hx ha
  obtain ⟨hscopes', hreports'⟩ := hf a hb
  exact ⟨hscopes'.trans hscopes, hreports'.trans hreports⟩

theorem still_pure (a : α) : Still (pure a : Parse α) := by
  intro s b s' h
  cases h
  exact ⟨rfl, rfl⟩

theorem still_ite {c : Prop} [Decidable c] {x y : Parse α} (hx : Still x) (hy : Still y) :
    Still (if c then x else y) := by
  split
  · exact hx
  · exact hy

theorem still_look (f : Cursor → Except Fault α) : Still (look f) := by
  intro s a s' h
  obtain ⟨t, s₁, ht, h⟩ := EStateM.bind_eq_ok.mp h
  cases ht
  cases hf : f s.cursor with
  | ok b =>
    rw [hf] at h
    cases h
    exact ⟨rfl, rfl⟩
  | error fault =>
    rw [hf] at h
    cases h

theorem still_advance : Still advance := by
  refine (still_look _).bind fun b => still_ite (still_pure _) ?_
  intro s a s' h
  cases h
  exact ⟨rfl, rfl⟩

theorem still_check (kind : TokenKind) : Still (check kind) :=
  (still_look _).bind fun _ => still_ite (still_pure _) ((still_look _).bind fun _ => still_pure _)

theorem still_accept : ∀ kinds : List TokenKind, Still (accept kinds)
  | [] => still_pure _
  | kind :: kinds => (still_check kind).bind fun _ =>
    still_ite (still_advance.bind fun _ => still_pure _) (still_accept kinds)

theorem still_synchronize : Still synchronize := by
  intro s a s' h
  obtain ⟨t, s₁, ht, h⟩ := EStateM.bind_eq_ok.mp h
  cases ht
  cases hfind : (s.cursor.tokens.toList.drop s.cursor.index).findIdx?
      fun t => t.kind = .endOfFile || resumesAt t.kind with
  | some i =>
    rw [hfind] at h
    cases h
    exact ⟨rfl, rfl⟩
  | none =>
    rw [hfind] at h
    cases h

/-- The reader opens no scope and only adds reports, and if there is no report in the end then `Q`
holds of its result. -/
def Gets (x : Parse α) (Q : α → Prop) : Prop :=
  ∀ ⦃s : ParseState⦄ ⦃a : α⦄ ⦃s' : ParseState⦄, x s = .ok a s' →
    s'.scopes = s.scopes ∧ s.reports <+: s'.reports ∧ (s'.reports = [] → Q a)

section rules

variable {x y : Parse α} {f : α → Parse β} {P Q : α → Prop} {R : β → Prop}

theorem gets_pure {a : α} (h : Q a) : Gets (pure a : Parse α) Q := by
  intro s b s' hx
  obtain ⟨rfl, rfl⟩ := EStateM.pure_eq_ok.mp hx
  exact ⟨rfl, List.prefix_rfl, fun _ => h⟩

theorem gets_throw (fault : Fault) : Gets (throw fault : Parse α) Q := by
  intro s a s' hx
  cases hx

theorem gets_ofExcept {e : Except Fault α} (h : ∀ a, e = .ok a → Q a) : Gets (ofExcept e) Q := by
  cases e with
  | ok a => exact gets_pure (h a rfl)
  | error fault => exact gets_throw fault

theorem Gets.mono (h : Gets x P) (hPQ : ∀ a, P a → Q a) : Gets x Q := by
  intro s a s' hx
  obtain ⟨hscopes, hreports, hP⟩ := h hx
  exact ⟨hscopes, hreports, fun hquiet => hPQ a (hP hquiet)⟩

/-- One reader after the other: without a report in the end there was none in between. -/
theorem Gets.bind (hx : Gets x P) (hf : ∀ a, Gets (f a) (fun b => P a → R b)) :
    Gets (x >>= f) R := by
  intro s b s' h
  obtain ⟨a, t, ha, hb⟩ := EStateM.bind_eq_ok.mp h
  obtain ⟨hscopes, hreports, hPa⟩ := hx ha
  obtain ⟨hscopes', hreports', hRb⟩ := hf a hb
  refine ⟨hscopes'.trans hscopes, hreports.trans hreports', fun hquiet => hRb hquiet (hPa ?_)⟩
  exact List.prefix_nil.mp (hquiet ▸ hreports')

theorem Still.gets (h : Still x) : Gets x (fun _ => True) := by
  intro s a s' hx
  obtain ⟨hscopes, hreports⟩ := h hx
  exact ⟨hscopes, hreports ▸ List.prefix_rfl, fun _ => trivial⟩

/-- A first step of which nothing needs to be known. -/
theorem Still.thenGets (hx : Still x) (hf : ∀ a, Gets (f a) R) : Gets (x >>= f) R :=
  hx.gets.bind fun a => (hf a).mono fun _ h _ => h

theorem Gets.ite {c : Prop} [Decidable c] (hx : Gets x Q) (hy : Gets y Q) :
    Gets (if c then x else y) Q := by
  split
  · exact hx
  · exact hy

/-- A mistake leaves a report. -/
theorem gets_declareError (problem : GrammarProblem) :
    Gets (declareError problem) (fun _ => False) := by
  intro s a s' h
  obtain ⟨p, s₁, hp, h⟩ := EStateM.bind_eq_ok.mp h
  obtain ⟨_, s₂, hm, h⟩ := EStateM.bind_eq_ok.mp h
  cases hm
  obtain ⟨hscopes, hreports⟩ := still_look _ hp
  obtain ⟨hscopes', hreports'⟩ := still_synchronize h
  have hr : s'.reports = s.reports ++ [.grammar problem p] := by
    rw [hreports', ← hreports]
  refine ⟨hscopes'.trans hscopes, ?_, fun hquiet => ?_⟩
  · rw [hr]
    exact List.prefix_append _ _
  · rw [hr] at hquiet
    simp at hquiet

/-- Whatever is returned after a mistake, nothing is promised of it. -/
theorem gets_mistake (problem : GrammarProblem) (a : α) :
    Gets (do declareError problem; return a) Q :=
  (gets_declareError problem).bind fun _ => gets_pure fun hfalse => hfalse.elim

/-- That a token is missing is a mistake. -/
theorem gets_expect (kind : TokenKind) (problem : GrammarProblem) :
    Gets (expect kind problem) (fun b => b = true) :=
  (still_accept _).thenGets fun _ => .ite (gets_pure rfl) (gets_mistake problem false)

end rules

/-! ## Expressions -/

theorem isPlaced_of_map {n r : Node} {f : Pos → Node} (h : n.pos.map f = .ok r) :
    n.isPlaced = true ∧ ∃ p, r = f p := by
  rw [Node.pos] at h
  rw [Node.isPlaced]
  cases hp : n.pos? with
  | some p =>
    rw [hp] at h
    cases h
    exact ⟨rfl, p, rfl⟩
  | none =>
    rw [hp] at h
    cases h

theorem isOperand_of_join {l : Level} {operator : String} {a b r : Node}
    (h : l.join operator a b = .ok r) (ha : a.IsOperand) (hb : b.IsOperand) : r.IsOperand := by
  cases l <;>
  · obtain ⟨hplaced, p, rfl⟩ := isPlaced_of_map h
    exact ⟨hplaced, ha, hb⟩

theorem isOperand_literal {kind : LiteralKind} (h : kind ≠ .plain) (v : Value) (p : Pos) :
    (Node.literal kind v p).IsOperand := by
  rw [Node.IsOperand]
  exact h

theorem isOperand_numberNode (t : Token) : (numberNode t).IsOperand := by
  obtain ⟨kind, content, pos⟩ := t
  cases content <;> exact isOperand_literal (by decide) _ _

/-- A call with at least one argument. -/
def IsProperCall (e : Node) : Prop :=
  ∃ callee args, e = .call callee args ∧ args ≠ [] ∧ Node.AreOperands args

/-- All readers of expressions get expressions. -/
structure GetOperands (n : Nat) : Prop where
  expression : ∀ l, Gets (expression n l) Node.IsOperand
  chain : ∀ l left, Gets (chain n l left) (fun e => left.IsOperand → e.IsOperand)
  primitive : Gets (primitive n) Node.IsOperand
  call : Gets (call n) IsProperCall
  arguments : Gets (arguments n) (fun args? => ∃ args, args? = some args ∧ args ≠ [] ∧
    Node.AreOperands args)

namespace GetOperands

variable {n : Nat}

theorem chain_succ (ih : GetOperands n) (l : Level) (left : Node) :
    Gets (Parse.chain (n + 1) l left) (fun e => left.IsOperand → e.IsOperand) := by
  refine (still_accept _).thenGets fun _ => .ite ?_ (gets_pure id)
  refine (still_look _).thenGets fun operator => (ih.expression l.rightSide).bind fun right => ?_
  have hjoin : Gets (ofExcept (l.join operator left right))
      (fun e => left.IsOperand → right.IsOperand → e.IsOperand) :=
    gets_ofExcept fun e he hleft hright => isOperand_of_join he hleft hright
  refine hjoin.bind fun node => ?_
  exact (ih.chain l node).mono fun _ h hnode hright hleft => h (hnode hleft hright)

theorem expression_succ (ih : GetOperands n) (l : Level) :
    Gets (Parse.expression (n + 1) l) Node.IsOperand := by
  cases l with
  | negation =>
    refine (still_accept _).thenGets fun _ => .ite ?_ (ih.expression _)
    refine (ih.expression _).bind fun operand => gets_ofExcept fun e he ho => ?_
    obtain ⟨hplaced, p, rfl⟩ := isPlaced_of_map he
    exact ⟨hplaced, ho⟩
  | sign =>
    refine (still_accept _).thenGets fun _ => .ite ?_ (ih.expression _)
    refine (still_look _).thenGets fun operator => ?_
    refine (ih.expression _).bind fun operand => gets_ofExcept fun e he ho => ?_
    obtain ⟨hplaced, p, rfl⟩ := isPlaced_of_map he
    exact ⟨hplaced, ho⟩
  | primitive => exact ih.primitive
  | disjunction | conjunction | equality | comparison | sum | product | power =>
    exact (ih.expression _).bind fun left => ih.chain _ left

theorem primitive_succ (ih : GetOperands n) : Gets (Parse.primitive (n + 1)) Node.IsOperand := by
  refine (still_look _).thenGets fun before => ?_
  refine (still_accept _).thenGets fun _ => .ite ?_ ?_
  · exact (still_look _).thenGets fun t => gets_pure (isOperand_numberNode t)
  refine (still_accept _).thenGets fun _ => .ite ?_ ?_
  · exact (still_look _).thenGets fun t => gets_pure (isOperand_literal (by decide) _ _)
  refine (still_accept _).thenGets fun _ => .ite ?_ ?_
  · exact (still_look _).thenGets fun _ => gets_pure (isOperand_literal (by decide) _ _)
  refine (still_accept _).thenGets fun _ => .ite ?_ ?_
  · exact (still_look _).thenGets fun _ => gets_pure (isOperand_literal (by decide) _ _)
  refine (still_accept _).thenGets fun _ => .ite (gets_pure trivial) ?_
  refine (still_accept _).thenGets fun _ => .ite ?_ ?_
  · refine (ih.expression _).bind fun node => (gets_expect _ _).bind fun found => ?_
    exact .ite (gets_pure fun _ h => h) (gets_pure fun _ _ => trivial)
  refine (still_accept _).thenGets fun _ => .ite ?_ (gets_mistake _ _)
  refine (still_accept _).thenGets fun _ => .ite ?_ ?_
  · refine ih.call.mono fun e he => ?_
    obtain ⟨callee, args, rfl, hargs⟩ := he
    exact hargs
  · exact (still_look _).thenGets fun _ => gets_pure trivial

theorem call_succ (ih : GetOperands n) : Gets (Parse.call (n + 1)) IsProperCall := by
  refine (still_look _).thenGets fun callee => ih.arguments.bind fun args? => ?_
  cases args? with
  | some args =>
    refine gets_pure fun hargs => ?_
    obtain ⟨_, hsome, hargs⟩ := hargs
    cases hsome
    exact ⟨callee, args, rfl, hargs⟩
  | none =>
    refine (still_look _).thenGets fun _ => gets_pure fun hargs => ?_
    obtain ⟨_, hnone, -⟩ := hargs
    cases hnone

theorem arguments_succ (ih : GetOperands n) :
    Gets (Parse.arguments (n + 1)) (fun args? => ∃ args, args? = some args ∧ args ≠ [] ∧
      Node.AreOperands args) := by
  refine (ih.expression _).bind fun arg => (still_accept _).thenGets fun _ => .ite ?_ ?_
  · refine ih.arguments.bind fun more => gets_pure fun hmore harg => ?_
    obtain ⟨args, rfl, -, hargs⟩ := hmore
    exact ⟨_, rfl, List.cons_ne_nil _ _, harg, hargs⟩
  · refine (still_accept _).thenGets fun _ => .ite (gets_pure fun harg => ?_) (gets_mistake _ _)
    exact ⟨_, rfl, List.cons_ne_nil _ _, harg, trivial⟩

theorem all : ∀ n, GetOperands n
  | 0 => ⟨fun _ => gets_throw _, fun _ _ => gets_throw _, gets_throw _, gets_throw _, gets_throw _⟩
  | n + 1 =>
    have ih := all n
    ⟨ih.expression_succ, ih.chain_succ, ih.primitive_succ, ih.call_succ, ih.arguments_succ⟩

end GetOperands

theorem gets_expression (n : Nat) (l : Level) : Gets (expression n l) Node.IsOperand :=
  (GetOperands.all n).expression l

/-! ## Simple statements -/

/-- Statements without blocks, which are well-formed in any scope. -/
def AreSimple (ss : List Node) : Prop :=
  (∀ σ scope, Node.FormedAll σ scope ss) ∧ Node.scopeIdsAll ss = []

theorem AreSimple.cons {n : Node} {ss : List Node} (hn : AreSimple [n]) (hss : AreSimple ss) :
    AreSimple (n :: ss) := by
  refine ⟨fun σ scope => ⟨(hn.1 σ scope).1, hss.1 σ scope⟩, ?_⟩
  -- this is what `hn` says of the list of one statement
  have hids : Node.scopeIds n ++ [] = [] := hn.2
  rw [Node.scopeIdsAll, hss.2, hids]

variable {n : Nat}

theorem gets_compoundValue (name : String) : ∀ ops : List (TokenKind × Arithmetic),
    Gets (compoundValue n name ops) (fun value => ∀ v, value = some v → v.IsOperand)
  | [] => gets_pure nofun
  | (_, op) :: ops => by
    refine (still_accept _).thenGets fun _ => .ite ?_ (gets_compoundValue name ops)
    refine (still_look _).thenGets fun p => (gets_expression n _).bind fun right => ?_
    have hmake : Gets (ofExcept (Node.mkArithmetic op (.identifier name p) right))
        (fun e => right.IsOperand → e.IsOperand) := by
      refine gets_ofExcept fun e he hright => ?_
      obtain ⟨hplaced, q, rfl⟩ := isPlaced_of_map he
      exact ⟨hplaced, trivial, hright⟩
    refine hmake.bind fun node => gets_pure fun hnode hright v hv => ?_
    cases hv
    exact hnode hright

theorem gets_mkAssignment (name : String) (v : Node) :
    Gets (ofExcept (Node.mkAssignment name v)) (fun e => v.IsOperand → AreSimple [e]) := by
  refine gets_ofExcept fun e he hv => ?_
  obtain ⟨-, p, rfl⟩ := isPlaced_of_map he
  exact ⟨fun _ _ => ⟨hv, trivial⟩, rfl⟩

theorem gets_assignment : Gets (assignment n) (fun e => AreSimple [e]) := by
  refine (still_look _).thenGets fun name => (still_look _).thenGets fun before => ?_
  refine (still_accept _).thenGets fun _ => .ite ?_ ?_
  · exact (gets_expression n _).bind fun v => gets_mkAssignment name v
  · refine (gets_compoundValue name _).bind fun value => ?_
    cases value with
    | some v => exact (gets_mkAssignment name v).mono fun _ h hv => h (hv v rfl)
    | none => exact gets_mistake _ _

theorem gets_mkDeclaration (name type : String) (isMutable : Bool) (v : Node) :
    Gets (ofExcept (Node.mkDeclaration name type isMutable v))
      (fun e => v.IsOperand → AreSimple [e]) := by
  refine gets_ofExcept fun e he hv => ?_
  obtain ⟨hplaced, p, rfl⟩ := isPlaced_of_map he
  exact ⟨fun _ _ => ⟨⟨hplaced, hv⟩, trivial⟩, rfl⟩

theorem gets_declarator (type : String) (isMutable : Bool) :
    Gets (declarator n type isMutable) (fun e => AreSimple [e]) := by
  refine (still_look _).thenGets fun before => (gets_expect _ _).bind fun found => ?_
  cases found with
  | false => exact gets_pure fun h => absurd h Bool.false_ne_true
  | true =>
    refine Gets.mono ?_ fun e (he : AreSimple [e]) _ => he
    refine (still_look _).thenGets fun name => (still_accept _).thenGets fun _ => .ite ?_ ?_
    · exact (gets_expression n _).bind fun v => gets_mkDeclaration name type isMutable v
    · have hbare := (gets_mkDeclaration name type isMutable (.empty before)).mono
        fun e h => h trivial
      refine (still_check _).thenGets fun _ => .ite hbare ?_
      exact (still_check _).thenGets fun _ => .ite hbare (gets_mistake _ _)

theorem gets_declarators (type : String) (isMutable : Bool) :
    ∀ n, Gets (declarators n type isMutable) AreSimple
  | 0 => gets_throw _
  | n + 1 => by
    refine (gets_declarator type isMutable).bind fun first => ?_
    refine (still_accept _).thenGets fun _ => .ite ?_ (gets_pure id)
    exact (gets_declarators type isMutable n).bind fun more =>
      gets_pure fun hmore hfirst => hfirst.cons hmore

theorem gets_declaration (before : Pos) : Gets (declaration n before) AreSimple := by
  refine (still_accept _).thenGets fun _ => .ite ?_ (gets_mistake _ _)
  refine (still_look _).thenGets fun introduced => (still_look _).thenGets fun type => ?_
  exact gets_declarators type _ n

/-! ## Readers that open scopes -/

/-- The second scopes have been opened behind the first ones, and these are their numbers in the
order in which they were. -/
def Opened (σ σ' : Scopes) (ids : List ScopeId) : Prop :=
  ids = List.range' σ.frames.size ids.length ∧ σ'.frames.size = σ.frames.size + ids.length

theorem opened_nil (σ : Scopes) : Opened σ σ [] :=
  ⟨rfl, rfl⟩

theorem Opened.append {σ σ' σ'' : Scopes} {ids ids' : List ScopeId} (h : Opened σ σ' ids)
    (h' : Opened σ' σ'' ids') : Opened σ σ'' (ids ++ ids') := by
  obtain ⟨hids, hsize⟩ := h
  obtain ⟨hids', hsize'⟩ := h'
  constructor
  · rw [List.length_append, ← List.range'_append_1, ← hids, ← hsize, ← hids']
  · rw [List.length_append, hsize', hsize, Nat.add_assoc]

/-- Reports and scopes are only added, and fresh scopes stay fresh. -/
structure Grows (s s' : ParseState) : Prop where
  reports : s.reports <+: s'.reports
  scopes : s.scopes.Within s'.scopes
  fresh : s.scopes.IsFresh → s'.scopes.IsFresh

theorem Grows.trans {s s' s'' : ParseState} (h : Grows s s') (h' : Grows s' s'') : Grows s s'' :=
  ⟨h.reports.trans h'.reports, h.scopes.trans h'.scopes, fun hs => h'.fresh (h.fresh hs)⟩

theorem Grows.quiet {s s' : ParseState} (h : Grows s s') (hs' : s'.reports = []) :
    s.reports = [] :=
  List.prefix_nil.mp (hs' ▸ h.reports)

/-- Started in a scope that is there, the reader only adds reports and scopes, and if there is no
report in the end then `Q` holds of the scopes at the beginning and at the end and of its result. -/
def Yields (scope : ScopeId) (x : Parse α) (Q : Scopes → Scopes → α → Prop) : Prop :=
  ∀ ⦃s : ParseState⦄ ⦃a : α⦄ ⦃s' : ParseState⦄, scope < s.scopes.frames.size → x s = .ok a s' →
    Grows s s' ∧ (s'.reports = [] → Q s.scopes s'.scopes a)

section rules

variable {scope : ScopeId} {x y : Parse α} {f : α → Parse β}
  {P Q : Scopes → Scopes → α → Prop} {R : Scopes → Scopes → β → Prop}

/-- A reader that opens no scope. -/
theorem Gets.yields {P : α → Prop} (h : Gets x P) (hPQ : ∀ σ a, P a → Q σ σ a) :
    Yields scope x Q := by
  intro s a s' _ hx
  obtain ⟨hscopes, hreports, hP⟩ := h hx
  refine ⟨⟨hreports, ?_, fun hs => ?_⟩, fun hquiet => ?_⟩
  · rw [hscopes]
    exact .refl _
  · rw [hscopes]
    exact hs
  · rw [hscopes]
    exact hPQ _ a (hP hquiet)

theorem yields_pure {a : α} (h : ∀ σ, Q σ σ a) : Yields scope (pure a : Parse α) Q :=
  (gets_pure rfl).yields fun σ b (hb : a = b) => hb ▸ h σ

theorem yields_throw (fault : Fault) : Yields scope (throw fault : Parse α) Q := by
  intro s a s' _ hx
  cases hx

theorem Yields.mono (h : Yields scope x P) (hPQ : ∀ σ σ' a, P σ σ' a → Q σ σ' a) :
    Yields scope x Q := by
  intro s a s' hscope hx
  obtain ⟨hgrows, hP⟩ := h hscope hx
  exact ⟨hgrows, fun hquiet => hPQ _ _ a (hP hquiet)⟩

theorem Yields.ite {c : Prop} [Decidable c] (hx : Yields scope x Q) (hy : Yields scope y Q) :
    Yields scope (if c then x else y) Q := by
  split
  · exact hx
  · exact hy

theorem yields_mistake (problem : GrammarProblem) (a : α) :
    Yields scope (do declareError problem; return a) Q :=
  (gets_mistake problem a).yields fun _ _ (hfalse : False) => hfalse.elim

/-- One reader after the other. -/
theorem Yields.bind (hx : Yields scope x P)
    (hf : ∀ a, Yields scope (f a) (fun σ₁ σ₂ b => ∀ σ₀, P σ₀ σ₁ a → σ₁.Within σ₂ → R σ₀ σ₂ b)) :
    Yields scope (x >>= f) R := by
  intro s b s' hscope h
  obtain ⟨a, t, ha, hb⟩ := EStateM.bind_eq_ok.mp h
  obtain ⟨hst, hPa⟩ := hx hscope ha
  obtain ⟨hts', hRb⟩ := hf a (hst.scopes.lt_size hscope) hb
  exact ⟨hst.trans hts', fun hquiet => hRb hquiet _ (hPa (hts'.quiet hquiet)) hts'.scopes⟩

/-- A reader that opens no scope, and then another one. -/
theorem Gets.thenYields {P : α → Prop} (hx : Gets x P)
    (hf : ∀ a, Yields scope (f a) (fun σ σ' b => P a → R σ σ' b)) : Yields scope (x >>= f) R := by
  intro s b s' hscope h
  obtain ⟨a, t, ha, hb⟩ := EStateM.bind_eq_ok.mp h
  obtain ⟨hscopes, hreports, hPa⟩ := hx ha
  rw [← hscopes] at hscope
  obtain ⟨hts', hRb⟩ := hf a hscope hb
  rw [hscopes] at hRb
  refine ⟨⟨hreports.trans hts'.reports, hscopes ▸ hts'.scopes, hscopes ▸ hts'.fresh⟩, ?_⟩
  exact fun hquiet => hRb hquiet (hPa (hts'.quiet hquiet))

theorem Still.thenYields (hx : Still x) (hf : ∀ a, Yields scope (f a) R) :
    Yields scope (x >>= f) R :=
  hx.gets.thenYields fun a => (hf a).mono fun _ _ _ h _ => h

end rules

/-- What is read inside a scope that has just been opened. -/
theorem yields_openScope {scope : ScopeId} {f : ScopeId → Parse α} {Q : Scopes → Scopes → α → Prop}
    (hf : ∀ inner, Yields inner (f inner) (fun σ₁ σ₂ a => ∀ σ₀, Opened σ₀ σ₁ [inner] →
      σ₂.frames[inner]? = some { parent := some scope } → Q σ₀ σ₂ a)) :
    Yields scope (openScope scope >>= f) Q := by
  intro s a s' hscope h
  obtain ⟨inner, t, hopen, ha⟩ := EStateM.bind_eq_ok.mp h
  -- the scope that is opened gets the next number
  cases hopen
  have hsize : (s.scopes.openIn scope).1.frames.size = s.scopes.frames.size + 1 :=
    Array.size_push _
  have hframe : (s.scopes.openIn scope).1.frames[s.scopes.frames.size]? =
      some { parent := some scope } :=
    Array.getElem?_push_size
  have hinner : s.scopes.frames.size < (s.scopes.openIn scope).1.frames.size := by
    omega
  obtain ⟨hgrows, hQ⟩ := hf s.scopes.frames.size hinner ha
  refine ⟨⟨hgrows.reports, (s.scopes.within_openIn scope).trans hgrows.scopes,
    fun hs => hgrows.fresh (hs.openIn hscope)⟩, fun hquiet => ?_⟩
  exact hQ hquiet s.scopes ⟨rfl, hsize⟩ (hgrows.scopes _ _ hframe)

/-! ## Statements and blocks -/

/-- Well-formed statements, with the scopes that were opened for their blocks. -/
def StatementsIn (scope : ScopeId) (σ σ' : Scopes) (ss : List Node) : Prop :=
  Node.FormedAll σ' scope ss ∧ Opened σ σ' (Node.scopeIdsAll ss)

theorem StatementsIn.append {scope : ScopeId} {σ σ' σ'' : Scopes} {ss ts : List Node}
    (hss : StatementsIn scope σ σ' ss) (hwithin : σ'.Within σ'')
    (hts : StatementsIn scope σ' σ'' ts) : StatementsIn scope σ σ'' (ss ++ ts) := by
  refine ⟨(hss.1.mono hwithin).append hts.1, ?_⟩
  rw [Node.scopeIdsAll_append]
  exact hss.2.append hts.2

theorem AreSimple.statementsIn {ss : List Node} (h : AreSimple ss) (scope : ScopeId) (σ : Scopes) :
    StatementsIn scope σ σ ss :=
  ⟨h.1 σ scope, h.2 ▸ opened_nil σ⟩

/-- A well-formed statement, likewise. -/
def StatementIn (scope : ScopeId) (σ σ' : Scopes) (n : Node) : Prop :=
  n.Formed σ' scope ∧ Opened σ σ' n.scopeIds

theorem StatementIn.single {scope : ScopeId} {σ σ' : Scopes} {n : Node}
    (h : StatementIn scope σ σ' n) : StatementsIn scope σ σ' [n] := by
  refine ⟨⟨h.1, trivial⟩, ?_⟩
  rw [Node.scopeIdsAll, Node.scopeIdsAll, List.append_nil]
  exact h.2

/-- A well-formed block, likewise. -/
def BlockIn (scope : ScopeId) (σ σ' : Scopes) (b : Node) : Prop :=
  b.FormedBlock σ' scope ∧ Opened σ σ' b.scopeIds

/-- At least one well-formed branch, likewise. -/
def BranchesIn (scope : ScopeId) (σ σ' : Scopes) (bs : List (Node × Node)) : Prop :=
  bs ≠ [] ∧ Node.FormedBranches σ' scope bs ∧ Opened σ σ' (Node.scopeIdsBranches bs)

/-- All readers of statements yield well-formed statements. -/
structure YieldFormed (n : Nat) : Prop where
  statement : ∀ scope, Yields scope (statement n scope) (StatementsIn scope)
  conditional : ∀ scope, Yields scope (conditional n scope) (StatementIn scope)
  branches : ∀ scope, Yields scope (branches n scope) (BranchesIn scope)
  block : ∀ scope, Yields scope (block n scope) (BlockIn scope)
  blockBody : ∀ scope, Yields scope (blockBody n scope)
    (fun σ σ' body => ∃ ss, body = some ss ∧ StatementsIn scope σ σ' ss)

namespace YieldFormed

variable {scope : ScopeId}

/-- A loop, behind its condition. -/
theorem loop (ih : YieldFormed n) (scope : ScopeId) (c : Node) :
    Yields scope (do return [.loop c (← Parse.block n scope)])
      (fun σ σ' ss => c.IsOperand → StatementsIn scope σ σ' ss) :=
  (ih.block scope).bind fun _ => yields_pure fun _ _ hb _ hc =>
    StatementIn.single ⟨⟨hc, hb.1⟩, hb.2⟩

theorem statement_succ (ih : YieldFormed n) (scope : ScopeId) :
    Yields scope (Parse.statement (n + 1) scope) (StatementsIn scope) := by
  have hsimple : ∀ σ ss, AreSimple ss → StatementsIn scope σ σ ss :=
    fun σ ss h => h.statementsIn scope σ
  rw [Parse.statement]
  refine (still_look _).thenYields fun before => ?_
  refine (still_accept _).thenYields fun _ => .ite ((gets_declaration before).yields hsimple) ?_
  refine (still_accept _).thenYields fun _ => .ite ?_ ?_
  · refine (still_accept _).thenYields fun _ => .ite ?_ ?_
    · refine (GetOperands.all n).call.thenYields fun e => yields_pure fun σ he => ?_
      obtain ⟨callee, args, rfl, hargs⟩ := he
      exact StatementIn.single ⟨hargs, opened_nil σ⟩
    · exact gets_assignment.thenYields fun e => yields_pure fun σ he => hsimple σ _ he
  refine (still_accept _).thenYields fun _ => .ite ?_ ?_
  · exact (ih.conditional scope).bind fun e => yields_pure fun _ _ he _ => he.single
  refine (still_accept _).thenYields fun _ => .ite ?_ ?_
  · exact (gets_expression n _).thenYields fun c => ih.loop scope c
  refine (still_accept _).thenYields fun _ => .ite ?_ ?_
  · refine (still_look _).thenYields fun p => (ih.loop scope _).mono fun _ _ _ h => h ?_
    exact isOperand_literal (by decide) _ p
  have hword : ∀ n : Node, (∀ σ, n.Formed σ scope) → n.scopeIds = [] →
      Yields scope (pure [n]) (StatementsIn scope) := fun n hn hids =>
    yields_pure fun σ => StatementIn.single ⟨hn σ, hids ▸ opened_nil σ⟩
  refine (still_accept _).thenYields fun _ => .ite (hword _ (fun _ => trivial) rfl) ?_
  exact (still_accept _).thenYields fun _ =>
    .ite (hword _ (fun _ => trivial) rfl) (yields_mistake _ _)

theorem conditional_succ (ih : YieldFormed n) (scope : ScopeId) :
    Yields scope (Parse.conditional (n + 1) scope) (StatementIn scope) := by
  rw [Parse.conditional]
  refine (ih.branches scope).bind fun bs => (still_accept _).thenYields fun _ => .ite ?_ ?_
  · refine (ih.block scope).bind fun b => yields_pure fun σ σ₁ hb _ σ₀ hbs hwithin => ?_
    exact ⟨⟨hbs.1, hbs.2.1.mono hwithin, hb.1⟩, hbs.2.2.append hb.2⟩
  · refine (still_look _).thenYields fun p => yields_pure fun σ σ₀ hbs _ => ?_
    exact ⟨⟨hbs.1, hbs.2.1, trivial⟩, hbs.2.2.append (opened_nil σ)⟩

theorem branches_succ (ih : YieldFormed n) (scope : ScopeId) :
    Yields scope (Parse.branches (n + 1) scope) (BranchesIn scope) := by
  rw [Parse.branches]
  refine (gets_expression n _).thenYields fun c => (ih.block scope).bind fun b => ?_
  refine (still_accept _).thenYields fun _ => .ite ?_ ?_
  · refine (ih.branches scope).bind fun more => ?_
    refine yields_pure fun σ σ₁ hmore _ σ₀ hb hwithin hc => ⟨List.cons_ne_nil _ _, ?_, ?_⟩
    · exact ⟨hc, hb.1.mono hwithin, hmore.2.1⟩
    · exact hb.2.append hmore.2.2
  · refine yields_pure fun σ σ₀ hb _ hc => ⟨List.cons_ne_nil _ _, ⟨hc, hb.1, trivial⟩, ?_⟩
    exact hb.2.append (opened_nil σ)

theorem block_succ (ih : YieldFormed n) (scope : ScopeId) :
    Yields scope (Parse.block (n + 1) scope) (BlockIn scope) := by
  rw [Parse.block]
  refine (still_look _).thenYields fun before => (gets_expect _ _).thenYields fun found => ?_
  cases found with
  | false => exact yields_pure fun _ h => absurd h Bool.false_ne_true
  | true =>
    refine yields_openScope fun inner => (ih.blockBody inner).bind fun body => ?_
    cases body with
    | some ss =>
      refine yields_pure fun σ σ₁ hbody _ σ₀ hopened hframe _ => ?_
      obtain ⟨_, hsome, hss⟩ := hbody
      cases hsome
      exact ⟨⟨hframe, hss.1⟩, hopened.append hss.2⟩
    | none =>
      -- the end of the block has not come, and this was reported
      refine yields_pure fun _ _ hnone => ?_
      obtain ⟨_, hsome, -⟩ := hnone
      cases hsome

theorem blockBody_succ (ih : YieldFormed n) (scope : ScopeId) :
    Yields scope (Parse.blockBody (n + 1) scope)
      (fun σ σ' body => ∃ ss, body = some ss ∧ StatementsIn scope σ σ' ss) := by
  rw [Parse.blockBody]
  refine (still_accept _).thenYields fun _ => .ite (ih.blockBody scope) ?_
  refine (still_look _).thenYields fun _ => .ite (yields_mistake _ _) ?_
  refine (still_accept _).thenYields fun _ => .ite ?_ ?_
  · exact yields_pure fun σ => ⟨[], rfl, trivial, opened_nil σ⟩
  refine (ih.statement scope).bind fun first => (ih.blockBody scope).bind fun more => ?_
  refine yields_pure fun σ σ₁ hmore _ σ₀ hfirst hwithin => ?_
  obtain ⟨ss, rfl, hss⟩ := hmore
  exact ⟨_, rfl, hfirst.append hwithin hss⟩

theorem all : ∀ n, YieldFormed n
  | 0 =>
    { statement := fun scope => by rw [Parse.statement]; exact yields_throw _
      conditional := fun scope => by rw [Parse.conditional]; exact yields_throw _
      branches := fun scope => by rw [Parse.branches]; exact yields_throw _
      block := fun scope => by rw [Parse.block]; exact yields_throw _
      blockBody := fun scope => by rw [Parse.blockBody]; exact yields_throw _ }
  | n + 1 =>
    have ih := all n
    ⟨ih.statement_succ, ih.conditional_succ, ih.branches_succ, ih.block_succ, ih.blockBody_succ⟩

end YieldFormed

theorem yields_programBody :
    ∀ n, Yields Scopes.root (programBody n) (StatementsIn Scopes.root)
  | 0 => yields_throw _
  | n + 1 => by
    refine (still_accept _).thenYields fun _ => .ite (yields_programBody n) ?_
    refine (still_look _).thenYields fun _ => .ite ?_ ?_
    · exact yields_pure fun σ => ⟨trivial, opened_nil σ⟩
    refine ((YieldFormed.all n).statement Scopes.root).bind fun first => ?_
    refine (yields_programBody n).bind fun more => ?_
    exact yields_pure fun σ σ₁ hmore _ σ₀ hfirst hwithin => hfirst.append hwithin hmore

/-- What is read as a program without a report is a program of well-formed statements. Its scopes
are those of its blocks, behind the outermost one, and they are fresh. -/
theorem formed_of_parseProgram {tokens : List Token} {n : Node} {s : ParseState}
    (h : parseProgram tokens = .ok n s) (hquiet : s.reports = []) :
    ∃ ss, n = .program ss Scopes.root ∧ StatementsIn Scopes.root {} s.scopes ss ∧
      s.scopes.IsFresh := by
  obtain ⟨s₀, t₀, hget, hn⟩ := EStateM.bind_eq_ok.mp h
  cases hget
  obtain ⟨ss, t, hbody, hend⟩ := EStateM.bind_eq_ok.mp hn
  cases hend
  have hstart : Scopes.root < ({} : Scopes).frames.size := Nat.one_pos
  obtain ⟨hgrows, hss⟩ := yields_programBody _ hstart hbody
  exact ⟨ss, rfl, hss hquiet, hgrows.fresh Scopes.isFresh_empty⟩

end Parse

end Scriptlet
