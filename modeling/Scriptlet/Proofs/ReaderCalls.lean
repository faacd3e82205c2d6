import Scriptlet.Proofs.ReaderBudget
import Scriptlet.Proofs.ReaderProgress
import Mathlib.Logic.Relation

/-! # A program is read to its end

Reading a program comes to an end for every list of tokens that ends once, however malformed: it
gives a program and stands at the mark of the end, or it meets the fault that a node was to be made
of a part without a place. To say so of all that happens on the way, the calls that the readers make
of each other are written down as a relation (`Parse.Makes`); what holds of the first call and is
passed on from each call to those that it makes holds of all (`Call.Fits`).
-/
namespace Scriptlet

open ParseState

/-! ## Calls -/

/-- A call of one of the readers, with its budget. -/
inductive Call where
  /-- An expression of a level. -/
  | expression (n : Nat) (level : Level)
  /-- The further operators of a level. -/
  | chain (n : Nat) (level : Level) (left : Node)
  /-- A part without operators. -/
  | primitive (n : Nat)
  /-- The call of a function, behind the opening parenthesis. -/
  | call (n : Nat)
  /-- The arguments of a call. -/
  | arguments (n : Nat)
  /-- A compound assignment of a list. -/
  | compoundValue (n : Nat) (name : String) (assignments : List (TokenKind × Arithmetic))
  /-- An assignment, behind the name. -/
  | assignment (n : Nat)
  /-- One declared variable. -/
  | declarator (n : Nat) (type : String) (isMutable : Bool)
  /-- The variables of a declaration. -/
  | declarators (n : Nat) (type : String) (isMutable : Bool)
  /-- A declaration, behind its first word. -/
  | declaration (n : Nat) (before : Pos)
  /-- One statement. -/
  | statement (n : Nat) (scope : ScopeId)
  /-- A conditional statement. -/
  | conditional (n : Nat) (scope : ScopeId)
  /-- Conditions and their blocks. -/
  | branches (n : Nat) (scope : ScopeId)
  /-- A block. -/
  | block (n : Nat) (scope : ScopeId)
  /-- The statements of a block. -/
  | blockBody (n : Nat) (scope : ScopeId)
  /-- The statements of a program. -/
  | programBody (n : Nat)

namespace Parse

/-- The first call, of a reader of expressions, makes the second one. -/
inductive MakesInExpression : Call × ParseState → Call × ParseState → Prop
  | notOperand {n s s₁} (h : accept [.notWord] s = .ok true s₁) :
      MakesInExpression (.expression (n + 1) .negation, s) (.expression n .negation, s₁)
  | belowNot {n s s₁} (h : accept [.notWord] s = .ok false s₁) :
      MakesInExpression (.expression (n + 1) .negation, s) (.expression n .equality, s₁)
  | signOperand {n s s₁} (h : accept [.minus] s = .ok true s₁) :
      MakesInExpression (.expression (n + 1) .sign, s) (.expression n .sign, s₁)
  | belowSign {n s s₁} (h : accept [.minus] s = .ok false s₁) :
      MakesInExpression (.expression (n + 1) .sign, s) (.expression n .power, s₁)
  | atom {n s} : MakesInExpression (.expression (n + 1) .primitive, s) (.primitive n, s)
  | nextLevel {n s} {level : Level} (hlevel : level.operators ≠ []) :
      MakesInExpression (.expression (n + 1) level, s) (.expression n level.next, s)
  | operators {n s s₁} {level : Level} {left : Node} (hlevel : level.operators ≠ [])
      (h : expression n level.next s = .ok left s₁) :
      MakesInExpression (.expression (n + 1) level, s) (.chain n level left, s₁)
  | rightSide {n s s₁} {level : Level} {left : Node} (h : accept level.operators s = .ok true s₁) :
      MakesInExpression (.chain (n + 1) level left, s) (.expression n level.rightSide, s₁)
  | chained {n s s₁ s₂} {level : Level} {left right node : Node} {operator : String}
      (h : accept level.operators s = .ok true s₁) (hoperator : textAt (-1) s₁ = .ok operator s₁)
      (hright : expression n level.rightSide s₁ = .ok right s₂)
      (hnode : level.join operator left right = .ok node) :
      MakesInExpression (.chain (n + 1) level left, s) (.chain n level node, s₂)
  | group {n s s₁} (h : accept [.leftParen] s = .ok true s₁) :
      MakesInExpression (.primitive (n + 1), s) (.expression n .disjunction, s₁)
  | nameCall {n s s₁ s₂} (h : accept [.identifier] s = .ok true s₁)
      (hparen : accept [.leftParen] s₁ = .ok true s₂) :
      MakesInExpression (.primitive (n + 1), s) (.call n, s₂)
  | callArguments {n s} : MakesInExpression (.call (n + 1), s) (.arguments n, s)
  | argument {n s} : MakesInExpression (.arguments (n + 1), s) (.expression n .disjunction, s)
  | moreArguments {n s s₁ s₂} {arg : Node} (h : expression n .disjunction s = .ok arg s₁)
      (hcomma : accept [.comma] s₁ = .ok true s₂) :
      MakesInExpression (.arguments (n + 1), s) (.arguments n, s₂)

/-- The first call, of a reader of declarations or assignments, makes the second one. -/
inductive MakesInSimple : Call × ParseState → Call × ParseState → Prop
  | compoundRight {n s s₁} {name : String} {kind : TokenKind} {op : Arithmetic}
      {rest : List (TokenKind × Arithmetic)} (h : accept [kind] s = .ok true s₁) :
      MakesInSimple (.compoundValue n name ((kind, op) :: rest), s)
        (.expression n .disjunction, s₁)
  | compoundRest {n s s₁} {name : String} {kind : TokenKind} {op : Arithmetic}
      {rest : List (TokenKind × Arithmetic)} (h : accept [kind] s = .ok false s₁) :
      MakesInSimple (.compoundValue n name ((kind, op) :: rest), s) (.compoundValue n name rest, s₁)
  | assigned {n s s₁} (h : accept [.assign] s = .ok true s₁) :
      MakesInSimple (.assignment n, s) (.expression n .disjunction, s₁)
  | compound {n s s₁} {name : String} (hname : textAt (-1) s = .ok name s)
      (h : accept [.assign] s = .ok false s₁) :
      MakesInSimple (.assignment n, s) (.compoundValue n name compoundAssignments, s₁)
  | initializer {n s s₁ s₂} {type : String} {m : Bool}
      (h : expect .identifier .missingName s = .ok true s₁)
      (hassign : accept [.assign] s₁ = .ok true s₂) :
      MakesInSimple (.declarator n type m, s) (.expression n .disjunction, s₂)
  | firstVariable {n s} {type : String} {m : Bool} :
      MakesInSimple (.declarators (n + 1) type m, s) (.declarator n type m, s)
  | moreVariables {n s s₁ s₂} {type : String} {m : Bool} {first : Node}
      (h : declarator n type m s = .ok first s₁) (hcomma : accept [.comma] s₁ = .ok true s₂) :
      MakesInSimple (.declarators (n + 1) type m, s) (.declarators n type m, s₂)
  | declared {n s s₁} {before : Pos} {introduced : Token} {type : String}
      (h : accept [.intWord, .floatWord, .stringWord, .boolWord] s = .ok true s₁)
      (hintroduced : look (fun c => c.get (-2)) s₁ = .ok introduced s₁)
      (htype : textAt (-1) s₁ = .ok type s₁) :
      MakesInSimple (.declaration n before, s)
        (.declarators n type (introduced.kind ≠ .letWord), s₁)

/-- The first call, made in the first state, makes the second one in the second state. -/
inductive Makes : Call × ParseState → Call × ParseState → Prop
  | inExpression {p q : Call × ParseState} (h : MakesInExpression p q) : Makes p q
  | inSimple {p q : Call × ParseState} (h : MakesInSimple p q) : Makes p q
  | declaration {n scope s s₁} {before : Pos} (hbefore : place s = .ok before s)
      (h : accept [.varWord, .letWord] s = .ok true s₁) :
      Makes (.statement (n + 1) scope, s) (.declaration n before, s₁)
  | callStatement {n scope s s₁ s₂} (h : accept [.identifier] s = .ok true s₁)
      (hparen : accept [.leftParen] s₁ = .ok true s₂) :
      Makes (.statement (n + 1) scope, s) (.call n, s₂)
  | assignment {n scope s s₁ s₂} (h : accept [.identifier] s = .ok true s₁)
      (hparen : accept [.leftParen] s₁ = .ok false s₂) :
      Makes (.statement (n + 1) scope, s) (.assignment n, s₂)
  | ifStatement {n scope s s₁} (h : accept [.ifWord] s = .ok true s₁) :
      Makes (.statement (n + 1) scope, s) (.conditional n scope, s₁)
  | whileCondition {n scope s s₁} (h : accept [.whileWord] s = .ok true s₁) :
      Makes (.statement (n + 1) scope, s) (.expression n .disjunction, s₁)
  | whileBlock {n scope s s₁ s₂} {c : Node} (h : accept [.whileWord] s = .ok true s₁)
      (hc : expression n .disjunction s₁ = .ok c s₂) :
      Makes (.statement (n + 1) scope, s) (.block n scope, s₂)
  | loopBlock {n scope s s₁} (h : accept [.loopWord] s = .ok true s₁) :
      Makes (.statement (n + 1) scope, s) (.block n scope, s₁)
  | firstBranch {n scope s} : Makes (.conditional (n + 1) scope, s) (.branches n scope, s)
  | elseBlock {n scope s s₁ s₂} {bs : List (Node × Node)} (h : branches n scope s = .ok bs s₁)
      (helse : accept [.elseWord] s₁ = .ok true s₂) :
      Makes (.conditional (n + 1) scope, s) (.block n scope, s₂)
  | branchCondition {n scope s} : Makes (.branches (n + 1) scope, s) (.expression n .disjunction, s)
  | branchBlock {n scope s s₁} {c : Node} (h : expression n .disjunction s = .ok c s₁) :
      Makes (.branches (n + 1) scope, s) (.block n scope, s₁)
  | moreBranches {n scope s s₁ s₂ s₃} {c b : Node} (h : expression n .disjunction s = .ok c s₁)
      (hb : block n scope s₁ = .ok b s₂) (helif : accept [.elifWord] s₂ = .ok true s₃) :
      Makes (.branches (n + 1) scope, s) (.branches n scope, s₃)
  | body {n scope s s₁ s₂} {inner : ScopeId} (h : expect .leftBrace .missingBlock s = .ok true s₁)
      (hopen : openScope scope s₁ = .ok inner s₂) :
      Makes (.block (n + 1) scope, s) (.blockBody n inner, s₂)
  | blockSkip {n scope s s₁} (h : accept [.semicolon] s = .ok true s₁) :
      Makes (.blockBody (n + 1) scope, s) (.blockBody n scope, s₁)
  | blockStatement {n scope s s₁ s₂ s₃} (h : accept [.semicolon] s = .ok false s₁)
      (hend : atEnd s₁ = .ok false s₂) (hbrace : accept [.rightBrace] s₂ = .ok false s₃) :
      Makes (.blockBody (n + 1) scope, s) (.statement n scope, s₃)
  | blockRest {n scope s s₁ s₂ s₃ s₄} {first : List Node} (h : accept [.semicolon] s = .ok false s₁)
      (hend : atEnd s₁ = .ok false s₂) (hbrace : accept [.rightBrace] s₂ = .ok false s₃)
      (hfirst : statement n scope s₃ = .ok first s₄) :
      Makes (.blockBody (n + 1) scope, s) (.blockBody n scope, s₄)
  | programSkip {n s s₁} (h : accept [.semicolon] s = .ok true s₁) :
      Makes (.programBody (n + 1), s) (.programBody n, s₁)
  | programStatement {n s s₁ s₂} (h : accept [.semicolon] s = .ok false s₁)
      (hend : atEnd s₁ = .ok false s₂) :
      Makes (.programBody (n + 1), s) (.statement n Scopes.root, s₂)
  | programRest {n s s₁ s₂ s₃} {first : List Node} (h : accept [.semicolon] s = .ok false s₁)
      (hend : atEnd s₁ = .ok false s₂) (hfirst : statement n Scopes.root s₂ = .ok first s₃) :
      Makes (.programBody (n + 1), s) (.programBody n, s₃)

end Parse

/-! ## What a call needs -/

namespace Call

/-- What the budget of a call has to be besides that for the tokens ahead. -/
def depth : Call → Nat
  | .expression _ level => level.depth
  | .chain .. | .primitive _ | .statement .. | .block .. => 1
  | .programBody _ | .blockBody .. => 2
  | .compoundValue .. | .assignment _ | .declarator .. => 11
  | .arguments _ | .declarators .. | .declaration .. | .branches .. => 12
  | .call _ | .conditional .. => 13

/-- The budget of a call. -/
def budget : Call → Nat
  | .expression n _ | .chain n .. | .primitive n | .call n | .arguments n | .compoundValue n ..
  | .assignment n | .declarator n .. | .declarators n .. | .declaration n _ | .statement n _
  | .conditional n _ | .branches n _ | .block n _ | .blockBody n _ | .programBody n => n

/-- The state that a call ends in, with a result or with a fault. -/
def lastState (c : Call) (s : ParseState) : ParseState :=
  match c with
  | .expression n level => Scriptlet.lastState (Parse.expression n level s)
  | .chain n level left => Scriptlet.lastState (Parse.chain n level left s)
  | .primitive n => Scriptlet.lastState (Parse.primitive n s)
  | .call n => Scriptlet.lastState (Parse.call n s)
  | .arguments n => Scriptlet.lastState (Parse.arguments n s)
  | .compoundValue n name ops => Scriptlet.lastState (Parse.compoundValue n name ops s)
  | .assignment n => Scriptlet.lastState (Parse.assignment n s)
  | .declarator n type m => Scriptlet.lastState (Parse.declarator n type m s)
  | .declarators n type m => Scriptlet.lastState (Parse.declarators n type m s)
  | .declaration n before => Scriptlet.lastState (Parse.declaration n before s)
  | .statement n scope => Scriptlet.lastState (Parse.statement n scope s)
  | .conditional n scope => Scriptlet.lastState (Parse.conditional n scope s)
  | .branches n scope => Scriptlet.lastState (Parse.branches n scope s)
  | .block n scope => Scriptlet.lastState (Parse.block n scope s)
  | .blockBody n scope => Scriptlet.lastState (Parse.blockBody n scope s)
  | .programBody n => Scriptlet.lastState (Parse.programBody n s)

/-- What a reader needs of the place where it is called: that a statement can begin there, or that
there are tokens to look back at. -/
def Needs (c : Call) (s : ParseState) : Prop :=
  match c with
  | .statement .. => s.AtStatement
  | .assignment _ | .declaration .. => 1 ≤ s.cursor.index
  | .call _ => 2 ≤ s.cursor.index
  | _ => True

/-- The call has enough budget for the tokens ahead, and it is made at a place for it. -/
structure Fits (c : Call) (s : ParseState) : Prop where
  ready : s.Ready
  budget : 20 * s.ahead + c.depth ≤ c.budget
  place : c.Needs s

variable {c d : Call} {s s' : ParseState}

/-- Each token that is passed over leaves budget for further calls. -/
theorem Fits.next {k : Nat} (hc : c.Fits s) (hs : s.LeadsTo s')
    (hk : s.cursor.index + k ≤ s'.cursor.index)
    (hn : d.depth + c.budget ≤ d.budget + c.depth + 20 * k) (hd : d.Needs s') :
    s.LeadsTo s' ∧ d.Fits s' := by
  have hbudget := hc.budget
  have hlt := hs.ready.index_lt
  rw [hs.tokens] at hlt
  rw [ahead] at hbudget
  refine ⟨hs, hs.ready, ?_, hd⟩
  rw [ahead, hs.tokens]
  omega

end Call

/-- Where a reader that goes on has ended. -/
theorem Goes.leadsTo_lastState {α : Type} {s : ParseState} {Q : α → ParseState → Prop}
    {r : EStateM.Result Fault ParseState α} (h : Goes s Q r) : s.LeadsTo (lastState r) := by
  cases r with
  | ok a s' => exact h.1
  | error f s' => exact h.1

theorem Goes.of_eq_ok {α : Type} {s s' : ParseState} {Q : α → ParseState → Prop}
    {r : EStateM.Result Fault ParseState α} {a : α} (h : Goes s Q r) (hr : r = .ok a s') :
    s.LeadsTo s' ∧ Q a s' := by
  subst hr
  exact h

/-- A call that has what it needs ends further on, with a result or with a fault. -/
theorem Call.Fits.leadsTo {c : Call} {s : ParseState} (h : c.Fits s) :
    s.LeadsTo (c.lastState s) := by
  obtain ⟨hs, hn, hplace⟩ := h
  cases c with
  | expression n level => exact ((ExpressionsGo.all n).expression level hs hn).leadsTo_lastState
  | chain n level left => exact ((ExpressionsGo.all n).chain level left hs hn).leadsTo_lastState
  | primitive n => exact ((ExpressionsGo.all n).primitive hs hn).leadsTo_lastState
  | call n => exact ((ExpressionsGo.all n).call hs hplace hn).leadsTo_lastState
  | arguments n => exact ((ExpressionsGo.all n).arguments hs hn).leadsTo_lastState
  | compoundValue n name ops => exact (Parse.goes_compoundValue name hs hn ops).leadsTo_lastState
  | assignment n => exact (Parse.goes_assignment hs hplace hn).leadsTo_lastState
  | declarator n type m => exact (Parse.goes_declarator type m hs hn).leadsTo_lastState
  | declarators n type m => exact (Parse.goes_declarators type m hs hn).leadsTo_lastState
  | declaration n before => exact (Parse.goes_declaration before hs hplace hn).leadsTo_lastState
  | statement n scope => exact ((StatementsGo.all n).statement scope hs hn).leadsTo_lastState
  | conditional n scope => exact ((StatementsGo.all n).conditional scope hs hn).leadsTo_lastState
  | branches n scope => exact ((StatementsGo.all n).branches scope hs hn).leadsTo_lastState
  | block n scope => exact ((StatementsGo.all n).block scope hs hn).leadsTo_lastState
  | blockBody n scope => exact ((StatementsGo.all n).blockBody scope hs hn).leadsTo_lastState
  | programBody n => exact (Parse.goes_programBody hs hn).leadsTo_lastState

/-- Where a call that has what it needs has returned. -/
theorem Call.Fits.returned {c : Call} {s s' : ParseState} (h : c.Fits s)
    (hs' : c.lastState s = s') : s.LeadsTo s' :=
  hs' ▸ h.leadsTo

/-! ## From each call to the calls that it makes -/

namespace Parse

variable {s s' : ParseState} {kinds : List TokenKind}

theorem leadsTo_of_accept (hs : s.Ready) (h : accept kinds s = .ok true s') :
    s.LeadsTo s' ∧ s.cursor.index + 1 ≤ s'.cursor.index := by
  obtain ⟨done, t, rest, σ, rs, rfl, hends⟩ := hs.exists_between
  by_cases hk : t.kind ≠ .endOfFile ∧ t.kind ∈ kinds
  · rw [accept_of_mem hk.1 hk.2] at h
    cases h
    exact ⟨leadsTo_concat hends hk.1, by simp [between]⟩
  · have hn : t.kind = .endOfFile ∨ t.kind ∉ kinds := by
      by_cases ht : t.kind = .endOfFile
      · exact .inl ht
      · exact .inr fun hm => hk ⟨ht, hm⟩
    rw [accept_of_not_mem hn] at h
    cases h

theorem eq_of_not_accept (hs : s.Ready) (h : accept kinds s = .ok false s') :
    s' = s ∧ (s.kind = .endOfFile ∨ s.kind ∉ kinds) := by
  obtain ⟨done, t, rest, σ, rs, rfl, hends⟩ := hs.exists_between
  rw [kind_between]
  by_cases hk : t.kind = .endOfFile ∨ t.kind ∉ kinds
  · rw [accept_of_not_mem hk] at h
    cases h
    exact ⟨rfl, hk⟩
  · rw [not_or, Decidable.not_not] at hk
    rw [accept_of_mem hk.1 hk.2] at h
    cases h

theorem eq_of_not_atEnd (hs : s.Ready) (h : atEnd s = .ok false s') :
    s' = s ∧ s.kind ≠ .endOfFile := by
  obtain ⟨done, t, rest, σ, rs, rfl, hends⟩ := hs.exists_between
  rw [atEnd_between] at h
  rw [kind_between]
  injection h with hk hs'
  exact ⟨hs'.symm, of_decide_eq_false hk⟩

/-- The current token, once neither a semicolon nor the end was found. -/
theorem atStatement_of_loop {s₁ s₂ : ParseState} (hs : s.Ready)
    (h : accept [.semicolon] s = .ok false s₁) (hend : atEnd s₁ = .ok false s₂) :
    s₂ = s ∧ s.AtStatement := by
  obtain ⟨rfl, hsemi⟩ := eq_of_not_accept hs h
  obtain ⟨rfl, hne⟩ := eq_of_not_atEnd hs hend
  exact ⟨rfl, fun hk => hsemi.resolve_left hne (List.mem_singleton.mpr hk), hne⟩

/-- A statement that is read where one can begin passes over a token. -/
theorem leadsTo_of_statement {n : Nat} {scope : ScopeId} {ss : List Node}
    (hc : (Call.statement n scope).Fits s) (h : statement n scope s = .ok ss s') :
    s.LeadsTo s' ∧ s.cursor.index < s'.cursor.index := by
  obtain ⟨hs', hpass⟩ := ((StatementsGo.all n).statement scope hc.ready hc.budget).of_eq_ok h
  exact ⟨hs', hpass hc.place⟩

variable {c d : Call}

/-- A call that is made behind a part. -/
theorem fits_after (hc : c.Fits s) (hs' : s.LeadsTo s')
    (hn : d.depth + c.budget ≤ d.budget + c.depth) (hd : d.Needs s') :
    s.LeadsTo s' ∧ d.Fits s' :=
  hc.next (k := 0) hs' hs'.index hn hd

/-- A call that is made at once. -/
theorem fits_at_once (hc : c.Fits s) (hn : d.depth + c.budget ≤ d.budget + c.depth)
    (hd : d.Needs s) : s.LeadsTo s ∧ d.Fits s :=
  fits_after hc (.refl hc.ready) hn hd

/-- A call that is made where a token was not of the kinds. -/
theorem fits_of_not_accept (hc : c.Fits s) (h : accept kinds s = .ok false s')
    (hn : d.depth + c.budget ≤ d.budget + c.depth) (hd : d.Needs s) :
    s.LeadsTo s' ∧ d.Fits s' := by
  obtain ⟨rfl, -⟩ := eq_of_not_accept hc.ready h
  exact fits_at_once hc hn hd

/-- A call that is made behind a part and a token. -/
theorem fits_of_accept_after {s₁ : ParseState} (hc : c.Fits s) (hs₁ : s.LeadsTo s₁)
    (h : accept kinds s₁ = .ok true s') (hn : d.depth + c.budget ≤ d.budget + c.depth + 20)
    (hd : s₁.cursor.index + 1 ≤ s'.cursor.index → d.Needs s') : s.LeadsTo s' ∧ d.Fits s' := by
  obtain ⟨hs', hi⟩ := leadsTo_of_accept hs₁.ready h
  exact hc.next (hs₁.trans hs') (Nat.le_trans (Nat.add_le_add_right hs₁.index 1) hi) hn (hd hi)

/-- A call that is made behind a token. -/
theorem fits_of_accept (hc : c.Fits s) (h : accept kinds s = .ok true s')
    (hn : d.depth + c.budget ≤ d.budget + c.depth + 20)
    (hd : s.cursor.index + 1 ≤ s'.cursor.index → d.Needs s') : s.LeadsTo s' ∧ d.Fits s' :=
  fits_of_accept_after hc (.refl hc.ready) h hn hd

theorem MakesInExpression.fits {p q : Call × ParseState} (h : MakesInExpression p q)
    (hp : p.1.Fits p.2) : p.2.LeadsTo q.2 ∧ q.1.Fits q.2 := by
  cases h with
  | @notOperand n s s₁ h =>
    have hn : Level.negation.depth + (n + 1) ≤ n + Level.negation.depth + 20 := by omega
    exact fits_of_accept hp h hn fun _ => trivial
  | @belowNot n s s₁ h =>
    have hd : Level.equality.depth + 1 = Level.negation.depth := rfl
    have hn : Level.equality.depth + (n + 1) ≤ n + Level.negation.depth := by omega
    exact fits_of_not_accept hp h hn trivial
  | @signOperand n s s₁ h =>
    have hn : Level.sign.depth + (n + 1) ≤ n + Level.sign.depth + 20 := by omega
    exact fits_of_accept hp h hn fun _ => trivial
  | @belowSign n s s₁ h =>
    have hd : Level.power.depth + 1 = Level.sign.depth := rfl
    have hn : Level.power.depth + (n + 1) ≤ n + Level.sign.depth := by omega
    exact fits_of_not_accept hp h hn trivial
  | @atom n s =>
    have hd : Level.primitive.depth = 2 := rfl
    have hn : 1 + (n + 1) ≤ n + Level.primitive.depth := by omega
    exact fits_at_once hp hn trivial
  | @nextLevel n s level hlevel =>
    have hd := Level.depth_next (l := level) (by rintro rfl; exact hlevel rfl)
    have hn : level.next.depth + (n + 1) ≤ n + level.depth := by omega
    exact fits_at_once hp hn trivial
  | @operators n s s₁ level left hlevel h =>
    have hd := Level.depth_next (l := level) (by rintro rfl; exact hlevel rfl)
    have htwo := level.two_le_depth
    have hn : level.next.depth + (n + 1) ≤ n + level.depth := by omega
    have hn' : 1 + (n + 1) ≤ n + level.depth := by omega
    obtain ⟨-, hleft⟩ := fits_at_once (d := .expression n level.next) hp hn trivial
    have h₁ : s.LeadsTo s₁ := hleft.returned (congrArg lastState h)
    exact fits_after hp h₁ hn' trivial
  | @rightSide n s s₁ level left h =>
    have hd := level.rightSide.depth_le
    have hn : level.rightSide.depth + (n + 1) ≤ n + 1 + 20 := by omega
    exact fits_of_accept hp h hn fun _ => trivial
  | @chained n s s₁ s₂ level left right node operator h _ hright _ =>
    have hd := level.rightSide.depth_le
    have hn : level.rightSide.depth + (n + 1) ≤ n + 1 + 20 := by omega
    have hn' : 1 + (n + 1) ≤ n + 1 + 20 * 1 := by omega
    obtain ⟨h₁, hfits⟩ :=
      fits_of_accept (d := .expression n level.rightSide) hp h hn fun _ => trivial
    have h₂ : s₁.LeadsTo s₂ := hfits.returned (congrArg lastState hright)
    have hi := (leadsTo_of_accept hp.ready h).2
    exact hp.next (h₁.trans h₂) (Nat.le_trans hi h₂.index) hn' trivial
  | @group n s s₁ h =>
    have hd := Level.disjunction.depth_le
    have hn : Level.disjunction.depth + (n + 1) ≤ n + 1 + 20 := by omega
    exact fits_of_accept hp h hn fun _ => trivial
  | @nameCall n s s₁ s₂ h hparen =>
    have hn : 13 + (n + 1) ≤ n + 1 + 20 := by omega
    obtain ⟨h₁, hi⟩ := leadsTo_of_accept hp.ready h
    exact fits_of_accept_after hp h₁ hparen hn fun hi₂ =>
      Nat.le_trans (Nat.succ_le_succ (Nat.le_trans (Nat.le_add_left 1 _) hi)) hi₂
  | @callArguments n s =>
    have hn : 12 + (n + 1) ≤ n + 13 := by omega
    exact fits_at_once hp hn trivial
  | @argument n s =>
    have hd := Level.disjunction.depth_le
    have hn : Level.disjunction.depth + (n + 1) ≤ n + 12 := by omega
    exact fits_at_once hp hn trivial
  | @moreArguments n s s₁ s₂ arg h hcomma =>
    have hd := Level.disjunction.depth_le
    have hn : Level.disjunction.depth + (n + 1) ≤ n + 12 := by omega
    have hn' : 12 + (n + 1) ≤ n + 12 + 20 := by omega
    obtain ⟨-, harg⟩ := fits_at_once (d := .expression n .disjunction) hp hn trivial
    have h₁ : s.LeadsTo s₁ := harg.returned (congrArg lastState h)
    exact fits_of_accept_after hp h₁ hcomma hn' fun _ => trivial

theorem MakesInSimple.fits {p q : Call × ParseState} (h : MakesInSimple p q)
    (hp : p.1.Fits p.2) : p.2.LeadsTo q.2 ∧ q.1.Fits q.2 := by
  -- behind a token, there is always enough for an expression
  have hd := Level.disjunction.depth_le
  cases h with
  | @compoundRight n s s₁ name kind op rest h =>
    have hn : Level.disjunction.depth + n ≤ n + 11 + 20 := by omega
    exact fits_of_accept hp h hn fun _ => trivial
  | compoundRest h => exact fits_of_not_accept hp h (Nat.le_of_eq (Nat.add_comm _ _)) trivial
  | @assigned n s s₁ h =>
    have hn : Level.disjunction.depth + n ≤ n + 11 + 20 := by omega
    exact fits_of_accept hp h hn fun _ => trivial
  | compound _ h => exact fits_of_not_accept hp h (Nat.le_of_eq (Nat.add_comm _ _)) trivial
  | @initializer n s s₁ s₂ type m h hassign =>
    have hn : Level.disjunction.depth + n ≤ n + 11 + 20 := by omega
    obtain ⟨h₁, -⟩ := (goes_expect _ _ hp.ready).of_eq_ok h
    exact fits_of_accept_after hp h₁ hassign hn fun _ => trivial
  | @firstVariable n s type m =>
    have hn : 11 + (n + 1) ≤ n + 12 := by omega
    exact fits_at_once hp hn trivial
  | @moreVariables n s s₁ s₂ type m first h hcomma =>
    have hn : 11 + (n + 1) ≤ n + 12 := by omega
    have hn' : 12 + (n + 1) ≤ n + 12 + 20 := by omega
    obtain ⟨-, hfirst⟩ := fits_at_once (d := .declarator n type m) hp hn trivial
    have h₁ : s.LeadsTo s₁ := hfirst.returned (congrArg lastState h)
    exact fits_of_accept_after hp h₁ hcomma hn' fun _ => trivial
  | @declared n s s₁ before introduced type h _ _ =>
    have hn : 12 + n ≤ n + 12 + 20 := by omega
    exact fits_of_accept hp h hn fun _ => trivial

/-- **What a call needs is there for the calls that it makes**, which are made further on. -/
theorem Makes.fits {p q : Call × ParseState} (h : Makes p q) (hp : p.1.Fits p.2) :
    p.2.LeadsTo q.2 ∧ q.1.Fits q.2 := by
  have hd := Level.disjunction.depth_le
  cases h with
  | inExpression h => exact h.fits hp
  | inSimple h => exact h.fits hp
  | @declaration n scope s s₁ before _ h =>
    have hn : 12 + (n + 1) ≤ n + 1 + 20 := by omega
    exact fits_of_accept hp h hn fun hi => Nat.le_trans (Nat.le_add_left 1 _) hi
  | @callStatement n scope s s₁ s₂ h hparen =>
    have hn : 13 + (n + 1) ≤ n + 1 + 20 := by omega
    obtain ⟨h₁, hi⟩ := leadsTo_of_accept hp.ready h
    exact fits_of_accept_after hp h₁ hparen hn fun hi₂ =>
      Nat.le_trans (Nat.succ_le_succ (Nat.le_trans (Nat.le_add_left 1 _) hi)) hi₂
  | @assignment n scope s s₁ s₂ h hparen =>
    have hn : 11 + (n + 1) ≤ n + 1 + 20 := by omega
    have h₁ := (leadsTo_of_accept hp.ready h).1
    obtain ⟨rfl, -⟩ := eq_of_not_accept h₁.ready hparen
    exact fits_of_accept hp h hn fun hi => Nat.le_trans (Nat.le_add_left 1 _) hi
  | @ifStatement n scope s s₁ h =>
    have hn : 13 + (n + 1) ≤ n + 1 + 20 := by omega
    exact fits_of_accept hp h hn fun _ => trivial
  | @whileCondition n scope s s₁ h =>
    have hn : Level.disjunction.depth + (n + 1) ≤ n + 1 + 20 := by omega
    exact fits_of_accept hp h hn fun _ => trivial
  | @whileBlock n scope s s₁ s₂ c h hc =>
    have hn : Level.disjunction.depth + (n + 1) ≤ n + 1 + 20 := by omega
    have hn' : 1 + (n + 1) ≤ n + 1 + 20 * 1 := by omega
    obtain ⟨h₁, hfits⟩ := fits_of_accept (d := .expression n .disjunction) hp h hn fun _ => trivial
    have h₂ : s₁.LeadsTo s₂ := hfits.returned (congrArg lastState hc)
    have hi := (leadsTo_of_accept hp.ready h).2
    exact hp.next (h₁.trans h₂) (Nat.le_trans hi h₂.index) hn' trivial
  | @loopBlock n scope s s₁ h =>
    have hn : 1 + (n + 1) ≤ n + 1 + 20 := by omega
    exact fits_of_accept hp h hn fun _ => trivial
  | @firstBranch n scope s =>
    have hn : 12 + (n + 1) ≤ n + 13 := by omega
    exact fits_at_once hp hn trivial
  | @elseBlock n scope s s₁ s₂ bs h helse =>
    have hn : 12 + (n + 1) ≤ n + 13 := by omega
    have hn' : 1 + (n + 1) ≤ n + 13 + 20 := by omega
    obtain ⟨-, hbranches⟩ := fits_at_once (d := .branches n scope) hp hn trivial
    have h₁ : s.LeadsTo s₁ := hbranches.returned (congrArg lastState h)
    exact fits_of_accept_after hp h₁ helse hn' fun _ => trivial
  | @branchCondition n scope s =>
    have hn : Level.disjunction.depth + (n + 1) ≤ n + 12 := by omega
    exact fits_at_once hp hn trivial
  | @branchBlock n scope s s₁ c h =>
    have hn : Level.disjunction.depth + (n + 1) ≤ n + 12 := by omega
    have hn' : 1 + (n + 1) ≤ n + 12 := by omega
    obtain ⟨-, hfits⟩ := fits_at_once (d := .expression n .disjunction) hp hn trivial
    have h₁ : s.LeadsTo s₁ := hfits.returned (congrArg lastState h)
    exact fits_after hp h₁ hn' trivial
  | @moreBranches n scope s s₁ s₂ s₃ c b h hb helif =>
    have hn : Level.disjunction.depth + (n + 1) ≤ n + 12 := by omega
    have hn₁ : 1 + (n + 1) ≤ n + 12 := by omega
    have hn₂ : 12 + (n + 1) ≤ n + 12 + 20 := by omega
    obtain ⟨-, hfits⟩ := fits_at_once (d := .expression n .disjunction) hp hn trivial
    have h₁ : s.LeadsTo s₁ := hfits.returned (congrArg lastState h)
    obtain ⟨-, hblock⟩ := fits_after (d := .block n scope) hp h₁ hn₁ trivial
    have h₂ : s₁.LeadsTo s₂ := hblock.returned (congrArg lastState hb)
    exact fits_of_accept_after hp (h₁.trans h₂) helif hn₂ fun _ => trivial
  | @body n scope s s₁ s₂ inner h hopen =>
    have hn : 2 + (n + 1) ≤ n + 1 + 20 * 1 := by omega
    obtain ⟨h₁, hpass⟩ := (goes_expect _ _ hp.ready).of_eq_ok h
    obtain ⟨h₂, -⟩ := (goes_openScope scope h₁.ready).of_eq_ok hopen
    exact hp.next (h₁.trans h₂) (Nat.le_trans (hpass rfl) h₂.index) hn trivial
  | @blockSkip n scope s s₁ h =>
    have hn : 2 + (n + 1) ≤ n + 2 + 20 := by omega
    exact fits_of_accept hp h hn fun _ => trivial
  | @blockStatement n scope s s₁ s₂ s₃ h hend hbrace =>
    have hn : 1 + (n + 1) ≤ n + 2 := by omega
    obtain ⟨rfl, hbegins⟩ := atStatement_of_loop hp.ready h hend
    exact fits_of_not_accept hp hbrace hn hbegins
  | @blockRest n scope s s₁ s₂ s₃ s₄ first h hend hbrace hfirst =>
    have hn : 1 + (n + 1) ≤ n + 2 := by omega
    have hn' : 2 + (n + 1) ≤ n + 2 + 20 * 1 := by omega
    obtain ⟨rfl, hbegins⟩ := atStatement_of_loop hp.ready h hend
    obtain ⟨h₃, hfits⟩ := fits_of_not_accept (d := .statement n scope) hp hbrace hn hbegins
    obtain ⟨h₄, hlt⟩ := leadsTo_of_statement hfits hfirst
    exact hp.next (h₃.trans h₄) (Nat.le_trans (Nat.succ_le_succ h₃.index) hlt) hn' trivial
  | @programSkip n s s₁ h =>
    have hn : 2 + (n + 1) ≤ n + 2 + 20 := by omega
    exact fits_of_accept hp h hn fun _ => trivial
  | @programStatement n s s₁ s₂ h hend =>
    have hn : 1 + (n + 1) ≤ n + 2 := by omega
    obtain ⟨rfl, hbegins⟩ := atStatement_of_loop hp.ready h hend
    exact fits_at_once hp hn hbegins
  | @programRest n s s₁ s₂ s₃ first h hend hfirst =>
    have hn : 1 + (n + 1) ≤ n + 2 := by omega
    have hn' : 2 + (n + 1) ≤ n + 2 + 20 * 1 := by omega
    obtain ⟨rfl, hbegins⟩ := atStatement_of_loop hp.ready h hend
    obtain ⟨-, hfits⟩ := fits_at_once (d := .statement n Scopes.root) hp hn hbegins
    obtain ⟨h₃, hlt⟩ := leadsTo_of_statement hfits hfirst
    exact hp.next h₃ hlt hn' trivial

/-- All calls that come of a call have what they need, and are made further on. -/
theorem fits_of_makes {p q : Call × ParseState} (h : Relation.ReflTransGen Makes p q)
    (hp : p.1.Fits p.2) : p.2.LeadsTo q.2 ∧ q.1.Fits q.2 := by
  induction h with
  | refl => exact ⟨.refl hp.ready, hp⟩
  | tail _ hstep ih =>
    obtain ⟨hlead, hfits⟩ := hstep.fits ih.2
    exact ⟨ih.1.trans hlead, hfits⟩

end Parse

/-! ## Programs -/

/-- Before the first token. -/
def ParseState.start (tokens : List Token) : ParseState :=
  { cursor := { tokens := tokens.toArray } }

theorem ParseState.ready_start {tokens : List Token} (h : EndsOnce tokens) :
    (ParseState.start tokens).Ready :=
  ⟨[], tokens, rfl, h⟩

theorem ParseState.ahead_start (tokens : List Token) :
    (ParseState.start tokens).ahead = tokens.length := by
  have hstart : ParseState.start tokens = between [] tokens {} [] := rfl
  rw [hstart, ahead_between]

open Parse

/-- How reading a program ends: with a program and at the mark of the end, or with the fault that a
part of a node has no place. -/
def EndsReading (tokens : List Token) (r : EStateM.Result Fault ParseState Node) : Prop :=
  (∃ n s, r = .ok n s ∧ s.cursor.index + 1 = tokens.length) ∨
    ∃ kind s, r = .error (.missingField kind "line") s ∧ s.cursor.index < tokens.length

/-- **A program is read to its end, whatever the tokens are.** Let the last token, and no other,
mark the end. Then reading ends within its budget, with a program and at the mark of the end, or
with the fault that a node was to be made of a part without a place, and a larger budget would not
change that. On the way, every call of a reader is made inside the list and ends there, with a
result or with the fault, and no call goes back; and every call for one statement, if it returns,
has passed over at least one token. -/
theorem parseProgram_reads_to_end {tokens : List Token} (h : EndsOnce tokens) :
    EndsReading tokens (parseProgram tokens) ∧
    (∀ n, programBudget tokens.length ≤ n → programBody n (.start tokens) =
      programBody (programBudget tokens.length) (.start tokens)) ∧
    ∀ c s, Relation.ReflTransGen Makes
        (.programBody (programBudget tokens.length), .start tokens) (c, s) →
      s.cursor.tokens = tokens.toArray ∧ s.cursor.index ≤ (c.lastState s).cursor.index ∧
      (c.lastState s).cursor.index < tokens.length ∧
      ∀ n scope, c = .statement n scope → ∀ ss s', statement n scope s = .ok ss s' →
        s.cursor.index < s'.cursor.index := by
  have hready := ParseState.ready_start h
  have hahead := ParseState.ahead_start tokens
  have hbudget : 20 * (ParseState.start tokens).ahead + 2 ≤ programBudget tokens.length := by
    rw [hahead, programBudget]
    omega
  have hgoes := goes_programBody hready hbudget
  have hlength : ∀ {s : ParseState}, (ParseState.start tokens).LeadsTo s →
      s.cursor.index < tokens.length := by
    intro s hs
    have hlt := hs.ready.index_lt
    rwa [hs.tokens, ParseState.start, List.size_toArray] at hlt
  refine ⟨?_, fun n hn => ?_, fun c s hc => ?_⟩
  · have hrun : parseProgram tokens = (do
        let statements ← programBody (programBudget tokens.length)
        return .program statements Scopes.root : Parse Node) (.start tokens) := by
      rw [← List.size_toArray]
      rfl
    rw [hrun]
    cases hbody : programBody (programBudget tokens.length) (.start tokens) with
    | ok ss s =>
      obtain ⟨hs, hlast⟩ := hgoes.of_eq_ok hbody
      refine .inl ⟨_, s, EStateM.bind_of_ok hbody, ?_⟩
      have hlt := hlength hs
      rw [ahead, hs.tokens, ParseState.start, List.size_toArray] at hlast
      omega
    | error f s =>
      rw [hbody] at hgoes
      obtain ⟨hs, kind, rfl⟩ := hgoes
      exact .inr ⟨kind, s, EStateM.bind_of_error hbody, hlength hs⟩
  · rcases programBody_extends hn (.start tokens) with ⟨s, hs⟩ | heq
    · rw [hs] at hgoes
      obtain ⟨-, kind, hkind⟩ := hgoes
      cases hkind
    · exact heq
  · obtain ⟨hs, hfits⟩ := fits_of_makes hc ⟨hready, hbudget, trivial⟩
    have hlast := hfits.leadsTo
    refine ⟨hs.tokens, hlast.index, hlength (hs.trans hlast), ?_⟩
    rintro n scope rfl ss s' hstatement
    exact (leadsTo_of_statement hfits hstatement).2

/-- The tokens of `) if { x else }`. -/
def strayTokens : List Token :=
  [⟨.rightParen, .text ")", ⟨1, 0⟩⟩, ⟨.ifWord, .text "if", ⟨1, 2⟩⟩,
    ⟨.leftBrace, .text "\x7b", ⟨1, 5⟩⟩, ⟨.identifier, .text "x", ⟨1, 7⟩⟩,
    ⟨.elseWord, .text "else", ⟨1, 9⟩⟩, ⟨.rightBrace, .text "\x7d", ⟨1, 14⟩⟩, .endOfFile]

/-- The parenthesis is passed over with a report, and reading comes to the end. -/
theorem strayTokens_read_to_end :
    EndsOnce strayTokens ∧ EndsReading strayTokens (parseProgram strayTokens) ∧
    ∀ ss s', statement (programBudget strayTokens.length - 1) Scopes.root (.start strayTokens) =
      .ok ss s' → 0 < s'.cursor.index ∧ s'.cursor.index < 7 := by
  have hends : EndsOnce strayTokens := ⟨strayTokens.take 6, _, rfl, rfl, by decide⟩
  obtain ⟨hread, -, hcalls⟩ := parseProgram_reads_to_end hends
  refine ⟨hends, hread, fun ss s' hstatement => ?_⟩
  obtain ⟨-, -, hlast, hpass⟩ :=
    hcalls (.statement (programBudget strayTokens.length - 1) Scopes.root) (.start strayTokens)
      (.single (.programStatement rfl rfl))
  rw [Call.lastState, hstatement] at hlast
  exact ⟨hpass _ _ rfl ss s' hstatement, hlast⟩

end Scriptlet
