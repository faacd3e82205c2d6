import Scriptlet.Proofs.ReaderProgress
import Scriptlet.Proofs.StatementCompleteness

/-! # Calls that stand where they cannot

A node takes its place from its first part, and a call has no place. So an operand, a first operand,
a declared value or an assigned value cannot be a call: reading ends there with `Fault.callPlace`,
although the tokens are those of a program.

Of every other node that a reader of expressions can give, mistakes included, the place is known
(`Node.IsPart`). So no reader meets any other fault but to leave the tokens or to use up its budget
(`Parse.Lands`), and in a list that ends once with enough budget it does neither.
-/
namespace Scriptlet

open ParseState

/-! ## What nodes are made of -/

/-- A node with a place, or a call. -/
def Node.IsPart (e : Node) : Prop :=
  e.isCall = true ∨ e.pos?.isSome = true

theorem Node.isPart_of_pos {e : Node} {p : Pos} (h : e.pos? = some p) : e.IsPart :=
  .inr (h ▸ rfl)

theorem Node.isPart_numberNode (t : Token) : (Parse.numberNode t).IsPart := by
  rw [Parse.numberNode]
  split <;> exact .inr rfl

theorem Node.IsPart.pos_eq {e : Node} (h : e.IsPart) :
    e.pos = .error .callPlace ∨ ∃ p, e.pos? = some p ∧ e.pos = .ok p := by
  rcases h with hcall | hplace
  · cases e with
    | call => exact .inl rfl
    | _ => cases hcall
  · obtain ⟨p, hp⟩ := Option.isSome_iff_exists.mp hplace
    exact .inr ⟨p, hp, by rw [Node.pos, hp]⟩

theorem Cursor.get_eq_error {c : Cursor} {k : Int} {f : Fault} (h : c.get k = .error f) :
    f = .outOfRange := by
  rw [Cursor.get] at h
  -- the index does not matter
  generalize (if (c.index : Int) + k < 0 then _ else _ : Int) = i at h
  split at h
  · cases h
    rfl
  · split at h <;> cases h
    rfl

theorem Cursor.current_eq_error {c : Cursor} {f : Fault} (h : c.current = .error f) :
    f = .outOfRange := by
  rw [Cursor.current] at h
  split at h <;> cases h
  rfl

namespace Parse

variable {α β : Type}

/-! ## How readers end -/

/-- Wherever it starts, the reader gives a result of which `Q` holds, or it leaves the tokens, or it
uses up its budget, or it asks a call for its place. -/
def Lands (x : Parse α) (Q : α → Prop) : Prop :=
  ∀ s, match x s with
    | .ok a _ => Q a
    | .error f _ => f = .outOfRange ∨ f = .exhausted ∨ f = .callPlace

section rules

variable {x y : Parse α} {f : α → Parse β} {P Q : α → Prop} {R : β → Prop}

theorem lands_pure {a : α} (h : Q a) : Lands (pure a : Parse α) Q := fun _ => h

theorem lands_exhausted : Lands (throw .exhausted : Parse α) Q := fun _ => .inr (.inl rfl)

theorem Lands.bind (hx : Lands x P) (hf : ∀ a, P a → Lands (f a) R) : Lands (x >>= f) R := by
  intro s
  have hs := hx s
  cases h : x s with
  | ok a s' =>
    rw [h] at hs
    rw [EStateM.bind_of_ok h]
    exact hf a hs s'
  | error fault s' =>
    rw [h] at hs
    rw [EStateM.bind_of_error h]
    exact hs

/-- A first step of whose result nothing needs to be known. -/
theorem Lands.next (hx : Lands x P) (hf : ∀ a, Lands (f a) R) : Lands (x >>= f) R :=
  hx.bind fun a _ => hf a

theorem Lands.ite {c : Prop} [Decidable c] (hx : Lands x Q) (hy : Lands y Q) :
    Lands (if c then x else y) Q := by
  split
  · exact hx
  · exact hy

theorem lands_look {g : Cursor → Except Fault α}
    (h : ∀ c fault, g c = .error fault → fault = .outOfRange) : Lands (look g) (fun _ => True) := by
  intro s
  rw [look_apply]
  cases hg : g s.cursor with
  | ok a => trivial
  | error fault => exact .inl (h _ _ hg)

theorem lands_look_map {g : Cursor → Except Fault β} (p : β → α)
    (h : ∀ c fault, g c = .error fault → fault = .outOfRange) :
    Lands (look fun c => (g c).map p) (fun _ => True) := by
  refine lands_look fun c fault hmap => ?_
  cases hg : g c with
  | ok b =>
    rw [hg] at hmap
    cases hmap
  | error fault' =>
    rw [hg] at hmap
    cases hmap
    exact h c _ hg

theorem lands_tokenAt (k : Int) : Lands (look fun c => c.get k) (fun _ => True) :=
  lands_look fun _ _ => Cursor.get_eq_error

theorem lands_place : Lands place (fun _ => True) :=
  lands_look_map Token.pos fun _ _ => Cursor.get_eq_error

theorem lands_textAt (k : Int) : Lands (textAt k) (fun _ => True) :=
  lands_look_map Token.text fun _ _ => Cursor.get_eq_error

theorem lands_atEnd : Lands atEnd (fun _ => True) :=
  lands_look_map _ fun _ _ => Cursor.current_eq_error

theorem lands_modify (g : ParseState → ParseState) :
    Lands (modify g) (fun _ => True) := fun _ => trivial

theorem lands_check (kind : TokenKind) : Lands (check kind) (fun _ => True) := by
  refine lands_atEnd.next fun _ => .ite (lands_pure trivial) ?_
  exact (lands_look fun _ _ => Cursor.current_eq_error).next fun _ => lands_pure trivial

theorem lands_advance : Lands advance (fun _ => True) :=
  lands_atEnd.next fun _ => .ite (lands_pure trivial)
    ((lands_modify _).next fun _ => lands_pure trivial)

theorem lands_accept : ∀ kinds : List TokenKind, Lands (accept kinds) (fun _ => True)
  | [] => lands_pure trivial
  | kind :: kinds => (lands_check kind).next fun _ =>
    .ite (lands_advance.next fun _ => lands_pure trivial) (lands_accept kinds)

theorem lands_synchronize : Lands synchronize (fun _ => True) := by
  have hget : Lands (get : Parse ParseState) (fun _ => True) := fun _ => trivial
  refine hget.next fun s => ?_
  dsimp only
  split
  · exact lands_modify _
  · exact (lands_modify _).next fun _ _ => .inl rfl

theorem lands_declareError (problem : GrammarProblem) :
    Lands (declareError problem) (fun _ => True) :=
  lands_place.next fun _ => (lands_modify _).next fun _ => lands_synchronize

theorem lands_mistake (problem : GrammarProblem) {a : α} (h : Q a) :
    Lands (do declareError problem; return a) Q :=
  (lands_declareError problem).next fun _ => lands_pure h

theorem lands_expect (kind : TokenKind) (problem : GrammarProblem) :
    Lands (expect kind problem) (fun _ => True) :=
  (lands_accept _).next fun _ => .ite (lands_pure trivial) (lands_mistake problem trivial)

theorem lands_openScope (parent : ScopeId) : Lands (openScope parent) (fun _ => True) :=
  fun _ => trivial

/-- Whether a node is made depends on whether its first part has a place. -/
theorem lands_make {first : Node} (h : first.IsPart) {e : Node} {Q : Node → Prop}
    (hQ : ∀ p, first.pos? = some p → Q e) :
    Lands (Parse.ofExcept (first.pos.map fun _ => e)) Q := by
  obtain herror | ⟨p, hp, hok⟩ := h.pos_eq
  · rw [herror]
    exact fun _ => .inr (.inr rfl)
  · rw [hok]
    exact lands_pure (hQ p hp)

end rules

/-! ## Expressions -/

theorem lands_join (l : Level) (operator : String) {left : Node} (right : Node)
    (h : left.IsPart) : Lands (Parse.ofExcept (l.join operator left right)) Node.IsPart := by
  rw [Level.join_eq]
  refine lands_make h fun p hp => Node.isPart_of_pos (p := p) ?_
  rw [Level.pos?_joined]
  exact hp

/-- All readers of expressions give parts of nodes. -/
structure LandOnParts (n : Nat) : Prop where
  expression : ∀ l, Lands (expression n l) Node.IsPart
  chain : ∀ l left, left.IsPart → Lands (chain n l left) Node.IsPart
  primitive : Lands (primitive n) Node.IsPart
  call : Lands (call n) Node.IsPart
  arguments : Lands (arguments n) (fun _ => True)

namespace LandOnParts

variable {n : Nat}

theorem chain_succ (ih : LandOnParts n) (l : Level) {left : Node} (h : left.IsPart) :
    Lands (Parse.chain (n + 1) l left) Node.IsPart := by
  refine (lands_accept _).next fun _ => .ite ?_ (lands_pure h)
  refine (lands_textAt _).next fun operator => (ih.expression _).next fun right => ?_
  exact (lands_join l operator right h).bind fun node hnode => ih.chain l node hnode

theorem expression_succ (ih : LandOnParts n) (l : Level) :
    Lands (Parse.expression (n + 1) l) Node.IsPart := by
  cases l with
  | negation =>
    refine (lands_accept _).next fun _ => .ite ?_ (ih.expression _)
    exact (ih.expression _).bind fun o ho => lands_make ho fun p hp => Node.isPart_of_pos hp
  | sign =>
    refine (lands_accept _).next fun _ => .ite ?_ (ih.expression _)
    refine (lands_textAt _).next fun operator => ?_
    exact (ih.expression _).bind fun o ho => lands_make ho fun p hp => Node.isPart_of_pos hp
  | primitive => exact ih.primitive
  | disjunction | conjunction | equality | comparison | sum | product | power =>
    exact (ih.expression _).bind fun left hleft => ih.chain _ left hleft

theorem primitive_succ (ih : LandOnParts n) : Lands (Parse.primitive (n + 1)) Node.IsPart := by
  refine lands_place.next fun before => ?_
  refine (lands_accept _).next fun _ => .ite ?_ ?_
  · exact (lands_tokenAt _).next fun t => lands_pure (Node.isPart_numberNode t)
  refine (lands_accept _).next fun _ => .ite ?_ ?_
  · exact (lands_tokenAt _).next fun t => lands_pure (.inr rfl)
  refine (lands_accept _).next fun _ => .ite (lands_place.next fun _ => lands_pure (.inr rfl)) ?_
  refine (lands_accept _).next fun _ => .ite (lands_place.next fun _ => lands_pure (.inr rfl)) ?_
  refine (lands_accept _).next fun _ => .ite (lands_pure (.inr rfl)) ?_
  refine (lands_accept _).next fun _ => .ite ?_ ?_
  · refine (ih.expression _).bind fun node hnode => (lands_expect _ _).next fun found => ?_
    exact .ite (lands_pure hnode) (lands_pure (.inr rfl))
  refine (lands_accept _).next fun _ => .ite ?_ (lands_mistake _ (.inr rfl))
  refine (lands_accept _).next fun _ => .ite ih.call ?_
  exact (lands_tokenAt _).next fun t => lands_pure (.inr rfl)

theorem call_succ (ih : LandOnParts n) : Lands (Parse.call (n + 1)) Node.IsPart := by
  refine (lands_textAt _).next fun callee => ih.arguments.next fun args? => ?_
  cases args? with
  | some args => exact lands_pure (.inl rfl)
  | none => exact lands_place.next fun _ => lands_pure (.inr rfl)

theorem arguments_succ (ih : LandOnParts n) :
    Lands (Parse.arguments (n + 1)) (fun _ => True) := by
  refine (ih.expression _).next fun arg => (lands_accept _).next fun _ => .ite ?_ ?_
  · exact ih.arguments.next fun _ => lands_pure trivial
  · exact (lands_accept _).next fun _ => .ite (lands_pure trivial) (lands_mistake _ trivial)

theorem all : ∀ n, LandOnParts n
  | 0 => ⟨fun _ => lands_exhausted, fun _ _ _ => lands_exhausted, lands_exhausted, lands_exhausted,
      lands_exhausted⟩
  | n + 1 =>
    have ih := all n
    ⟨ih.expression_succ, fun l _ h => ih.chain_succ l h, ih.primitive_succ, ih.call_succ,
      ih.arguments_succ⟩

end LandOnParts

theorem lands_expression (n : Nat) (l : Level) : Lands (expression n l) Node.IsPart :=
  (LandOnParts.all n).expression l

/-! ## Statements -/

variable {n : Nat}

theorem lands_compoundValue (name : String) : ∀ ops : List (TokenKind × Arithmetic),
    Lands (compoundValue n name ops) (fun value => ∀ v, value = some v → v.IsPart)
  | [] => lands_pure fun _ h => by cases h
  | (_, op) :: ops => by
    refine (lands_accept _).next fun _ => .ite ?_ (lands_compoundValue name ops)
    refine lands_place.next fun p => (lands_expression n _).next fun right => ?_
    have hmake : Lands (Parse.ofExcept (Node.mkArithmetic op (.identifier name p) right))
        Node.IsPart :=
      lands_make (.inr rfl) fun _ _ => .inr rfl
    refine hmake.bind fun node hnode => lands_pure fun v hv => ?_
    cases hv
    exact hnode

theorem lands_assignment : Lands (assignment n) (fun _ => True) := by
  refine (lands_textAt _).next fun name => lands_place.next fun before => ?_
  refine (lands_accept _).next fun _ => .ite ?_ ?_
  · exact (lands_expression n _).bind fun v hv => lands_make hv fun _ _ => trivial
  · refine (lands_compoundValue name _).bind fun value hvalue => ?_
    cases value with
    | some v => exact lands_make (hvalue v rfl) fun _ _ => trivial
    | none => exact lands_mistake _ trivial

theorem lands_declarator (type : String) (m : Bool) :
    Lands (declarator n type m) (fun _ => True) := by
  refine lands_place.next fun before => (lands_expect _ _).next fun found => ?_
  refine .ite (lands_pure trivial) ((lands_textAt _).next fun name => ?_)
  refine (lands_accept _).next fun _ => .ite ?_ ?_
  · exact (lands_expression n _).bind fun v hv => lands_make hv fun _ _ => trivial
  · have hempty : Lands (Parse.ofExcept (Node.mkDeclaration name type m (.empty before)))
        (fun _ => True) := lands_make (.inr rfl) fun _ _ => trivial
    refine (lands_check _).next fun _ => .ite hempty ?_
    exact (lands_check _).next fun _ => .ite hempty (lands_mistake _ trivial)

theorem lands_declarators (type : String) (m : Bool) :
    ∀ n, Lands (declarators n type m) (fun _ => True)
  | 0 => lands_exhausted
  | n + 1 => by
    refine (lands_declarator type m).next fun first => (lands_accept _).next fun _ => .ite ?_ ?_
    · exact (lands_declarators type m n).next fun _ => lands_pure trivial
    · exact lands_pure trivial

theorem lands_declaration (before : Pos) : Lands (declaration n before) (fun _ => True) := by
  refine (lands_accept _).next fun _ => .ite ?_ (lands_mistake _ trivial)
  refine (lands_tokenAt _).next fun introduced => (lands_textAt _).next fun type => ?_
  exact lands_declarators type _ n

/-- All readers of statements end in one of these ways. -/
structure StatementsLand (n : Nat) : Prop where
  statement : ∀ scope, Lands (statement n scope) (fun _ => True)
  conditional : ∀ scope, Lands (conditional n scope) (fun _ => True)
  branches : ∀ scope, Lands (branches n scope) (fun _ => True)
  block : ∀ scope, Lands (block n scope) (fun _ => True)
  blockBody : ∀ scope, Lands (blockBody n scope) (fun _ => True)

namespace StatementsLand

theorem statement_succ (ih : StatementsLand n) (scope : ScopeId) :
    Lands (Parse.statement (n + 1) scope) (fun _ => True) := by
  rw [Parse.statement]
  refine lands_place.next fun before => ?_
  refine (lands_accept _).next fun _ => .ite (lands_declaration before) ?_
  refine (lands_accept _).next fun _ => .ite ?_ ?_
  · refine (lands_accept _).next fun _ => .ite ?_ ?_
    · exact (LandOnParts.all n).call.next fun _ => lands_pure trivial
    · exact lands_assignment.next fun _ => lands_pure trivial
  refine (lands_accept _).next fun _ => .ite ?_ ?_
  · exact (ih.conditional scope).next fun _ => lands_pure trivial
  refine (lands_accept _).next fun _ => .ite ?_ ?_
  · refine (lands_expression n _).next fun _ => (ih.block scope).next fun _ => lands_pure trivial
  refine (lands_accept _).next fun _ => .ite ?_ ?_
  · exact lands_place.next fun _ => (ih.block scope).next fun _ => lands_pure trivial
  refine (lands_accept _).next fun _ => .ite (lands_pure trivial) ?_
  exact (lands_accept _).next fun _ => .ite (lands_pure trivial) (lands_mistake _ trivial)

theorem conditional_succ (ih : StatementsLand n) (scope : ScopeId) :
    Lands (Parse.conditional (n + 1) scope) (fun _ => True) := by
  rw [Parse.conditional]
  refine (ih.branches scope).next fun _ => (lands_accept _).next fun _ => .ite ?_ ?_
  · exact (ih.block scope).next fun _ => lands_pure trivial
  · exact lands_place.next fun _ => lands_pure trivial

theorem branches_succ (ih : StatementsLand n) (scope : ScopeId) :
    Lands (Parse.branches (n + 1) scope) (fun _ => True) := by
  rw [Parse.branches]
  refine (lands_expression n _).next fun _ => (ih.block scope).next fun _ => ?_
  refine (lands_accept _).next fun _ => .ite ?_ (lands_pure trivial)
  exact (ih.branches scope).next fun _ => lands_pure trivial

theorem block_succ (ih : StatementsLand n) (scope : ScopeId) :
    Lands (Parse.block (n + 1) scope) (fun _ => True) := by
  rw [Parse.block]
  refine lands_place.next fun before => (lands_expect _ _).next fun _ => ?_
  refine .ite (lands_pure trivial) ((lands_openScope scope).next fun inner => ?_)
  refine (ih.blockBody inner).next fun body => ?_
  cases body <;> exact lands_pure trivial

theorem blockBody_succ (ih : StatementsLand n) (scope : ScopeId) :
    Lands (Parse.blockBody (n + 1) scope) (fun _ => True) := by
  rw [Parse.blockBody]
  refine (lands_accept _).next fun _ => .ite (ih.blockBody scope) ?_
  refine lands_atEnd.next fun _ => .ite (lands_mistake _ trivial) ?_
  refine (lands_accept _).next fun _ => .ite (lands_pure trivial) ?_
  refine (ih.statement scope).next fun _ => (ih.blockBody scope).next fun _ => ?_
  exact lands_pure trivial

theorem zero : StatementsLand 0 where
  statement _ := by rw [Parse.statement]; exact lands_exhausted
  conditional _ := by rw [Parse.conditional]; exact lands_exhausted
  branches _ := by rw [Parse.branches]; exact lands_exhausted
  block _ := by rw [Parse.block]; exact lands_exhausted
  blockBody _ := by rw [Parse.blockBody]; exact lands_exhausted

theorem all : ∀ n, StatementsLand n
  | 0 => zero
  | n + 1 =>
    have ih := all n
    ⟨ih.statement_succ, ih.conditional_succ, ih.branches_succ, ih.block_succ, ih.blockBody_succ⟩

end StatementsLand

theorem lands_programBody : ∀ n, Lands (programBody n) (fun _ => True)
  | 0 => lands_exhausted
  | n + 1 => by
    refine (lands_accept _).next fun _ => .ite (lands_programBody n) ?_
    refine lands_atEnd.next fun _ => .ite (lands_pure trivial) ?_
    refine ((StatementsLand.all n).statement _).next fun _ => ?_
    exact (lands_programBody n).next fun _ => lands_pure trivial

/-! ## Programs -/

/-- In a list that ends once, reading a program neither leaves the tokens nor uses up its budget. -/
theorem eq_callPlace_of_parseProgram {tokens : List Token} (h : EndsOnce tokens) {f : Fault}
    {s : ParseState} (herror : parseProgram tokens = .error f s) : f = .callPlace := by
  have hgoes : Goes (between [] tokens {} []) (fun _ s' => s'.ahead = 1)
      (programBody (programBudget tokens.length) (between [] tokens {} [])) := by
    refine goes_programBody (ready_between h) ?_
    rw [ahead_between, programBudget]
    omega
  have hlands := lands_programBody (programBudget tokens.length) (between [] tokens {} [])
  rw [parseProgram_eq] at herror
  cases hbody : programBody (programBudget tokens.length) (between [] tokens {} []) with
  | ok ss s' =>
    rw [EStateM.bind_of_ok hbody] at herror
    cases herror
  | error f' s' =>
    rw [EStateM.bind_of_error hbody] at herror
    cases herror
    rw [hbody] at hgoes hlands
    obtain ⟨-, kind, rfl⟩ := hgoes
    rcases hlands with hrange | hbudget | hcall
    · cases hrange
    · cases hbudget
    · exact hcall

end Parse

/-- **Which programs are not read.** Let the last token, and no other, mark the end. Then the only
fault that reading can meet is that a call is asked for its place. If the tokens are those of a
program by the grammar, reading meets it exactly if a call, in parentheses or not, is a declared or
plainly assigned value, the operand of a sign or of `not`, or the left operand of an operator;
otherwise it gives that program and reports nothing. -/
theorem parseProgram_callPlace_iff :
    (∀ tokens, EndsOnce tokens → ∀ f s, parseProgram tokens = .error f s →
      f = .callPlace ∧ f.message = "'CallNode' object has no attribute 'line'") ∧
    ∀ seg last σ ns, last.kind = .endOfFile → Composes Scopes.root {} seg σ (.body ns) →
      ((∃ s, parseProgram (seg ++ [last]) = .error .callPlace s) ↔
        Node.exposesCallAny ns = true) ∧
      (Node.exposesCallAny ns = false →
        ∃ s, parseProgram (seg ++ [last]) = .ok (.program ns Scopes.root) s ∧ s.reports = []) := by
  refine ⟨fun tokens h f s herror => ?_, fun seg last σ ns hlast h => ?_⟩
  · obtain rfl := Parse.eq_callPlace_of_parseProgram h herror
    exact ⟨rfl, rfl⟩
  · have hread := parseProgram_becomes h hlast
    cases hexposes : Node.exposesCallAny ns with
    | true => exact ⟨⟨fun _ => rfl, fun _ => hread.exists_error hexposes⟩, nofun⟩
    | false =>
      have hok := hread.eq hexposes
      refine ⟨⟨fun ⟨s, herror⟩ => ?_, nofun⟩, fun _ => ⟨_, hok, rfl⟩⟩
      cases hok.symm.trans herror

/-- The tokens of `f(x)`. -/
def callTokens : List Token :=
  [⟨.identifier, .text "f", ⟨1, 5⟩⟩, ⟨.leftParen, .text "(", ⟨1, 6⟩⟩,
    ⟨.identifier, .text "x", ⟨1, 7⟩⟩, ⟨.rightParen, .text ")", ⟨1, 8⟩⟩]

theorem spans_callTokens (before : Pos) : Spans before callTokens
    (.expression .disjunction (.call "f" [.identifier "x" ⟨1, 7⟩])) := by
  have hargs : Derives ⟨1, 6⟩ [⟨.identifier, .text "x", ⟨1, 7⟩⟩]
      (.arguments [.identifier "x" ⟨1, 7⟩]) :=
    .last ((Derives.name rfl rfl).weaken (by decide))
  have hcall : Derives before callTokens
      (.expression .primitive (.call "f" [.identifier "x" ⟨1, 7⟩])) := by
    show Derives before (_ :: _ :: ([_] ++ [_])) _
    exact .call rfl rfl rfl rfl hargs
  refine (hcall.weaken (by decide)).spans ?_
  simp only [callTokens, List.forall_mem_cons]
  exact ⟨⟨_, rfl⟩, ⟨_, rfl, rfl⟩, ⟨_, rfl⟩, ⟨_, rfl, rfl⟩, List.forall_mem_nil _⟩

/-- `y = f(x)` is not read, and `y += f(x)` is. -/
theorem parseProgram_assignedCall :
    let y : Token := ⟨.identifier, .text "y", ⟨1, 0⟩⟩
    let assigned := y :: ⟨.assign, .text "=", ⟨1, 2⟩⟩ :: callTokens
    let added := y :: ⟨.plusAssign, .text "+=", ⟨1, 2⟩⟩ :: callTokens
    (∃ s, parseProgram (assigned ++ [.endOfFile]) = .error .callPlace s) ∧
    (∀ f s, parseProgram (added ++ [.endOfFile]) ≠ .error f s) ∧
    ∃ n s, parseProgram (added ++ [.endOfFile]) = .ok n s ∧ s.reports = [] := by
  intro y assigned added
  obtain ⟨honly, hiff⟩ := parseProgram_callPlace_iff
  have hassigned : Composes Scopes.root {} (assigned ++ []) {}
      (.body [.assignment "y" (.call "f" [.identifier "x" ⟨1, 7⟩])]) :=
    .cons (.assignment rfl rfl (spans_callTokens _)) .nil nofun
  have hadded : Composes Scopes.root {} (added ++ []) {} (.body [.assignment "y"
      (.arithmetic .add (.identifier "y" ⟨1, 2⟩) (.call "f" [.identifier "x" ⟨1, 7⟩]))]) :=
    .cons (.update rfl rfl (spans_callTokens _)) .nil nofun
  rw [List.append_nil] at hassigned hadded
  obtain ⟨hno, hyes⟩ := hiff added .endOfFile _ _ rfl hadded
  refine ⟨(hiff assigned .endOfFile _ _ rfl hassigned).1.mpr rfl, fun f s herror => ?_,
    _, hyes rfl⟩
  have hends : EndsOnce (added ++ [.endOfFile]) := ⟨added, _, rfl, rfl, by decide⟩
  obtain ⟨rfl, -⟩ := honly _ hends f s herror
  cases hno.mp ⟨s, herror⟩

end Scriptlet
