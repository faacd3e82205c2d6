import Scriptlet.Proofs.SourceText
import Scriptlet.Proofs.StatementGrammar
import Scriptlet.Proofs.TerminatorStyles

/-! # Programs as they are meant

The syntax trees that a programmer has in mind, apart from tokens, terminators and parentheses. The
types leave out what cannot be written down: names are names, texts can be quoted, and a call stands
only where the language lets it stand, which is as a statement, a condition, an argument, or to the
right of an operator.

A script can be written down line by line, with parentheses exactly where the levels of its
operators ask for them (`Statements.lines`), and it has a tree of nodes with numbered scopes
(`Statements.trees`). Whether reading the one gives the other is the subject of `ScriptReading`.
-/
namespace Scriptlet.Script

/-! ## Expressions -/

/-- A name that is no keyword. -/
structure Name where
  /-- The name as it is written. -/
  text : String
  /-- It is written like a name. -/
  isName : Word.IsName text

/-- A number that can be written with a point. -/
structure Fraction where
  /-- The number. -/
  value : Float
  /-- It is read from its digits. -/
  isFraction : Word.IsFraction value

/-- A text that can be written between quotes. -/
structure Quote where
  /-- The text without its quotes. -/
  text : String
  /-- It lacks one of the quotes, and nothing in it looks like an escape. -/
  quotable : Word.Quotable text

mutual

/-- An expression that is no call. -/
inductive Operand where
  /-- An integer literal. -/
  | integer (n : Nat)
  /-- A literal with a point. -/
  | fraction (x : Fraction)
  /-- A text literal. -/
  | text (s : Quote)
  /-- `true` or `false`. -/
  | truth (b : Bool)
  /-- `none`. -/
  | nothing
  /-- A variable. -/
  | variable (x : Name)
  /-- A minus sign before an expression. -/
  | minus (e : Operand)
  /-- `not` before an expression. -/
  | not (e : Operand)
  /-- Two expressions and an operator between them. -/
  | binary (op : Operator) (left : Operand) (right : Expr)

/-- An expression. -/
inductive Expr where
  /-- No call. -/
  | operand (o : Operand)
  /-- A call. -/
  | call (f : Name) (args : Args)

/-- The arguments of a call. -/
inductive Args where
  /-- One argument. -/
  | last (e : Expr)
  /-- An argument and further ones. -/
  | more (e : Expr) (rest : Args)

end

/-- The level that an expression belongs to. -/
def Operand.level : Operand → Level
  | .minus _ => .sign
  | .not _ => .negation
  | .binary op _ _ => op.level
  | _ => .primitive

/-- The level that an expression belongs to. -/
def Expr.level : Expr → Level
  | .operand o => o.level
  | .call .. => .primitive

/-- Words between parentheses. -/
def grouped (ws : List Word) : List Word :=
  Word.fixed .leftParen :: (ws ++ [Word.fixed .rightParen])

/-- An expression of level `l` where one of level `m` has to stand: in parentheses, if it is
weaker. -/
def atLevel (m l : Level) (ws : List Word) : List Word :=
  if m.rank ≤ l.rank then ws else grouped ws

mutual

/-- The words of an expression. -/
def Operand.words : Operand → List Word
  | .integer n => [⟨.number, .int n⟩]
  | .fraction x => [⟨.number, .float x.value⟩]
  | .text s => [⟨.text, .text s.text⟩]
  | .truth b => [Word.fixed (if b then .trueWord else .falseWord)]
  | .nothing => [Word.fixed .noneWord]
  | .variable x => [⟨.identifier, .text x.text⟩]
  | .minus e => Word.fixed .minus :: atLevel .sign e.level e.words
  | .not e => Word.fixed .notWord :: atLevel .negation e.level e.words
  | .binary op l r =>
    atLevel op.level.leftSide l.level l.words ++
      Word.fixed op.kind :: atLevel op.level.rightSide r.level r.words

/-- The words of an expression. -/
def Expr.words : Expr → List Word
  | .operand o => o.words
  | .call f args => ⟨.identifier, .text f.text⟩ :: grouped args.words

/-- The words of arguments. -/
def Args.words : Args → List Word
  | .last e => e.words
  | .more e rest => e.words ++ Word.fixed .comma :: rest.words

end

mutual

/-- The tree of an expression. -/
def Operand.tree : Operand → Node
  | .integer n => .literal .int (.int n) Pos.none
  | .fraction x => .literal .float (.float x.value) Pos.none
  | .text s => .literal .string (.str s.text) Pos.none
  | .truth b => .literal .bool (.bool b) Pos.none
  | .nothing => .empty Pos.none
  | .variable x => .identifier x.text Pos.none
  | .minus e => .signed .minus e.tree
  | .not e => .negation e.tree
  | .binary op l r => op.node l.tree r.tree

/-- The tree of an expression. -/
def Expr.tree : Expr → Node
  | .operand o => o.tree
  | .call f args => .call f.text args.trees

/-- The trees of arguments. -/
def Args.trees : Args → List Node
  | .last e => [e.tree]
  | .more e rest => e.tree :: rest.trees

end

/-! ## Statements -/

/-- The types of variables. -/
inductive VariableType where
  | int | float | string | bool
deriving DecidableEq, Repr

/-- The keyword of a type. -/
def VariableType.kind : VariableType → TokenKind
  | int => .intWord
  | float => .floatWord
  | string => .stringWord
  | bool => .boolWord

/-- The name of a type. -/
def VariableType.name : VariableType → String
  | int => "int"
  | float => "float"
  | string => "string"
  | bool => "bool"

/-- A statement without a block. -/
inductive Simple where
  /-- A declaration, with or without a value. -/
  | declare (isMutable : Bool) (type : VariableType) (x : Name) (value : Option Operand)
  /-- An assignment. -/
  | assign (x : Name) (value : Operand)
  /-- A call. -/
  | call (f : Name) (args : Args)
  /-- `break`. -/
  | breakLoop
  /-- `continue`. -/
  | continueLoop

/-- The words of a statement without a block. -/
def Simple.words : Simple → List Word
  | .declare isMutable type x value =>
    Word.fixed (if isMutable then .varWord else .letWord) :: Word.fixed type.kind ::
      ⟨.identifier, .text x.text⟩ ::
      match value with
      | some v => Word.fixed .assign :: v.words
      | none => []
  | .assign x v => ⟨.identifier, .text x.text⟩ :: Word.fixed .assign :: v.words
  | .call f args => (Expr.call f args).words
  | .breakLoop => [Word.fixed .breakWord]
  | .continueLoop => [Word.fixed .continueWord]

/-- The tree of a statement without a block. -/
def Simple.tree : Simple → Node
  | .declare isMutable type x value =>
    .declaration x.text type.name isMutable ((value.map Operand.tree).getD (.empty Pos.none))
  | .assign x v => .assignment x.text v.tree
  | .call f args => (Expr.call f args).tree
  | .breakLoop => .breakLoop
  | .continueLoop => .continueLoop

mutual

/-- A statement. -/
inductive Statement where
  /-- A statement without a block. -/
  | simple (s : Simple)
  /-- A conditional statement that does nothing otherwise. -/
  | conditional (branches : Branches)
  /-- A conditional statement with a last block. -/
  | conditionalElse (branches : Branches) (otherwise : Statements)
  /-- A loop. -/
  | loop (condition : Expr) (body : Statements)

/-- Conditions and their blocks. -/
inductive Branches where
  /-- One condition. -/
  | last (condition : Expr) (body : Statements)
  /-- A condition and further ones. -/
  | more (condition : Expr) (body : Statements) (rest : Branches)

/-- Statements one after the other. -/
inductive Statements where
  /-- No statement. -/
  | nil
  /-- A statement and further ones. -/
  | cons (first : Statement) (rest : Statements)

end

/-- The line on which a block begins, with the words before its brace. -/
def opening (ws : List Word) : Line :=
  ⟨ws ++ [Word.fixed .leftBrace], false⟩

/-- The line on which a block ends. -/
def closing : Line :=
  ⟨[Word.fixed .rightBrace], false⟩

mutual

/-- The lines of a statement. -/
def Statement.lines : Statement → List Line
  | .simple s => [⟨s.words, true⟩]
  | .conditional branches => branches.lines .ifWord
  | .conditionalElse branches otherwise =>
    branches.lines .ifWord ++
      opening [Word.fixed .elseWord] :: (otherwise.lines ++ [closing])
  | .loop condition body =>
    opening (Word.fixed .whileWord :: condition.words) :: (body.lines ++ [closing])

/-- The lines of conditions and their blocks, of which the first begins with the given keyword. -/
def Branches.lines (keyword : TokenKind) : Branches → List Line
  | .last condition body =>
    opening (Word.fixed keyword :: condition.words) :: (body.lines ++ [closing])
  | .more condition body rest =>
    opening (Word.fixed keyword :: condition.words) ::
      (body.lines ++ closing :: rest.lines .elifWord)

/-- The lines of statements. -/
def Statements.lines : Statements → List Line
  | .nil => []
  | .cons first rest => first.lines ++ rest.lines

end

mutual

/-- The tree of a statement inside a scope, and the scopes behind it. -/
def Statement.tree (scope : ScopeId) (σ : Scopes) : Statement → Node × Scopes
  | .simple s => (s.tree, σ)
  | .conditional branches =>
    let (bs, σ) := branches.trees scope σ
    (.conditional bs (.empty Pos.none), σ)
  | .conditionalElse branches otherwise =>
    let (bs, σ) := branches.trees scope σ
    let (σ, inner) := σ.openIn scope
    let (ss, σ) := otherwise.trees inner σ
    (.conditional bs (.otherwise (.block ss inner)), σ)
  | .loop condition body =>
    let (σ, inner) := σ.openIn scope
    let (ss, σ) := body.trees inner σ
    (.loop condition.tree (.block ss inner), σ)

/-- The trees of conditions and their blocks. -/
def Branches.trees (scope : ScopeId) (σ : Scopes) : Branches → List (Node × Node) × Scopes
  | .last condition body =>
    let (σ, inner) := σ.openIn scope
    let (ss, σ) := body.trees inner σ
    ([(condition.tree, .block ss inner)], σ)
  | .more condition body rest =>
    let (σ, inner) := σ.openIn scope
    let (ss, σ) := body.trees inner σ
    let (bs, σ) := rest.trees scope σ
    ((condition.tree, .block ss inner) :: bs, σ)

/-- The trees of statements. -/
def Statements.trees (scope : ScopeId) (σ : Scopes) : Statements → List Node × Scopes
  | .nil => ([], σ)
  | .cons first rest =>
    let (n, σ) := first.tree scope σ
    let (ns, σ) := rest.trees scope σ
    (n :: ns, σ)

end

/-! ## The words of an expression

They can all be written, none is a terminator, the parentheses are closed, and the last of them is
one that a statement can end with, or `none`. -/

/-- A word that can stand inside a line. -/
def IsInner (w : Word) : Prop :=
  w.Writable ∧ w.kind ≠ .newline ∧ w.kind ≠ .semicolon ∧ w.kind ≠ .endOfFile

/-- All parentheses are closed. -/
def Balanced (ws : List Word) : Prop :=
  ∀ d, (ws.map Word.kind).foldl depthBehind d = d

/-- The last word can end a statement, or is `none`. -/
def EndsExpression (ws : List Word) : Prop :=
  ∃ init w, ws = init ++ [w] ∧ (w.kind.endsStatement = true ∨ w = Word.fixed .noneWord)

/-- Words that are written like an expression. -/
structure IsPhrase (ws : List Word) : Prop where
  inner : ∀ w ∈ ws, IsInner w
  balanced : Balanced ws
  ends : EndsExpression ws

theorem isInner_fixed {k : TokenKind} (h : k.spelling?.isSome ∧ k ≠ .semicolon) :
    IsInner (Word.fixed k) := by
  refine ⟨.fixed h.1, ?_, h.2, ?_⟩
  · rintro rfl
    exact absurd h.1 (by decide)
  · rintro rfl
    exact absurd h.1 (by decide)

theorem isInner_of_kind {k : TokenKind} {c : TokenContent} (h : Word.Writable ⟨k, c⟩)
    (hk : k ≠ .newline ∧ k ≠ .semicolon ∧ k ≠ .endOfFile) : IsInner ⟨k, c⟩ :=
  ⟨h, hk⟩

theorem isInner_name (x : Name) : IsInner ⟨.identifier, .text x.text⟩ :=
  isInner_of_kind (.name x.isName) (by decide)

theorem Balanced.nil : Balanced [] :=
  fun _ => rfl

theorem Balanced.append {ws vs : List Word} (h : Balanced ws) (h' : Balanced vs) :
    Balanced (ws ++ vs) := by
  intro d
  rw [List.map_append, List.foldl_append, h, h']

theorem Balanced.single {k : TokenKind} {c : TokenContent} (h : k ≠ .leftParen ∧ k ≠ .rightParen) :
    Balanced [⟨k, c⟩] := by
  intro d
  show depthBehind d k = d
  unfold depthBehind
  split
  · exact absurd rfl h.1
  · exact absurd rfl h.2
  · rfl

theorem Balanced.cons {k : TokenKind} {c : TokenContent} {ws : List Word}
    (h : k ≠ .leftParen ∧ k ≠ .rightParen) (h' : Balanced ws) : Balanced (⟨k, c⟩ :: ws) :=
  (Balanced.single h).append h'

theorem Balanced.grouped {ws : List Word} (h : Balanced ws) : Balanced (grouped ws) := by
  intro d
  rw [Script.grouped, List.map_cons, List.foldl_cons, List.map_append, List.foldl_append, h]
  rfl

theorem EndsExpression.append {ws : List Word} (vs : List Word) (h : EndsExpression ws) :
    EndsExpression (vs ++ ws) := by
  obtain ⟨init, w, rfl, hw⟩ := h
  exact ⟨vs ++ init, w, (List.append_assoc ..).symm, hw⟩

theorem EndsExpression.grouped (ws : List Word) : EndsExpression (grouped ws) :=
  ⟨Word.fixed .leftParen :: ws, Word.fixed .rightParen, rfl, .inl rfl⟩

namespace IsPhrase

theorem single {k : TokenKind} {c : TokenContent} (h : IsInner ⟨k, c⟩)
    (hp : k ≠ .leftParen ∧ k ≠ .rightParen)
    (he : k.endsStatement = true ∨ (⟨k, c⟩ : Word) = Word.fixed .noneWord) :
    IsPhrase [⟨k, c⟩] := by
  refine ⟨?_, .single hp, [], _, rfl, he⟩
  intro v hv
  rw [List.mem_singleton.mp hv]
  exact h

/-- A phrase behind words that can stand before one. -/
theorem append {vs ws : List Word} (h : ∀ w ∈ vs, IsInner w) (hb : Balanced vs)
    (h' : IsPhrase ws) : IsPhrase (vs ++ ws) := by
  refine ⟨?_, hb.append h'.balanced, h'.ends.append vs⟩
  intro w hw
  rcases List.mem_append.mp hw with hw | hw
  · exact h w hw
  · exact h'.inner w hw

theorem cons {k : TokenKind} {c : TokenContent} {ws : List Word} (hk : IsInner ⟨k, c⟩)
    (hp : k ≠ .leftParen ∧ k ≠ .rightParen) (h : IsPhrase ws) : IsPhrase (⟨k, c⟩ :: ws) := by
  refine ⟨?_, h.balanced.cons hp, h.ends.append [_]⟩
  intro w hw
  rcases List.mem_cons.mp hw with rfl | hw
  · exact hk
  · exact h.inner w hw

theorem grouped {ws : List Word} (h : IsPhrase ws) : IsPhrase (grouped ws) := by
  refine ⟨?_, h.balanced.grouped, .grouped ws⟩
  intro w hw
  rcases List.mem_cons.mp hw with rfl | hw
  · exact isInner_fixed (by decide)
  rcases List.mem_append.mp hw with hw | hw
  · exact h.inner w hw
  · rw [List.mem_singleton.mp hw]
    exact isInner_fixed (by decide)

theorem atLevel {m l : Level} {ws : List Word} (h : IsPhrase ws) : IsPhrase (atLevel m l ws) := by
  rw [Script.atLevel]
  split
  · exact h
  · exact h.grouped

/-- Two phrases and an operator between them. -/
theorem join {k : TokenKind} {ws vs : List Word} (hk : k.spelling?.isSome ∧ k ≠ .semicolon)
    (hp : k ≠ .leftParen ∧ k ≠ .rightParen) (h : IsPhrase ws) (h' : IsPhrase vs) :
    IsPhrase (ws ++ Word.fixed k :: vs) :=
  append h.inner h.balanced (cons (isInner_fixed hk) hp h')

end IsPhrase

theorem kind_of_operator (op : Operator) :
    (op.kind.spelling?.isSome ∧ op.kind ≠ .semicolon) ∧
      op.kind ≠ .leftParen ∧ op.kind ≠ .rightParen := by
  cases op <;> decide

mutual

theorem Operand.isPhrase : ∀ e : Operand, IsPhrase e.words
  | .integer n => .single (isInner_of_kind (.number n) (by decide)) (by decide) (.inl rfl)
  | .fraction x =>
    .single (isInner_of_kind (.fraction x.isFraction) (by decide)) (by decide) (.inl rfl)
  | .text s => .single (isInner_of_kind (.text s.quotable) (by decide)) (by decide) (.inl rfl)
  | .truth true | .truth false => .single (isInner_fixed (by decide)) (by decide) (.inl rfl)
  | .nothing => .single (isInner_fixed (by decide)) (by decide) (.inr rfl)
  | .variable x => .single (isInner_name x) (by decide) (.inl rfl)
  | .minus e => .cons (isInner_fixed (by decide)) (by decide) e.isPhrase.atLevel
  | .not e => .cons (isInner_fixed (by decide)) (by decide) e.isPhrase.atLevel
  | .binary op l r =>
    .join (kind_of_operator op).1 (kind_of_operator op).2 l.isPhrase.atLevel r.isPhrase.atLevel

theorem Expr.isPhrase : ∀ e : Expr, IsPhrase e.words
  | .operand o => o.isPhrase
  | .call f args => .cons (isInner_name f) (by decide) args.isPhrase.grouped

theorem Args.isPhrase : ∀ args : Args, IsPhrase args.words
  | .last e => e.isPhrase
  | .more e rest => .join (by decide) (by decide) e.isPhrase rest.isPhrase

end

/-! ## The lines of a script -/

theorem Simple.isPhrase : ∀ s : Simple, IsPhrase s.words
  | .declare isMutable type x value => by
    have hfirst : IsInner (Word.fixed (if isMutable then .varWord else .letWord)) ∧
        (if isMutable then TokenKind.varWord else .letWord) ≠ .leftParen ∧
        (if isMutable then TokenKind.varWord else .letWord) ≠ .rightParen := by
      cases isMutable
      · exact ⟨isInner_fixed (by decide), by decide⟩
      · exact ⟨isInner_fixed (by decide), by decide⟩
    have htype : IsInner (Word.fixed type.kind) ∧ type.kind ≠ .leftParen ∧
        type.kind ≠ .rightParen := by
      cases type <;> exact ⟨isInner_fixed (by decide), by decide⟩
    refine .cons hfirst.1 hfirst.2 (.cons htype.1 htype.2 ?_)
    cases value with
    | none => exact .single (isInner_name x) (by decide) (.inl rfl)
    | some v =>
      exact .cons (isInner_name x) (by decide)
        (.cons (isInner_fixed (by decide)) (by decide) v.isPhrase)
  | .assign x v =>
    .cons (isInner_name x) (by decide) (.cons (isInner_fixed (by decide)) (by decide) v.isPhrase)
  | .call f args => (Expr.call f args).isPhrase
  | .breakLoop => .single (isInner_fixed (by decide)) (by decide) (.inl rfl)
  | .continueLoop => .single (isInner_fixed (by decide)) (by decide) (.inl rfl)

/-- A line as scripts have them. It can end a statement exactly if it is one and its last word is
not `none`. -/
structure IsScriptLine (l : Line) : Prop where
  isLine : IsLine (l.words.map Word.kind)
  writable : ∀ w ∈ l.words, w.Writable
  canEnd_iff : canEndBehind l.words = true ↔
    l.isStatement = true ∧ l.words.getLast? ≠ some (Word.fixed .noneWord)

theorem isLine_of_inner {ws : List Word} (h : ∀ w ∈ ws, IsInner w) (hb : Balanced ws)
    (hhead : ∃ w vs, ws = w :: vs ∧ w.kind ≠ .leftBrace) : IsLine (ws.map Word.kind) := by
  obtain ⟨w, vs, rfl, hw⟩ := hhead
  refine ⟨by simp, ?_, hb, by simpa using hw⟩
  intro k hk
  obtain ⟨v, hv, rfl⟩ := List.mem_map.mp hk
  exact (h v hv).2

theorem isScriptLine_simple (s : Simple) : IsScriptLine ⟨s.words, true⟩ := by
  have h := s.isPhrase
  refine ⟨isLine_of_inner h.inner h.balanced ?_, fun w hw => (h.inner w hw).1, ?_⟩
  · cases s with
    | declare isMutable type x value =>
      refine ⟨_, _, rfl, ?_⟩
      cases isMutable <;> decide
    | assign x v | call f args => exact ⟨_, _, rfl, nofun⟩
    | breakLoop | continueLoop => exact ⟨_, _, rfl, by decide⟩
  · -- of the words that can be last in a statement, only `none` does not end one
    obtain ⟨init, w, hws, hw⟩ := h.ends
    rw [canEndBehind, hws, List.getLast?_append, List.getLast?_singleton]
    simp only [Option.some_or, Option.any_some, true_and, ne_eq, Option.some.injEq]
    constructor
    · rintro hk rfl
      revert hk
      decide
    · exact hw.resolve_right

theorem canEndBehind_concat (ws : List Word) (w : Word) :
    canEndBehind (ws ++ [w]) = w.kind.endsStatement := by
  rw [canEndBehind, List.getLast?_append, List.getLast?_singleton]
  rfl

/-- A line that begins a block. -/
theorem isScriptLine_opening {k : TokenKind} {ws : List Word}
    (hk : k.spelling?.isSome ∧ k ≠ .semicolon)
    (hp : k ≠ .leftParen ∧ k ≠ .rightParen ∧ k ≠ .leftBrace) (h : ∀ w ∈ ws, IsInner w)
    (hb : Balanced ws) : IsScriptLine (opening (Word.fixed k :: ws)) := by
  have hinner : ∀ w ∈ (opening (Word.fixed k :: ws)).words, IsInner w := by
    intro w hw
    rcases List.mem_append.mp hw with hw | hw
    · rcases List.mem_cons.mp hw with rfl | hw
      · exact isInner_fixed hk
      · exact h w hw
    · rw [List.mem_singleton.mp hw]
      exact isInner_fixed (by decide)
  refine ⟨isLine_of_inner hinner ?_ ⟨_, _, rfl, hp.2.2⟩, fun w hw => (hinner w hw).1, ?_⟩
  · exact (hb.cons ⟨hp.1, hp.2.1⟩).append (.single (by decide))
  · rw [opening, canEndBehind_concat]
    exact ⟨fun hk => absurd hk (by decide), fun hs => nomatch hs.1⟩

theorem isScriptLine_closing : IsScriptLine closing := by
  have hinner : ∀ w ∈ closing.words, IsInner w := by
    intro w hw
    rw [List.mem_singleton.mp hw]
    exact isInner_fixed (by decide)
  refine ⟨isLine_of_inner hinner (.single (by decide)) ⟨_, _, rfl, by decide⟩,
    fun w hw => (hinner w hw).1, ?_⟩
  exact ⟨fun hk => absurd hk (by decide), fun hs => nomatch hs.1⟩

mutual

theorem Statement.isScriptLine : ∀ (s : Statement), ∀ l ∈ s.lines, IsScriptLine l
  | .simple s, l, hl => by
    rw [Statement.lines, List.mem_singleton] at hl
    rw [hl]
    exact isScriptLine_simple s
  | .conditional branches, l, hl => branches.isScriptLine (.inl rfl) l hl
  | .conditionalElse branches otherwise, l, hl => by
    rw [Statement.lines, List.mem_append, List.mem_cons, List.mem_append, List.mem_singleton] at hl
    rcases hl with hl | rfl | hl | rfl
    · exact branches.isScriptLine (.inl rfl) l hl
    · exact isScriptLine_opening (by decide) (by decide) (by simp) .nil
    · exact otherwise.isScriptLine l hl
    · exact isScriptLine_closing
  | .loop condition body, l, hl => by
    rw [Statement.lines, List.mem_cons, List.mem_append, List.mem_singleton] at hl
    rcases hl with rfl | hl | rfl
    · exact isScriptLine_opening (by decide) (by decide) condition.isPhrase.inner
        condition.isPhrase.balanced
    · exact body.isScriptLine l hl
    · exact isScriptLine_closing

theorem Branches.isScriptLine : ∀ (bs : Branches) {k : TokenKind}, k = .ifWord ∨ k = .elifWord →
    ∀ l ∈ bs.lines k, IsScriptLine l
  | .last condition body, k, hk, l, hl => by
    rw [Branches.lines, List.mem_cons, List.mem_append, List.mem_singleton] at hl
    rcases hl with rfl | hl | rfl
    · refine isScriptLine_opening ?_ ?_ condition.isPhrase.inner condition.isPhrase.balanced
      · rcases hk with rfl | rfl <;> decide
      · rcases hk with rfl | rfl <;> decide
    · exact body.isScriptLine l hl
    · exact isScriptLine_closing
  | .more condition body rest, k, hk, l, hl => by
    rw [Branches.lines, List.mem_cons, List.mem_append, List.mem_cons] at hl
    rcases hl with rfl | hl | rfl | hl
    · refine isScriptLine_opening ?_ ?_ condition.isPhrase.inner condition.isPhrase.balanced
      · rcases hk with rfl | rfl <;> decide
      · rcases hk with rfl | rfl <;> decide
    · exact body.isScriptLine l hl
    · exact isScriptLine_closing
    · exact rest.isScriptLine (.inr rfl) l hl

theorem Statements.isScriptLine : ∀ (ss : Statements), ∀ l ∈ ss.lines, IsScriptLine l
  | .nil, l, hl => nomatch hl
  | .cons first rest, l, hl => by
    rw [Statements.lines, List.mem_append] at hl
    rcases hl with hl | hl
    · exact first.isScriptLine l hl
    · exact rest.isScriptLine l hl

end

end Scriptlet.Script
