import Scriptlet.Grammar
import Scriptlet.Proofs.Sequences

/-! # Readers, step by step

A reader stands between the tokens it has read and those it has not. This module says, for such a
state (`ParseState.between`), what each of the small readers does: looking at the current token,
going on over it, asking for the place before it, reporting a mistake. The grammar's own readers
are made of these, and what is said about them later needs no more than the equations given here.

A list of tokens *ends once* if its last token, and no other, marks the end (`EndsOnce`). Then a
reader never leaves the list.
-/
namespace Scriptlet

/-! ## Lists of tokens with one end -/

/-- The last token, and no other, marks the end. -/
def EndsOnce (ts : List Token) : Prop :=
  ∃ body last, ts = body ++ [last] ∧ last.kind = .endOfFile ∧ ∀ t ∈ body, t.kind ≠ .endOfFile

namespace EndsOnce
variable {t : Token} {ts : List Token}

theorem ne_nil (h : EndsOnce ts) : ts ≠ [] := by
  obtain ⟨body, last, rfl, -, -⟩ := h
  simp

/-- Behind a token that does not mark the end, the list still ends once. -/
theorem tail (h : EndsOnce (t :: ts)) (ht : t.kind ≠ .endOfFile) : EndsOnce ts := by
  obtain ⟨body, last, he, hlast, hbody⟩ := h
  cases body with
  | nil =>
    simp only [List.nil_append, List.cons.injEq] at he
    exact absurd (he.1 ▸ hlast) ht
  | cons b body =>
    simp only [List.cons_append, List.cons.injEq] at he
    exact ⟨body, last, he.2, hlast, fun u hu => hbody u (List.mem_cons_of_mem _ hu)⟩

/-- A token that marks the end is the last one. -/
theorem tail_eq_nil (h : EndsOnce (t :: ts)) (ht : t.kind = .endOfFile) : ts = [] := by
  obtain ⟨body, last, he, -, hbody⟩ := h
  cases body with
  | nil =>
    simp only [List.nil_append, List.cons.injEq] at he
    exact he.2
  | cons b body =>
    simp only [List.cons_append, List.cons.injEq] at he
    exact absurd (he.1 ▸ ht) (hbody b List.mem_cons_self)

/-- What is left behind a part of the list ends once too. -/
theorem of_append : ∀ {seg : List Token}, EndsOnce (seg ++ ts) → ts ≠ [] → EndsOnce ts
  | [], h, _ => h
  | t :: seg, h, hne => by
    by_cases ht : t.kind = .endOfFile
    · have hnil : seg ++ ts = [] := h.tail_eq_nil ht
      exact absurd (List.append_eq_nil_iff.mp hnil).2 hne
    · exact of_append (h.tail ht) hne

/-- Some token marks the end. -/
theorem exists_mem (h : EndsOnce ts) : ∃ t ∈ ts, t.kind = .endOfFile := by
  obtain ⟨body, last, rfl, hlast, -⟩ := h
  exact ⟨last, by simp, hlast⟩

end EndsOnce

/-! ## Standing between two tokens -/

/-- Reading in progress, behind the tokens `done` and before the tokens `rest`. -/
def ParseState.between (done rest : List Token) (scopes : Scopes) (reports : List Diagnostic) :
    ParseState :=
  { cursor := { tokens := (done ++ rest).toArray, index := done.length }, scopes, reports }

/-- The place of the token before `rest`; before the first token stands the last one. -/
def placeBefore (done rest : List Token) : Pos :=
  match done.getLast? with
  | some t => t.pos
  | none => (rest.getLast?.getD default).pos

@[simp] theorem placeBefore_concat (done : List Token) (t : Token) (rest : List Token) :
    placeBefore (done ++ [t]) rest = t.pos := by
  simp [placeBefore]

namespace Parse

open ParseState

variable {done rest : List Token} {t : Token} {σ : Scopes} {rs : List Diagnostic}

theorem getElem?_between : (done ++ t :: rest).toArray[done.length]? = some t := by
  simp

theorem look_apply {α : Type} (f : Cursor → Except Fault α) (s : ParseState) :
    look f s = match f s.cursor with
      | .ok a => .ok a s
      | .error fault => .error fault s := by
  rw [look, EStateM.bind_of_ok (EStateM.get_apply s)]
  cases f s.cursor <;> rfl

theorem current_between :
    look Cursor.current (between done (t :: rest) σ rs) =
      .ok t (between done (t :: rest) σ rs) := by
  rw [look_apply]
  simp [Cursor.current, between]

/-- Whether the current token marks the end can be seen from its kind. -/
theorem atEnd_between :
    atEnd (between done (t :: rest) σ rs) =
      .ok (decide (t.kind = .endOfFile)) (between done (t :: rest) σ rs) := by
  rw [atEnd, look_apply]
  simp [Cursor.atEnd, Cursor.current, between, Except.map]

/-- Going on over a token that does not mark the end. -/
theorem advance_between (ht : t.kind ≠ .endOfFile) :
    advance (between done (t :: rest) σ rs) = .ok true (between (done ++ [t]) rest σ rs) := by
  rw [advance, EStateM.bind_of_ok atEnd_between, decide_eq_false ht, if_neg Bool.false_ne_true,
    EStateM.bind_of_ok (EStateM.modify_apply _ _), EStateM.pure_apply]
  simp only [between, List.append_assoc, List.cons_append, List.nil_append, List.length_append,
    List.length_singleton]

theorem check_between (kind : TokenKind) :
    check kind (between done (t :: rest) σ rs) =
      .ok (decide (t.kind ≠ .endOfFile ∧ t.kind = kind)) (between done (t :: rest) σ rs) := by
  rw [check, EStateM.bind_of_ok atEnd_between]
  by_cases ht : t.kind = .endOfFile
  · simp [ht, pure, EStateM.pure]
  · simp only [ht, decide_false, Bool.false_eq_true, if_false]
    rw [EStateM.bind_of_ok current_between, EStateM.pure_apply]
    simp only [ne_eq, ht, not_false_eq_true, true_and]

/-- A token of one of the kinds asked for is passed over. -/
theorem accept_of_mem {kinds : List TokenKind} (ht : t.kind ≠ .endOfFile) (h : t.kind ∈ kinds) :
    accept kinds (between done (t :: rest) σ rs) = .ok true (between (done ++ [t]) rest σ rs) := by
  induction kinds with
  | nil => cases h
  | cons kind kinds ih =>
    rw [accept, EStateM.bind_of_ok (check_between kind)]
    by_cases hk : t.kind = kind
    · rw [if_pos (decide_eq_true ⟨ht, hk⟩)]
      rw [EStateM.bind_of_ok (advance_between ht)]
      rfl
    · rw [if_neg (by simp [hk])]
      exact ih ((List.mem_cons.mp h).resolve_left hk)

/-- Any other token stays. -/
theorem accept_of_not_mem {kinds : List TokenKind} (h : t.kind = .endOfFile ∨ t.kind ∉ kinds) :
    accept kinds (between done (t :: rest) σ rs) = .ok false (between done (t :: rest) σ rs) := by
  induction kinds with
  | nil => rfl
  | cons kind kinds ih =>
    rw [accept, EStateM.bind_of_ok (check_between kind)]
    have hk : ¬ (t.kind ≠ .endOfFile ∧ t.kind = kind) := by
      rintro ⟨ht, rfl⟩
      exact (h.resolve_left ht) List.mem_cons_self
    rw [if_neg (by simpa using hk)]
    exact ih (h.imp_right fun hn hm => hn (List.mem_cons_of_mem _ hm))

/-- Going one of two ways, depending on the kind of the current token. -/
theorem accept_then {α : Type} {kinds : List TokenKind} {x y : Parse α} :
    (accept kinds >>= fun b => if b = true then x else y) (between done (t :: rest) σ rs) =
      if t.kind ≠ .endOfFile ∧ t.kind ∈ kinds then x (between (done ++ [t]) rest σ rs)
      else y (between done (t :: rest) σ rs) := by
  by_cases hk : t.kind ≠ .endOfFile ∧ t.kind ∈ kinds
  · rw [EStateM.bind_of_ok (accept_of_mem hk.1 hk.2), if_pos hk, if_pos rfl]
  · have hn : t.kind = .endOfFile ∨ t.kind ∉ kinds := by
      by_cases ht : t.kind = .endOfFile
      · exact .inl ht
      · exact .inr fun hm => hk ⟨ht, hm⟩
    rw [EStateM.bind_of_ok (accept_of_not_mem hn), if_neg hk, if_neg Bool.false_ne_true]

/-- Going one of two ways, depending on whether the current token is of one kind. -/
theorem accept_one_then {α : Type} {kind : TokenKind} {x y : Parse α} (hk : kind ≠ .endOfFile) :
    (accept [kind] >>= fun b => if b = true then x else y) (between done (t :: rest) σ rs) =
      if t.kind = kind then x (between (done ++ [t]) rest σ rs)
      else y (between done (t :: rest) σ rs) := by
  rw [accept_then]
  by_cases h : t.kind = kind
  · rw [if_pos ⟨h ▸ hk, by rw [h]; exact List.mem_singleton_self _⟩, if_pos h]
  · rw [if_neg (fun hm => h (List.mem_singleton.mp hm.2)), if_neg h]

/-- The token that stands `k` places before the current one. -/
theorem get_back (k : Nat) (more : List Token) :
    Cursor.get { tokens := (done ++ t :: more).toArray, index := done.length + k } (-(k : Int)) =
      .ok t := by
  have hi : ((done.length + k : Nat) : Int) + -(k : Int) = (done.length : Int) := by omega
  have hneg : ¬ ((done.length : Int) < 0) := by omega
  simp only [Cursor.get, hi, if_neg hneg, Int.toNat_natCast, getElem?_between]

theorem get_one_back :
    (between (done ++ [t]) rest σ rs).cursor.get (-1) = .ok t := by
  have h : Cursor.get { tokens := (done ++ t :: rest).toArray, index := done.length + 1 }
      (-(1 : Nat)) = .ok t := get_back 1 rest
  simpa [between] using h

theorem get_two_back {u : Token} :
    (between (done ++ [t] ++ [u]) rest σ rs).cursor.get (-2) = .ok t := by
  have h : Cursor.get { tokens := (done ++ t :: u :: rest).toArray, index := done.length + 2 }
      (-(2 : Nat)) = .ok t := get_back 2 (u :: rest)
  simpa [between] using h

/-- Before the first token stands the last one. -/
theorem get_before_first (hr : rest ≠ []) :
    (between [] rest σ rs).cursor.get (-1) = .ok (rest.getLast hr) := by
  have hpos : 0 < rest.length := List.length_pos_iff.mpr hr
  have hidx : ((-1 : Int) + (rest.length : Int)).toNat = rest.length - 1 := by omega
  have hneg : ¬ ((-1 : Int) + (rest.length : Int) < 0) := by omega
  have hlast : rest[rest.length - 1]? = some (rest.getLast hr) := by
    rw [← List.getLast?_eq_getElem?, List.getLast?_eq_some_getLast hr]
  simp [between, Cursor.get, hidx, hneg, hlast]

/-- The place before a token that is not at the end of all tokens. -/
theorem place_between (hr : rest ≠ []) :
    place (between done rest σ rs) = .ok (placeBefore done rest) (between done rest σ rs) := by
  rw [place, look_apply, Cursor.previous]
  rcases List.eq_nil_or_concat done with rfl | ⟨init, t, rfl⟩
  · rw [get_before_first hr]
    simp [Except.map, placeBefore, List.getLast?_eq_some_getLast hr]
  · rw [List.concat_eq_append, get_one_back, placeBefore_concat]
    rfl

/-- Asking for the place does not change the state. -/
theorem state_of_place {s s' : ParseState} {p : Pos} (h : place s = .ok p s') : s' = s := by
  rw [place, look_apply] at h
  split at h <;> cases h
  rfl

/-- The place of the token that was read last. -/
theorem place_concat :
    place (between (done ++ [t]) rest σ rs) = .ok t.pos (between (done ++ [t]) rest σ rs) := by
  rw [place, look_apply, Cursor.previous, get_one_back]
  rfl

/-- The token before the current one. -/
theorem previous_between :
    look Cursor.previous (between (done ++ [t]) rest σ rs) =
      .ok t (between (done ++ [t]) rest σ rs) := by
  rw [look_apply, Cursor.previous, get_one_back]

/-- The text of the token before the current one. -/
theorem textAt_one_back :
    textAt (-1) (between (done ++ [t]) rest σ rs) =
      .ok t.text (between (done ++ [t]) rest σ rs) := by
  rw [textAt, look_apply, get_one_back]
  rfl

/-- The token two places before the current one. -/
theorem look_two_back {u : Token} :
    look (fun c => c.get (-2)) (between (done ++ [t] ++ [u]) rest σ rs) =
      .ok t (between (done ++ [t] ++ [u]) rest σ rs) := by
  rw [look_apply, get_two_back]

/-- The text of the token two places before the current one. -/
theorem textAt_two_back {u : Token} :
    textAt (-2) (between (done ++ [t] ++ [u]) rest σ rs) =
      .ok t.text (between (done ++ [t] ++ [u]) rest σ rs) := by
  rw [textAt, look_apply, get_two_back]
  rfl

theorem ofExcept_ok {α : Type} (a : α) (s : ParseState) : ofExcept (.ok a) s = .ok a s := rfl

theorem ofExcept_eq_ok {α : Type} {x : Except Fault α} {a : α} {s s' : ParseState}
    (h : ofExcept x s = .ok a s') : x = .ok a ∧ s = s' := by
  cases x with
  | ok b =>
    rw [ofExcept_ok] at h
    cases h
    exact ⟨rfl, rfl⟩
  | error fault => cases h

/-- Asking for a token of one kind: it is passed over, or that it is missing is a mistake. -/
theorem expect_between {kind : TokenKind} (problem : GrammarProblem) (hk : kind ≠ .endOfFile) :
    expect kind problem (between done (t :: rest) σ rs) =
      if t.kind = kind then .ok true (between (done ++ [t]) rest σ rs)
      else (declareError problem >>= fun _ => pure false) (between done (t :: rest) σ rs) := by
  rw [expect, accept_one_then hk]
  rfl

/-- Going on only behind a token of one kind. -/
theorem expect_then {α : Type} {kind : TokenKind} {problem : GrammarProblem} {x y : Parse α}
    (hk : kind ≠ .endOfFile) :
    (expect kind problem >>= fun b => if (!b) = true then y else x)
        (between done (t :: rest) σ rs) =
      if t.kind = kind then x (between (done ++ [t]) rest σ rs)
      else (declareError problem >>= fun _ => y) (between done (t :: rest) σ rs) := by
  have hexpect : expect kind problem (between done (t :: rest) σ rs) = _ :=
    expect_between problem hk
  by_cases ht : t.kind = kind
  · rw [if_pos ht] at hexpect ⊢
    rw [EStateM.bind_of_ok hexpect]
    rfl
  · rw [if_neg ht] at hexpect ⊢
    simp only [bind, EStateM.bind] at hexpect ⊢
    rw [hexpect]
    cases declareError problem (between done (t :: rest) σ rs) <;> rfl

/-- What a part without operators is, by the kind of its first token. -/
theorem primitive_between (n : Nat) :
    primitive (n + 1) (between done (t :: rest) σ rs) =
      if t.kind = .number then .ok (numberNode t) (between (done ++ [t]) rest σ rs)
      else if t.kind = .text then
        .ok (.literal .string t.content.value t.pos) (between (done ++ [t]) rest σ rs)
      else if t.kind = .trueWord then
        .ok (.literal .bool (.bool true) t.pos) (between (done ++ [t]) rest σ rs)
      else if t.kind = .falseWord then
        .ok (.literal .bool (.bool false) t.pos) (between (done ++ [t]) rest σ rs)
      else if t.kind = .noneWord then
        .ok (.empty (placeBefore done (t :: rest))) (between (done ++ [t]) rest σ rs)
      else if t.kind = .leftParen then
        (do
          let node ← expression n .disjunction
          if ← expect .rightParen .openParenthesis then return node
          else return .empty (placeBefore done (t :: rest)) : Parse Node)
          (between (done ++ [t]) rest σ rs)
      else if t.kind = .identifier then
        (do
          if ← accept [.leftParen] then call n
          else
            let name ← look Cursor.previous
            return .identifier name.text name.pos : Parse Node)
          (between (done ++ [t]) rest σ rs)
      else
        (do
          declareError .unexpectedPrimitive
          return .empty (placeBefore done (t :: rest)) : Parse Node)
          (between done (t :: rest) σ rs) := by
  rw [primitive, EStateM.bind_of_ok (place_between (List.cons_ne_nil _ _)),
    accept_one_then (by decide), accept_one_then (by decide), accept_one_then (by decide),
    accept_one_then (by decide), accept_one_then (by decide), accept_one_then (by decide),
    accept_one_then (by decide), EStateM.bind_of_ok previous_between,
    EStateM.bind_of_ok previous_between, EStateM.bind_of_ok place_concat,
    EStateM.bind_of_ok place_concat]
  rfl

/-! ## Statements -/

/-- What a statement is, by the kind of its first token. -/
theorem statement_between (n : Nat) (scope : ScopeId) :
    statement (n + 1) scope (between done (t :: rest) σ rs) =
      if t.kind ≠ .endOfFile ∧ t.kind ∈ [TokenKind.varWord, .letWord] then
        declaration n (placeBefore done (t :: rest)) (between (done ++ [t]) rest σ rs)
      else if t.kind = .identifier then
        (do if ← accept [.leftParen] then return [← call n] else return [← assignment n] :
          Parse (List Node)) (between (done ++ [t]) rest σ rs)
      else if t.kind = .ifWord then
        (do return [← conditional n scope] : Parse (List Node)) (between (done ++ [t]) rest σ rs)
      else if t.kind = .whileWord then
        (do
          let condition ← expression n .disjunction
          return [.loop condition (← block n scope)] : Parse (List Node))
          (between (done ++ [t]) rest σ rs)
      else if t.kind = .loopWord then
        (do return [.loop (.literal .bool (.bool true) t.pos) (← block n scope)] :
          Parse (List Node)) (between (done ++ [t]) rest σ rs)
      else if t.kind = .breakWord then .ok [.breakLoop] (between (done ++ [t]) rest σ rs)
      else if t.kind = .continueWord then .ok [.continueLoop] (between (done ++ [t]) rest σ rs)
      else
        (do
          declareError .unexpectedStatement
          return [.empty (placeBefore done (t :: rest))] : Parse (List Node))
          (between done (t :: rest) σ rs) := by
  rw [statement, EStateM.bind_of_ok (place_between (List.cons_ne_nil _ _)), accept_then,
    accept_one_then (by decide), accept_one_then (by decide), accept_one_then (by decide),
    accept_one_then (by decide), accept_one_then (by decide), accept_one_then (by decide),
    EStateM.bind_of_ok place_concat]
  rfl

/-- A declared variable. -/
theorem declarator_between (n : Nat) (type : String) (isMutable : Bool) {u : Token}
    (ht : t.kind = .identifier) :
    declarator n type isMutable (between done (t :: u :: rest) σ rs) =
      if u.kind = .assign then
        (do
          let value ← expression n .disjunction
          ofExcept (Node.mkDeclaration t.text type isMutable value) : Parse Node)
          (between (done ++ [t] ++ [u]) rest σ rs)
      else if u.kind = .semicolon ∨ u.kind = .comma then
        .ok (.declaration t.text type isMutable (.empty (placeBefore done (t :: u :: rest))))
          (between (done ++ [t]) (u :: rest) σ rs)
      else
        (do
          declareError .missingInitializer
          return .empty (placeBefore done (t :: u :: rest)) : Parse Node)
          (between (done ++ [t]) (u :: rest) σ rs) := by
  rw [declarator, EStateM.bind_of_ok (place_between (List.cons_ne_nil _ _)),
    expect_then (by decide), if_pos ht, EStateM.bind_of_ok textAt_one_back,
    accept_one_then (by decide), EStateM.bind_of_ok (check_between _)]
  by_cases hs : u.kind = .semicolon
  · simp only [hs, ne_eq, reduceCtorEq, not_false_eq_true, and_self, decide_true, if_true, true_or]
    rfl
  · simp only [hs, and_false, decide_false, Bool.false_eq_true, if_false, false_or]
    rw [EStateM.bind_of_ok (check_between _)]
    by_cases hc : u.kind = .comma
    · simp only [hc, ne_eq, reduceCtorEq, not_false_eq_true, and_self, decide_true, if_true]
      rfl
    · simp only [hc, and_false, decide_false, Bool.false_eq_true, if_false]

/-- A block opens a scope. -/
theorem block_between (n : Nat) (scope : ScopeId) :
    block (n + 1) scope (between done (t :: rest) σ rs) =
      if t.kind = .leftBrace then
        (do
          match ← blockBody n (σ.openIn scope).2 with
          | some statements => return .block statements (σ.openIn scope).2
          | none => return .empty (placeBefore done (t :: rest)) : Parse Node)
          (between (done ++ [t]) rest (σ.openIn scope).1 rs)
      else
        (do
          declareError .missingBlock
          return .empty (placeBefore done (t :: rest)) : Parse Node)
          (between done (t :: rest) σ rs) := by
  rw [block, EStateM.bind_of_ok (place_between (List.cons_ne_nil _ _)), expect_then (by decide)]
  rfl

/-- The statements of a block, by the kind of the current token. -/
theorem blockBody_between (n : Nat) (scope : ScopeId) :
    blockBody (n + 1) scope (between done (t :: rest) σ rs) =
      if t.kind = .semicolon then blockBody n scope (between (done ++ [t]) rest σ rs)
      else if t.kind = .endOfFile then
        (do
          declareError .openBlock
          return none : Parse (Option (List Node))) (between done (t :: rest) σ rs)
      else if t.kind = .rightBrace then .ok (some []) (between (done ++ [t]) rest σ rs)
      else
        (do
          let first ← statement n scope
          let more ← blockBody n scope
          return more.map (first ++ ·) : Parse (Option (List Node)))
          (between done (t :: rest) σ rs) := by
  rw [blockBody, accept_one_then (by decide), EStateM.bind_of_ok atEnd_between]
  simp only [decide_eq_true_eq]
  by_cases ht : t.kind = .endOfFile
  · rw [if_pos ht, if_pos ht]
  · rw [if_neg ht, if_neg ht, accept_one_then (by decide)]
    rfl

/-- The statements of a program, by the kind of the current token. -/
theorem programBody_between (n : Nat) :
    programBody (n + 1) (between done (t :: rest) σ rs) =
      if t.kind = .semicolon then programBody n (between (done ++ [t]) rest σ rs)
      else if t.kind = .endOfFile then .ok [] (between done (t :: rest) σ rs)
      else
        (do
          let first ← statement n Scopes.root
          let more ← programBody n
          return first ++ more : Parse (List Node)) (between done (t :: rest) σ rs) := by
  rw [programBody, accept_one_then (by decide), EStateM.bind_of_ok atEnd_between]
  simp only [decide_eq_true_eq]
  by_cases ht : t.kind = .endOfFile
  · rw [if_pos ht, if_pos ht]
    rfl
  · rw [if_neg ht, if_neg ht]

/-- Reading a program starts before all tokens, with a budget for all of them. -/
theorem parseProgram_eq (tokens : List Token) :
    parseProgram tokens =
      (do
        let statements ← programBody (programBudget tokens.length)
        return .program statements Scopes.root : Parse Node) (between [] tokens {} []) := by
  rw [← List.size_toArray]
  rfl

/-! ## Where no token is left -/

/-- The reader looks for a token, so behind the last one it leaves the list. -/
def NeedsToken {α : Type} (x : Parse α) : Prop :=
  ∀ done σ rs, x (between done [] σ rs) = .error .outOfRange (between done [] σ rs)

section needsToken

variable {α β : Type} {x : Parse α} {f : α → Parse β} {y : Pos → Parse β}

theorem NeedsToken.bind (h : NeedsToken x) : NeedsToken (x >>= f) :=
  fun done σ rs => EStateM.bind_of_error (h done σ rs)

/-- A reader that comes to a result stands at a token. -/
theorem NeedsToken.exists_cons (h : NeedsToken x) {a : α} {s : ParseState}
    (hok : x (between done rest σ rs) = .ok a s) : ∃ t ts, rest = t :: ts := by
  cases rest with
  | nil =>
    rw [h done σ rs] at hok
    cases hok
  | cons t ts => exact ⟨t, ts, rfl⟩

theorem needsToken_atEnd : NeedsToken atEnd := by
  intro done σ rs
  rw [atEnd, look_apply]
  simp [Cursor.atEnd, Cursor.current, between, Except.map]

theorem needsToken_accept (kind : TokenKind) (kinds : List TokenKind) :
    NeedsToken (accept (kind :: kinds)) :=
  needsToken_atEnd.bind.bind

theorem needsToken_expect (kind : TokenKind) (problem : GrammarProblem) :
    NeedsToken (expect kind problem) :=
  (needsToken_accept kind []).bind

/-- Asking for the place first changes nothing: it may be a fault of the same kind. -/
theorem needsToken_place (h : ∀ p, NeedsToken (y p)) : NeedsToken (place >>= y) := by
  intro done σ rs
  rcases List.eq_nil_or_concat done with rfl | ⟨init, t, rfl⟩
  · exact EStateM.bind_of_error rfl
  · rw [List.concat_eq_append, EStateM.bind_of_ok place_concat]
    exact h t.pos _ _ _

end needsToken

/-! ## Mistakes -/

/-- Whether reading goes on at a token after a mistake, or ends there. -/
def stopsAt (t : Token) : Bool :=
  t.kind = .endOfFile || resumesAt t.kind

/-- After a mistake, tokens are passed over up to the first at which reading goes on or ends. -/
theorem synchronize_append {seg : List Token} (done rest : List Token) (σ : Scopes)
    (rs : List Diagnostic) (hseg : ∀ t ∈ seg, stopsAt t = false) (ht : stopsAt t = true) :
    synchronize (between done (seg ++ t :: rest) σ rs) =
      .ok () (between (done ++ seg) (t :: rest) σ rs) := by
  have hfind : (seg ++ t :: rest).findIdx? (fun t => t.kind = .endOfFile || resumesAt t.kind) =
      some seg.length := by
    have hnone : seg.findIdx? stopsAt = none := List.findIdx?_eq_none_iff.mpr hseg
    have hfirst : (seg ++ t :: rest).findIdx? stopsAt = some seg.length := by
      rw [List.findIdx?_append, hnone, List.findIdx?_cons, ht]
      simp
    exact hfirst
  rw [synchronize, EStateM.bind_of_ok (EStateM.get_apply _)]
  simp only [between, List.drop_left, hfind, EStateM.modify_apply, List.append_assoc,
    List.length_append]

/-- A mistake is reported at the token before the current one; then tokens are passed over. -/
theorem declareError_append {seg : List Token} (problem : GrammarProblem) (done rest : List Token)
    (σ : Scopes) (rs : List Diagnostic) (hseg : ∀ t ∈ seg, stopsAt t = false)
    (ht : stopsAt t = true) :
    declareError problem (between done (seg ++ t :: rest) σ rs) =
      .ok () (between (done ++ seg) (t :: rest) σ
        (rs ++ [.grammar problem (placeBefore done (seg ++ t :: rest))])) := by
  rw [declareError, EStateM.bind_of_ok (place_between (by simp)),
    ← synchronize_append done rest σ _ hseg ht]
  rfl

/-- In a list that ends once, there is a token to go on with. -/
theorem declareError_between (problem : GrammarProblem) (done : List Token) (σ : Scopes)
    (rs : List Diagnostic) (h : EndsOnce rest) :
    ∃ seg rest', rest = seg ++ rest' ∧ EndsOnce rest' ∧ (∀ t ∈ seg, stopsAt t = false) ∧
      (∃ t ts, rest' = t :: ts ∧ stopsAt t = true) ∧
      declareError problem (between done rest σ rs) = .ok ()
        (between (done ++ seg) rest' σ (rs ++ [.grammar problem (placeBefore done rest)])) := by
  obtain ⟨u, hu, hk⟩ := h.exists_mem
  have hsome : (rest.find? stopsAt).isSome := by
    rw [List.find?_isSome]
    exact ⟨u, hu, by simp [stopsAt, hk]⟩
  obtain ⟨t, hfind⟩ := Option.isSome_iff_exists.mp hsome
  obtain ⟨hstop, seg, ts, rfl, hseg⟩ := List.find?_eq_some_iff_append.mp hfind
  have hseg' : ∀ t ∈ seg, stopsAt t = false := by simpa using hseg
  exact ⟨seg, t :: ts, rfl, h.of_append (List.cons_ne_nil _ _), hseg', ⟨t, ts, rfl, hstop⟩,
    declareError_append problem done ts σ rs hseg' hstop⟩

end Parse

end Scriptlet
