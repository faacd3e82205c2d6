import Scriptlet.Execution.Statement
import Scriptlet.Proofs.Evaluation
import Mathlib.Logic.Relation

/-! # The course of a run

Statements about a whole run need two things. One is a way to compare it with another run: two
computations *mirror* each other along a map of states if they give the same result or fault, and
the map leads from the states of the one to the states of the other (`Mirrors`). What a built-in
function or an operator does mirrors itself when the scopes are exchanged, for it does not look at
them (`Run.Blind`).

The other is a way to speak of what happens on the way. A run consists of jobs, such as to run a
block or to evaluate a condition, which start others at some state of the machine (`Run.Starts`).
-/
namespace Scriptlet

/-! ## Computations that mirror each other -/

section mirrors

variable {ε σ τ α β : Type}

/-- Both computations have ended with the same result or the same fault, in related states. -/
def SameOutcome (R : σ → τ → Prop) : EStateM.Result ε σ α → EStateM.Result ε τ α → Prop
  | .ok a s, .ok b t => a = b ∧ R s t
  | .error e s, .error f t => e = f ∧ R s t
  | _, _ => False

variable {R : σ → τ → Prop} {x : EStateM ε σ α} {y : EStateM ε τ α} {s : σ} {t : τ}

/-- Where one of two computations with the same outcome has a result, so has the other. -/
theorem SameOutcome.exists_ok {a : α} {t' : τ} (h : SameOutcome R (x s) (y t))
    (hy : y t = .ok a t') : ∃ s', x s = .ok a s' ∧ R s' t' := by
  rw [hy] at h
  cases hx : x s with
  | ok b s' =>
    rw [hx] at h
    obtain ⟨rfl, hR⟩ := h
    exact ⟨s', rfl, hR⟩
  | error e s' =>
    rw [hx] at h
    exact h.elim

theorem SameOutcome.mono {R' : σ → τ → Prop} (h : SameOutcome R (x s) (y t))
    (hR : ∀ s t, R s t → R' s t) : SameOutcome R' (x s) (y t) := by
  revert h
  cases x s <;> cases y t <;> intro h
  · exact ⟨h.1, hR _ _ h.2⟩
  · exact h
  · exact h
  · exact ⟨h.1, hR _ _ h.2⟩

/-- Two sequences have the same outcome if their parts do. -/
theorem SameOutcome.bind {f : α → EStateM ε σ β} {h : α → EStateM ε τ β}
    (hx : SameOutcome R (x s) (y t))
    (hf : ∀ a s' t', x s = .ok a s' → y t = .ok a t' → R s' t' →
      SameOutcome R (f a s') (h a t')) :
    SameOutcome R ((x >>= f) s) ((y >>= h) t) := by
  cases hr : y t with
  | ok a t' =>
    obtain ⟨s', hxs, hR⟩ := hx.exists_ok hr
    rw [EStateM.bind_of_ok hxs, EStateM.bind_of_ok hr]
    exact hf a s' t' hxs hr hR
  | error e t' =>
    rw [hr] at hx
    cases hxs : x s with
    | ok a s' =>
      rw [hxs] at hx
      exact hx.elim
    | error e' s' =>
      rw [hxs] at hx
      rw [EStateM.bind_of_error hxs, EStateM.bind_of_error hr]
      exact hx

/-- The same outcome, with another state. -/
def onState (g : σ → τ) : EStateM.Result ε σ α → EStateM.Result ε τ α
  | .ok a s => .ok a (g s)
  | .error e s => .error e (g s)

/-- From the image of the state `s`, the second computation does what the first does from `s`. -/
def Mirrors (g : σ → τ) (x : EStateM ε σ α) (y : EStateM ε τ α) (s : σ) : Prop :=
  y (g s) = onState g (x s)

variable {g : σ → τ}

theorem mirrors_pure (a : α) : Mirrors g (pure a : EStateM ε σ α) (pure a) s := rfl

theorem mirrors_throw (e : ε) : Mirrors g (throw e : EStateM ε σ α) (throw e) s := rfl

theorem Mirrors.sameOutcome (h : Mirrors g x y s) (hR : ∀ s, R s (g s)) :
    SameOutcome R (x s) (y (g s)) := by
  rw [h]
  cases x s with
  | ok a s' => exact ⟨rfl, hR s'⟩
  | error e s' => exact ⟨rfl, hR s'⟩

theorem mirrors_iff : Mirrors g x y s ↔ SameOutcome (fun s t => t = g s) (x s) (y (g s)) := by
  refine ⟨fun h => h.sameOutcome fun _ => rfl, fun h => ?_⟩
  rw [Mirrors]
  cases hy : y (g s) with
  | ok a t =>
    obtain ⟨s', hx, rfl⟩ := h.exists_ok hy
    rw [hx]
    rfl
  | error e t =>
    rw [hy] at h
    cases hx : x s with
    | ok a s' =>
      rw [hx] at h
      exact h.elim
    | error e' s' =>
      rw [hx] at h
      obtain ⟨rfl, rfl⟩ := h
      rfl

/-- A sequence is mirrored if both of its parts are. -/
theorem Mirrors.bind {f : α → EStateM ε σ β} {h : α → EStateM ε τ β} (hx : Mirrors g x y s)
    (hf : ∀ a s', Mirrors g (f a) (h a) s') : Mirrors g (x >>= f) (y >>= h) s := by
  refine mirrors_iff.mpr ((mirrors_iff.mp hx).bind fun a s' t _ _ ht => ?_)
  subst ht
  exact mirrors_iff.mp (hf a s')

/-- What is mirrored leads from one image of a state to another. -/
theorem Mirrors.exists_state {a : α} {t : τ} (h : Mirrors g x y s) (hy : y (g s) = .ok a t) :
    ∃ s', t = g s' := by
  obtain ⟨s', -, ht⟩ := (mirrors_iff.mp h).exists_ok hy
  exact ⟨s', ht⟩

end mirrors

/-! ## What does not look at the scopes -/

/-- The machine with other scopes. -/
def Machine.withScopes (m : Machine) (σ : Scopes) : Machine :=
  { m with scopes := σ }

namespace Run

variable {α β : Type}

/-- The computation does the same whatever the scopes are, and leaves them as they are. -/
def Blind (x : Run α) : Prop :=
  ∀ σ m, Mirrors (Machine.withScopes · σ) x x m

theorem blind_pure (a : α) : Blind (pure a) := fun _ _ => rfl

theorem blind_throw (f : Fault) : Blind (throw f : Run α) := fun _ _ => rfl

theorem Blind.bind {x : Run α} {f : α → Run β} (hx : Blind x) (hf : ∀ a, Blind (f a)) :
    Blind (x >>= f) :=
  fun σ m => (hx σ m).bind fun a m' => hf a σ m'

theorem blind_ofExcept (e : Except Fault α) : Blind (ofExcept e) := by
  cases e with
  | ok a => exact blind_pure a
  | error f => exact blind_throw f

theorem blind_write (text : String) : Blind (write text) := fun _ _ => rfl

theorem blind_stop (problem : Diagnostic) : Blind (stop problem : Run α) := fun _ _ => rfl

theorem awaitFrom_withScopes (prompt : String) (answer : String → Answer) (σ : Scopes) :
    ∀ (lines : List String) (m : Machine), awaitFrom prompt answer lines (m.withScopes σ) =
      onState (Machine.withScopes · σ) (awaitFrom prompt answer lines m)
  | [], m => rfl
  | line :: lines, m => by
    rw [awaitFrom, awaitFrom]
    cases answer (lineText line) with
    | ok value =>
      cases value with
      | some v => rfl
      | none =>
        exact awaitFrom_withScopes prompt answer σ lines
          { m with input := lines, output := m.output ++ prompt }
    | error f => rfl

theorem blind_await (prompt : String) (answer : String → Answer) : Blind (await prompt answer) :=
  fun σ m => awaitFrom_withScopes prompt answer σ m.input m

theorem blind_readBy (answer : String → Option Value) (arguments : List Value) :
    Blind (readBy answer arguments) :=
  (blind_ofExcept _).bind fun _ => blind_await _ _

theorem blind_readBool (arguments : List Value) : Blind (readBool arguments) := by
  cases arguments with
  | nil => exact blind_throw _
  | cons prompt _ => exact blind_await _ _

/-- Built-in functions do not look at the scopes. -/
theorem blind_builtin (name : String) (arguments : List Value) :
    Blind (builtin name arguments) := by
  unfold builtin
  split
  · exact (blind_write _).bind fun _ => blind_pure _
  · exact (blind_write _).bind fun _ => blind_pure _
  · exact blind_readBy _ _
  · exact blind_readBy _ _
  · exact blind_readBy _ _
  · exact blind_readBool _
  · exact blind_throw _

theorem blind_arithmetic (op : Arithmetic) (p : Pos) (a b : Value) :
    Blind (arithmetic op p a b) := by
  have happly : Blind (ofExcept (op.apply a b)) := blind_ofExcept _
  cases op with
  | div | mod =>
    rw [arithmetic]
    split
    · exact blind_stop _
    · exact happly
  | add | sub | mul | pow | other => exact happly

theorem blind_negation (v : Value) : Blind (negation v) := by
  cases v with
  | bool b => exact blind_pure _
  | absent | noneValue | int | float | complex | str | record | symbol => exact blind_stop _

/-! ## One statement -/

/-- Runs one statement; how it ends the block that it stands in. -/
def one (budget : Nat) (i : ScopeId) (s : Node) : Run Signal :=
  match s with
  | .declaration _ _ _ v => do
    declare i v
    return .pass
  | .assignment x v => do
    assign i x v
    return .pass
  | .call callee arguments => do
    let _ ← eval i (.call callee arguments)
    return .pass
  | .conditional bs o => do return (← conditional budget bs o).getD .pass
  | .loop c b => do
    loop budget c b
    return .pass
  | .breakLoop => return .leave
  | .continueLoop => return .again
  | _ => return .pass

/-- The statements of a block are run one after the other, as long as none ends the block. -/
theorem statements_cons (budget : Nat) (i : ScopeId) (s : Node) (rest : List Node) :
    statements budget i (s :: rest) = (do
      match ← one budget i s with
      | .pass => statements budget i rest
      | signal => return signal : Run Signal) := by
  cases s with
  | declaration | assignment | call | loop =>
    rw [statements, one, bind_assoc]
    rfl
  | conditional bs o =>
    rw [statements, one, bind_assoc]
    refine bind_congr fun signal => ?_
    cases signal with
    | none => rfl
    | some signal => cases signal <;> rfl
  | breakLoop | continueLoop =>
    rw [statements]
    rfl
  | empty | literal | identifier | signed | negation | logic | comparison | arithmetic | otherwise
  | block | program | bare | raw =>
    rw [statements]
    · rfl
    all_goals exact nofun

/-- The statements of a program are run one after the other. -/
theorem topStatements_cons (budget : Nat) (i : ScopeId) (s : Node) (rest : List Node) :
    topStatements budget i (s :: rest) = (do
      let _ ← one budget i s
      topStatements budget i rest : Run Unit) := by
  cases s with
  | declaration | assignment | call | loop | conditional =>
    rw [topStatements, one, bind_assoc]
    rfl
  | breakLoop | continueLoop | empty | literal | identifier | signed | negation | logic | comparison
  | arithmetic | otherwise | block | program | bare | raw => rfl

/-! ## Jobs -/

/-- What a run has to do at some point. -/
inductive Job where
  /-- To evaluate an expression. -/
  | value (i : ScopeId) (e : Node)
  /-- To evaluate the arguments of a call. -/
  | arguments (i : ScopeId) (es : List Node)
  /-- To run a statement. -/
  | one (i : ScopeId) (s : Node)
  /-- To run the statements of a block. -/
  | statements (i : ScopeId) (ss : List Node)
  /-- To run a program. -/
  | program (n : Node)
  /-- To run the statements of a program. -/
  | top (i : ScopeId) (ss : List Node)
  /-- To run a block. -/
  | block (b : Node)
  /-- To run the first branch whose condition is true. -/
  | branches (bs : List (Node × Node))
  /-- To run the part behind `else`. -/
  | lastPart (o : Node)
  /-- To run at most so many rounds of a loop. -/
  | rounds (c b : Node) (n : Nat)

/-- A job at some state of the machine starts another one, at the state that it has come to. -/
inductive Starts (budget : Nat) : Job × Machine → Job × Machine → Prop
  -- expressions
  | arguments {i callee es m} : Starts budget (.value i (.call callee es), m) (.arguments i es, m)
  | head {i e es m} : Starts budget (.arguments i (e :: es), m) (.value i e, m)
  | tail {i e es v m m'} (h : eval i e m = .ok v m') :
      Starts budget (.arguments i (e :: es), m) (.arguments i es, m')
  | signed {i op o m} : Starts budget (.value i (.signed op o), m) (.value i o, m)
  | negation {i o m} : Starts budget (.value i (.negation o), m) (.value i o, m)
  | arithmeticLeft {i op l r m} : Starts budget (.value i (.arithmetic op l r), m) (.value i l, m)
  | arithmeticRight {i op l r a m m'} (h : eval i l m = .ok a m') :
      Starts budget (.value i (.arithmetic op l r), m) (.value i r, m')
  | comparisonLeft {i op l r m} : Starts budget (.value i (.comparison op l r), m) (.value i l, m)
  | comparisonRight {i op l r a m m'} (h : eval i l m = .ok a m') :
      Starts budget (.value i (.comparison op l r), m) (.value i r, m')
  | logicLeft {i op l r m} : Starts budget (.value i (.logic op l r), m) (.value i l, m)
  | logicRight {i op l r a m m'} (h : eval i l m = .ok a m') (hd : decided? op a = none) :
      Starts budget (.value i (.logic op l r), m) (.value i r, m')
  -- statements
  | declared {i x t c v m} : Starts budget (.one i (.declaration x t c v), m) (.value i v, m)
  | assigned {i x v m} : Starts budget (.one i (.assignment x v), m) (.value i v, m)
  | called {i callee es m} :
      Starts budget (.one i (.call callee es), m) (.value i (.call callee es), m)
  | tried {i bs o m} : Starts budget (.one i (.conditional bs o), m) (.branches bs, m)
  | otherwise {i bs o m m'} (h : Run.branches budget bs m = .ok none m') :
      Starts budget (.one i (.conditional bs o), m) (.lastPart o, m')
  | looped {i c b m} : Starts budget (.one i (.loop c b), m) (.rounds c b budget, m)
  | first {i s ss m} : Starts budget (.statements i (s :: ss), m) (.one i s, m)
  | next {i s ss m m'} (h : Run.one budget i s m = .ok .pass m') :
      Starts budget (.statements i (s :: ss), m) (.statements i ss, m')
  | enter {n i ss m} (hss : n.statements = .ok ss) (hi : n.scope = .ok i) :
      Starts budget (.program n, m) (.top i ss, m)
  | topFirst {i s ss m} : Starts budget (.top i (s :: ss), m) (.one i s, m)
  | topNext {i s ss signal m m'} (h : Run.one budget i s m = .ok signal m') :
      Starts budget (.top i (s :: ss), m) (.top i ss, m')
  -- blocks
  | body {b i ss m} (hss : b.statements = .ok ss) (hi : b.scope = .ok i) :
      Starts budget (.block b, m) (.statements i ss, m)
  | condition {i c b bs m} (h : b.scope = .ok i) :
      Starts budget (.branches ((c, b) :: bs), m) (.value i c, m)
  | taken {c b bs m m'} (h : holds c b m = .ok true m') :
      Starts budget (.branches ((c, b) :: bs), m) (.block b, m')
  | passedOver {c b bs m m'} (h : holds c b m = .ok false m') :
      Starts budget (.branches ((c, b) :: bs), m) (.branches bs, m')
  | last {b m} : Starts budget (.lastPart (.otherwise b), m) (.block b, m)
  | test {i c b n m} (h : b.scope = .ok i) :
      Starts budget (.rounds c b (n + 1), m) (.value i c, m)
  | round {c b n m m'} (h : holds c b m = .ok true m') :
      Starts budget (.rounds c b (n + 1), m) (.block b, m')
  | nextRound {c b n signal m m₁ m₂} (h : holds c b m = .ok true m₁)
      (hb : Run.block budget b m₁ = .ok signal m₂) (hsignal : signal ≠ .leave) :
      Starts budget (.rounds c b (n + 1), m) (.rounds c b n, m₂)

end Run

end Scriptlet
