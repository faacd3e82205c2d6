import Scriptlet.Proofs.ReadTrees
import Scriptlet.Proofs.RunSteps

/-! # One store for all names

Every block has a scope of its own, and a name is looked for from the inside to the outside. A
running program does not need all that: nothing is ever bound in the scope of a block. This module
has an interpreter with a single store and no scopes, and shows that a run with scopes does what it
does.

The states of the two are related by a map: the store is what the outermost scope binds, and no
other scope binds anything (`Flat.nested`). One part of a run after the other mirrors its
counterpart along this map, and all states on the way are in its image.
-/
namespace Scriptlet

/-! ## Scopes of which only the outermost binds names -/

/-- Gives a name that is bound another value. -/
def Bindings.assign (b : Bindings) (name : String) (value : Value) : Bindings :=
  if b.binds name then b.put name value else b

namespace Scopes

/-- The scopes with other names in the outermost one. -/
def withRoot (σ : Scopes) (b : Bindings) : Scopes :=
  ⟨σ.frames.modify root fun frame => { frame with bindings := b }⟩

variable {σ : Scopes} {i : ScopeId} {b : Bindings}

theorem getElem?_withRoot_root (h : σ.IsFresh) (b : Bindings) :
    (σ.withRoot b).frames[root]? = some { bindings := b } := by
  rw [withRoot, Array.getElem?_modify, if_pos rfl, h.root]
  rfl

theorem getElem?_withRoot_inner (hi : i ≠ root) (b : Bindings) :
    (σ.withRoot b).frames[i]? = σ.frames[i]? := by
  rw [withRoot, Array.getElem?_modify, if_neg hi.symm]

theorem bindings_withRoot_root (h : σ.IsFresh) (b : Bindings) :
    (σ.withRoot b).bindings root = b := by
  rw [bindings, getElem?_withRoot_root h]

/-- No scope inside another one binds a name. -/
theorem bindings_withRoot_inner (h : σ.IsFresh) (hi : i ≠ root) (b : Bindings) :
    (σ.withRoot b).bindings i = [] := by
  rw [bindings, getElem?_withRoot_inner hi, ← bindings]
  exact h.bindings_eq_nil i

/-- If a name is bound at all, then by the outermost scope, wherever it is looked for from. -/
theorem owner?_withRoot (h : σ.IsFresh) (hi : i < σ.frames.size) (b : Bindings) (x : String) :
    (σ.withRoot b).owner? i x = if b.binds x then some root else none := by
  -- by induction on the number of the scope: it is greater than that of the scope around it
  induction i using Nat.strongRecOn with
  | ind i ih =>
    rw [owner?, chain]
    by_cases hroot : i = root
    · subst hroot
      rw [parent?, getElem?_withRoot_root h]
      show List.find? _ [root] = _
      rw [List.find?_singleton, bindings_withRoot_root h]
    · obtain ⟨p, hp, hframe⟩ := h.inner i _ hroot (Array.getElem?_eq_getElem hi)
      have hparent : (σ.withRoot b).parent? i = some p := by
        rw [parent?, getElem?_withRoot_inner hroot, Array.getElem?_eq_getElem hi, hframe]
      rw [hparent, List.find?_cons, bindings_withRoot_inner h hroot]
      show (if p < i then _ else _ : List ScopeId).find? _ = _
      rw [if_pos hp]
      exact ih p hp (Nat.lt_trans hp hi)

/-- Looking a name up, from any scope, finds its value in the outermost one. -/
theorem get?_withRoot (h : σ.IsFresh) (hi : i < σ.frames.size) (b : Bindings) (x : String) :
    (σ.withRoot b).get? i x = b.get? x := by
  rw [get?, owner?_withRoot h hi]
  split
  · exact congrArg (Bindings.get? · x) (bindings_withRoot_root h b)
  · rename_i hbinds
    rw [Bindings.binds, Bool.not_eq_true, Option.isSome_eq_false_iff, Option.isNone_iff_eq_none]
      at hbinds
    exact hbinds.symm

theorem define_withRoot (σ : Scopes) (b : Bindings) (x : String) (v : Value) :
    (σ.withRoot b).define root x v = σ.withRoot (b.put x v) := by
  rw [define, withRoot, withRoot]
  refine congrArg Scopes.mk (Array.ext_getElem? fun i => ?_)
  rw [Array.getElem?_modify, Array.getElem?_modify, Array.getElem?_modify]
  split
  · rw [Option.map_map]
    rfl
  · rfl

/-- An assignment, from any scope, changes the outermost one. -/
theorem assign_withRoot (h : σ.IsFresh) (hi : i < σ.frames.size) (b : Bindings) (x : String)
    (v : Value) : (σ.withRoot b).assign i x v = σ.withRoot (b.assign x v) := by
  rw [assign, owner?_withRoot h hi, Bindings.assign]
  split <;> rename_i hbinds
  · split at hbinds
    · cases hbinds
      rw [if_pos ‹_›, define_withRoot]
    · cases hbinds
  · split at hbinds
    · cases hbinds
    · rw [if_neg ‹_›]

end Scopes

/-! ## The interpreter with one store -/

/-- The state of a running program whose names are all kept in one store. -/
structure Flat where
  /-- The names and their values. -/
  store : Bindings := []
  /-- The lines of input that have not been read, each with its line break. -/
  input : List String := []
  /-- What has been written. -/
  output : String := ""
  /-- What has been reported. -/
  reports : List Diagnostic := []

namespace Flat

open Run (Signal)

variable {α : Type}

/-- What the state says about anything but names. -/
def world (f : Flat) : Machine :=
  { input := f.input, output := f.output, reports := f.reports }

/-- The same names, while the rest has become what it is in the machine. -/
def inWorld (f : Flat) (m : Machine) : Flat :=
  { store := f.store, input := m.input, output := m.output, reports := m.reports }

/-- Does what has nothing to do with names. -/
def effect (x : Run α) : EStateM Fault Flat α := fun f =>
  onState f.inWorld (x f.world)

mutual

/-- The value of an expression. -/
def eval (n : Node) : EStateM Fault Flat Value :=
  match n with
  | .call callee arguments => do
    let values ← evalAll arguments
    effect (Run.builtin callee values)
  | .identifier name _ => do return ((← get).store.get? name).getD .absent
  | .arithmetic op l r => do
    let p ← effect (Run.ofExcept l.pos)
    let a ← eval l
    let b ← eval r
    effect (Run.arithmetic op p a b)
  | .signed op o => do
    let v ← eval o
    effect (Run.ofExcept (op.apply v))
  | .negation o => do
    let v ← eval o
    effect (Run.negation v)
  | .comparison op l r => do
    let a ← eval l
    let b ← eval r
    effect (Run.ofExcept (op.apply a b))
  | .logic op l r => do
    let a ← eval l
    match Run.decided? op a with
    | some v => return v
    | none =>
      let b ← eval r
      return Run.joined op a b
  | .literal .plain _ _ => return .absent
  | .literal _ v _ => return v
  | _ => return .absent

/-- The values of a list of expressions, from left to right. -/
def evalAll (ns : List Node) : EStateM Fault Flat (List Value) :=
  match ns with
  | [] => return []
  | n :: rest => do
    let v ← eval n
    let vs ← evalAll rest
    return v :: vs

end

/-- Whether a condition is true. -/
def holds (c : Node) : EStateM Fault Flat Bool := do
  return (← eval c).truth

/-- Runs `body` as long as `test` is true and `body` does not break off, for at most so many
rounds. -/
def rounds (test : EStateM Fault Flat Bool) (body : EStateM Fault Flat Signal) :
    Nat → EStateM Fault Flat Unit
  | 0 => throw .exhausted
  | n + 1 => do
    if ← test then
      match ← body with
      | .leave => return
      | .pass | .again => rounds test body n
    else return

mutual

/-- Runs one statement; how it ends the block that it stands in. -/
def one (budget : Nat) (s : Node) : EStateM Fault Flat Signal :=
  match s with
  | .declaration _ _ _ v => do
    let _ ← eval v
    throw (.undefinedName "Symbol")
  | .assignment x v => do
    let a ← eval v
    modify fun f => { f with store := f.store.assign x a }
    return .pass
  | .call callee arguments => do
    let _ ← eval (.call callee arguments)
    return .pass
  | .conditional bs o => do
    match ← branches budget bs with
    | some signal => return signal
    | none => return (← lastPart budget o).getD .pass
  | .loop c b => do
    rounds (holds c) (block budget b) budget
    return .pass
  | .breakLoop => return .leave
  | .continueLoop => return .again
  | _ => return .pass

/-- Runs a block. -/
def block (budget : Nat) (n : Node) : EStateM Fault Flat Signal :=
  match n with
  | .block ss _ => statements budget ss
  | n => effect (Run.ofExcept (n.lacks "statements"))

/-- Runs the statements of a block. -/
def statements (budget : Nat) (ss : List Node) : EStateM Fault Flat Signal :=
  match ss with
  | [] => return .pass
  | s :: rest => do
    match ← one budget s with
    | .pass => statements budget rest
    | signal => return signal

/-- Runs the first block whose condition is true; how it ended, if there is one. -/
def branches (budget : Nat) (bs : List (Node × Node)) : EStateM Fault Flat (Option Signal) :=
  match bs with
  | [] => return none
  | (c, b) :: rest => do
    if ← holds c then
      let signal ← block budget b
      return some signal
    else branches budget rest

/-- Runs the part behind `else`, if there is one. -/
def lastPart (budget : Nat) (o : Node) : EStateM Fault Flat (Option Signal) :=
  match o with
  | .otherwise b => do
    let signal ← block budget b
    return some signal
  | _ => return none

end

/-- Runs the statements of a program. -/
def topStatements (budget : Nat) : List Node → EStateM Fault Flat Unit
  | [] => return
  | s :: rest => do
    let _ ← one budget s
    topStatements budget rest

/-- Runs a program. -/
def program (budget : Nat) (n : Node) : EStateM Fault Flat Unit := do
  let ss ← effect (Run.ofExcept n.statements)
  topStatements budget ss

/-! ## A run with scopes mirrors one without -/

/-- The machine with the given scopes, whose outermost one binds the names of the store. -/
def nested (σ : Scopes) (f : Flat) : Machine :=
  f.world.withScopes (σ.withRoot f.store)

variable {σ : Scopes} {i : ScopeId}

theorem mirrors_effect {x : Run α} (h : Run.Blind x) (σ : Scopes) (f : Flat) :
    Mirrors (nested σ) (effect x) x f := by
  rw [Mirrors, nested, h, effect]
  cases x f.world <;> rfl

mutual

/-- An expression has the same value, from any scope, as it has without scopes. -/
theorem mirrors_eval (h : σ.IsFresh) (hi : i < σ.frames.size) (f : Flat) :
    ∀ n : Node, Mirrors (nested σ) (eval n) (Run.eval i n) f
  | .call callee arguments => by
    rw [eval, Run.eval]
    exact (mirrors_evalAll h hi f arguments).bind fun values f' =>
      mirrors_effect (Run.blind_builtin _ _) σ f'
  | .identifier x p => by
    rw [Mirrors, Run.eval_identifier, nested]
    show EStateM.Result.ok (((σ.withRoot f.store).get? i x).getD .absent) _ = _
    rw [Scopes.get?_withRoot h hi, eval]
    rfl
  | .arithmetic op l r => by
    rw [eval, Run.eval]
    refine (mirrors_effect (Run.blind_ofExcept _) σ f).bind fun p f₁ => ?_
    refine (mirrors_eval h hi f₁ l).bind fun a f₂ => (mirrors_eval h hi f₂ r).bind fun b f₃ => ?_
    exact mirrors_effect (Run.blind_arithmetic _ _ _ _) σ f₃
  | .signed op o => by
    rw [eval, Run.eval]
    exact (mirrors_eval h hi f o).bind fun v f' => mirrors_effect (Run.blind_ofExcept _) σ f'
  | .negation o => by
    rw [eval, Run.eval]
    exact (mirrors_eval h hi f o).bind fun v f' => mirrors_effect (Run.blind_negation _) σ f'
  | .comparison op l r => by
    rw [eval, Run.eval]
    refine (mirrors_eval h hi f l).bind fun a f₁ => (mirrors_eval h hi f₁ r).bind fun b f₂ => ?_
    exact mirrors_effect (Run.blind_ofExcept _) σ f₂
  | .logic op l r => by
    rw [eval, Run.eval]
    refine (mirrors_eval h hi f l).bind fun a f₁ => ?_
    cases Run.decided? op a with
    | some v => exact mirrors_pure v
    | none => exact (mirrors_eval h hi f₁ r).bind fun b f₂ => mirrors_pure _
  | .literal kind v p => by
    cases kind <;> rfl
  | .empty _ | .assignment .. | .declaration .. | .otherwise _ | .conditional .. | .loop ..
  | .block .. | .program .. | .breakLoop | .continueLoop | .bare | .raw _ => rfl

theorem mirrors_evalAll (h : σ.IsFresh) (hi : i < σ.frames.size) (f : Flat) :
    ∀ ns : List Node, Mirrors (nested σ) (evalAll ns) (Run.evalAll i ns) f
  | [] => rfl
  | n :: rest => by
    rw [evalAll, Run.evalAll]
    exact (mirrors_eval h hi f n).bind fun v f₁ =>
      (mirrors_evalAll h hi f₁ rest).bind fun vs f₂ => mirrors_pure _

end

/-- It makes no difference that a condition is evaluated in the scope of its block. -/
theorem mirrors_holds (h : σ.IsFresh) {c b : Node} (hb : b.IsBlock σ.frames.size) (f : Flat) :
    Mirrors (nested σ) (holds c) (Run.holds c b) f := by
  match b, hb with
  | .block ss j, ⟨hj, _⟩ => exact (mirrors_eval h hj f c).bind fun v f' => mirrors_pure v.truth

theorem mirrors_rounds {test : EStateM Fault Flat Bool} {body : EStateM Fault Flat Signal}
    {test' : Run Bool} {body' : Run Signal} (htest : ∀ f, Mirrors (nested σ) test test' f)
    (hbody : ∀ f, Mirrors (nested σ) body body' f) :
    ∀ n f, Mirrors (nested σ) (rounds test body n) (Run.rounds test' body' n) f
  | 0, f => mirrors_throw _
  | n + 1, f => by
    rw [rounds, Run.rounds]
    refine (htest f).bind fun go f₁ => ?_
    cases go with
    | false => exact mirrors_pure _
    | true =>
      refine (hbody f₁).bind fun signal f₂ => ?_
      cases signal with
      | leave => exact mirrors_pure _
      | pass | again => exact mirrors_rounds htest hbody n f₂

section statements

variable {budget : Nat}

mutual

/-- A statement does, in any scope, what it does without scopes. -/
theorem mirrors_one (h : σ.IsFresh) {i : ScopeId} (hi : i < σ.frames.size) :
    ∀ {s : Node}, s.IsStatement σ.frames.size → ∀ f : Flat,
      Mirrors (nested σ) (one budget s) (Run.one budget i s) f
  | .declaration x t c v, _, f => by
    rw [one, Run.one, Run.declare, bind_assoc]
    exact (mirrors_eval h hi f v).bind fun _ f' => mirrors_throw _
  | .assignment x v, _, f => by
    rw [one, Run.one, Run.assign, bind_assoc]
    refine (mirrors_eval h hi f v).bind fun a f' => ?_
    -- both have changed the store, and nothing else
    show EStateM.Result.ok Signal.pass
      { nested σ f' with scopes := (σ.withRoot f'.store).assign i x a } = _
    rw [Scopes.assign_withRoot h hi]
    rfl
  | .call callee es, _, f => by
    rw [one, Run.one]
    exact (mirrors_eval h hi f (.call callee es)).bind fun _ f' => mirrors_pure _
  | .conditional bs o, ⟨hbs, ho⟩, f => by
    rw [one, Run.one, Run.conditional, Run.orElse, bind_assoc]
    refine (mirrors_branches h hbs f).bind fun signal f' => ?_
    cases signal with
    | some signal => exact mirrors_pure signal
    | none => exact (mirrors_lastPart h ho f').bind fun signal f'' => mirrors_pure _
  | .loop c b, ⟨_, hb⟩, f => by
    rw [one, Run.one, Run.loop]
    exact (mirrors_rounds (mirrors_holds h hb) (mirrors_block h hb) budget f).bind
      fun _ f' => mirrors_pure _
  | .breakLoop, _, f => rfl
  | .continueLoop, _, f => rfl

theorem mirrors_block (h : σ.IsFresh) : ∀ {b : Node}, b.IsBlock σ.frames.size → ∀ f : Flat,
    Mirrors (nested σ) (block budget b) (Run.block budget b) f
  | .block ss j, ⟨hj, hss⟩, f => by
    rw [block, Run.block]
    exact mirrors_statements h hj hss f

theorem mirrors_statements (h : σ.IsFresh) {i : ScopeId} (hi : i < σ.frames.size) :
    ∀ {ss : List Node}, Node.AreStatements σ.frames.size ss → ∀ f : Flat,
      Mirrors (nested σ) (statements budget ss) (Run.statements budget i ss) f
  | [], _, f => rfl
  | s :: rest, ⟨hs, hrest⟩, f => by
    rw [statements, Run.statements_cons]
    refine (mirrors_one h hi hs f).bind fun signal f' => ?_
    cases signal with
    | pass => exact mirrors_statements h hi hrest f'
    | leave | again => exact mirrors_pure _

theorem mirrors_branches (h : σ.IsFresh) :
    ∀ {bs : List (Node × Node)}, Node.AreBranches σ.frames.size bs → ∀ f : Flat,
      Mirrors (nested σ) (branches budget bs) (Run.branches budget bs) f
  | [], _, f => rfl
  | (c, b) :: rest, ⟨_, hb, hrest⟩, f => by
    rw [branches, Run.branches]
    refine (mirrors_holds h hb f).bind fun go f₁ => ?_
    cases go with
    | true => exact (mirrors_block h hb f₁).bind fun signal f₂ => mirrors_pure _
    | false => exact mirrors_branches h hrest f₁

theorem mirrors_lastPart (h : σ.IsFresh) :
    ∀ {o : Node}, o.IsLastPart σ.frames.size → ∀ f : Flat,
      Mirrors (nested σ) (lastPart budget o) (Run.lastPart budget o) f
  | .otherwise b, hb, f => by
    rw [lastPart, Run.lastPart]
    exact (mirrors_block h hb f).bind fun signal f' => mirrors_pure _
  | .empty _, _, f => rfl

end

theorem mirrors_topStatements (h : σ.IsFresh) (hi : i < σ.frames.size) :
    ∀ {ss : List Node}, Node.AreStatements σ.frames.size ss → ∀ f : Flat,
      Mirrors (nested σ) (topStatements budget ss) (Run.topStatements budget i ss) f
  | [], _, f => rfl
  | s :: rest, ⟨hs, hrest⟩, f => by
    rw [topStatements, Run.topStatements_cons]
    exact (mirrors_one h hi hs f).bind fun _ f' => mirrors_topStatements h hi hrest f'

end statements

end Flat

/-! ## The states on the way -/

theorem Node.IsBlock.scope_lt {k : Nat} {i : ScopeId} :
    ∀ {b : Node}, b.IsBlock k → b.scope = .ok i → i < k
  | .block _ _, ⟨hj, _⟩, h => by
    cases h
    exact hj

theorem Node.IsBlock.areStatements {k : Nat} {ss : List Node} :
    ∀ {b : Node}, b.IsBlock k → b.statements = .ok ss → Node.AreStatements k ss
  | .block _ _, ⟨_, hss⟩, h => by
    cases h
    exact hss

namespace Run

/-- The job is about statements and blocks as they are read where `k` scopes have been opened. -/
def Job.Fits (k : Nat) : Job → Prop
  | .value i _ | .arguments i _ => i < k
  | .one i s => i < k ∧ s.IsStatement k
  | .statements i ss | .top i ss => i < k ∧ Node.AreStatements k ss
  | .program n => ∃ ss i, n = .program ss i ∧ i < k ∧ Node.AreStatements k ss
  | .block b | .rounds _ b _ => b.IsBlock k
  | .branches bs => Node.AreBranches k bs
  | .lastPart o => o.IsLastPart k

/-- The job and the state are as they are in a run of which only the outermost scope binds
names. -/
structure Flattens (σ : Scopes) (q : Job × Machine) : Prop where
  fits : q.1.Fits σ.frames.size
  nested : ∃ f : Flat, q.2 = f.nested σ

/-- What a job starts is of the same form. -/
theorem Starts.flattens {σ : Scopes} {budget : Nat} {q q' : Job × Machine} (hσ : σ.IsFresh)
    (h : Starts budget q q') (hq : Flattens σ q) : Flattens σ q' := by
  obtain ⟨hfits, f, hf⟩ := hq
  have hsame : ∃ f : Flat, q.2 = f.nested σ := ⟨f, hf⟩
  cases h with
  | arguments | head | signed | negation | arithmeticLeft | comparisonLeft | logicLeft =>
    exact ⟨hfits, hsame⟩
  | tail h | arithmeticRight h | comparisonRight h | logicRight h =>
    cases hf
    obtain ⟨f', rfl⟩ := (Flat.mirrors_eval hσ hfits f _).exists_state h
    exact ⟨hfits, f', rfl⟩
  | declared | assigned | called => exact ⟨hfits.1, hsame⟩
  | tried => exact ⟨hfits.2.1, hsame⟩
  | otherwise h =>
    cases hf
    obtain ⟨f', rfl⟩ := (Flat.mirrors_branches hσ hfits.2.1 f).exists_state h
    exact ⟨hfits.2.2, f', rfl⟩
  | looped => exact ⟨hfits.2.2, hsame⟩
  | first | topFirst => exact ⟨⟨hfits.1, hfits.2.1⟩, hsame⟩
  | next h | topNext h =>
    cases hf
    obtain ⟨f', rfl⟩ := (Flat.mirrors_one hσ hfits.1 hfits.2.1 f).exists_state h
    exact ⟨⟨hfits.1, hfits.2.2⟩, f', rfl⟩
  | enter hss hi =>
    obtain ⟨_, _, rfl, hroot, hstatements⟩ := hfits
    cases hss
    cases hi
    exact ⟨⟨hroot, hstatements⟩, hsame⟩
  | body hss hi => exact ⟨⟨hfits.scope_lt hi, hfits.areStatements hss⟩, hsame⟩
  | condition h => exact ⟨hfits.2.1.scope_lt h, hsame⟩
  | test h => exact ⟨hfits.scope_lt h, hsame⟩
  | taken h =>
    cases hf
    obtain ⟨f', rfl⟩ := (Flat.mirrors_holds hσ hfits.2.1 f).exists_state h
    exact ⟨hfits.2.1, f', rfl⟩
  | passedOver h =>
    cases hf
    obtain ⟨f', rfl⟩ := (Flat.mirrors_holds hσ hfits.2.1 f).exists_state h
    exact ⟨hfits.2.2, f', rfl⟩
  | last => exact ⟨hfits, hsame⟩
  | round h =>
    cases hf
    obtain ⟨f', rfl⟩ := (Flat.mirrors_holds hσ hfits f).exists_state h
    exact ⟨hfits, f', rfl⟩
  | nextRound h hb _ =>
    cases hf
    obtain ⟨f₁, rfl⟩ := (Flat.mirrors_holds hσ hfits f).exists_state h
    obtain ⟨f₂, rfl⟩ := (Flat.mirrors_block hσ hfits f₁).exists_state hb
    exact ⟨hfits, f₂, rfl⟩

/-- All that a job leads to is of the same form. -/
theorem flattens_of_starts {σ : Scopes} {budget : Nat} {q q' : Job × Machine} (hσ : σ.IsFresh)
    (h : Relation.ReflTransGen (Starts budget) q q') (hq : Flattens σ q) : Flattens σ q' := by
  induction h with
  | refl => exact hq
  | tail _ hstep ih => exact hstep.flattens hσ ih

end Run

/-! ## Programs -/

/-- The machine shows the same as the state without scopes, and only its outermost scope binds
names. -/
structure Flat.ShownBy (f : Flat) (m : Machine) : Prop where
  output : m.output = f.output
  input : m.input = f.input
  reports : m.reports = f.reports
  store : m.scopes.bindings Scopes.root = f.store
  inner : ∀ i, i ≠ Scopes.root → m.scopes.bindings i = []

theorem Flat.shownBy_nested {σ : Scopes} (h : σ.IsFresh) (f : Flat) : f.ShownBy (f.nested σ) where
  output := rfl
  input := rfl
  reports := rfl
  store := Scopes.bindings_withRoot_root h f.store
  inner _ hi := Scopes.bindings_withRoot_inner h hi f.store

/-- **A program needs no scopes but one.** Let it have been read without a mistake, and let names be
bound in its outermost scope. Then it writes, reads and reports the same, ends the same way and
leaves the same values as the interpreter with one store.

On the way, no scope of a block ever binds a name, so that an expression has the same value and the
same effect from every scope; a condition, for one, is evaluated in the scope of its block, and
could be evaluated outside. -/
theorem program_runs_flat {n : Node} {σ : Scopes} (hn : IsParsed n σ) (budget : Nat) (b : Bindings)
    (input : List String) :
    SameOutcome Flat.ShownBy (Flat.program budget n { store := b, input := input })
      (Run.program budget n { scopes := σ.withRoot b, input := input }) ∧
    ∀ job m, Relation.ReflTransGen (Run.Starts budget)
        (.program n, { scopes := σ.withRoot b, input := input }) (job, m) →
      (∀ i, i ≠ Scopes.root → m.scopes.bindings i = []) ∧
      ∀ i j e, i < σ.frames.size → j < σ.frames.size → Run.eval i e m = Run.eval j e m := by
  obtain ⟨ss, rfl, hss, hσ⟩ := hn.exists_statements
  have hroot : Scopes.root < σ.frames.size := hσ.size_pos
  constructor
  · have hrun : Mirrors (Flat.nested σ) (Flat.topStatements budget ss)
        (Run.topStatements budget Scopes.root ss) { store := b, input := input } :=
      Flat.mirrors_topStatements hσ hroot hss _
    exact hrun.sameOutcome fun f => f.shownBy_nested hσ
  · intro job m hreach
    have hstart : Run.Flattens σ (.program (.program ss Scopes.root),
        { scopes := σ.withRoot b, input := input }) :=
      ⟨⟨ss, _, rfl, hroot, hss⟩, { store := b, input := input }, rfl⟩
    obtain ⟨-, f, hf⟩ := Run.flattens_of_starts hσ hreach hstart
    replace hf : m = f.nested σ := hf
    subst hf
    refine ⟨(f.shownBy_nested hσ).inner, fun i j e hi hj => ?_⟩
    rw [Flat.mirrors_eval hσ hi f e, Flat.mirrors_eval hσ hj f e]

/-- `x < 2` -/
def countUpTest : Node :=
  .comparison .less (.identifier "x" ⟨1, 7⟩) (.literal .int (.int 2) ⟨1, 11⟩)

/-- A loop that counts up to two. -/
def countUp : Node :=
  .program [.loop countUpTest
    (.block [.assignment "x"
      (.arithmetic .add (.identifier "x" ⟨2, 2⟩) (.literal .int (.int 1) ⟨2, 6⟩))] 1)] Scopes.root

/-- The scopes of the program and of the body of its loop. -/
def countUpScopes : Scopes :=
  ⟨#[{}, { parent := some Scopes.root }]⟩

set_option maxRecDepth 20000 in
theorem countUp_isParsed : IsParsed countUp countUpScopes :=
  have hread : (Reading.ofSource false [] "while x < 2 \x7b\nx += 1\n\x7d\n").program? false =
      some (countUp, countUpScopes) := by
    with_unfolding_all rfl
  isParsed_of_source hread

/-- The loop counts the variable of the program up, from inside its body. -/
theorem countUp_runs_flat :
    ∃ m, Run.program 3 countUp { scopes := countUpScopes.withRoot [("x", .int 0)] } = .ok () m ∧
      m.scopes.bindings Scopes.root = [("x", .int 2)] ∧ m.scopes.bindings 1 = [] ∧
      Run.eval 1 countUpTest { scopes := countUpScopes.withRoot [("x", .int 0)] } =
        Run.eval Scopes.root countUpTest { scopes := countUpScopes.withRoot [("x", .int 0)] } := by
  obtain ⟨hsame, hway⟩ := program_runs_flat countUp_isParsed 3 [("x", .int 0)] []
  have hflat : Flat.program 3 countUp { store := [("x", .int 0)] } =
      .ok () { store := [("x", .int 2)] } := by
    with_unfolding_all rfl
  rw [hflat] at hsame
  have htest := (hway _ _ .refl).2 1 Scopes.root countUpTest (by decide) (by decide)
  cases hrun : Run.program 3 countUp { scopes := countUpScopes.withRoot [("x", .int 0)] } with
  | ok u m =>
    rw [hrun] at hsame
    exact ⟨m, rfl, hsame.2.store, hsame.2.inner 1 (by decide), htest⟩
  | error fault m =>
    rw [hrun] at hsame
    exact hsame.elim

end Scriptlet
