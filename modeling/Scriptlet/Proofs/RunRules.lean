import Scriptlet.Proofs.Evaluation
import Scriptlet.Proofs.RunSteps
import Scriptlet.Proofs.ValueFaults

/-! # What holds of all runs

A job starts other jobs, and when they have come to their ends it does something by itself: it looks
up a variable, calls a built-in function, applies an operator or assigns to a variable
(`Run.Does`). All else is one thing after the other, and faults that no report goes with. So a
property of parts of a run, which may refer to the job that they belong to, holds of every run if it
holds of these acts, is kept by sequences and is passed on by the jobs that are started
(`Run.Rules`).
-/
namespace Scriptlet.Run

/-! ## Acts -/

/-- What is done at one point of a run. -/
inductive Act where
  /-- To look up a variable. -/
  | read (i : ScopeId) (x : String)
  /-- To call a built-in function. -/
  | call (callee : String) (vs : List Value)
  /-- To apply an arithmetic operator whose left side stands at `p`. -/
  | operate (op : Arithmetic) (p : Pos) (a b : Value)
  /-- To negate a value. -/
  | negate (v : Value)
  /-- To assign to a variable. -/
  | assign (i : ScopeId) (x : String) (v : Value)

/-- What an act gives. -/
def Act.Result : Act → Type
  | read .. | call .. | operate .. | negate _ => Value
  | assign .. => Unit

/-- Performs an act. -/
def Act.run : (act : Act) → Run act.Result
  | read i x => variableValue i x
  | call callee vs => builtin callee vs
  | operate op p a b => arithmetic op p a b
  | negate v => negation v
  | assign i x v => modify fun m => { m with scopes := m.scopes.assign i x v }

/-- A job at some state of the machine does something by itself, at the state it has come to. -/
inductive Does : Job × Machine → Act × Machine → Prop
  | read {i x p m} : Does (.value i (.identifier x p), m) (.read i x, m)
  | call {i callee es vs m m'} (h : evalAll i es m = .ok vs m') :
      Does (.value i (.call callee es), m) (.call callee vs, m')
  | operate {i op l r p a b m m₁ m₂} (hp : l.pos = .ok p) (ha : eval i l m = .ok a m₁)
      (hb : eval i r m₁ = .ok b m₂) :
      Does (.value i (.arithmetic op l r), m) (.operate op p a b, m₂)
  | negate {i o v m m'} (h : eval i o m = .ok v m') :
      Does (.value i (.negation o), m) (.negate v, m')
  | assign {i x e v m m'} (h : eval i e m = .ok v m') :
      Does (.one i (.assignment x e), m) (.assign i x v, m')

/-! ## Runs of jobs -/

/-- What a job gives. -/
def Job.Result : Job → Type
  | value .. => Value
  | arguments .. => List Value
  | one .. | statements .. | block _ => Signal
  | branches _ | lastPart _ => Option Signal
  | program _ | top .. | rounds .. => Unit

/-- Runs a job. -/
def Job.run (budget : Nat) : (job : Job) → Run job.Result
  | value i e => eval i e
  | arguments i es => evalAll i es
  | one i s => Run.one budget i s
  | statements i ss => Run.statements budget i ss
  | program n => Run.program budget n
  | top i ss => topStatements budget i ss
  | block b => Run.block budget b
  | branches bs => Run.branches budget bs
  | lastPart o => Run.lastPart budget o
  | rounds c b n => Run.rounds (holds c b) (Run.block budget b) n

/-- `Fine q m x` is a property of the part `x` of the job `q`, as it is run at the state `m`. It
holds of what jobs do by themselves, and is kept when parts are put together: one after the other,
or as the run of a job that is started. -/
structure Rules (budget : Nat) (Fine : ∀ {α : Type}, Job × Machine → Machine → Run α → Prop) :
    Prop where
  ofExcept : ∀ {α q m} {e : Except Fault α}, IsLocal e → Fine q m (Run.ofExcept e)
  bind : ∀ {α β q m} {x : Run α} {f : α → Run β}, Fine q m x →
    (∀ a m', x m = .ok a m' → Fine q m' (f a)) → Fine q m (x >>= f)
  start : ∀ {q job m}, Starts budget q (job, m) → Fine (job, m) m (job.run budget) →
    Fine q m (job.run budget)
  act : ∀ {q act m}, Does q (act, m) → Fine q m act.run

namespace Rules

variable {budget : Nat} {Fine : ∀ {α : Type}, Job × Machine → Machine → Run α → Prop}
  {q : Job × Machine} {m : Machine}

theorem pure (h : Rules budget Fine) {α : Type} (a : α) : Fine q m (Pure.pure a : Run α) :=
  h.ofExcept (isLocal_ok a)

theorem throw (h : Rules budget Fine) {α : Type} {f : Fault} (hf : f.isLocal = true) :
    Fine q m (MonadExcept.throw f : Run α) :=
  h.ofExcept (isLocal_error hf)

mutual

theorem eval (h : Rules budget Fine) {i : ScopeId} : ∀ (n : Node) {m : Machine},
    Fine (.value i n, m) m (Run.eval i n)
  | .call callee es, m => by
    rw [Run.eval]
    exact h.bind (h.start .arguments (evalAll h es)) fun vs m₁ hvs => h.act (.call hvs)
  | .identifier x p, m => by
    rw [Run.eval]
    exact h.act .read
  | .arithmetic op l r, m => by
    rw [Run.eval]
    -- the left side is asked for its place before it is evaluated
    refine h.bind (h.ofExcept l.isLocal_pos) fun p m₀ hplace => ?_
    obtain ⟨hp, rfl⟩ := ofExcept_eq_ok hplace
    refine h.bind (h.start .arithmeticLeft (eval h l)) fun a m₁ ha => ?_
    refine h.bind (h.start (.arithmeticRight ha) (eval h r)) fun b m₂ hb => ?_
    exact h.act (.operate hp ha hb)
  | .signed op o, m => by
    rw [Run.eval]
    exact h.bind (h.start .signed (eval h o)) fun v m₁ _ => h.ofExcept (op.isLocal_apply v)
  | .negation o, m => by
    rw [Run.eval]
    exact h.bind (h.start .negation (eval h o)) fun v m₁ hv => h.act (.negate hv)
  | .comparison op l r, m => by
    rw [Run.eval]
    refine h.bind (h.start .comparisonLeft (eval h l)) fun a m₁ ha => ?_
    refine h.bind (h.start (.comparisonRight ha) (eval h r)) fun b m₂ _ => ?_
    exact h.ofExcept (op.isLocal_apply a b)
  | .logic op l r, m => by
    rw [Run.eval]
    refine h.bind (h.start .logicLeft (eval h l)) fun a m₁ ha => ?_
    cases hd : decided? op a with
    | some v => exact h.pure v
    | none => exact h.bind (h.start (.logicRight ha hd) (eval h r)) fun b m₂ _ => h.pure _
  | .literal kind v p, m => by
    cases kind <;> exact h.pure _
  | .empty _, _ | .assignment .., _ | .declaration .., _ | .otherwise _, _ | .conditional .., _
  | .loop .., _ | .block .., _ | .program .., _ | .breakLoop, _ | .continueLoop, _ | .bare, _
  | .raw _, _ => h.pure Value.absent

theorem evalAll (h : Rules budget Fine) {i : ScopeId} : ∀ (ns : List Node) {m : Machine},
    Fine (.arguments i ns, m) m (Run.evalAll i ns)
  | [], _ => h.pure []
  | n :: rest, m => by
    rw [Run.evalAll]
    refine h.bind (h.start .head (eval h n)) fun v m₁ hv => ?_
    exact h.bind (h.start (.tail hv) (evalAll h rest)) fun vs m₂ _ => h.pure _

end

/-- The condition of a block, which is evaluated in the scope of the block. -/
theorem holds (h : Rules budget Fine) (c b : Node)
    (hstart : ∀ i, b.scope = .ok i → Starts budget q (.value i c, m)) :
    Fine q m (Run.holds c b) := by
  refine h.bind (h.ofExcept b.isLocal_scope) fun i m' hscope => ?_
  obtain ⟨hi, rfl⟩ := ofExcept_eq_ok hscope
  exact h.bind (h.start (hstart i hi) (h.eval c)) fun v m₁ _ => h.pure _

theorem rounds (h : Rules budget Fine) (c b : Node)
    (hblock : ∀ {m : Machine}, Fine (.block b, m) m (Run.block budget b)) :
    ∀ (n : Nat) {m : Machine},
      Fine (.rounds c b n, m) m (Run.rounds (Run.holds c b) (Run.block budget b) n)
  | 0, _ => h.throw rfl
  | n + 1, m => by
    rw [Run.rounds]
    refine h.bind (h.holds c b fun i hi => .test hi) fun go m₁ hgo => ?_
    cases go with
    | false => exact h.pure ()
    | true =>
      refine h.bind (h.start (.round hgo) hblock) fun signal m₂ hs => ?_
      cases signal with
      | leave => exact h.pure ()
      | pass => exact h.start (.nextRound hgo hs nofun) (rounds h c b hblock n)
      | again => exact h.start (.nextRound hgo hs nofun) (rounds h c b hblock n)

mutual

theorem one (h : Rules budget Fine) {i : ScopeId} : ∀ (s : Node) {m : Machine},
    Fine (.one i s, m) m (Run.one budget i s)
  | .declaration x t c v, m => by
    rw [Run.one, declare, bind_assoc]
    exact h.bind (h.start .declared (h.eval v)) fun _ m₁ _ => h.throw rfl
  | .assignment x v, m => by
    rw [Run.one, Run.assign, bind_assoc]
    refine h.bind (h.start .assigned (h.eval v)) fun a m₁ ha => ?_
    exact h.bind (h.act (.assign ha)) fun _ m₂ _ => h.pure _
  | .call callee es, m => by
    rw [Run.one]
    exact h.bind (h.start .called (h.eval (.call callee es))) fun _ m₁ _ => h.pure _
  | .conditional bs o, m => by
    rw [Run.one, conditional, orElse, bind_assoc]
    refine h.bind (h.start .tried (branches h bs)) fun signal m₁ hs => ?_
    cases signal with
    | some signal => exact h.pure _
    | none => exact h.bind (h.start (.otherwise hs) (lastPart h o)) fun signal m₂ _ => h.pure _
  | .loop c b, m => by
    rw [Run.one, loop]
    refine h.bind (h.start .looped (h.rounds c b (block h b) budget)) fun _ m₁ _ => h.pure _
  | .breakLoop, _ | .continueLoop, _ | .empty _, _ | .literal .., _ | .identifier .., _
  | .signed .., _ | .negation _, _ | .logic .., _ | .comparison .., _ | .arithmetic .., _
  | .otherwise _, _ | .block .., _ | .program .., _ | .bare, _ | .raw _, _ => h.pure _

theorem block (h : Rules budget Fine) : ∀ (b : Node) {m : Machine},
    Fine (.block b, m) m (Run.block budget b)
  | .block ss i, m | .program ss i, m => by
    rw [Run.block]
    exact h.start (.body rfl rfl) (statements h ss)
  | .empty _, _ | .literal .., _ | .identifier .., _ | .signed .., _ | .negation _, _ | .logic .., _
  | .comparison .., _ | .arithmetic .., _ | .assignment .., _ | .declaration .., _ | .call .., _
  | .otherwise _, _ | .conditional .., _ | .loop .., _ | .breakLoop, _ | .continueLoop, _ | .bare, _
  | .raw _, _ => h.ofExcept (Node.isLocal_lacks _ _)

theorem statements (h : Rules budget Fine) {i : ScopeId} : ∀ (ss : List Node) {m : Machine},
    Fine (.statements i ss, m) m (Run.statements budget i ss)
  | [], _ => h.pure _
  | s :: rest, m => by
    rw [statements_cons]
    refine h.bind (h.start .first (one h s)) fun signal m₁ hs => ?_
    cases signal with
    | pass => exact h.start (.next hs) (statements h rest)
    | leave | again => exact h.pure _

theorem branches (h : Rules budget Fine) : ∀ (bs : List (Node × Node)) {m : Machine},
    Fine (.branches bs, m) m (Run.branches budget bs)
  | [], _ => h.pure _
  | (c, b) :: rest, m => by
    rw [Run.branches]
    refine h.bind (h.holds c b fun i hi => .condition hi) fun go m₁ hgo => ?_
    cases go with
    | true => exact h.bind (h.start (.taken hgo) (block h b)) fun signal m₂ _ => h.pure _
    | false => exact h.start (.passedOver hgo) (branches h rest)

theorem lastPart (h : Rules budget Fine) : ∀ (o : Node) {m : Machine},
    Fine (.lastPart o, m) m (Run.lastPart budget o)
  | .otherwise b, m => by
    rw [Run.lastPart]
    exact h.bind (h.start .last (block h b)) fun signal m₁ _ => h.pure _
  | .empty _, _ | .literal .., _ | .identifier .., _ | .signed .., _ | .negation _, _ | .logic .., _
  | .comparison .., _ | .arithmetic .., _ | .assignment .., _ | .declaration .., _ | .call .., _
  | .block .., _ | .program .., _ | .conditional .., _ | .loop .., _ | .breakLoop, _
  | .continueLoop, _ | .bare, _ | .raw _, _ => h.pure _

end

theorem topStatements (h : Rules budget Fine) {i : ScopeId} : ∀ (ss : List Node) {m : Machine},
    Fine (.top i ss, m) m (Run.topStatements budget i ss)
  | [], _ => h.pure ()
  | s :: rest, m => by
    rw [topStatements_cons]
    refine h.bind (h.start .topFirst (h.one s)) fun signal m₁ hs => ?_
    exact h.start (.topNext hs) (topStatements h rest)

theorem program (h : Rules budget Fine) (n : Node) :
    Fine (.program n, m) m (Run.program budget n) := by
  refine h.bind (h.ofExcept n.isLocal_statements) fun ss m₁ hss => ?_
  obtain ⟨hstatements, rfl⟩ := ofExcept_eq_ok hss
  refine h.bind (h.ofExcept n.isLocal_scope) fun i m₂ hi => ?_
  obtain ⟨hscope, rfl⟩ := ofExcept_eq_ok hi
  exact h.start (.enter hstatements hscope) (h.topStatements ss)

/-- **A property that keeps to the rules holds of every run of every job.** -/
theorem run (h : Rules budget Fine) (job : Job) (m : Machine) :
    Fine (job, m) m (job.run budget) := by
  cases job with
  | value i e => exact h.eval e
  | arguments i es => exact h.evalAll es
  | one i s => exact h.one s
  | statements i ss => exact h.statements ss
  | program n => exact h.program n
  | top i ss => exact h.topStatements ss
  | block b => exact h.block b
  | branches bs => exact h.branches bs
  | lastPart o => exact h.lastPart o
  | rounds c b n => exact h.rounds c b (h.block b) n

end Rules

end Scriptlet.Run
