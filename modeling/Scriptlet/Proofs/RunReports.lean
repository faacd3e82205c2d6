import Scriptlet.Proofs.RunRules

/-! # What a run reports

A run reports at most one problem, and the report is the last thing it does. There are three acts
that can report: a division, a remainder and a negation (`Run.Act.Reports`). Whatever the report is
made in the middle of, the machine is left as it is at this point, and nothing is done any more. A
run that ends in any other way has reported nothing.
-/
namespace Scriptlet.Run

variable {α β : Type}

/-! ## What reports nothing -/

/-- The computation reports nothing, and if it fails then for a value or a node. -/
def Quiet (x : Run α) : Prop :=
  ∀ m, (lastState (x m)).reports = m.reports ∧ ∀ f, fault? (x m) = some f → f.isLocal = true

theorem quiet_of_ok {x : Run α} (h : ∀ m, ∃ a m', x m = .ok a m' ∧ m'.reports = m.reports) :
    Quiet x := by
  intro m
  obtain ⟨a, m', hm, hreports⟩ := h m
  rw [hm]
  exact ⟨hreports, nofun⟩

theorem quiet_ofExcept {e : Except Fault α} (h : IsLocal e) : Quiet (ofExcept e) := by
  intro m
  cases e with
  | ok a => exact ⟨rfl, nofun⟩
  | error f => exact ⟨rfl, fun g hg => h g (congrArg Except.error (Option.some.inj hg))⟩

theorem quiet_throw {f : Fault} (h : f.isLocal = true) : Quiet (throw f : Run α) :=
  quiet_ofExcept (isLocal_error h)

theorem quiet_modify {f : Machine → Machine} (h : ∀ m, (f m).reports = m.reports) :
    Quiet (modify f : Run Unit) :=
  quiet_of_ok fun m => ⟨(), f m, rfl, h m⟩

theorem quiet_write (text : String) : Quiet (write text) :=
  quiet_modify fun _ => rfl

theorem Quiet.bind {x : Run α} {f : α → Run β} (hx : Quiet x) (hf : ∀ a, Quiet (f a)) :
    Quiet (x >>= f) := by
  intro m
  have hm := hx m
  cases hr : x m with
  | ok a m₁ =>
    rw [hr] at hm
    rw [EStateM.bind_of_ok hr]
    exact ⟨(hf a m₁).1.trans hm.1, (hf a m₁).2⟩
  | error fault m₁ =>
    rw [hr] at hm
    rw [EStateM.bind_of_error hr]
    exact hm

theorem quiet_awaitFrom (prompt : String) {answer : String → Answer}
    (h : ∀ line, IsLocal (answer line)) : ∀ lines, Quiet (awaitFrom prompt answer lines)
  | [], m => by
    refine ⟨rfl, fun f hf => ?_⟩
    cases hf
    rfl
  | line :: rest, m => by
    rw [awaitFrom]
    cases hline : answer (lineText line) with
    | ok value =>
      cases value with
      | some v =>
        refine ⟨rfl, fun f hf => ?_⟩
        cases hf
      | none => exact quiet_awaitFrom prompt h rest _
    | error f =>
      refine ⟨rfl, fun g hg => ?_⟩
      cases hg
      exact h (lineText line) f hline

theorem quiet_await (prompt : String) {answer : String → Answer}
    (h : ∀ line, IsLocal (answer line)) : Quiet (await prompt answer) :=
  fun m => quiet_awaitFrom prompt h m.input m

theorem quiet_readBy (answer : String → Option Value) (vs : List Value) :
    Quiet (readBy answer vs) := by
  have hprompt : IsLocal (promptText vs) := by
    unfold promptText
    split
    · exact isLocal_ok _
    · exact isLocal_ok _
    · exact isLocal_error rfl
  exact (quiet_ofExcept hprompt).bind fun prompt => quiet_await prompt fun _ => isLocal_ok _

theorem isLocal_boolAnswer (vs : List Value) (line : String) :
    IsLocal (boolAnswer vs line) := by
  unfold boolAnswer
  split
  · exact isLocal_error rfl
  · refine .ite (isLocal_ok _) ?_
    split
    · exact isLocal_error rfl
    · exact .ite (isLocal_ok _) (isLocal_ok _)

/-- Built-in functions report nothing: what they make of a line they cannot use is to ask again. -/
theorem quiet_builtin (callee : String) (vs : List Value) : Quiet (builtin callee vs) := by
  have hwrite (text : String) : Quiet (do write text; return Value.absent) :=
    (quiet_write text).bind fun _ => quiet_ofExcept (isLocal_ok Value.absent)
  unfold builtin
  split
  · exact hwrite _
  · exact hwrite _
  · exact quiet_readBy _ _
  · exact quiet_readBy _ _
  · exact quiet_readBy _ _
  · cases vs with
    | nil => exact quiet_throw rfl
    | cons prompt rest => exact quiet_await _ (isLocal_boolAnswer _)
  · exact quiet_throw rfl

/-! ## What reports -/

/-- The act reports the problem. -/
inductive Act.Reports : Act → Diagnostic → Prop
  | division {p a b} (h : b.equals (.int 0) = true) :
      Reports (.operate .div p a b) (.zeroDivision p)
  | modulo {p a b} (h : b.equals (.int 0) = true) :
      Reports (.operate .mod p a b) (.zeroModulo p)
  | negation {v} (h : ∀ b, v ≠ .bool b) : Reports (.negate v) .notOfOther

/-- An act reports nothing, or it stops the run with its report. -/
theorem Act.quiet_or_reports (act : Act) :
    Quiet act.run ∨ ∃ d, act.Reports d ∧
      ∀ m, act.run m = .error .stopped { m with reports := m.reports ++ [d] } := by
  cases act with
  | read i x => exact .inl (quiet_of_ok fun m => ⟨_, m, rfl, rfl⟩)
  | call callee vs => exact .inl (quiet_builtin callee vs)
  | operate op p a b =>
    have happly : Quiet (ofExcept (op.apply a b)) := quiet_ofExcept (op.isLocal_apply a b)
    cases op with
    | div =>
      by_cases hb : b.equals (.int 0) = true
      · exact .inr ⟨_, .division hb, fun m => congrFun (if_pos hb) m⟩
      · rw [Act.run, arithmetic, if_neg hb]
        exact .inl happly
    | mod =>
      by_cases hb : b.equals (.int 0) = true
      · exact .inr ⟨_, .modulo hb, fun m => congrFun (if_pos hb) m⟩
      · rw [Act.run, arithmetic, if_neg hb]
        exact .inl happly
    | add | sub | mul | pow | other => exact .inl happly
  | negate v =>
    cases v with
    | bool b => exact .inl (quiet_ofExcept (isLocal_ok _))
    | absent | noneValue | int | float | complex | str | record | symbol =>
      refine .inr ⟨_, .negation fun b hb => ?_, fun _ => rfl⟩
      cases hb
  | assign i x v => exact .inl (quiet_modify fun _ => rfl)

/-! ## Runs -/

variable {budget : Nat} {q q' : Job × Machine} {m m' : Machine}

/-- How a part of the job may end: without a report, unless it was stopped. Then some act has made
the report, and the machine is as it was at that point. -/
structure Accounted (budget : Nat) (q : Job × Machine) (r : EStateM.Result Fault Machine α) :
    Prop where
  ok : ∀ {a m'}, r = .ok a m' → m'.reports = q.2.reports
  fault : ∀ {f m'}, r = .error f m' → f ≠ .stopped → m'.reports = q.2.reports
  stopped : ∀ {m'}, r = .error .stopped m' → ∃ q' act m₁ d,
    Relation.ReflTransGen (Starts budget) q q' ∧ Does q' (act, m₁) ∧ act.Reports d ∧
      m₁.reports = q.2.reports ∧ m' = { m₁ with reports := m₁.reports ++ [d] }

theorem Quiet.accounted {x : Run α} (hx : Quiet x) (hm : m.reports = q.2.reports) :
    Accounted budget q (x m) := by
  obtain ⟨hreports, hfault⟩ := hx m
  rw [hm] at hreports
  refine ⟨fun h => ?_, fun h _ => ?_, fun h => ?_⟩
  · rw [h] at hreports
    exact hreports
  · rw [h] at hreports
    exact hreports
  · rw [h] at hfault
    cases hfault .stopped rfl

/-- What ends a part of a sequence ends the sequence. -/
theorem Accounted.of_error {f : Fault}
    (h : Accounted budget q (.error f m : EStateM.Result Fault Machine α)) :
    Accounted budget q (.error f m : EStateM.Result Fault Machine β) := by
  refine ⟨nofun, fun heq hf => ?_, fun heq => ?_⟩
  · cases heq
    exact h.fault rfl hf
  · cases heq
    exact h.stopped rfl

/-- A job accounts for the jobs that it starts. -/
theorem Accounted.of_start {r : EStateM.Result Fault Machine α} (hq : Starts budget q q')
    (hreports : q'.2.reports = q.2.reports) (h : Accounted budget q' r) : Accounted budget q r := by
  refine ⟨fun hr => (h.ok hr).trans hreports, fun hr hf => (h.fault hr hf).trans hreports,
    fun hr => ?_⟩
  obtain ⟨q₁, act, m₁, d, hreach, hdoes, hd, hm₁, hend⟩ := h.stopped hr
  exact ⟨q₁, act, m₁, d, .head hq hreach, hdoes, hd, hm₁.trans hreports, hend⟩

theorem Does.accounted {act : Act} (hdoes : Does q (act, m)) (hm : m.reports = q.2.reports) :
    Accounted budget q (act.run m) := by
  rcases act.quiet_or_reports with hquiet | ⟨d, hd, hstop⟩
  · exact hquiet.accounted hm
  · rw [hstop m]
    refine ⟨nofun, fun heq hf => ?_, fun heq => ?_⟩
    · cases heq
      exact absurd rfl hf
    · cases heq
      exact ⟨q, act, m, d, .refl, hdoes, hd, hm, rfl⟩

theorem accountedRules (budget : Nat) :
    Rules budget fun q m x => m.reports = q.2.reports → Accounted budget q (x m) where
  ofExcept he hm := (quiet_ofExcept he).accounted hm
  bind := by
    intro α β q m x f hx hf hm
    cases hr : x m with
    | ok a m₁ =>
      rw [EStateM.bind_of_ok hr]
      exact hf a m₁ hr ((hx hm).ok hr)
    | error fault m₁ =>
      rw [EStateM.bind_of_error hr]
      exact (hr ▸ hx hm).of_error
  start hq hjob hm := (hjob rfl).of_start hq hm
  act hdoes hm := hdoes.accounted hm

theorem accounted (budget : Nat) (job : Job) (m : Machine) :
    Accounted budget (job, m) (job.run budget m) :=
  (accountedRules budget).run job m rfl

theorem reports_of_eval {i : ScopeId} {e : Node} {v : Value} (h : eval i e m = .ok v m') :
    m'.reports = m.reports :=
  (accounted 0 (.value i e) m).ok h

theorem reports_of_holds {c b : Node} {t : Bool} (h : holds c b m = .ok t m') :
    m'.reports = m.reports := by
  obtain ⟨i, m₁, hi, hc⟩ := EStateM.bind_eq_ok.mp h
  obtain ⟨-, rfl⟩ := ofExcept_eq_ok hi
  obtain ⟨v, m₂, hv, hend⟩ := EStateM.bind_eq_ok.mp hc
  cases hend
  exact reports_of_eval hv

/-- Whatever is started, is started before anything is reported. -/
theorem Starts.reports_eq (h : Starts budget q q') : q'.2.reports = q.2.reports := by
  cases h with
  | tail h | arithmeticRight h | comparisonRight h => exact reports_of_eval h
  | logicRight h _ => exact reports_of_eval h
  | otherwise h => exact (accounted budget (.branches _) _).ok h
  | next h => exact (accounted budget (.one _ _) _).ok h
  | topNext h => exact (accounted budget (.one _ _) _).ok h
  | taken h | passedOver h | round h => exact reports_of_holds h
  | nextRound h hb _ =>
    exact ((accounted budget (.block _) _).ok hb).trans (reports_of_holds h)
  | _ => rfl

/-- Whatever is done, is done before anything is reported. -/
theorem Does.reports_eq {act : Act} (h : Does q (act, m')) : m'.reports = q.2.reports := by
  cases h with
  | read => rfl
  | call h => exact (Run.accounted 0 (.arguments _ _) _).ok h
  | operate hp ha hb => exact (reports_of_eval hb).trans (reports_of_eval ha)
  | negate h | assign h => exact reports_of_eval h

theorem reports_eq_of_reached (h : Relation.ReflTransGen (Starts budget) q q') :
    q'.2.reports = q.2.reports := by
  induction h with
  | refl => rfl
  | tail _ hstep ih => exact hstep.reports_eq.trans ih

/-! ## Programs -/

/-- **A run reports at most one problem, and nothing is done behind the report.** A run that returns
has reported nothing, and so has one that ends with a fault, unless it was stopped. If it was, then
some job on the way has divided by zero or taken a remainder by zero, or has negated what is no
truth value; exactly this is reported, and the machine is as it was at that point. Whatever is done
on the way (variables are looked up and assigned to, built-in functions read and write) is done
while nothing has been reported. -/
theorem program_reports_last (budget : Nat) (n : Node) (m : Machine) :
    (∀ m', program budget n m = .ok () m' → m'.reports = m.reports) ∧
    (∀ f m', program budget n m = .error f m' → f ≠ .stopped → m'.reports = m.reports) ∧
    (∀ m', program budget n m = .error .stopped m' → ∃ q act m₁ d,
      Relation.ReflTransGen (Starts budget) (.program n, m) q ∧ Does q (act, m₁) ∧
        act.Reports d ∧ m' = { m₁ with reports := m.reports ++ [d] }) ∧
    ∀ q act m₁, Relation.ReflTransGen (Starts budget) (.program n, m) q → Does q (act, m₁) →
      m₁.reports = m.reports := by
  have haccounted := accounted budget (.program n) m
  refine ⟨fun m' h => haccounted.ok h, fun f m' h hf => haccounted.fault h hf, ?_, ?_⟩
  · intro m' h
    obtain ⟨q, act, m₁, d, hreach, hdoes, hd, hm₁, hend⟩ := haccounted.stopped h
    exact ⟨q, act, m₁, d, hreach, hdoes, hd, by rw [hend, hm₁]⟩
  · intro q act m₁ hreach hdoes
    exact hdoes.reports_eq.trans (reports_eq_of_reached hreach)

/-- Writes `a`, divides by zero in a loop, and would write `b`. -/
def divideInLoop : Node :=
  .program
    [.call "write" [.literal .string (.str "a") ⟨1, 6⟩],
      .loop (.literal .bool (.bool true) ⟨2, 6⟩) (.block
        [.assignment "x" (.arithmetic .div (.literal .int (.int 1) ⟨3, 4⟩)
          (.literal .int (.int 0) ⟨3, 8⟩))] 1),
      .call "write" [.literal .string (.str "b") ⟨5, 6⟩]]
    Scopes.root

/-- The division is reported, and nothing is written behind it. -/
theorem divideInLoop_stops :
    ∃ m', program 1 divideInLoop {} = .error .stopped m' ∧ m'.output = "a" ∧
      ∃ q act m₁ d, Relation.ReflTransGen (Starts 1) (.program divideInLoop, {}) q ∧
        Does q (act, m₁) ∧ act.Reports d ∧ m' = { m₁ with reports := [d] } := by
  have hstop : program 1 divideInLoop {} = .error .stopped
      { output := "a", reports := [.zeroDivision ⟨3, 4⟩] } := by
    with_unfolding_all rfl
  obtain ⟨-, -, hreport, -⟩ := program_reports_last 1 divideInLoop {}
  exact ⟨_, hstop, rfl, hreport _ hstop⟩

end Scriptlet.Run
