import Scriptlet.Proofs.Evaluation

/-! # Asking for lines of input

The functions that read a number or a truth value ask with their prompt until a line can be used. A
line that cannot be used is lost, and the prompt is written again; at the end of the input, it has
been written once more than there were lines (`Run.awaitFrom_passes`). A question that has no
answers to compare a line with fails, but only when the line has been read.
-/
namespace Scriptlet

/-- The machine after the prompt has been written so many times, when only the given lines are
left. -/
def Machine.asked (m : Machine) (prompt : String) (count : Nat) (rest : List String) : Machine :=
  { m with input := rest, output := m.output ++ String.join (List.replicate count prompt) }

theorem Machine.asked_one (m : Machine) (prompt : String) (rest : List String) :
    m.asked prompt 1 rest = { m with input := rest, output := m.output ++ prompt } := by
  rw [asked, List.replicate_one, String.join_cons, String.join_nil, String.append_empty]

theorem Machine.asked_asked (m : Machine) (prompt : String) (j k : Nat) (ls rest : List String) :
    (m.asked prompt j ls).asked prompt k rest = m.asked prompt (j + k) rest := by
  rw [asked, asked, asked, ← List.replicate_append_replicate, String.join_append,
    String.append_assoc]

namespace Run

variable {prompt : String} {answer : String → Answer} {line : String} {rest : List String}
  {m : Machine}

/-! ## One line after the other -/

theorem awaitFrom_nil (prompt : String) (answer : String → Answer) (m : Machine) :
    awaitFrom prompt answer [] m = .error .endOfInput (m.asked prompt 1 []) := by
  rw [Machine.asked_one]
  rfl

/-- A line that gives a value is the last one that is read. -/
theorem awaitFrom_value {v : Value} (h : answer (lineText line) = .ok (some v)) :
    awaitFrom prompt answer (line :: rest) m = .ok v (m.asked prompt 1 rest) := by
  rw [awaitFrom, h, Machine.asked_one]

/-- So is a line that makes the answer fail. -/
theorem awaitFrom_fault {f : Fault} (h : answer (lineText line) = .error f) :
    awaitFrom prompt answer (line :: rest) m = .error f (m.asked prompt 1 rest) := by
  rw [awaitFrom, h, Machine.asked_one]

/-- After any other line the question is asked again. -/
theorem awaitFrom_again (h : answer (lineText line) = .ok none) :
    awaitFrom prompt answer (line :: rest) m =
      awaitFrom prompt answer rest (m.asked prompt 1 rest) := by
  rw [awaitFrom, h, Machine.asked_one]

/-- Lines that cannot be used are read one by one, with the prompt before each. -/
theorem awaitFrom_passes (prompt : String) (answer : String → Answer) {skipped : List String}
    (h : ∀ l ∈ skipped, answer (lineText l) = .ok none) (rest : List String) (m : Machine) :
    awaitFrom prompt answer (skipped ++ rest) m =
      awaitFrom prompt answer rest (m.asked prompt skipped.length rest) := by
  induction skipped generalizing m with
  | nil =>
    have hsame : m.asked prompt 0 rest = { m with input := rest } := by
      rw [Machine.asked, List.replicate_zero, String.join_nil, String.append_empty]
    -- which lines are left is said by the list, and not by the machine
    show awaitFrom prompt answer rest m = awaitFrom prompt answer rest (m.asked prompt 0 rest)
    rw [hsame]
    cases rest <;> rfl
  | cons l skipped ih =>
    rw [List.cons_append, awaitFrom_again (h l List.mem_cons_self),
      ih fun k hk => h k (List.mem_cons_of_mem l hk), Machine.asked_asked, List.length_cons,
      Nat.add_comm]

/-! ## Asking until a line is accepted -/

/-- The result is that of asking until a line is accepted: that line and all before it are read,
and the prompt is written once for each of them. If no line is accepted then all are read, and the
prompt is written once more. -/
structure ReadsUntil (accept : String → Option Value) (prompt : String) (m : Machine)
    (r : EStateM.Result Fault Machine Value) : Prop where
  accepted : ∀ skipped line rest v, m.input = skipped ++ line :: rest →
    (∀ l ∈ skipped, accept (lineText l) = none) → accept (lineText line) = some v →
      r = .ok v (m.asked prompt (skipped.length + 1) rest)
  exhausted : (∀ l ∈ m.input, accept (lineText l) = none) →
    r = .error .endOfInput (m.asked prompt (m.input.length + 1) [])

theorem readsUntil_await (accept : String → Option Value) (prompt : String) (m : Machine) :
    ReadsUntil accept prompt m (await prompt (fun line => .ok (accept line)) m) where
  accepted skipped line rest v hinput hskipped hline := by
    rw [await, hinput, awaitFrom_passes _ _ fun l hl => congrArg Except.ok (hskipped l hl),
      awaitFrom_value (congrArg Except.ok hline), Machine.asked_asked]
  exhausted h := by
    have hend := awaitFrom_passes prompt (fun line => .ok (accept line))
      (fun l hl => congrArg Except.ok (h l hl)) [] m
    rw [List.append_nil, awaitFrom_nil, Machine.asked_asked] at hend
    exact hend

/-! ## Calls -/

/-- A call is made with the values of its arguments. -/
theorem eval_call {i : ScopeId} {callee : String} {es : List Node} {vs : List Value} {m₀ : Machine}
    (h : evalAll i es m₀ = .ok vs m) : eval i (.call callee es) m₀ = builtin callee vs m := by
  rw [eval, EStateM.bind_of_ok h]

/-- The integer that a line stands for. -/
def integerAnswer (line : String) : Option Value :=
  (Decimal.readInteger? line).map .int

/-- The floating-point number that a line stands for. -/
def floatAnswer (line : String) : Option Value :=
  (Decimal.readFloat? line).map .float

/-- The truth value that a line stands for: it is one of two given answers. -/
def truthAnswer (yes no : Value) (line : String) : Option Value :=
  if (Value.str line).equals yes then some (.bool true)
  else if (Value.str line).equals no then some (.bool false)
  else none

theorem builtin_readInt (p : Value) :
    builtin "readInt" [p] = await p.text fun line => .ok (integerAnswer line) := rfl

theorem builtin_readFloat (p : Value) :
    builtin "readFloat" [p] = await p.text fun line => .ok (floatAnswer line) := rfl

theorem builtin_readBool (p : Value) (answers : List Value) :
    builtin "readBool" (p :: answers) = await p.text (boolAnswer (p :: answers)) := rfl

/-- With both answers given, every line is one of them or is not. -/
theorem boolAnswer_two (p yes no : Value) (line : String) :
    boolAnswer [p, yes, no] line = .ok (truthAnswer yes no line) := by
  show (if _ then _ else if _ then _ else _) = Except.ok (if _ then _ else if _ then _ else _)
  split
  · rfl
  · split <;> rfl

/-- What is asked of the first line, with no answer to compare it with. -/
theorem boolAnswer_none (p : Value) (line : String) :
    boolAnswer [p] line = .error .outOfRange := rfl

theorem boolAnswer_one_of_equals {p yes : Value} {line : String}
    (h : (Value.str line).equals yes = true) :
    boolAnswer [p, yes] line = .ok (some (.bool true)) :=
  if_pos h

theorem boolAnswer_one_of_not {p yes : Value} {line : String}
    (h : (Value.str line).equals yes ≠ true) :
    boolAnswer [p, yes] line = .error .outOfRange :=
  if_neg h

/-- **How many lines are read.** Functions that read a number ask until a line is one, and the
function that reads a truth value asks until a line is one of the two answers that it is given. The
lines up to this one are read, the prompt is written once for each, and what the line stands for is
the result. If there is no such line then all are read, and the function fails at the end of the
input, when the prompt has been written once more.

Without any answers, the first line makes the function fail, when it has been read. With one answer
only, so does a first line that is not this answer. If there is no line at all, the end of the input
comes first. -/
theorem calls_read_lines (i : ScopeId) (es : List Node) (m₀ m : Machine) :
    (∀ p, evalAll i es m₀ = .ok [p] m →
      ReadsUntil integerAnswer p.text m (eval i (.call "readInt" es) m₀) ∧
      ReadsUntil floatAnswer p.text m (eval i (.call "readFloat" es) m₀) ∧
      (∀ line rest, m.input = line :: rest →
        eval i (.call "readBool" es) m₀ = .error .outOfRange (m.asked p.text 1 rest)) ∧
      (m.input = [] →
        eval i (.call "readBool" es) m₀ = .error .endOfInput (m.asked p.text 1 []))) ∧
    (∀ p yes, evalAll i es m₀ = .ok [p, yes] m →
      (∀ line rest, m.input = line :: rest → eval i (.call "readBool" es) m₀ =
        if (Value.str (lineText line)).equals yes then .ok (.bool true) (m.asked p.text 1 rest)
        else .error .outOfRange (m.asked p.text 1 rest)) ∧
      (m.input = [] →
        eval i (.call "readBool" es) m₀ = .error .endOfInput (m.asked p.text 1 []))) ∧
    ∀ p yes no, evalAll i es m₀ = .ok [p, yes, no] m →
      ReadsUntil (truthAnswer yes no) p.text m (eval i (.call "readBool" es) m₀) := by
  refine ⟨fun p hargs => ?_, fun p yes hargs => ?_, fun p yes no hargs => ?_⟩
  · rw [eval_call hargs, eval_call hargs, eval_call hargs, builtin_readInt, builtin_readFloat,
      builtin_readBool]
    refine ⟨readsUntil_await _ _ _, readsUntil_await _ _ _, fun line rest hinput => ?_,
      fun hinput => ?_⟩
    · rw [await, hinput, awaitFrom_fault (boolAnswer_none p _)]
    · rw [await, hinput, awaitFrom_nil]
  · rw [eval_call hargs, builtin_readBool]
    refine ⟨fun line rest hinput => ?_, fun hinput => ?_⟩
    · rw [await, hinput]
      split
      · rw [awaitFrom_value (boolAnswer_one_of_equals ‹_›)]
      · rw [awaitFrom_fault (boolAnswer_one_of_not ‹_›)]
    · rw [await, hinput, awaitFrom_nil]
  · have hanswer : boolAnswer [p, yes, no] = fun line => .ok (truthAnswer yes no line) :=
      funext (boolAnswer_two p yes no)
    rw [eval_call hargs, builtin_readBool, hanswer]
    exact readsUntil_await _ _ _

/-- Arguments of a call that are texts. -/
def textNodes (texts : List String) : List Node :=
  texts.map fun text => .literal .string (.str text) ⟨1, 0⟩

/-- A number in the second line, the answer for false in the second line, and a first line that is
not the only answer. -/
theorem secondLine_is_read :
    eval Scopes.root (.call "readInt" (textNodes ["? "]))
        { input := ["ten\n", " 10\n", "11"] } =
      .ok (.int 10) { input := ["11"], output := "? ? " } ∧
    eval Scopes.root (.call "readBool" (textNodes ["? ", "y", "n"])) { input := ["Y\n", "n\n"] } =
      .ok (.bool false) { output := "? ? " } ∧
    eval Scopes.root (.call "readBool" (textNodes ["? ", "y"])) { input := ["n\n", "y\n"] } =
      .error .outOfRange { input := ["y\n"], output := "? " } := by
  refine ⟨?_, ?_, ?_⟩
  · have hread := (calls_read_lines Scopes.root (textNodes ["? "])
      { input := ["ten\n", " 10\n", "11"] } _).1 (.str "? ") rfl
    exact hread.1.accepted ["ten\n"] " 10\n" ["11"] (.int 10) rfl
      (fun l hl => by rw [List.mem_singleton.mp hl]; rfl) rfl
  · have hread := (calls_read_lines Scopes.root (textNodes ["? ", "y", "n"])
      { input := ["Y\n", "n\n"] } _).2.2 (.str "? ") (.str "y") (.str "n") rfl
    exact hread.accepted ["Y\n"] "n\n" [] (.bool false) rfl
      (fun l hl => by rw [List.mem_singleton.mp hl]; rfl) rfl
  · have hread := (calls_read_lines Scopes.root (textNodes ["? ", "y"])
      { input := ["n\n", "y\n"] } _).2.1 (.str "? ") (.str "y") rfl
    exact hread.1 "n\n" ["y\n"] rfl

/-- Where there is no line, a call without answers fails at the end of the input, and not for want
of an answer. -/
theorem noLine_endOfInput :
    fault? (eval Scopes.root (.call "readBool" (textNodes ["? "])) {}) = some .endOfInput ∧
      fault? (eval Scopes.root (.call "readBool" (textNodes ["? "])) {}) ≠ some .outOfRange := by
  decide

end Run

end Scriptlet
