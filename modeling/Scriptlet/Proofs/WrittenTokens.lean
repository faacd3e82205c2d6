import Scriptlet.Proofs.LexicalGrammar

/-! # Tokens that are written out again

The tokens of a text can be written out again, with a blank between each and the next (`WrittenOut`).
Blanks and comments of the text are lost, line breaks are kept, and the line breaks and tabulators in
a text literal become escapes. Scanning what has been written finds the same tokens.

Every token that a scan records is a line break or a lexeme (`Scanner.Lexed`), and lexemes without a
point can be written so that they are read back (`Lexeme.writable`). A text literal never keeps a
backslash before an `n` or a `t`: without this, writing it out would not be undone.
-/
namespace Scriptlet

open Text Scanner

/-! ## What text literals say -/

/-- What a text begins with once its escapes are replaced, it began with before, or it is new. -/
theorem head?_unescape {y : Char} {cs : List Char} (h : y ∈ (unescape cs).head?) :
    y = '\n' ∨ y = '\t' ∨ y ∈ cs.head? := by
  fun_cases unescape cs with
  | case1 rest =>
    rw [unescape] at h
    cases h
    exact .inl rfl
  | case2 rest =>
    rw [unescape] at h
    cases h
    exact .inr (.inl rfl)
  | case3 c rest hn ht =>
    rw [unescape] at h
    · cases h
      exact .inr (.inr rfl)
    · exact hn
    · exact ht
  | case4 => cases h

/-- **No escape is left** once they are replaced. -/
theorem not_escape_infix_unescape {d : Char} (hd : d = 'n' ∨ d = 't') (cs : List Char) :
    ¬ ['\\', d] <:+: unescape cs := by
  have hnew : d ≠ '\n' ∧ d ≠ '\t' := by
    rcases hd with rfl | rfl <;> decide
  -- an escape that begins with a new character, or stands behind it
  have hbehind : ∀ {e : Char} {ds : List Char}, e ≠ '\\' → ¬ ['\\', d] <:+: ds →
      ¬ ['\\', d] <:+: e :: ds := by
    intro e ds he hds hinner
    rcases List.infix_cons_iff.mp hinner with ⟨more, hmore⟩ | hinner
    · exact he (List.cons.inj hmore).1.symm
    · exact hds hinner
  fun_induction unescape cs with
  | case1 rest ih => exact hbehind (by decide) ih
  | case2 rest ih => exact hbehind (by decide) ih
  | case3 c rest hn ht ih =>
    by_cases hc : c = '\\'
    · subst hc
      intro hinner
      rcases List.infix_cons_iff.mp hinner with ⟨more, hmore⟩ | hinner
      · have hhead : d ∈ (unescape rest).head? := by
          rw [← (List.cons.inj hmore).2]
          rfl
        rcases head?_unescape hhead with heq | heq | hhead
        · exact hnew.1 heq
        · exact hnew.2 heq
        · obtain ⟨ds, rfl⟩ := List.head?_eq_some_iff.mp hhead
          rcases hd with rfl | rfl
          · exact hn ds rfl rfl
          · exact ht ds rfl rfl
      · exact ih hinner
    · exact hbehind hc ih
  | case4 =>
    intro hinner
    cases List.infix_nil.mp hinner

/-- Replacing escapes brings line breaks and tabulators only. -/
theorem mem_unescape {y : Char} {cs : List Char} (h : y ∈ unescape cs) :
    y = '\n' ∨ y = '\t' ∨ y ∈ cs := by
  fun_induction unescape cs with
  | case1 rest ih =>
    rcases List.mem_cons.mp h with rfl | h
    · exact .inl rfl
    · exact (ih h).imp_right (Or.imp_right fun hy => List.mem_append_right ['\\', 'n'] hy)
  | case2 rest ih =>
    rcases List.mem_cons.mp h with rfl | h
    · exact .inr (.inl rfl)
    · exact (ih h).imp_right (Or.imp_right fun hy => List.mem_append_right ['\\', 't'] hy)
  | case3 c rest hn ht ih =>
    rcases List.mem_cons.mp h with rfl | h
    · exact .inr (.inr List.mem_cons_self)
    · exact (ih h).imp_right (Or.imp_right fun hy => List.mem_cons_of_mem _ hy)
  | case4 => cases h

/-- **What a text literal says can be written between quotes**: those that it was read from. -/
theorem quotable_replaceEscapes {mark : Char} {body : List Char} (hmark : mark = '"' ∨ mark = '\'')
    (h : mark ∉ body) : Word.Quotable (String.ofList (replaceEscapes body)) := by
  rw [Word.Quotable, String.toList_ofList, ← unescape_eq_replaceEscapes]
  have hmem : mark ∉ unescape body := by
    intro hmem
    rcases mem_unescape hmem with heq | heq | hmem
    · rcases hmark with rfl | rfl <;> exact absurd heq (by decide)
    · rcases hmark with rfl | rfl <;> exact absurd heq (by decide)
    · exact h hmem
  refine ⟨?_, not_escape_infix_unescape (.inl rfl) body, not_escape_infix_unescape (.inr rfl) body⟩
  rcases hmark with rfl | rfl
  · exact .inl hmem
  · exact .inr hmem

/-! ## Lexemes can be written -/

/-- Whether a token is a number with a point. -/
def TokenContent.isFloat : TokenContent → Bool
  | .float _ => true
  | _ => false

theorem mem_of_mem_trimBlanks {c : Char} {cs : List Char} (h : c ∈ trimBlanks cs) : c ∈ cs := by
  have hinner := (List.dropWhile_sublist isBlank).subset (List.mem_reverse.mp h)
  exact (List.dropWhile_sublist isBlank).subset (List.mem_reverse.mp hinner)

/-- Without a minus in front, no integer is negative. -/
theorem Decimal.exists_nat_of_readInteger? {x : String} {n : Int} (h : readInteger? x = some n)
    (hminus : '-' ∉ x.toList) : ∃ m : Nat, n = m := by
  have hsign : (readSign (trimBlanks x.toList)).1 = false := by
    generalize htrim : trimBlanks x.toList = cs
    fun_cases readSign cs with
    | case1 rest => exact absurd (mem_of_mem_trimBlanks (htrim ▸ List.mem_cons_self)) hminus
    | case2 | case3 => rfl
  unfold readInteger? at h
  simp only [hsign, Bool.false_eq_true, if_false] at h
  split at h
  · cases h
  · exact ⟨_, (Option.some.inj h).symm⟩

/-- **A lexeme that is read can be written**, numbers with a point apart. -/
theorem Lexeme.writable {cs : List Char} {k : TokenKind} {v : TokenContent}
    (h : Lexeme cs k (.ok v)) (hv : v.isFloat = false) : Word.Writable ⟨k, v⟩ := by
  have hfixed : ∀ {x : String}, k.spelling? = some x → Word.Writable ⟨k, .text x⟩ := by
    intro x hx
    rw [← Word.fixed_of_spelling hx]
    exact .fixed (Option.isSome_iff_exists.mpr ⟨x, hx⟩)
  generalize hcontent : (Except.ok v : Except Fault TokenContent) = content at h
  cases h with
  | sign hx =>
    cases hcontent
    exact hfixed (spelling?_of_mem_signs _ hx)
  | keyword hx =>
    cases hcontent
    exact hfixed (spelling?_of_mem_keywords _ hx)
  | name hx =>
    cases hcontent
    exact .name hx
  | whole hne hdigits =>
    simp only [numberContent, Bool.false_eq_true, if_false] at hcontent
    cases hread : Decimal.readInteger? (String.ofList cs) with
    | none =>
      rw [hread] at hcontent
      cases hcontent
    | some n =>
      rw [hread] at hcontent
      cases hcontent
      have hminus : '-' ∉ (String.ofList cs).toList := by
        rw [String.toList_ofList]
        intro hmem
        exact absurd (hdigits _ hmem) (by decide)
      obtain ⟨m, rfl⟩ := Decimal.exists_nat_of_readInteger? hread hminus
      exact .number m
  | fraction hpoint =>
    simp only [numberContent, if_true] at hcontent
    cases hread : Decimal.readFloat? (String.ofList cs) with
    | none =>
      rw [hread] at hcontent
      cases hcontent
    | some x =>
      rw [hread] at hcontent
      cases hcontent
      cases hv
  | text hmark hbody =>
    cases hcontent
    exact .text (quotable_replaceEscapes hmark hbody)

/-! ## The tokens of a scan -/

/-- A line break, or a token that has been read from a lexeme. -/
def Token.IsLexed (t : Token) : Prop :=
  t.word = Word.newline ∨ ∃ cs, Lexeme cs t.kind (.ok t.content)

/-- A text literal keeps no escape. -/
theorem Token.IsLexed.quotable {t : Token} {x : String} (h : t.IsLexed)
    (ht : t.word = ⟨.text, .text x⟩) : Word.Quotable x := by
  rcases h with hbreak | ⟨cs, hlexeme⟩
  · rw [ht] at hbreak
    cases hbreak
  · obtain ⟨hkind, hcontent⟩ := Word.mk.inj ht
    rw [hkind, hcontent] at hlexeme
    cases hlexeme.writable rfl with
    | text hx => exact hx
    | fixed hk => cases hk

namespace Scanner

variable {s : Scanner}

/-- All tokens that have been recorded are line breaks or lexemes. -/
def Lexed (s : Scanner) : Prop :=
  ∀ t ∈ s.tokens.toList, t.IsLexed

theorem Lexed.push {s' : Scanner} {t : Token} (h : s.Lexed) (ht : t.IsLexed)
    (htokens : s'.tokens = s.tokens.push t) : s'.Lexed := by
  intro u hu
  rw [htokens, Array.toList_push, List.mem_append, List.mem_singleton] at hu
  rcases hu with hu | rfl
  · exact h u hu
  · exact ht

theorem Lexed.passChars (h : s.Lexed) (b : Bool) (cs : List Char) : (s.passChars b cs).Lexed := by
  induction cs generalizing s with
  | nil => exact h
  | cons c cs ih =>
    refine ih ?_
    have hbreak : ∀ p, Token.IsLexed ⟨.newline, .text "\\n", p⟩ := fun p => .inl rfl
    unfold passChar
    split
    · split
      · exact h.push (hbreak s.pos) rfl
      · exact h.push (hbreak (s.advance 1).pos) rfl
    · exact h

/-- **A piece that is passed brings a lexeme** or no token, apart from its line breaks. -/
theorem Lexed.pass (h : s.Lexed) {text : List Char} {p : Piece} (hp : p.Found text) :
    (s.pass p).1.Lexed := by
  have hchars := h.passChars p.isComment p.chars
  cases hp with
  | lexeme hlexeme hcomment htext =>
    rename_i l rest k v
    cases v with
    | ok v => exact hchars.push (.inr ⟨l, hlexeme⟩) rfl
    | error fault => exact hchars
  | blank | lineBreak | lineComment | blockComment | strange | openText | openComment => exact hchars

/-- **The tokens of a whole scan** are line breaks and lexemes, and the end stands behind them, unless
there is a fault. -/
theorem Lexed.run (h : s.Lexed) :
    ∃ e : Scanner, e.Lexed ∧
      ((s.run.fault = none ∧ s.run.scanner.tokens.toList = e.tokens.toList ++ [Token.endOfFile]) ∨
        (s.run.fault ≠ none ∧ s.run.scanner.tokens.toList = e.tokens.toList)) := by
  induction s using pass_induction with
  | nil s hrest =>
    rw [run_of_rest_nil hrest]
    exact ⟨s, h, .inl ⟨rfl, Array.toList_push⟩⟩
  | fault s c cs s' f hrest hpass =>
    have hnext := h.pass (Piece.found_first c cs)
    rw [hpass] at hnext
    rw [run_of_fault hrest hpass]
    exact ⟨s', hnext, .inr ⟨Option.some_ne_none f, rfl⟩⟩
  | next s c cs s' hrest hpass ih =>
    have hnext := h.pass (Piece.found_first c cs)
    rw [hpass] at hnext
    rw [run_of_pass hrest hpass]
    exact ih hnext

end Scanner

theorem lexed_start (source : String) : Scanner.Lexed { rest := source.toList } := by
  intro t ht
  cases ht

/-! ## Writing out -/

/-- **How a token is written out**: a number in decimal, a text between quotes that are not in it and
with escapes for line breaks and tabulators, a line break as such, the end as nothing, and every other
token as what it says. -/
inductive Word.WrittenAs : Word → List Char → Prop
  | lineBreak : WrittenAs Word.newline ['\n']
  | theEnd : WrittenAs Token.endOfFile.word []
  | number (n : Int) : WrittenAs ⟨.number, .int n⟩ (toString n).toList
  | text {x : String} {q : Char} (hq : q = '"' ∨ q = '\'') (h : q ∉ x.toList) :
      WrittenAs ⟨.text, .text x⟩ (q :: (Word.escape x.toList ++ [q]))
  | other {k : TokenKind} {x : String} (h : k ≠ .newline ∧ k ≠ .text) :
      WrittenAs ⟨k, .text x⟩ x.toList

/-- **Tokens are written out** with a blank between each and the next. -/
inductive WrittenOut : List Token → List Char → Prop
  | last {t : Token} {part : List Char} (h : t.word.WrittenAs part) : WrittenOut [t] part
  | more {t : Token} {ts : List Token} {part text : List Char} (h : t.word.WrittenAs part)
      (hts : WrittenOut ts text) : WrittenOut (t :: ts) (part ++ ' ' :: text)

/-- A line break, or a word that can be written on a line. -/
def Word.CanBeWritten (w : Word) : Prop :=
  w = Word.newline ∨ w.Writable

theorem Token.IsLexed.canBeWritten {t : Token} (h : t.IsLexed) (ht : t.content.isFloat = false) :
    t.word.CanBeWritten :=
  h.imp_right fun hlexeme => by
    obtain ⟨cs, hlexeme⟩ := hlexeme
    exact hlexeme.writable ht

/-- There is a way to write a word, unless it is a number with a point. -/
theorem Word.CanBeWritten.exists_writtenAs {w : Word} (h : w.CanBeWritten)
    (hw : w.content.isFloat = false) : ∃ part, w.WrittenAs part := by
  rcases h with rfl | h
  · exact ⟨_, .lineBreak⟩
  cases h with
  | number n => exact ⟨_, .number n⟩
  | fraction _ => cases hw
  | text hx => exact ⟨_, .text (Word.quoteOf_spec hx).1 (Word.quoteOf_spec hx).2⟩
  | name _ => exact ⟨_, .other (by decide)⟩
  | fixed hk =>
    refine ⟨_, .other ?_⟩
    constructor <;> rintro rfl <;> cases hk

theorem exists_writtenOut {body : List Token} (h : ∀ t ∈ body, t.word.CanBeWritten)
    (hfloat : ∀ t ∈ body, t.content.isFloat = false) :
    ∃ text, WrittenOut (body ++ [Token.endOfFile]) text := by
  induction body with
  | nil => exact ⟨[], .last .theEnd⟩
  | cons t body ih =>
    obtain ⟨text, htext⟩ := ih (fun u hu => h u (List.mem_cons_of_mem _ hu))
      fun u hu => hfloat u (List.mem_cons_of_mem _ hu)
    obtain ⟨part, hpart⟩ := (h t List.mem_cons_self).exists_writtenAs (hfloat t List.mem_cons_self)
    exact ⟨_, .more hpart htext⟩

namespace Scanner

variable {s : Scanner} {cs : List Char}

/-- **A word that is written out is taken**, with the quotes that have been chosen. -/
theorem takes_writtenAs {w : Word} {part : List Char} (hw : w.CanBeWritten)
    (hpart : w.WrittenAs part) (h : s.rest = part ++ cs) (hcs : Ended cs) :
    ∃ s', Takes s [w] s' ∧ s'.rest = cs := by
  cases hpart with
  | lineBreak =>
    exact ⟨_, takes_newline h, by rw [skipNewline, rest_breakLine, rest_advance, h]; rfl⟩
  | theEnd =>
    rcases hw with hw | hw
    · cases hw
    · cases hw
  | number n =>
    rcases hw with hw | hw
    · cases hw
    · cases hw with
      | number m => exact takes_number m h hcs
  | text hq hx =>
    rcases hw with hw | hw
    · cases hw
    · cases hw with
      | text hquotable => exact takes_quoted hq hx hquotable.2.1 hquotable.2.2 h
      | fixed hk => cases hk
  | other hk =>
    replace hw := hw.resolve_left fun heq => hk.1 (congrArg Word.kind heq)
    refine takes_word hw ?_ hcs
    rw [h]
    cases hw with
    | text _ => exact absurd rfl hk.2
    | name _ => rfl
    | fixed hspelling =>
      obtain ⟨x, hx⟩ := Option.isSome_iff_exists.mp hspelling
      rw [hx, Option.getD_some, Word.chars_of_spelling hx]

/-- **What has been written out is scanned again.** -/
theorem takes_writtenOut {body : List Token} {text : List Char}
    (hbody : ∀ t ∈ body, t.word.CanBeWritten)
    (htext : WrittenOut (body ++ [Token.endOfFile]) text) (h : s.rest = text) :
    ∃ s', Takes s (body.map Token.word) s' ∧ s'.rest = [] := by
  induction body generalizing s text with
  | nil =>
    cases htext with
    | last hpart =>
      generalize hw : Token.endOfFile.word = w at hpart
      cases hpart with
      | theEnd => exact ⟨s, Takes.refl s, h⟩
      | lineBreak | number | text | other => cases hw
    | more _ hts => cases hts
  | cons t body ih =>
    generalize htokens : t :: body ++ [Token.endOfFile] = tokens at htext
    cases htext with
    | last _ => cases body <;> cases htokens
    | more hpart hts =>
      obtain ⟨rfl, rfl⟩ := List.cons.inj htokens
      obtain ⟨s₁, htakes, hrest⟩ := takes_writtenAs (hbody t List.mem_cons_self) hpart h
        (by rintro c ⟨⟩; exact .inl rfl)
      obtain ⟨s₂, htakes', hrest'⟩ := ih (s := s₁.advance 1)
        (fun u hu => hbody u (List.mem_cons_of_mem _ hu)) hts (by rw [rest_advance, hrest]; rfl)
      exact ⟨s₂, htakes.trans ((takes_blank hrest).trans htakes'), hrest'⟩

end Scanner

/-- **Scanning undoes writing out.** For every text: no text literal among its tokens keeps a backslash
before an `n` or a `t`. And if the text is scanned without a fault and has no number with a point,
then its tokens can be written out, and however this is done, scanning what has been written meets no
fault, reports nothing and finds the same tokens. -/
theorem scan_writtenOut (source : String) :
    (∀ t ∈ (scan source).scanner.tokens.toList, ∀ x, t.word = ⟨.text, .text x⟩ →
      ¬ ['\\', 'n'] <:+: x.toList ∧ ¬ ['\\', 't'] <:+: x.toList) ∧
    ((scan source).fault = none →
      (∀ t ∈ (scan source).scanner.tokens.toList, t.content.isFloat = false) →
        (∃ text : String, WrittenOut (scan source).scanner.tokens.toList text.toList) ∧
        ∀ text : String, WrittenOut (scan source).scanner.tokens.toList text.toList →
          (scan text).fault = none ∧ (scan text).scanner.reports = [] ∧
            (scan text).scanner.tokens.toList.map Token.word =
              (scan source).scanner.tokens.toList.map Token.word) := by
  obtain ⟨e, hlexed, htokens⟩ := (lexed_start source).run
  constructor
  · intro t ht x hx
    have hmem : t ∈ e.tokens.toList := by
      rcases htokens with ⟨-, htokens⟩ | ⟨-, htokens⟩
      · rw [scan, htokens, List.mem_append, List.mem_singleton] at ht
        refine ht.resolve_right ?_
        rintro rfl
        cases hx
      · rwa [scan, htokens] at ht
    exact ((hlexed t hmem).quotable hx).2
  · intro hfault hfloat
    obtain ⟨-, htokens⟩ := htokens.resolve_right fun h => h.1 hfault
    rw [scan, htokens] at hfloat ⊢
    have hfloat' : ∀ t ∈ e.tokens.toList, t.content.isFloat = false :=
      fun t ht => hfloat t (List.mem_append_left _ ht)
    have hbody : ∀ t ∈ e.tokens.toList, t.word.CanBeWritten :=
      fun t ht => (hlexed t ht).canBeWritten (hfloat' t ht)
    constructor
    · obtain ⟨text, htext⟩ := exists_writtenOut hbody hfloat'
      exact ⟨String.ofList text, by rwa [String.toList_ofList]⟩
    · intro text htext
      obtain ⟨s', htakes, hend⟩ := takes_writtenOut (s := { rest := text.toList }) hbody htext rfl
      rw [scan, htakes.run_eq, run_of_rest_nil hend]
      refine ⟨rfl, htakes.reports, ?_⟩
      rw [Array.toList_push, List.map_append, List.map_append, htakes.words]
      rfl

/-- A text literal with both an escape and quotes in it, a comment and a number with zeros in front. -/
theorem scan_writtenOut_greeting :
    (scan "a = 'say \"hi\"\\n' // x\nwriteline(a, 007)").fault = none ∧
      (∀ t ∈ (scan "a = 'say \"hi\"\\n' // x\nwriteline(a, 007)").scanner.tokens.toList,
        t.content.isFloat = false) ∧
      ∃ text : String,
        WrittenOut (scan "a = 'say \"hi\"\\n' // x\nwriteline(a, 007)").scanner.tokens.toList
            text.toList ∧
          (scan text).fault = none ∧ (scan text).scanner.reports = [] ∧
            (scan text).scanner.tokens.toList.map Token.word =
              (scan "a = 'say \"hi\"\\n' // x\nwriteline(a, 007)").scanner.tokens.toList.map
                Token.word := by
  have hfault : (scan "a = 'say \"hi\"\\n' // x\nwriteline(a, 007)").fault = none := by
    decide +kernel
  have hfloat : ∀ t ∈ (scan "a = 'say \"hi\"\\n' // x\nwriteline(a, 007)").scanner.tokens.toList,
      t.content.isFloat = false := by
    decide +kernel
  obtain ⟨⟨text, htext⟩, hscan⟩ := (scan_writtenOut _).2 hfault hfloat
  exact ⟨hfault, hfloat, text, htext, hscan text htext⟩

end Scriptlet
