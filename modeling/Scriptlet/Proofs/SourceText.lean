import Scriptlet.Proofs.Words

/-! # Written words are scanned

A source text can be written word by word: the words of a line with a blank between them, and a line
break behind every line. Scanning it finds exactly these words, reports nothing and meets no fault
(`scan_sourceText`).

One step takes one word, wherever a blank, a line break or the end of the text follows it; what
steps take is collected in `Scanner.Takes`, from which the statement about whole texts follows by
induction on the words.
-/
namespace Scriptlet

open Text

/-- The words of one line, divided by blanks, and the line break. -/
def lineChars : List Word → List Char
  | [] => ['\n']
  | [w] => w.chars ++ ['\n']
  | w :: ws => w.chars ++ ' ' :: lineChars ws

/-- **The text of the given lines.** -/
def sourceText (lines : List (List Word)) : String :=
  String.ofList (lines.flatMap lineChars)

namespace Scanner

variable {s s' s'' : Scanner} {c : Char} {cs : List Char} {ws ws' : List Word}

/-! ## What steps take -/

theorem run_of_stepAt (h : s.rest = c :: cs) (hstep : s.stepAt c cs = (s', none)) :
    s.run = s'.run := by
  rw [Scanner.run]
  split
  · rename_i hnil
    rw [h] at hnil
    cases hnil
  · rename_i c' cs' hcons
    rw [h] at hcons
    cases hcons
    split
    · rename_i hfault
      rw [hstep] at hfault
      cases hfault
    · rename_i hnext
      rw [hstep] at hnext
      cases hnext
      rfl

/-- The scan goes on from `s` to `s'` over the given words, and reports nothing. -/
structure Takes (s : Scanner) (ws : List Word) (s' : Scanner) : Prop where
  run_eq : s.run = s'.run
  words : s'.tokens.toList.map Token.word = s.tokens.toList.map Token.word ++ ws
  reports : s'.reports = s.reports

theorem Takes.refl (s : Scanner) : Takes s [] s :=
  ⟨rfl, (List.append_nil _).symm, rfl⟩

theorem Takes.trans (h : Takes s ws s') (h' : Takes s' ws' s'') : Takes s (ws ++ ws') s'' := by
  refine ⟨h.run_eq.trans h'.run_eq, ?_, h'.reports.trans h.reports⟩
  rw [h'.words, h.words, List.append_assoc]

theorem takes_blank (h : s.rest = ' ' :: cs) : Takes s [] (s.advance 1) := by
  refine ⟨run_of_stepAt h ?_, (List.append_nil _).symm, rfl⟩
  rw [stepAt, if_pos rfl]

theorem takes_newline (h : s.rest = '\n' :: cs) : Takes s [Word.newline] s.skipNewline := by
  refine ⟨run_of_stepAt h ?_, ?_, rfl⟩
  · rw [stepAt, if_neg (by decide), if_pos rfl]
  · simp [skipNewline, breakLine, emit, advance, Token.word, Word.newline]

/-- A step that records one token. -/
theorem takes_token {t : Token} (h : s.rest = c :: cs) (hstep : s.stepAt c cs = (s', none))
    (htokens : s'.tokens = s.tokens.push t) (hreports : s'.reports = s.reports) :
    Takes s [t.word] s' := by
  refine ⟨run_of_stepAt h hstep, ?_, hreports⟩
  rw [htokens, Array.toList_push, List.map_append]
  rfl

/-! ## Words -/

/-- A word ends here: a blank, a line break or the end of the text follows. -/
def Ended (cs : List Char) : Prop :=
  ∀ c ∈ cs.head?, c = ' ' ∨ c = '\n'

/-- A character that begins a number, a name or a text is no blank and begins no sign. -/
theorem stepAt_of_not_sign (hc : c.toNat ≠ 32 ∧ c.toNat ≠ 10 ∧ c.toNat ≠ 47)
    (hsign : beginsSign c = false) :
    s.stepAt c cs =
      if isDigit c then s.scanNumber
      else if c = '"' ∨ c = '\'' then (scanText c [] (s.advance 1) cs, none)
      else if isLetter c then (s.scanWord, none)
      else ((s.report (.strangeSymbol c)).advance 1, none) := by
  have hblank : c ≠ ' ' := by
    rintro rfl
    exact hc.1 rfl
  have hbreak : c ≠ '\n' := by
    rintro rfl
    exact hc.2.1 rfl
  have hslash : c ≠ '/' := by
    rintro rfl
    exact hc.2.2 rfl
  rw [stepAt, if_neg hblank, if_neg hbreak, if_neg fun h => hslash h.1, if_neg fun h => hslash h.1,
    find_sign_eq_none cs hsign]

theorem beginsSign_of_bounds (h : (48 ≤ c.toNat ∧ c.toNat ≤ 57) ∨ (65 ≤ c.toNat ∧ c.toNat ≤ 90) ∨
    (97 ≤ c.toNat ∧ c.toNat ≤ 122) ∨ 170 ≤ c.toNat) : beginsSign c = false := by
  cases hs : beginsSign c with
  | false => rfl
  | true =>
    have := beginsSign_bounds hs
    omega

theorem takeWhile_of_ended {p : Char → Bool} {ds : List Char} (hds : ∀ d ∈ ds, p d = true)
    (hblank : p ' ' = false) (hbreak : p '\n' = false) (hcs : Ended cs) :
    (ds ++ cs).takeWhile p = ds ∧ (ds ++ cs).dropWhile p = cs := by
  have hstop : cs.takeWhile p = [] ∧ cs.dropWhile p = cs := by
    cases cs with
    | nil => exact ⟨rfl, rfl⟩
    | cons c cs =>
      have hc : p c = false := by
        rcases hcs c rfl with rfl | rfl
        · exact hblank
        · exact hbreak
      rw [List.takeWhile_cons, List.dropWhile_cons, hc]
      exact ⟨rfl, rfl⟩
  rw [List.takeWhile_append_of_pos hds, List.dropWhile_append_of_pos hds, hstop.1, hstop.2]
  exact ⟨List.append_nil _, rfl⟩

theorem drop_rest {ds : List Char} (h : s.rest = ds ++ cs) : (s.advance ds.length).rest = cs := by
  rw [rest_advance, h, List.drop_left]

/-- A name or keyword. -/
theorem takes_identifier {x : String} (hx : Word.IsIdentifier x) (h : s.rest = x.toList ++ cs)
    (hcs : Ended cs) :
    ∃ s', Takes s [⟨(keywords.lookup x).getD .identifier, .text x⟩] s' ∧ s'.rest = cs := by
  obtain ⟨c, ds, hxs, hc, hds⟩ := hx
  have hbounds := isLetter_bounds hc
  have hparts : ∀ d ∈ x.toList, isNamePart d = true := by
    rw [hxs]
    intro d hd
    rcases List.mem_cons.mp hd with rfl | hd
    · exact isNamePart_of_isLetter hc
    · exact hds d hd
  -- the name ends where its word does
  have hblank : isNamePart ' ' = false :=
    Bool.eq_false_iff.mpr fun hp => absurd (isNamePart_bounds hp) (by decide)
  have hbreak : isNamePart '\n' = false :=
    Bool.eq_false_iff.mpr fun hp => absurd (isNamePart_bounds hp) (by decide)
  obtain ⟨htake, -⟩ := takeWhile_of_ended hparts hblank hbreak hcs
  have hquote : ¬ (c = '"' ∨ c = '\'') := by
    rintro (rfl | rfl) <;> revert hbounds <;> decide
  have hword : s.scanWord = (s.advance x.toList.length).emit
      ((keywords.lookup x).getD .identifier) (.text x) := by
    rw [scanWord, h, htake, String.ofList_toList]
  have hrest : s.rest = c :: (ds ++ cs) := by
    rw [h, hxs]
    rfl
  have hstep : s.stepAt c (ds ++ cs) = ((s.advance x.toList.length).emit
      ((keywords.lookup x).getD .identifier) (.text x), none) := by
    rw [stepAt_of_not_sign (by omega) (beginsSign_of_bounds (by omega)), isDigit_of_isLetter hc,
      if_neg Bool.false_ne_true, if_neg hquote, if_pos hc, hword]
  exact ⟨_, takes_token hrest hstep rfl rfl, drop_rest h⟩

/-- The characters of a number, whose first is a digit. -/
theorem takes_lexeme {d : Char} {ds : List Char} {fraction : Bool} {content : TokenContent}
    (hd : isDigit d = true) (h : s.rest = d :: ds ++ cs)
    (hlexeme : numberLexeme s.rest = (d :: ds, fraction))
    (hcontent : numberContent (String.ofList (d :: ds)) fraction = .ok content) :
    ∃ s', Takes s [⟨.number, content⟩] s' ∧ s'.rest = cs := by
  have hbounds := isDigit_bounds hd
  have hnumber : s.scanNumber =
      ((s.advance (d :: ds).length).emit .number content, none) := by
    rw [scanNumber, hlexeme]
    simp only [hcontent]
  have hstep : s.stepAt d (ds ++ cs) =
      ((s.advance (d :: ds).length).emit .number content, none) := by
    rw [stepAt_of_not_sign (by omega) (beginsSign_of_bounds (by omega)), if_pos hd, hnumber]
  exact ⟨_, takes_token h hstep rfl rfl, drop_rest h⟩

theorem isDigit_blank : isDigit ' ' = false ∧ isDigit '\n' = false := by
  decide

/-- A number without a point. -/
theorem takes_number (n : Nat) (h : s.rest = n.repr.toList ++ cs) (hcs : Ended cs) :
    ∃ s', Takes s [⟨.number, .int n⟩] s' ∧ s'.rest = cs := by
  have hdigits : ∀ d ∈ n.repr.toList, isDigit d = true := by
    rw [Nat.toList_repr]
    exact fun d hd => Decimal.isDigit_of_mem_toDigits hd
  obtain ⟨htake, hdrop⟩ := takeWhile_of_ended hdigits isDigit_blank.1 isDigit_blank.2 hcs
  have hlexeme : numberLexeme s.rest = (n.repr.toList, false) := by
    rw [numberLexeme, h, htake, hdrop]
    split
    · -- no point stands behind a word that has ended
      rcases hcs '.' rfl with hpoint | hpoint <;> cases hpoint
    · rfl
  have hcontent : numberContent (String.ofList n.repr.toList) false = .ok (.int n) := by
    simp only [String.ofList_toList, numberContent, Bool.false_eq_true, if_false,
      Decimal.readInteger?_repr]
  obtain ⟨c, ds, hcds⟩ : ∃ c ds, n.repr.toList = c :: ds := by
    rw [Nat.toList_repr]
    exact List.exists_cons_of_ne_nil Nat.toDigits_ne_nil
  have hc := hdigits c (hcds ▸ List.mem_cons_self)
  rw [hcds] at h hlexeme hcontent
  exact takes_lexeme hc h hlexeme hcontent

/-- A number with a point. -/
theorem takes_fraction {x : Float} (hx : Word.IsFraction x)
    (h : s.rest = (Word.fractionText x).toList ++ cs) (hcs : Ended cs) :
    ∃ s', Takes s [⟨.number, .float x⟩] s' ∧ s'.rest = cs := by
  obtain ⟨⟨c, whole, d, fraction, hchars, hwhole, hfraction⟩, hread⟩ := hx
  obtain ⟨htake, -⟩ := takeWhile_of_ended hfraction isDigit_blank.1 isDigit_blank.2 hcs
  have hpoint : isDigit '.' = false := by decide
  have hsplit : (c :: (whole ++ '.' :: d :: fraction)) ++ cs =
      (c :: whole) ++ '.' :: (d :: fraction ++ cs) := by
    simp only [List.cons_append, List.append_assoc]
  have hlexeme : numberLexeme s.rest = (c :: (whole ++ '.' :: d :: fraction), true) := by
    rw [numberLexeme, h, hchars, hsplit, List.takeWhile_append_of_pos hwhole,
      List.dropWhile_append_of_pos hwhole, List.takeWhile_cons, List.dropWhile_cons, hpoint]
    rw [List.cons_append] at htake
    simp only [Bool.false_eq_true, if_false, List.cons_append, hfraction d List.mem_cons_self,
      if_true, htake, List.append_nil]
  have hcontent : numberContent (String.ofList (c :: (whole ++ '.' :: d :: fraction))) true =
      .ok (.float x) := by
    rw [← hchars, String.ofList_toList]
    simp only [numberContent, if_true, hread]
  rw [hchars] at h
  exact takes_lexeme (hwhole c List.mem_cons_self) h hlexeme hcontent

theorem advance_advance (s : Scanner) (m n : Nat) :
    (s.advance m).advance n = s.advance (m + n) := by
  simp only [advance, List.drop_drop, Nat.add_assoc]

/-- A text literal is read up to its closing quote. -/
theorem scanText_closed {mark : Char} {ds : List Char} (hmark : mark ∉ ds) (hbreak : '\n' ∉ ds)
    (hquote : mark ≠ '\n') : ∀ (body : List Char) (s : Scanner),
      scanText mark body s (ds ++ mark :: cs) =
        (s.advance (ds.length + 1)).emit .text
          (.text (String.ofList (unescape (body.reverse ++ ds)))) := by
  induction ds with
  | nil =>
    intro body s
    rw [List.nil_append, scanText, if_neg hquote, if_pos rfl, List.append_nil]
    rfl
  | cons d ds ih =>
    intro body s
    simp only [List.mem_cons, not_or] at hmark hbreak
    rw [List.cons_append, scanText, if_neg (Ne.symm hbreak.1), if_neg (Ne.symm hmark.1),
      ih hmark.2 hbreak.2, advance_advance, List.length_cons, Nat.add_comm 1]
    simp only [List.reverse_cons, List.append_assoc, List.singleton_append]

/-- A text between quotes that are not in it. -/
theorem takes_quoted {x : String} {q : Char} (hq : q = '"' ∨ q = '\'') (hx : q ∉ x.toList)
    (hn : ¬ ['\\', 'n'] <:+: x.toList) (ht : ¬ ['\\', 't'] <:+: x.toList)
    (h : s.rest = q :: (Word.escape x.toList ++ [q]) ++ cs) :
    ∃ s', Takes s [⟨.text, .text x⟩] s' ∧ s'.rest = cs := by
  have hmark := Word.not_mem_escape hq hx
  have hbreak : '\n' ∉ Word.escape x.toList := by
    intro hmem
    rcases Word.mem_escape hmem with hin | hother
    · exact hin.2 rfl
    · revert hother
      decide
  have hrest : s.rest = q :: (Word.escape x.toList ++ q :: cs) := by
    rw [h, List.cons_append, List.append_assoc]
    rfl
  have hfacts : (q.toNat ≠ 32 ∧ q.toNat ≠ 10 ∧ q.toNat ≠ 47) ∧ beginsSign q = false ∧
      isDigit q = false ∧ q ≠ '\n' := by
    rcases hq with rfl | rfl <;> decide
  have hstep : s.stepAt q (Word.escape x.toList ++ q :: cs) =
      (((s.advance 1).advance ((Word.escape x.toList).length + 1)).emit .text (.text x), none) := by
    rw [stepAt_of_not_sign hfacts.1 hfacts.2.1, hfacts.2.2.1, if_neg Bool.false_ne_true,
      if_pos hq, scanText_closed hmark hbreak hfacts.2.2.2]
    rw [List.reverse_nil, List.nil_append, Word.unescape_escape hn ht, String.ofList_toList]
  refine ⟨_, takes_token hrest hstep rfl rfl, ?_⟩
  rw [rest_emit, rest_advance, rest_advance, hrest, List.drop_drop, Nat.add_comm 1,
    List.drop_succ_cons, ← List.drop_drop, List.drop_left]
  rfl

/-- A text between the quotes that it is written with. -/
theorem takes_text {x : String} (hx : Word.Quotable x)
    (h : s.rest = Word.chars ⟨.text, .text x⟩ ++ cs) :
    ∃ s', Takes s [⟨.text, .text x⟩] s' ∧ s'.rest = cs := by
  obtain ⟨hq, hmem⟩ := Word.quoteOf_spec hx
  exact takes_quoted hq hmem hx.2.1 hx.2.2 h

/-- A sign is the beginning of what comes next if it is the beginning of the word that ends
before. -/
theorem isPrefixOf_of_ended {p l : List Char} (hp : ' ' ∉ p ∧ '\n' ∉ p) (hcs : Ended cs) :
    p.isPrefixOf (l ++ cs) = p.isPrefixOf l := by
  induction p generalizing l with
  | nil => rw [List.isPrefixOf_nil_left, List.isPrefixOf_nil_left]
  | cons a p ih =>
    simp only [List.mem_cons, not_or] at hp
    cases l with
    | cons b l =>
      rw [List.cons_append, List.isPrefixOf_cons_cons, List.isPrefixOf_cons_cons,
        ih ⟨hp.1.2, hp.2.2⟩]
    | nil =>
      cases cs with
      | nil => rfl
      | cons e es =>
        have he : (a == e) = false := by
          rcases hcs e rfl with rfl | rfl
          · exact beq_eq_false_iff_ne.mpr (Ne.symm hp.1.1)
          · exact beq_eq_false_iff_ne.mpr (Ne.symm hp.2.1)
        rw [List.nil_append, List.isPrefixOf_cons_cons, he]
        rfl

/-- A sign before a blank is found, and no shorter or longer one. -/
theorem find_sign {x : String} {k : TokenKind} (hx : (x, k) ∈ signs) (hcs : Ended cs) :
    (signs.find? fun sign => sign.1.toList.isPrefixOf (x.toList ++ cs)) = some (x, k) := by
  have hspace : ∀ sign ∈ signs, ' ' ∉ sign.1.toList ∧ '\n' ∉ sign.1.toList := by decide
  -- longer signs stand before their beginnings in the table
  have hall : ∀ entry ∈ signs,
      (signs.find? fun sign => sign.1.toList.isPrefixOf entry.1.toList) = some entry := by decide
  rw [← hall (x, k) hx, ← List.head?_filter, ← List.head?_filter,
    List.filter_congr fun sign hsign => isPrefixOf_of_ended (hspace sign hsign) hcs]

/-- A sign. -/
theorem takes_sign {x : String} {k : TokenKind} (hx : (x, k) ∈ signs) (h : s.rest = x.toList ++ cs)
    (hcs : Ended cs) : ∃ s', Takes s [⟨k, .text x⟩] s' ∧ s'.rest = cs := by
  have hplain : ∀ sign ∈ signs, sign.1.toList ≠ [] ∧
      sign.1.toList.head?.all (fun d => d ≠ ' ' ∧ d ≠ '\n') = true ∧
      (sign.1.toList.head? = some '/' →
        sign.1.toList.tail.head?.all (fun e => e ≠ '/' ∧ e ≠ '*') = true) := by
    decide
  obtain ⟨hne, hspace, hslash⟩ := hplain (x, k) hx
  obtain ⟨d, ds, hxs⟩ := List.exists_cons_of_ne_nil hne
  rw [hxs] at hspace hslash
  obtain ⟨hblank, hbreak⟩ := decide_eq_true_eq.mp hspace
  have hfind := find_sign hx hcs
  have hrest : s.rest = d :: (ds ++ cs) := by
    rw [h, hxs]
    rfl
  -- a slash begins no comment: what stands behind it is part of its sign, or a blank
  have hcomment : d = '/' → ∀ e ∈ (ds ++ cs).head?, e ≠ '/' ∧ e ≠ '*' := by
    rintro rfl e he
    cases ds with
    | nil => rcases hcs e he with rfl | rfl <;> decide
    | cons f fs =>
      cases he
      exact decide_eq_true_eq.mp (hslash rfl)
  have hstep : s.stepAt d (ds ++ cs) = ((s.emit k (.text x)).advance x.length, none) := by
    rw [stepAt, if_neg hblank, if_neg hbreak, if_neg, if_neg]
    · rw [hxs, List.cons_append] at hfind
      rw [hfind]
    · rintro ⟨hd, he⟩
      exact (hcomment hd _ he).2 rfl
    · rintro ⟨hd, he⟩
      exact (hcomment hd _ he).1 rfl
  refine ⟨_, takes_token hrest hstep rfl rfl, ?_⟩
  rw [rest_advance, rest_emit, h, ← String.length_toList, List.drop_left]

/-- **Every word that can be written is taken in one step** where it ends. -/
theorem takes_word {w : Word} (hw : w.Writable) (h : s.rest = w.chars ++ cs) (hcs : Ended cs) :
    ∃ s', Takes s [w] s' ∧ s'.rest = cs := by
  cases hw with
  | number n => exact takes_number n h hcs
  | fraction hx => exact takes_fraction hx h hcs
  | text hx => exact takes_text hx h
  | name hx =>
    obtain ⟨s', htakes, hrest⟩ := takes_identifier hx.1 h hcs
    rw [hx.2] at htakes
    exact ⟨s', htakes, hrest⟩
  -- a fixed word is a sign, or a keyword, which is scanned like a name
  | fixed hk =>
    obtain ⟨x, hx⟩ := Option.isSome_iff_exists.mp hk
    rw [Word.fixed_of_spelling hx] at h ⊢
    rw [Word.chars_of_spelling hx] at h
    rcases TokenKind.spelling?_mem hx with hmem | hmem
    · exact takes_sign hmem h hcs
    · obtain ⟨hidentifier, hlookup⟩ := Word.isIdentifier_of_keyword hmem
      obtain ⟨s', htakes, hrest⟩ := takes_identifier hidentifier h hcs
      rw [hlookup] at htakes
      exact ⟨s', htakes, hrest⟩

/-! ## Lines -/

/-- The words of a line and its line break. -/
theorem takes_line {ws : List Word} (hws : ∀ w ∈ ws, w.Writable)
    (h : s.rest = lineChars ws ++ cs) :
    ∃ s', Takes s (ws ++ [Word.newline]) s' ∧ s'.rest = cs := by
  induction ws generalizing s with
  | nil => exact ⟨_, takes_newline h, by rw [skipNewline, rest_breakLine, rest_advance, h]; rfl⟩
  | cons w ws ih =>
    cases ws with
    | nil =>
      rw [lineChars, List.append_assoc] at h
      obtain ⟨s₁, htakes, hrest⟩ := takes_word (hws w List.mem_cons_self) h
        (by rintro c ⟨⟩; exact .inr rfl)
      exact ⟨_, htakes.trans (takes_newline hrest),
        by rw [skipNewline, rest_breakLine, rest_advance, hrest]; rfl⟩
    | cons v vs =>
      rw [lineChars, List.append_assoc, List.cons_append] at h
      · obtain ⟨s₁, htakes, hrest⟩ := takes_word (hws w List.mem_cons_self) h
          (by rintro c ⟨⟩; exact .inl rfl)
        have hrest' : (s₁.advance 1).rest = lineChars (v :: vs) ++ cs := by
          rw [rest_advance, hrest]
          rfl
        obtain ⟨s₂, htakes', hrest''⟩ := ih (fun u hu => hws u (List.mem_cons_of_mem _ hu)) hrest'
        exact ⟨s₂, htakes.trans ((takes_blank hrest).trans htakes'), hrest''⟩
      · intro hnil
        cases hnil

/-- The words of all lines. -/
theorem takes_lines {lines : List (List Word)} (hlines : ∀ ws ∈ lines, ∀ w ∈ ws, w.Writable)
    (h : s.rest = lines.flatMap lineChars ++ cs) :
    ∃ s', Takes s (lines.flatMap (· ++ [Word.newline])) s' ∧ s'.rest = cs := by
  induction lines generalizing s with
  | nil => exact ⟨s, Takes.refl s, h⟩
  | cons ws lines ih =>
    rw [List.flatMap_cons, List.append_assoc] at h
    obtain ⟨s₁, htakes, hrest⟩ := takes_line (hlines ws List.mem_cons_self) h
    obtain ⟨s₂, htakes', hrest'⟩ := ih (fun vs hvs => hlines vs (List.mem_cons_of_mem _ hvs)) hrest
    exact ⟨s₂, htakes.trans htakes', hrest'⟩

end Scanner

/-- **The scan of a written text finds its words**: the words of the lines with their line breaks,
and the mark of the end. Nothing is reported, and there is no fault. -/
theorem scan_sourceText {lines : List (List Word)}
    (h : ∀ ws ∈ lines, ∀ w ∈ ws, w.Writable) :
    ∃ tokens : List Token, tokens.map Token.word = lines.flatMap (· ++ [Word.newline]) ∧
      (scan (sourceText lines)).scanner.tokens.toList = tokens ++ [Token.endOfFile] ∧
      (scan (sourceText lines)).scanner.reports = [] ∧ (scan (sourceText lines)).fault = none := by
  have hrest : (sourceText lines).toList = lines.flatMap lineChars ++ [] := by
    rw [sourceText, String.toList_ofList, List.append_nil]
  obtain ⟨s', htakes, hend⟩ :=
    Scanner.takes_lines (s := { rest := (sourceText lines).toList }) h hrest
  have hrun : s'.run = ⟨{ s' with tokens := s'.tokens.push Token.endOfFile }, none⟩ := by
    rw [Scanner.run]
    split
    · rfl
    · rename_i hcons
      rw [hend] at hcons
      cases hcons
  refine ⟨s'.tokens.toList, ?_, ?_⟩
  · rw [htakes.words]
    rfl
  · rw [scan, htakes.run_eq, hrun]
    exact ⟨Array.toList_push, htakes.reports, rfl⟩

end Scriptlet
