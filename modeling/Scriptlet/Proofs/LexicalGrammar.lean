import Scriptlet.Proofs.Pieces

/-! # The lexical grammar

The tokens of a text are given by rules: signs, keywords and names, numbers, and texts between quotes
(`Lexeme`). A text is read properly if it is cut into blanks, line breaks, comments and lexemes so that
every lexeme is the longest one that stands at its place (`Segmented`).

The scan of a text is clean exactly if the text can be cut so, and its tokens are then the lexemes of
the cut, in order. The two directions meet in one fact about the scanner: where a lexeme stands, the
first piece is that lexeme or a longer one (`Lexeme.first_isAtLeast`).
-/
namespace Scriptlet

open Text Scanner

/-! ## Replacing pairs of characters -/

/-- Every `a` with `b` behind it is replaced by `c`, from left to right. -/
def replacePair (a b c : Char) : List Char → List Char
  | x :: y :: rest =>
    if x = a ∧ y = b then c :: replacePair a b c rest else x :: replacePair a b c (y :: rest)
  | cs => cs

/-- The text between two quotes: a backslash before `n` becomes a line break, then one before `t` a
tabulator. -/
def replaceEscapes (body : List Char) : List Char :=
  replacePair '\\' 't' '\t' (replacePair '\\' 'n' '\n' body)

theorem replacePair_cons {a b c x : Char} {cs : List Char} (h : x = a → ∀ y ∈ cs.head?, y ≠ b) :
    replacePair a b c (x :: cs) = x :: replacePair a b c cs := by
  cases cs with
  | nil => rfl
  | cons y cs =>
    rw [replacePair, if_neg]
    rintro ⟨hx, hy⟩
    exact h hx y rfl hy

theorem replacePair_cons_of_ne {a b c x : Char} {cs : List Char} (h : x ≠ a) :
    replacePair a b c (x :: cs) = x :: replacePair a b c cs :=
  replacePair_cons fun hx => absurd hx h

/-- What a text begins with after replacing, it began with before, or it is new. -/
theorem head?_replacePair {a b c y : Char} {cs : List Char} (h : y ∈ (replacePair a b c cs).head?) :
    y = c ∨ y ∈ cs.head? := by
  cases cs with
  | nil => cases h
  | cons x cs =>
    cases cs with
    | nil => exact .inr h
    | cons z cs =>
      rw [replacePair] at h
      split at h
      · cases h
        exact .inl rfl
      · exact .inr h

/-- **Both kinds of escapes can be replaced at once**: replacing those of line breaks makes no new
tabulators. -/
theorem unescape_eq_replaceEscapes (body : List Char) : unescape body = replaceEscapes body := by
  unfold replaceEscapes
  fun_induction unescape body with
  | case1 rest ih =>
    have hbreak : replacePair '\\' 'n' '\n' ('\\' :: 'n' :: rest) =
        '\n' :: replacePair '\\' 'n' '\n' rest := by
      rw [replacePair, if_pos ⟨rfl, rfl⟩]
    rw [ih, hbreak, replacePair_cons_of_ne (by decide)]
  | case2 rest ih =>
    have hkept : replacePair '\\' 'n' '\n' ('\\' :: 't' :: rest) =
        '\\' :: 't' :: replacePair '\\' 'n' '\n' rest := by
      rw [replacePair_cons (by simp), replacePair_cons_of_ne (by decide)]
    rw [ih, hkept, replacePair, if_pos ⟨rfl, rfl⟩]
  | case3 c rest hn ht ih =>
    have hn' : c = '\\' → ∀ y ∈ rest.head?, y ≠ 'n' := by
      rintro rfl y hy rfl
      obtain ⟨ds, rfl⟩ := List.head?_eq_some_iff.mp hy
      exact hn ds rfl rfl
    have ht' : c = '\\' → ∀ y ∈ (replacePair '\\' 'n' '\n' rest).head?, y ≠ 't' := by
      rintro rfl y hy rfl
      rcases head?_replacePair hy with heq | hy
      · exact absurd heq (by decide)
      · obtain ⟨ds, rfl⟩ := List.head?_eq_some_iff.mp hy
        exact ht ds rfl rfl
    rw [ih, replacePair_cons hn', replacePair_cons ht']
  | case4 => rfl

/-! ## The rules -/

/-- **The rules of tokens**: `Lexeme cs k v` says that the characters `cs` are a token of kind `k`
which says `v`. Not every number that is written so can be read. -/
inductive Lexeme : List Char → TokenKind → Except Fault TokenContent → Prop
  | sign {x : String} {k : TokenKind} (h : (x, k) ∈ signs) : Lexeme x.toList k (.ok (.text x))
  | keyword {x : String} {k : TokenKind} (h : (x, k) ∈ keywords) :
      Lexeme x.toList k (.ok (.text x))
  | name {x : String} (h : Word.IsName x) : Lexeme x.toList .identifier (.ok (.text x))
  | whole {cs : List Char} (hne : cs ≠ []) (h : ∀ d ∈ cs, isDigit d = true) :
      Lexeme cs .number (numberContent (String.ofList cs) false)
  | fraction {cs : List Char} (h : Word.HasPoint cs) :
      Lexeme cs .number (numberContent (String.ofList cs) true)
  | text {mark : Char} {body : List Char} (hmark : mark = '"' ∨ mark = '\'') (h : mark ∉ body) :
      Lexeme (mark :: (body ++ [mark])) .text
        (.ok (.text (String.ofList (replaceEscapes body))))

theorem Lexeme.ne_nil {l : List Char} {k : TokenKind} {v : Except Fault TokenContent}
    (h : Lexeme l k v) : l ≠ [] := by
  cases h with
  | sign hx =>
    have := signs_ne_nil _ hx
    intro hnil
    rw [← String.length_toList, hnil] at this
    exact absurd this (by decide)
  | keyword hx =>
    obtain ⟨⟨c, cs, hchars, -⟩, -⟩ := Word.isIdentifier_of_keyword hx
    simp [hchars]
  | name hx =>
    obtain ⟨⟨c, cs, hchars, -⟩, -⟩ := hx
    simp [hchars]
  | whole hne => exact hne
  | fraction hpoint =>
    obtain ⟨c, whole, d, fraction, rfl, -⟩ := hpoint
    simp
  | text => simp

/-- A comment begins here. -/
def OpensComment (cs : List Char) : Prop :=
  ['/', '/'] <+: cs ∨ ['/', '*'] <+: cs

/-- **A piece is cut properly** before the text `rest`. -/
inductive Piece.Proper (rest : List Char) : Piece → Prop
  | blank : Proper rest .blank
  | lineBreak : Proper rest .lineBreak
  /-- A comment goes up to the next line break, or to the end. -/
  | lineComment {body : List Char} (h : '\n' ∉ body) (hend : ∀ c ∈ rest.head?, c = '\n') :
      Proper rest (.lineComment body)
  /-- A comment goes up to the first mark of its end. -/
  | blockComment {body : List Char} (h : ¬ ['*', '/'] <:+: body) : Proper rest (.blockComment body)
  /-- No longer lexeme stands here, and no comment. -/
  | lexeme {cs : List Char} {k : TokenKind} {v : TokenContent} (h : Lexeme cs k (.ok v))
      (longest : ∀ l k' v', Lexeme l k' v' → l <+: cs ++ rest → l.length ≤ cs.length)
      (hcomment : ¬ OpensComment (cs ++ rest)) : Proper rest (.lexeme cs k (.ok v))

/-- **A text is cut into pieces**, each of them properly. -/
inductive Segmented : List Char → List Piece → Prop
  | nil : Segmented [] []
  | cons {p : Piece} {ps : List Piece} {rest : List Char} (hp : p.Proper rest)
      (hps : Segmented rest ps) : Segmented (p.chars ++ rest) (p :: ps)

/-! ## Comments -/

namespace Piece

/-- A comment that is closed goes up to the first mark of its end. -/
theorem commentBody_of_closed {cs : List Char} (h : (commentBody cs).2 = true) :
    ¬ ['*', '/'] <:+: (commentBody cs).1 ∧
      ∃ rest, cs = (commentBody cs).1 ++ '*' :: '/' :: rest := by
  fun_induction commentBody cs with
  | case1 => cases h
  | case2 rest => exact ⟨by simp, rest, rfl⟩
  | case3 c cs hclose ih =>
    obtain ⟨hbody, rest, hcs⟩ := ih h
    refine ⟨?_, rest, by rw [List.cons_append, ← hcs]⟩
    intro hinner
    rcases List.infix_cons_iff.mp hinner with ⟨more, hmore⟩ | hinner
    · obtain ⟨hc, hmore⟩ := List.cons.inj hmore
      exact hclose _ hc.symm (by rw [hcs, ← hmore]; rfl)
    · exact hbody hinner

theorem commentBody_append {body : List Char} (h : ¬ ['*', '/'] <:+: body) (rest : List Char) :
    commentBody (body ++ '*' :: '/' :: rest) = (body, true) := by
  induction body with
  | nil => rfl
  | cons c body ih =>
    rw [List.infix_cons_iff, not_or] at h
    rw [List.cons_append, commentBody, ih h.2]
    rintro more rfl hclose
    -- the end would begin with the first character of the body
    cases body with
    | nil => cases hclose
    | cons d body =>
      obtain ⟨rfl, -⟩ := List.cons.inj hclose
      exact h.1 ⟨body, rfl⟩

end Piece

/-! ## Where a lexeme stands, it is found, or a longer one -/

/-- Characters of one kind are taken up to the first that is not of it. -/
theorem takeWhile_of_stop {p : Char → Bool} {l rest : List Char} (h : ∀ c ∈ l, p c = true)
    (hstop : ∀ c ∈ rest.head?, p c = false) : (l ++ rest).takeWhile p = l := by
  rw [List.takeWhile_append_of_pos h]
  cases rest with
  | nil => exact List.append_nil l
  | cons c rest => rw [List.takeWhile_cons, hstop c rfl, if_neg Bool.false_ne_true, List.append_nil]

/-- Characters of one kind are taken, and perhaps more. -/
theorem takeWhile_eq_or_longer {p : Char → Bool} {l : List Char} (rest : List Char)
    (h : ∀ c ∈ l, p c = true) :
    (l ++ rest).takeWhile p = l ∨ l.length < ((l ++ rest).takeWhile p).length := by
  rw [List.takeWhile_append_of_pos h]
  cases hrest : rest.takeWhile p with
  | nil => exact .inl (List.append_nil l)
  | cons c cs => exact .inr (by simp)

namespace Piece

variable {c : Char} {cs l rest : List Char}

/-- The piece is a given lexeme, or a longer one. -/
def IsAtLeast (p : Piece) (l : List Char) (k : TokenKind) (v : Except Fault TokenContent) : Prop :=
  p = lexeme l k v ∨ ∃ l' k' v', p = lexeme l' k' v' ∧ l.length < l'.length

/-- A character that begins a number, a name or a text is no blank and begins no sign. -/
theorem first_of_not_sign (hc : c.toNat ≠ 32 ∧ c.toNat ≠ 10 ∧ c.toNat ≠ 47)
    (hsign : beginsSign c = false) :
    first c cs =
      if isDigit c then number (c :: cs)
      else if c = '"' ∨ c = '\'' then quoted c cs
      else if isLetter c then word (c :: cs)
      else strange c := by
  have hblank : c ≠ ' ' := by
    rintro rfl
    exact hc.1 rfl
  have hbreak : c ≠ '\n' := by
    rintro rfl
    exact hc.2.1 rfl
  have hslash : c ≠ '/' := by
    rintro rfl
    exact hc.2.2 rfl
  rw [first, if_neg hblank, if_neg hbreak, if_neg fun h => hslash h.1, if_neg fun h => hslash h.1,
    find_sign_eq_none cs hsign]

theorem first_of_isDigit (h : isDigit c = true) : first c cs = number (c :: cs) := by
  have hbounds := isDigit_bounds h
  rw [first_of_not_sign (by omega) (beginsSign_of_bounds (by omega)), if_pos h]

theorem first_of_isLetter (h : isLetter c = true) : first c cs = word (c :: cs) := by
  have hbounds := isLetter_bounds h
  have hquote : ¬ (c = '"' ∨ c = '\'') := by
    rintro (rfl | rfl) <;> revert hbounds <;> decide
  rw [first_of_not_sign (by omega) (beginsSign_of_bounds (by omega)), isDigit_of_isLetter h,
    if_neg Bool.false_ne_true, if_neg hquote, if_pos h]

theorem first_of_mark (h : c = '"' ∨ c = '\'') : first c cs = quoted c cs := by
  have hfacts : (c.toNat ≠ 32 ∧ c.toNat ≠ 10 ∧ c.toNat ≠ 47) ∧ beginsSign c = false ∧
      isDigit c = false := by
    rcases h with rfl | rfl <;> decide
  rw [first_of_not_sign hfacts.1 hfacts.2.1, hfacts.2.2, if_neg Bool.false_ne_true, if_pos h]

/-- Where no comment begins, a sign that is found is the first piece. -/
theorem first_of_sign {sign : String × TokenKind} (hcomment : ¬ OpensComment (c :: cs))
    (hfind : (signs.find? fun sign => sign.1.toList.isPrefixOf (c :: cs)) = some sign) :
    first c cs = lexeme sign.1.toList sign.2 (.ok (.text sign.1)) := by
  have hblank : beginsSign ' ' = false ∧ beginsSign '\n' = false := by decide
  have hfound : beginsSign c = true := by
    cases hs : beginsSign c with
    | true => rfl
    | false =>
      rw [find_sign_eq_none cs hs] at hfind
      cases hfind
  have hopen : ∀ d, cs.head? = some d → ['/', d] <+: '/' :: cs := by
    intro d hd
    obtain ⟨ds, rfl⟩ := List.head?_eq_some_iff.mp hd
    exact ⟨ds, rfl⟩
  rw [first, if_neg, if_neg, if_neg, if_neg, hfind]
  · rintro ⟨rfl, hstar⟩
    exact hcomment (.inr (hopen _ hstar))
  · rintro ⟨rfl, hslash⟩
    exact hcomment (.inl (hopen _ hslash))
  · rintro rfl
    rw [hblank.2] at hfound
    cases hfound
  · rintro rfl
    rw [hblank.1] at hfound
    cases hfound

/-- The sign that is found in the table is the longest one that stands there: signs that begin alike
are listed with the longest first. -/
theorem find_sign_eq_or_longer {x : String} {k : TokenKind} {text : List Char}
    (hx : (x, k) ∈ signs) (hstart : x.toList <+: text) :
    ∃ sign, (signs.find? fun sign => sign.1.toList.isPrefixOf text) = some sign ∧
      (sign = (x, k) ∨ x.toList.length < sign.1.toList.length) := by
  have hordered : ∀ entry ∈ signs,
      (signs.find? fun sign => sign.1.toList.isPrefixOf entry.1.toList) = some entry := by decide
  cases hfind : signs.find? fun sign => sign.1.toList.isPrefixOf text with
  | none =>
    have := List.find?_eq_none.mp hfind (x, k) hx
    exact absurd (List.isPrefixOf_iff_prefix.mpr hstart) this
  | some sign =>
    refine ⟨sign, rfl, ?_⟩
    obtain ⟨hsign, before, after, hsigns, hbefore⟩ := List.find?_eq_some_iff_append.mp hfind
    rcases Nat.lt_or_ge x.toList.length sign.1.toList.length with hlt | hle
    · exact .inr hlt
    · -- the sign found stands at the front of `x`, and nothing before it in the table does
      have hinner : sign.1.toList <+: x.toList :=
        List.prefix_of_prefix_length_le (List.isPrefixOf_iff_prefix.mp hsign) hstart hle
      have hfound : (signs.find? fun sign => sign.1.toList.isPrefixOf x.toList) = some sign := by
        refine List.find?_eq_some_iff_append.mpr
          ⟨List.isPrefixOf_iff_prefix.mpr hinner, before, after, hsigns, ?_⟩
        intro entry hentry
        have hnot := hbefore entry hentry
        rw [Bool.not_eq_true', Bool.eq_false_iff] at hnot ⊢
        intro hpre
        exact hnot (List.isPrefixOf_iff_prefix.mpr
          ((List.isPrefixOf_iff_prefix.mp hpre).trans hstart))
      rw [hordered (x, k) hx] at hfound
      exact .inl (Option.some.inj hfound).symm

/-- Digits at the front of a text begin a number of these digits, or a longer one. -/
theorem number_of_digits (rest : List Char) (h : ∀ d ∈ l, isDigit d = true) :
    (number (l ++ rest)).IsAtLeast l .number (numberContent (String.ofList l) false) := by
  have hwhole := takeWhile_eq_or_longer rest h
  have hdigits : (lexeme ((l ++ rest).takeWhile isDigit) .number (numberContent
      (String.ofList ((l ++ rest).takeWhile isDigit)) false)).IsAtLeast l .number
        (numberContent (String.ofList l) false) := by
    rcases hwhole with hwhole | hwhole
    · exact .inl (by rw [hwhole])
    · exact .inr ⟨_, _, _, rfl, hwhole⟩
  unfold number numberLexeme
  simp only
  split
  · split
    · -- with a point behind the digits the number is longer
      refine .inr ⟨_, _, _, rfl, ?_⟩
      rw [List.length_append, List.length_cons]
      rcases hwhole with hwhole | hwhole
      · rw [hwhole]
        omega
      · omega
    · exact hdigits
  · exact hdigits

/-- Digits with a point between them begin a number of these characters, or a longer one. -/
theorem number_of_hasPoint (rest : List Char) (h : Word.HasPoint l) :
    (number (l ++ rest)).IsAtLeast l .number (numberContent (String.ofList l) true) := by
  obtain ⟨c, whole, d, fraction, rfl, hwhole, hfraction⟩ := h
  have hpoint : isDigit '.' = false := by decide
  have hsplit : (c :: (whole ++ '.' :: d :: fraction)) ++ rest =
      (c :: whole) ++ '.' :: (d :: (fraction ++ rest)) := by
    simp
  have hlexeme : numberLexeme ((c :: (whole ++ '.' :: d :: fraction)) ++ rest) =
      ((c :: whole) ++ '.' :: (d :: fraction ++ rest).takeWhile isDigit, true) := by
    rw [numberLexeme, hsplit, List.takeWhile_append_of_pos hwhole,
      List.dropWhile_append_of_pos hwhole, List.takeWhile_cons, List.dropWhile_cons, hpoint]
    simp only [Bool.false_eq_true, if_false, hfraction d List.mem_cons_self, if_true,
      List.append_nil, List.cons_append]
  rw [number, hlexeme]
  rcases takeWhile_eq_or_longer rest hfraction with hend | hend
  · rw [hend]
    exact .inl rfl
  · refine .inr ⟨_, _, _, rfl, ?_⟩
    simp only [List.length_append, List.length_cons] at hend ⊢
    omega

/-- Letters at the front of a text begin a word of these letters, or a longer one. -/
theorem word_of_identifier {x : String} (h : Word.IsIdentifier x)
    (htext : c :: cs = x.toList ++ rest) :
    (first c cs).IsAtLeast x.toList ((keywords.lookup x).getD .identifier) (.ok (.text x)) := by
  obtain ⟨d, ds, hx, hd, hds⟩ := h
  obtain ⟨rfl, -⟩ := List.cons.inj (htext.trans (by rw [hx]; rfl))
  have hparts : ∀ d ∈ x.toList, isNamePart d = true := by
    intro d hd'
    rw [hx] at hd'
    rcases List.mem_cons.mp hd' with rfl | hd'
    · exact isNamePart_of_isLetter hd
    · exact hds d hd'
  rw [first_of_isLetter hd, word, htext]
  rcases takeWhile_eq_or_longer rest hparts with hend | hend
  · exact .inl (by rw [hend, String.ofList_toList])
  · exact .inr ⟨_, _, _, rfl, hend⟩

/-- A number is digits, with or without a point between them. -/
theorem lexeme_of_number {k : TokenKind} {v : Except Fault TokenContent} (h : isDigit c = true)
    (hnumber : number (c :: cs) = lexeme l k v) : Lexeme l k v ∧ l <+: c :: cs := by
  have hdigits : ∀ ds : List Char, ∀ d ∈ ds.takeWhile isDigit, isDigit d = true :=
    fun ds => List.all_eq_true.mp List.all_takeWhile
  have hwhole : (c :: cs).takeWhile isDigit = c :: cs.takeWhile isDigit := by
    rw [List.takeWhile_cons, if_pos h]
  have hinteger : Lexeme ((c :: cs).takeWhile isDigit) .number
      (numberContent (String.ofList ((c :: cs).takeWhile isDigit)) false) :=
    .whole (by simp [hwhole]) (hdigits _)
  cases hnumber
  unfold numberLexeme
  simp only
  split
  · rename_i d more hmore
    split
    · rename_i hd
      have hfraction : (d :: more).takeWhile isDigit = d :: more.takeWhile isDigit := by
        rw [List.takeWhile_cons, if_pos hd]
      have hcut : (c :: cs).takeWhile isDigit ++ '.' :: d :: more = c :: cs := by
        rw [← hmore, List.takeWhile_append_dropWhile]
      constructor
      · refine .fraction ⟨c, cs.takeWhile isDigit, d, more.takeWhile isDigit, ?_, ?_, ?_⟩
        · rw [hwhole, hfraction, List.cons_append]
        · rw [← hwhole]
          exact hdigits _
        · rw [← hfraction]
          exact hdigits _
      · conv => rhs; rw [← hcut]
        rw [List.prefix_append_right_inj, List.cons_prefix_cons]
        exact ⟨rfl, List.takeWhile_prefix _⟩
    · exact ⟨hinteger, List.takeWhile_prefix _⟩
  · exact ⟨hinteger, List.takeWhile_prefix _⟩

/-- A word is a keyword or a name. -/
theorem lexeme_of_word {k : TokenKind} {v : Except Fault TokenContent} (h : isLetter c = true)
    (hword : word (c :: cs) = lexeme l k v) : Lexeme l k v ∧ l <+: c :: cs := by
  have hparts : (c :: cs).takeWhile isNamePart = c :: cs.takeWhile isNamePart := by
    rw [List.takeWhile_cons, if_pos (isNamePart_of_isLetter h)]
  cases hword
  refine ⟨?_, List.takeWhile_prefix _⟩
  have hchars := String.toList_ofList (l := (c :: cs).takeWhile isNamePart)
  generalize String.ofList ((c :: cs).takeWhile isNamePart) = x at hchars ⊢
  rw [← hchars]
  rcases lookup_keywords_cases x with hk | ⟨k, hk, hmem⟩
  · rw [hk]
    refine .name ⟨⟨c, cs.takeWhile isNamePart, by rw [hchars, hparts], h, ?_⟩, hk⟩
    exact List.all_eq_true.mp List.all_takeWhile
  · rw [hk]
    exact .keyword hmem

/-- A text up to the first mark of its kind is read as a whole. -/
theorem quoted_of_closed {mark : Char} {body : List Char} (rest : List Char) (h : mark ∉ body) :
    quoted mark (body ++ mark :: rest) =
      lexeme (mark :: (body ++ [mark])) .text
        (.ok (.text (String.ofList (replaceEscapes body)))) := by
  have hbody : (body ++ mark :: rest).takeWhile (· ≠ mark) = body := by
    refine takeWhile_of_stop (fun d hd => ?_) (by simp)
    rw [decide_eq_true_eq]
    rintro rfl
    exact h hd
  rw [quoted, if_pos (by simp), hbody, unescape_eq_replaceEscapes]

end Piece

/-- **Where a lexeme stands and no comment begins, it is the first piece, or a longer lexeme is.** -/
theorem Lexeme.first_isAtLeast {l : List Char} {k : TokenKind} {v : Except Fault TokenContent}
    {c : Char} {cs rest : List Char} (h : Lexeme l k v) (htext : c :: cs = l ++ rest)
    (hcomment : ¬ OpensComment (c :: cs)) : (Piece.first c cs).IsAtLeast l k v := by
  cases h with
  | sign hx =>
    obtain ⟨sign, hfind, hsign⟩ := Piece.find_sign_eq_or_longer hx ⟨rest, htext.symm⟩
    rw [Piece.first_of_sign hcomment hfind]
    rcases hsign with rfl | hlonger
    · exact .inl rfl
    · exact .inr ⟨_, _, _, rfl, hlonger⟩
  | keyword hx =>
    obtain ⟨hid, hlookup⟩ := Word.isIdentifier_of_keyword hx
    have hfound := Piece.word_of_identifier hid htext
    rwa [hlookup] at hfound
  | name hx =>
    have hfound := Piece.word_of_identifier hx.1 htext
    rwa [hx.2] at hfound
  | whole hne hdigits =>
    obtain ⟨d, ds, rfl⟩ := List.exists_cons_of_ne_nil hne
    obtain ⟨rfl, -⟩ := List.cons.inj htext
    rw [Piece.first_of_isDigit (hdigits c List.mem_cons_self), htext]
    exact Piece.number_of_digits rest hdigits
  | fraction hpoint =>
    obtain ⟨d, whole, e, fraction, rfl, hwhole, -⟩ := id hpoint
    obtain ⟨rfl, -⟩ := List.cons.inj htext
    rw [Piece.first_of_isDigit (hwhole c List.mem_cons_self), htext]
    exact Piece.number_of_hasPoint rest hpoint
  | text hmark hbody =>
    rw [List.cons_append, List.append_assoc] at htext
    obtain ⟨rfl, rfl⟩ := List.cons.inj htext
    rw [Piece.first_of_mark hmark]
    exact .inl (Piece.quoted_of_closed rest hbody)

/-! ## Every clean piece is cut properly -/

namespace Piece

variable {c : Char} {cs rest : List Char} {p : Piece}

/-- What the first piece of a text can be. -/
inductive Found (text : List Char) : Piece → Prop
  | blank {rest : List Char} (htext : text = ' ' :: rest) : Found text .blank
  | lineBreak {rest : List Char} (htext : text = '\n' :: rest) : Found text .lineBreak
  | lineComment {body rest : List Char} (hbody : '\n' ∉ body) (hend : ∀ c ∈ rest.head?, c = '\n')
      (htext : text = '/' :: '/' :: (body ++ rest)) : Found text (.lineComment body)
  | blockComment {body rest : List Char} (hbody : ¬ ['*', '/'] <:+: body)
      (htext : text = chars (.blockComment body) ++ rest) : Found text (.blockComment body)
  | lexeme {l rest : List Char} {k : TokenKind} {v : Except Fault TokenContent}
      (hlexeme : Lexeme l k v) (hcomment : ¬ OpensComment text) (htext : text = l ++ rest) :
      Found text (.lexeme l k v)
  | strange {c : Char} : Found text (.strange c)
  | openText {mark : Char} {body : List Char} : Found text (.openText mark body)
  | openComment {body : List Char} : Found text (.openComment body)

theorem found_lineComment (ds : List Char) :
    Found ('/' :: '/' :: ds) (lineComment (ds.takeWhile (· ≠ '\n'))) := by
  have hcut : ds = ds.takeWhile (· ≠ '\n') ++ ds.dropWhile (· ≠ '\n') :=
    List.takeWhile_append_dropWhile.symm
  refine .lineComment ?_ ?_ (congrArg ('/' :: '/' :: ·) hcut)
  · intro hmem
    simpa using List.all_eq_true.mp List.all_takeWhile _ hmem
  · intro d hd
    have hstop := List.head?_dropWhile_not (· ≠ '\n') ds
    rw [Option.mem_def.mp hd] at hstop
    simpa using hstop

theorem found_comment (ds : List Char) : Found ('/' :: '*' :: ds) (comment ds) := by
  unfold comment
  split
  · rename_i hclosed
    obtain ⟨hbody, rest, hds⟩ := commentBody_of_closed hclosed
    have htext : '/' :: '*' :: ds = chars (.blockComment (commentBody ds).1) ++ rest := by
      simp [chars, ← hds]
    exact .blockComment hbody htext
  · exact .openComment

/-- **The first piece of a text stands at its front.** -/
theorem found_first (c : Char) (cs : List Char) : Found (c :: cs) (first c cs) := by
  unfold first
  split
  · rename_i hc
    exact .blank (by rw [hc])
  split
  · rename_i hc
    exact .lineBreak (by rw [hc])
  split
  · rename_i hopen
    obtain ⟨rfl, hhead⟩ := hopen
    obtain ⟨ds, rfl⟩ := List.head?_eq_some_iff.mp hhead
    exact found_lineComment ds
  split
  · rename_i hopen
    obtain ⟨rfl, hhead⟩ := hopen
    obtain ⟨ds, rfl⟩ := List.head?_eq_some_iff.mp hhead
    exact found_comment ds
  -- from here on no comment begins
  rename_i hline hblock
  have hcomment : ¬ OpensComment (c :: cs) := by
    rintro (⟨ds, hds⟩ | ⟨ds, hds⟩)
    · obtain ⟨rfl, rfl⟩ := List.cons.inj hds
      exact hline ⟨rfl, rfl⟩
    · obtain ⟨rfl, rfl⟩ := List.cons.inj hds
      exact hblock ⟨rfl, rfl⟩
  have hfound : ∀ {l k v}, Lexeme l k v ∧ l <+: c :: cs → Found (c :: cs) (.lexeme l k v) := by
    rintro l k v ⟨hlexeme, rest, htext⟩
    exact .lexeme hlexeme hcomment htext.symm
  split
  · rename_i sign kind hfind
    have hstart := List.find?_some hfind
    exact hfound ⟨.sign (List.mem_of_find?_eq_some hfind), List.isPrefixOf_iff_prefix.mp hstart⟩
  split
  · rename_i hdigit
    exact hfound (lexeme_of_number hdigit rfl)
  split
  · rename_i hmark
    by_cases hmem : c ∈ cs
    · obtain ⟨body, rest, rfl, hbody⟩ := List.eq_append_cons_of_mem hmem
      rw [quoted_of_closed rest hbody]
      exact hfound ⟨.text hmark hbody, rest, by simp⟩
    · rw [quoted, if_neg hmem]
      exact .openText
  split
  · rename_i hletter
    exact hfound (lexeme_of_word hletter rfl)
  · exact .strange

/-- **A first piece that is clean is cut properly.** -/
theorem proper_of_first (hfirst : first c cs = p) (hclean : p.Clean) :
    ∃ rest, c :: cs = p.chars ++ rest ∧ p.Proper rest := by
  have hfound := found_first c cs
  rw [hfirst] at hfound
  cases hfound with
  | blank htext => exact ⟨_, htext, .blank⟩
  | lineBreak htext => exact ⟨_, htext, .lineBreak⟩
  | lineComment hbody hend htext => exact ⟨_, htext, .lineComment hbody hend⟩
  | blockComment hbody htext => exact ⟨_, htext, .blockComment hbody⟩
  | lexeme hlexeme hcomment htext =>
    obtain ⟨v, rfl⟩ := hclean
    refine ⟨_, htext, .lexeme hlexeme ?_ (htext ▸ hcomment)⟩
    -- a longer lexeme would have been the first piece
    rintro l' k' v' hlexeme' ⟨rest', htext'⟩
    rcases hlexeme'.first_isAtLeast (htext.trans htext'.symm) hcomment
      with hsame | ⟨l'', k'', v'', hlonger, hlt⟩
    · rw [hfirst] at hsame
      cases hsame
      exact Nat.le_refl _
    · rw [hfirst] at hlonger
      cases hlonger
      exact Nat.le_of_lt hlt
  | strange | openText | openComment => exact absurd hclean id

/-- **A piece that is cut properly is the first piece**, and clean. -/
theorem Proper.first_eq (h : p.Proper rest) :
    p.Clean ∧ ∃ c cs, p.chars ++ rest = c :: cs ∧ first c cs = p := by
  cases h with
  | blank => exact ⟨trivial, ' ', rest, rfl, rfl⟩
  | lineBreak => exact ⟨trivial, '\n', rest, rfl, rfl⟩
  | lineComment hbody hend =>
    rename_i body
    refine ⟨trivial, '/', '/' :: (body ++ rest), rfl, ?_⟩
    have htake : (body ++ rest).takeWhile (· ≠ '\n') = body := by
      refine takeWhile_of_stop (fun d hd => ?_) (fun d hd => by simp [hend d hd])
      rw [decide_eq_true_eq]
      rintro rfl
      exact hbody hd
    exact congrArg Piece.lineComment htake
  | blockComment hbody =>
    rename_i body
    refine ⟨trivial, '/', '*' :: (body ++ '*' :: '/' :: rest), by simp [chars], ?_⟩
    show comment (body ++ '*' :: '/' :: rest) = _
    rw [comment, commentBody_append hbody, if_pos rfl]
  | lexeme hlexeme longest hcomment =>
    rename_i l k v
    obtain ⟨c, cs, htext⟩ :=
      List.exists_cons_of_ne_nil (List.append_ne_nil_of_left_ne_nil hlexeme.ne_nil rest)
    refine ⟨⟨v, rfl⟩, c, cs, htext, ?_⟩
    rcases hlexeme.first_isAtLeast htext.symm (htext ▸ hcomment)
      with hsame | ⟨l', k', v', hlonger, hlt⟩
    · exact hsame
    · -- a longer one that is found stands there, too
      have hfound := found_first c cs
      rw [hlonger] at hfound
      cases hfound with
      | lexeme hlexeme' _ htext' =>
        have hle := longest l' k' v' hlexeme' ⟨_, htext'.symm.trans htext.symm⟩
        omega

end Piece

/-! ## Whole texts -/

/-- The words among tokens: neither line breaks nor the mark of the end. -/
def foundWords (ts : List Token) : List Word :=
  (ts.filter fun t => t.kind ≠ .newline ∧ t.kind ≠ .endOfFile).map Token.word

@[simp] theorem foundWords_append (ts us : List Token) :
    foundWords (ts ++ us) = foundWords ts ++ foundWords us := by
  simp [foundWords]

/-- The word that a piece brings. -/
def Piece.token? : Piece → Option Word
  | .lexeme _ k (.ok v) => some ⟨k, v⟩
  | _ => none

/-- No lexeme is a line break or the end. -/
theorem Lexeme.kind_ne {l : List Char} {k : TokenKind} {v : Except Fault TokenContent}
    (h : Lexeme l k v) : k ≠ .newline ∧ k ≠ .endOfFile := by
  have hsigns : ∀ entry ∈ signs, entry.2 ≠ .newline ∧ entry.2 ≠ .endOfFile := by decide
  have hkeywords : ∀ entry ∈ keywords, entry.2 ≠ .newline ∧ entry.2 ≠ .endOfFile := by decide
  cases h with
  | sign hx => exact hsigns _ hx
  | keyword hx => exact hkeywords _ hx
  | name | whole | fraction | text => decide

/-- A text is the concatenation of the pieces that it is cut into. -/
theorem Segmented.flatMap_chars {cs : List Char} {ps : List Piece} (h : Segmented cs ps) :
    ps.flatMap Piece.chars = cs := by
  induction h with
  | nil => rfl
  | cons hp hps ih => rw [List.flatMap_cons, ih]

namespace Scanner

variable {s : Scanner}

/-- Characters bring no words. -/
theorem foundWords_passChars (b : Bool) (s : Scanner) (cs : List Char) :
    foundWords (s.passChars b cs).tokens.toList = foundWords s.tokens.toList := by
  induction cs generalizing s with
  | nil => rfl
  | cons c cs ih =>
    rw [passChars_cons, ih]
    unfold passChar
    split
    · split <;> simp [skipNewline, breakLine, emit, advance, foundWords]
    · rfl

/-- A piece brings its word. -/
theorem foundWords_pass {p : Piece} {rest : List Char} (h : p.Proper rest) (s : Scanner) :
    foundWords (s.pass p).1.tokens.toList = foundWords s.tokens.toList ++ p.token?.toList := by
  cases h with
  | lexeme hlexeme _ _ =>
    simp only [pass, record, Array.toList_push, foundWords_append, foundWords_passChars]
    simp [foundWords, hlexeme.kind_ne, Piece.token?, Token.word]
  | blank | lineBreak | lineComment | blockComment =>
    simp [pass, foundWords_passChars, Piece.token?]

/-- A piece that is cut properly is passed over. -/
theorem run_of_proper {p : Piece} {rest : List Char} (hp : p.Proper rest)
    (h : s.rest = p.chars ++ rest) :
    s.run = (s.pass p).1.run ∧ (s.RunsClean ↔ (s.pass p).1.RunsClean) := by
  obtain ⟨hclean, c, cs, htext, hfirst⟩ := hp.first_eq
  rw [htext] at h
  rw [runsClean_iff h, run_of_clean h (hfirst ▸ hclean), hfirst]
  exact ⟨rfl, by simp [hclean]⟩

/-- **A text that is cut into pieces is read cleanly**, and the words of its pieces are found. -/
theorem runsClean_of_segmented {cs : List Char} {ps : List Piece} (h : Segmented cs ps)
    (hrest : s.rest = cs) :
    s.RunsClean ∧ foundWords s.run.scanner.tokens.toList =
      foundWords s.tokens.toList ++ ps.filterMap Piece.token? := by
  induction h generalizing s with
  | nil =>
    refine ⟨runsClean_of_rest_nil hrest, ?_⟩
    rw [run_of_rest_nil hrest]
    simp [foundWords, Token.endOfFile]
  | cons hp hps ih =>
    rename_i p ps rest
    obtain ⟨hruns, hwords⟩ := ih (rest_pass hp.first_eq.1 hrest)
    obtain ⟨hrun, hclean⟩ := run_of_proper hp hrest
    rw [hclean, hrun, hwords, foundWords_pass hp]
    refine ⟨hruns, ?_⟩
    cases hword : p.token? <;> simp [hword]

/-- **A text that is read cleanly is cut into pieces.** -/
theorem exists_segmented (h : s.RunsClean) : ∃ ps, Segmented s.rest ps := by
  induction s using pass_induction with
  | nil s hrest => exact ⟨[], hrest ▸ .nil⟩
  | fault s c cs s' f hrest hpass =>
    have hclean := ((pass_clean_iff s _).mpr ((runsClean_iff hrest).mp h).1).1
    rw [hpass] at hclean
    cases hclean
  | next s c cs s' hrest hpass ih =>
    obtain ⟨hclean, hruns⟩ := (runsClean_iff hrest).mp h
    obtain ⟨rest, htext, hproper⟩ := Piece.proper_of_first rfl hclean
    have hbehind := rest_pass hclean (hrest.trans htext)
    rw [hpass] at hruns hbehind
    obtain ⟨ps, hps⟩ := ih hruns
    rw [show s'.rest = rest from hbehind] at hps
    rw [hrest, htext]
    exact ⟨_, .cons hproper hps⟩

end Scanner

/-- **The lexical grammar is what is scanned.** The scan of a text meets no fault and reports nothing
exactly if the text is a sequence of blanks, line breaks, comments and lexemes, where every lexeme is
the longest one that stands at its place; and then the tokens, line breaks and the end apart, are the
lexemes in their order. -/
theorem scan_clean_iff_segmented (source : String) :
    ((scan source).fault = none ∧ (scan source).scanner.reports = []) ↔
      ∃ ps, Segmented source.toList ps ∧ ps.flatMap Piece.chars = source.toList ∧
        foundWords (scan source).scanner.tokens.toList = ps.filterMap Piece.token? := by
  constructor
  · intro hclean
    obtain ⟨ps, hps⟩ := exists_segmented (s := { rest := source.toList }) hclean
    have hwords := (runsClean_of_segmented (s := { rest := source.toList }) hps rfl).2
    exact ⟨ps, hps, hps.flatMap_chars, hwords⟩
  · rintro ⟨ps, hps, -, -⟩
    exact (runsClean_of_segmented (s := { rest := source.toList }) hps rfl).1

end Scriptlet
