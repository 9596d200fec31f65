import WorkflowCanvas.Proofs.Json.Phrase

/-!
# Texts by their spelling

What the reader makes of a text between quotes is settled by what stands there (`textOf`).  The text
is read as what it means by the grammar, and it is not read if it means nothing
(`Strokes.textOf_eq_some_iff`): of all that may stand between quotes, half a pair of surrogates
without the other half is the one thing that fails.  The skipper does not ask for a meaning and
skips every text (`Strokes.skipText_eq`).
-/

namespace WorkflowCanvas.Json

open Grammar

/-! ## Escapes -/

section Escapes

variable {digits : List Char} {value : Nat}

lemma width_of_hexDigit? {c : Char} {n : Nat} (h : hexDigit? (.char c) = some n) :
    Symbol.width (.char c) = 1 := by
  have hvalue : Text.digitValue? c = some n := (Option.filter_eq_some_iff.1 h).1
  have hle : c.toNat ≤ 'z'.toNat := by
    unfold Text.digitValue? at hvalue
    split at hvalue
    · rename_i hrange
      exact Nat.le_trans hrange.2 (by decide)
    · split at hvalue
      · rename_i hrange
        exact hrange.2
      · split at hvalue
        · rename_i hrange
          exact Nat.le_trans hrange.2 (by decide)
        · cases hvalue
  have hascii : c.val ≤ 0x7f := Nat.le_trans hle (by decide)
  exact if_pos hascii

/-- The digits of an escape, one by one. -/
lemma Grammar.CodeUnit.exists_digits (h : CodeUnit digits value) :
    ∃ a b c d, digits = [a, b, c, d] ∧ ∃ w x y z,
      (hexDigit? (.char a) = some w ∧ hexDigit? (.char b) = some x ∧
        hexDigit? (.char c) = some y ∧ hexDigit? (.char d) = some z) ∧
      ((w * 16 + x) * 16 + y) * 16 + z = value := by
  obtain ⟨hlength, hvalue⟩ := h
  obtain ⟨a, b, c, d, rfl⟩ := List.length_eq_four.1 hlength
  obtain ⟨values, hvalues, rfl⟩ := Option.map_eq_some_iff.1 hvalue
  simp only [List.mapM_cons, List.mapM_nil, Option.bind_eq_bind, Option.bind_eq_some_iff,
    Option.pure_def, Option.some.injEq] at hvalues
  obtain ⟨w, hw, _, ⟨x, hx, _, ⟨y, hy, _, ⟨z, hz, _, rfl, rfl⟩, rfl⟩, rfl⟩, rfl⟩ := hvalues
  exact ⟨a, b, c, d, rfl, w, x, y, z, ⟨hw, hx, hy, hz⟩, by simp [Text.numberOf]⟩

lemma Grammar.CodeUnit.lt (h : CodeUnit digits value) : value < 0x10000 := by
  obtain ⟨a, b, c, d, -, w, x, y, z, ⟨ha, hb, hc, hd⟩, rfl⟩ := h.exists_digits
  have hw : w < 16 := Text.digit?_lt ha
  have hx : x < 16 := Text.digit?_lt hb
  have hy : y < 16 := Text.digit?_lt hc
  have hz : z < 16 := Text.digit?_lt hd
  omega

lemma Grammar.CodeUnit.spans (h : CodeUnit digits value) (rest : List Symbol) :
    Symbol.spans (digits.map .char ++ rest) 4 = true := by
  obtain ⟨a, b, c, d, rfl, w, x, y, z, ⟨ha, hb, hc, hd⟩, -⟩ := h.exists_digits
  exact spans_four rest (width_of_hexDigit? ha) (width_of_hexDigit? hb) (width_of_hexDigit? hc)
    (width_of_hexDigit? hd)

/-- The four digits of an escape are read as their value. -/
lemma readTextFrom_codeUnit (h : CodeUnit digits value) (lead : Option Nat) (clean : Bool)
    (read : List Char) (rest : List Symbol) :
    readTextFrom (.hex 4 0 lead) clean read (digits.map .char ++ rest) =
      match closeHex lead value with
      | .error e => .error e
      | .ok (.inl c) => readTextFrom .plain clean (c :: read) rest
      | .ok (.inr high) => readTextFrom (.paired high) clean read rest := by
  obtain ⟨a, b, c, d, rfl, w, x, y, z, ⟨ha, hb, hc, hd⟩, rfl⟩ := h.exists_digits
  have hvalue : (((0 * 16 + w) * 16 + x) * 16 + y) * 16 + z =
      ((w * 16 + x) * 16 + y) * 16 + z := by omega
  rw [← hvalue]
  simp only [List.map_cons, List.map_nil, List.cons_append, List.nil_append]
  rw [readTextFrom_hex 2 0 read _ ha, readTextFrom_hex 1 _ read _ hb,
    readTextFrom_hex 0 _ read _ hc, readTextFrom, hd]
  exact if_neg (by decide)

lemma skipTextFrom_codeUnit (h : CodeUnit digits value) (rest : List Symbol) :
    skipTextFrom (.hex 4) (digits.map .char ++ rest) = skipTextFrom .plain rest := by
  obtain ⟨a, b, c, d, rfl, w, x, y, z, ⟨ha, hb, hc, hd⟩, -⟩ := h.exists_digits
  simp [skipTextFrom, ha, hb, hc, hd]

lemma closeHex_char (c : Char) : closeHex none c.toNat = .ok (.inl c) := by
  have hvalid : c.toNat < 0xD800 ∨ 0xDFFF < c.toNat ∧ c.toNat < 0x110000 := c.valid
  rw [closeHex, if_neg (by omega), if_neg (by omega), Char.ofNat_toNat]

lemma closeHex_leading {high : Nat} (hlt : high < 0x400) :
    closeHex none (0xD800 + high) = .ok (.inr (0xD800 + high)) := by
  rw [closeHex, if_neg (by omega), if_pos (by omega)]

lemma closeHex_pair {high low : Nat} (hlow : low < 0x400) {c : Char}
    (hc : c.toNat = 0x10000 + 0x400 * high + low) :
    closeHex (some (0xD800 + high)) (0xDC00 + low) = .ok (.inl c) := by
  have hvalue : 0x10000 + (0xD800 + high - 0xD800) * 0x400 + (0xDC00 + low - 0xDC00) =
      c.toNat := by omega
  rw [closeHex, if_pos (by omega), hvalue, Char.ofNat_toNat]

lemma escaped?_of_mem {letter c : Char} (h : (letter, c) ∈ shortEscapes) :
    escaped? letter = some c ∧ letter ≠ 'u' := by
  have hall : ∀ e ∈ shortEscapes, escaped? e.1 = some e.2 ∧ e.1 ≠ 'u' := by decide
  exact hall _ h

end Escapes

/-! ## Texts -/

section Texts

variable {piece cs characters : List Char}

lemma readTextFrom_plain {c : Char} (printable : 0x20 ≤ c.toNat) (ne_quote : c ≠ '"')
    (ne_backslash : c ≠ '\\') (clean : Bool) (read : List Char) (rest : List Symbol) :
    readTextFrom .plain clean read (.char c :: rest) =
      readTextFrom .plain clean (c :: read) rest := by
  rw [readTextFrom, if_neg (by omega)]
  · exact ne_quote
  · exact ne_backslash

lemma readTextFrom_short {letter c : Char} (listed : (letter, c) ∈ shortEscapes) (clean : Bool)
    (read : List Char) (rest : List Symbol) :
    readTextFrom .plain clean read (.char '\\' :: .char letter :: rest) =
      readTextFrom .plain clean (c :: read) rest := by
  obtain ⟨hescaped, hne⟩ := escaped?_of_mem listed
  rw [readTextFrom, readTextFrom, hescaped]
  exact hne

lemma readTextFrom_unit {digits : List Char} {value : Nat} (codes : CodeUnit digits value)
    (clean : Bool) (read : List Char) (rest : List Symbol) :
    readTextFrom .plain clean read (('\\' :: 'u' :: digits).map .char ++ rest) =
      readTextFrom (.hex 4 0 none) clean read (digits.map .char ++ rest) := by
  rw [List.map_cons, List.map_cons, List.cons_append, List.cons_append, readTextFrom, readTextFrom,
    if_pos (codes.spans rest)]

lemma readTextFrom_paired {digits : List Char} {value : Nat} (codes : CodeUnit digits value)
    (lead : Nat) (clean : Bool) (read : List Char) (rest : List Symbol) :
    readTextFrom (.paired lead) clean read (('\\' :: 'u' :: digits).map .char ++ rest) =
      readTextFrom (.hex 4 0 (some lead)) clean read (digits.map .char ++ rest) := by
  rw [List.map_cons, List.map_cons, List.cons_append, List.cons_append, readTextFrom, if_pos rfl,
    readTextFrom, if_pos rfl, if_pos (codes.spans rest)]

lemma readTextFrom_piece {c : Char} (h : Piece piece c) (clean : Bool) (read : List Char)
    (rest : List Symbol) :
    readTextFrom .plain clean read (piece.map .char ++ rest) =
      readTextFrom .plain clean (c :: read) rest := by
  cases h with
  | plain printable ne_quote ne_backslash =>
    exact readTextFrom_plain printable ne_quote ne_backslash clean read rest
  | escape behind =>
    cases behind with
    | short listed => exact readTextFrom_short listed clean read rest
    | unit codes =>
      rw [readTextFrom_unit codes, readTextFrom_codeUnit codes, closeHex_char]
    | @pair leading trailing high low _ leads high_lt trails low_lt toNat_eq =>
      have htext : ('\\' :: 'u' :: (leading ++ '\\' :: 'u' :: trailing)).map Symbol.char ++ rest =
          ('\\' :: 'u' :: leading).map .char ++
            (('\\' :: 'u' :: trailing).map .char ++ rest) := by simp
      rw [htext, readTextFrom_unit leads, readTextFrom_codeUnit leads, closeHex_leading high_lt]
      dsimp only
      rw [readTextFrom_paired trails, readTextFrom_codeUnit trails, closeHex_pair low_lt toNat_eq]

/-- What means something is read as what it means. -/
lemma readTextFrom_spelling (h : Spelling cs characters) (clean : Bool) (read : List Char)
    (rest : List Symbol) :
    readTextFrom .plain clean read (cs.map .char ++ rest) =
      readTextFrom .plain clean (characters.reverse ++ read) rest := by
  induction h generalizing read with
  | nil => rfl
  | cons first _ ih =>
    rw [List.map_append, List.append_assoc, readTextFrom_piece first, ih, List.reverse_cons,
      List.append_assoc, List.singleton_append]

/-- Reading fails between these quotes. -/
def FailsFrom (state : TextState) (cs : List Char) : Prop :=
  ∀ clean read rest,
    (readTextFrom state clean read (cs.map .char ++ .char '"' :: rest)).toOption = none

/-- Behind a leading surrogate stands the trailing one of a pair, and what means something. -/
def FollowsLead (cs : List Char) : Prop :=
  ∃ digits low more characters, cs = '\\' :: 'u' :: (digits ++ more) ∧
    CodeUnit digits (0xDC00 + low) ∧ low < 0x400 ∧ Spelling more characters

/-- There is a character for each number that may have one. -/
lemma exists_char {n : Nat} (h : n < 0xD800 ∨ 0xDFFF < n ∧ n < 0x110000) :
    ∃ c : Char, c.toNat = n := ⟨Char.ofNatAux n h, rfl⟩

lemma failsFrom_append {state state' : TextState} {stroke : List Char}
    (hfails : FailsFrom state' cs)
    (hstep : ∀ clean read rest, ∃ read',
      readTextFrom state clean read (stroke.map .char ++ rest) =
        readTextFrom state' clean read' rest) : FailsFrom state (stroke ++ cs) := by
  intro clean read rest
  obtain ⟨read', hread⟩ := hstep clean read (cs.map .char ++ .char '"' :: rest)
  rw [List.map_append, List.append_assoc, hread]
  exact hfails clean read' rest

/-- Either this means something or it is not read. -/
def Decided (cs : List Char) : Prop :=
  (∃ characters, Spelling cs characters) ∨ FailsFrom .plain cs

lemma Decided.cons_piece {c : Char} (first : Piece piece c) (h : Decided cs) :
    Decided (piece ++ cs) := by
  rcases h with ⟨characters, hspelling⟩ | hfails
  · exact .inl ⟨c :: characters, .cons first hspelling⟩
  · exact .inr (failsFrom_append hfails fun clean read rest =>
      ⟨c :: read, readTextFrom_piece first clean read rest⟩)

/-- Either this completes a pair, whatever its leading surrogate, or it is not read behind one. -/
def DecidedBehind (cs : List Char) : Prop :=
  FollowsLead cs ∨ ∀ high, FailsFrom (.paired (0xD800 + high)) cs

section Units

variable {digits : List Char} {value : Nat} (codes : CodeUnit digits value)

include codes

lemma Decided.cons_unit (h : Decided cs) (hbehind : DecidedBehind cs) :
    Decided ('\\' :: 'u' :: digits ++ cs) := by
  have hlt := codes.lt
  by_cases htrailing : 0xDC00 ≤ value ∧ value ≤ 0xDFFF
  · refine .inr fun clean read rest => ?_
    rw [List.map_append, List.append_assoc, readTextFrom_unit codes, readTextFrom_codeUnit codes,
      closeHex, if_pos htrailing]
    rfl
  by_cases hleading : 0xD800 ≤ value ∧ value ≤ 0xDBFF
  · obtain ⟨high, rfl⟩ := Nat.exists_eq_add_of_le hleading.1
    have hhigh : high < 0x400 := by omega
    rcases hbehind with ⟨trailing, low, more, characters, rfl, trails, hlow, hspelling⟩ | hfails
    · obtain ⟨c, hc⟩ := exists_char (n := 0x10000 + 0x400 * high + low) (by omega)
      have hpair := Spelling.cons (.escape (.pair codes hhigh trails hlow hc)) hspelling
      refine .inl ⟨c :: characters, ?_⟩
      simpa only [List.append_assoc, List.cons_append] using hpair
    · refine .inr (failsFrom_append (hfails high) fun clean read rest => ⟨read, ?_⟩)
      rw [readTextFrom_unit codes, readTextFrom_codeUnit codes, closeHex_leading hhigh]
  · obtain ⟨c, rfl⟩ := exists_char (n := value) (by omega)
    exact h.cons_piece (.escape (.unit codes))

lemma Decided.cons_behind (h : Decided cs) : DecidedBehind ('\\' :: 'u' :: digits ++ cs) := by
  by_cases htrailing : 0xDC00 ≤ value ∧ value ≤ 0xDFFF
  · obtain ⟨low, rfl⟩ := Nat.exists_eq_add_of_le htrailing.1
    rcases h with ⟨characters, hspelling⟩ | hfails
    · exact .inl ⟨digits, low, cs, characters, rfl, codes, by omega, hspelling⟩
    · exact .inr fun high => failsFrom_append hfails fun clean read rest =>
        ⟨Char.ofNat (0x10000 + (0xD800 + high - 0xD800) * 0x400 + (0xDC00 + low - 0xDC00)) :: read,
          by rw [readTextFrom_paired codes, readTextFrom_codeUnit codes, closeHex,
            if_pos htrailing]⟩
  · refine .inr fun high clean read rest => ?_
    rw [List.map_append, List.append_assoc, readTextFrom_paired codes, readTextFrom_codeUnit codes,
      closeHex, if_neg htrailing]
    rfl

end Units

/-- A stroke that is no code unit completes no pair. -/
lemma decidedBehind_of_ne {c : Char} (hbackslash : c ≠ '\\' ∨ ∃ c', cs.head? = some c' ∧ c' ≠ 'u') :
    DecidedBehind (c :: cs) := by
  refine .inr fun high clean read rest => ?_
  rw [List.map_cons, List.cons_append, readTextFrom]
  rcases hbackslash with hne | ⟨c', hhead, hne⟩
  · rw [if_neg fun heq => hne (Symbol.char.inj heq)]
    rfl
  · obtain ⟨more, rfl⟩ := List.head?_eq_some_iff.1 hhead
    split
    · rw [List.map_cons, List.cons_append, readTextFrom,
        if_neg fun heq => hne (Symbol.char.inj heq)]
      rfl
    · rfl

/-- What stands between quotes means something or is not read.  A leading surrogate takes the reader
into another state, so that state is followed as well. -/
lemma Grammar.Strokes.decided (h : Strokes cs) : Decided cs ∧ DecidedBehind cs := by
  induction h with
  | nil => exact ⟨.inl ⟨[], .nil⟩, .inr fun high clean read rest => rfl⟩
  | cons first _ ih =>
    obtain ⟨hdecided, hbehind⟩ := ih
    cases first with
    | plain printable ne_quote ne_backslash =>
      exact ⟨hdecided.cons_piece (.plain printable ne_quote ne_backslash),
        decidedBehind_of_ne (.inl ne_backslash)⟩
    | short listed =>
      exact ⟨hdecided.cons_piece (.escape (.short listed)),
        decidedBehind_of_ne (.inr ⟨_, rfl, (escaped?_of_mem listed).2⟩)⟩
    | unit codes => exact ⟨hdecided.cons_unit codes hbehind, hdecided.cons_behind codes⟩

lemma map_quoted (cs : List Char) (rest : List Symbol) :
    (quoted cs).map .char ++ rest = .char '"' :: (cs.map .char ++ .char '"' :: rest) := by
  simp [quoted]

/-- The text between quotes, if it means something. -/
def textOf (cs : List Char) : Option String :=
  (readText (cs.map .char ++ [.char '"'])).toOption.map (·.1)

lemma readText_spelling {s : String} (h : Spelling cs s.toList) (rest : List Symbol) :
    readText (cs.map .char ++ .char '"' :: rest) = .ok (s, rest) := by
  rw [readText, readTextFrom_spelling h, List.append_nil]
  change Except.ok (String.ofList s.toList.reverse.reverse, rest) = _
  rw [List.reverse_reverse, String.ofList_toList]

lemma textOf_spelling {s : String} (h : Spelling cs s.toList) : textOf cs = some s := by
  rw [textOf, readText_spelling h]
  rfl

/-- A text is read as what it means by the grammar, and not at all if it means nothing. -/
lemma Grammar.Strokes.textOf_eq_some_iff (h : Strokes cs) {s : String} :
    textOf cs = some s ↔ Spelling cs s.toList := by
  refine ⟨fun hs => ?_, textOf_spelling⟩
  rcases h.decided.1 with ⟨characters, hspelling⟩ | hfails
  · have hmeant : Spelling cs (String.ofList characters).toList := by
      rwa [String.toList_ofList]
    obtain rfl := Option.some.inj (hs.symm.trans (textOf_spelling hmeant))
    exact hmeant
  · rw [textOf, readText, hfails] at hs
    cases hs

/-- What is made of a text does not depend on what stands behind it. -/
lemma Grammar.Strokes.readText_eq (h : Strokes cs) (rest : List Symbol) :
    (readText (cs.map .char ++ .char '"' :: rest)).toOption = (textOf cs).map (·, rest) := by
  rcases h.decided.1 with ⟨characters, hspelling⟩ | hfails
  · have hmeant : Spelling cs (String.ofList characters).toList := by
      rwa [String.toList_ofList]
    rw [readText_spelling hmeant, textOf_spelling hmeant]
    rfl
  · rw [textOf, readText, readText, hfails, hfails]
    rfl

lemma skipTextFrom_stroke {stroke : List Char} (h : Stroke stroke) (rest : List Symbol) :
    skipTextFrom .plain (stroke.map .char ++ rest) = skipTextFrom .plain rest := by
  cases h with
  | plain printable ne_quote ne_backslash =>
    rw [List.map_singleton, List.singleton_append, skipTextFrom, if_neg (by omega)]
    · exact ne_quote
    · exact ne_backslash
  | short listed =>
    obtain ⟨hescaped, hne⟩ := escaped?_of_mem listed
    change skipTextFrom .plain (.char '\\' :: .char _ :: rest) = _
    rw [skipTextFrom, skipTextFrom, hescaped]
    · rfl
    · exact hne
  | unit codes =>
    rw [List.map_cons, List.map_cons, List.cons_append, List.cons_append, skipTextFrom,
      skipTextFrom, if_pos (codes.spans rest), skipTextFrom_codeUnit codes]

/-- Every text between quotes is skipped, also one that means nothing. -/
lemma Grammar.Strokes.skipText_eq (h : Strokes cs) (rest : List Symbol) :
    skipText (cs.map .char ++ .char '"' :: rest) = .ok rest := by
  rw [skipText]
  induction h with
  | nil => rfl
  | cons first _ ih => rw [List.map_append, List.append_assoc, skipTextFrom_stroke first, ih]

end Texts

end WorkflowCanvas.Json
