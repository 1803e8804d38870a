/-
Flat JSON objects: a compact writer and a reader, character by character.

An object of texts and numbers is written without white space, fields in
order, as a serializer of records does. The reader is a lexer that takes one
character at a time, so what it does with a concatenation is what it does
with the second part after the first (`run_append`), and a grammar for the
tokens. Two facts come out: what was written is read back, and an object
behind other text is no object.
-/
import Ruletka.Lib.Text
import Mathlib.Tactic.IntervalCases

namespace Ruletka.Json

open Text

-- ======================================================================== writer

inductive Value where
  | num (n : Nat)
  | str (s : String)
  deriving DecidableEq, Repr

def quote : Char := '\x22'
def backslash : Char := '\x5c'
def openBrace : Char := '\x7b'
def closeBrace : Char := '\x7d'

/-- A character inside a string literal. -/
def escapeChar (c : Char) : List Char :=
  if c = quote ∨ c = backslash then [backslash, c]
  else if c.toNat = 8 then [backslash, 'b']
  else if c.toNat = 9 then [backslash, 't']
  else if c.toNat = 10 then [backslash, 'n']
  else if c.toNat = 12 then [backslash, 'f']
  else if c.toNat = 13 then [backslash, 'r']
  else if c.toNat < 0x20 then
    [backslash, 'u', '0', '0', hexDigit (c.toNat / 16), hexDigit (c.toNat % 16)]
  else [c]

def printStr (s : String) : List Char := quote :: (s.toList.flatMap escapeChar ++ [quote])

def Value.print : Value → List Char
  | .num n => Nat.toDigits 10 n
  | .str s => printStr s

/-- The fields and the closing brace. -/
def printFields : List (String × Value) → List Char
  | [] => [closeBrace]
  | [(k, v)] => printStr k ++ ':' :: (v.print ++ [closeBrace])
  | (k, v) :: f :: fs => printStr k ++ ':' :: (v.print ++ ',' :: printFields (f :: fs))

def printObject (fields : List (String × Value)) : List Char := openBrace :: printFields fields

-- ========================================================================= lexer

inductive Token where
  | punct (c : Char)
  | value (v : Value)
  deriving DecidableEq, Repr

/-- Where the lexer is between two characters. -/
inductive Mode where
  /-- between tokens -/
  | plain
  | num (n : Nat)
  /-- inside a string; what was read, last first -/
  | str (s : List Char)
  /-- behind a backslash -/
  | esc (s : List Char)
  /-- behind `\u` and some digits: how many are missing, and their value -/
  | uni (s : List Char) (left value : Nat)
  deriving DecidableEq, Repr

/-- The tokens so far, last first, and the mode. -/
structure Lexer where
  toks : List Token
  mode : Mode
  deriving DecidableEq, Repr

def digitValue (c : Char) : Nat := c.toNat - '0'.toNat

def hexValue (c : Char) : Option Nat :=
  if c.isDigit then some (digitValue c)
  else if 'a' ≤ c ∧ c ≤ 'f' then some (c.toNat - 'a'.toNat + 10)
  else if 'A' ≤ c ∧ c ≤ 'F' then some (c.toNat - 'A'.toNat + 10)
  else none

/-- What the character behind a backslash stands for. -/
def unescape (c : Char) : Option Char :=
  if c = quote ∨ c = backslash ∨ c = '/' then some c
  else if c = 'b' then some (Char.ofNat 8)
  else if c = 't' then some (Char.ofNat 9)
  else if c = 'n' then some (Char.ofNat 10)
  else if c = 'f' then some (Char.ofNat 12)
  else if c = 'r' then some (Char.ofNat 13)
  else none

namespace Lexer

def start : Lexer := ⟨[], .plain⟩

/-- A character between tokens. -/
def between (toks : List Token) (c : Char) : Option Lexer :=
  if c = quote then some ⟨toks, .str []⟩
  else if c.isDigit then some ⟨toks, .num (digitValue c)⟩
  else if c = openBrace ∨ c = closeBrace ∨ c = ':' ∨ c = ',' then
    some ⟨.punct c :: toks, .plain⟩
  else none

def step (l : Lexer) (c : Char) : Option Lexer :=
  match l.mode with
  | .plain => between l.toks c
  | .num n =>
      if c.isDigit then some ⟨l.toks, .num (10 * n + digitValue c)⟩
      else between (.value (.num n) :: l.toks) c
  | .str s =>
      if c = quote then some ⟨.value (.str (String.ofList s.reverse)) :: l.toks, .plain⟩
      else if c = backslash then some ⟨l.toks, .esc s⟩
      else if c.toNat < 0x20 then none
      else some ⟨l.toks, .str (c :: s)⟩
  | .esc s =>
      if c = 'u' then some ⟨l.toks, .uni s 4 0⟩
      else (unescape c).map fun c => ⟨l.toks, .str (c :: s)⟩
  | .uni s left value => do
      let d ← hexValue c
      let value := 16 * value + d
      if left = 1 then some ⟨l.toks, .str (Char.ofNat value :: s)⟩
      else some ⟨l.toks, .uni s (left - 1) value⟩

/-- Read characters. -/
def run (l : Lexer) (cs : List Char) : Option Lexer := cs.foldlM step l

end Lexer

/-- The fields up to the closing brace, which ends the text. -/
def readFields : List Token → Option (List (String × Value))
  | [.punct c] => if c = closeBrace then some [] else none
  | .value (.str k) :: .punct col :: .value v :: .punct c :: rest =>
      if col ≠ ':' then none
      else if c = closeBrace then if rest = [] then some [(k, v)] else none
      else if c = ',' ∧ rest ≠ [.punct closeBrace] then
        (readFields rest).map ((k, v) :: ·)
      else none
  | _ => none

def readTokens : List Token → Option (List (String × Value))
  | .punct c :: rest => if c = openBrace then readFields rest else none
  | _ => none

/-- Read a text as one object. -/
def readObject (cs : List Char) : Option (List (String × Value)) :=
  match Lexer.start.run cs with
  | some ⟨toks, .plain⟩ => readTokens toks.reverse
  | _ => none

-- ==================================================================== round trip

namespace Lexer

@[simp]
theorem run_nil (l : Lexer) : l.run [] = some l := rfl

@[simp]
theorem run_cons (l : Lexer) (c : Char) (cs : List Char) :
    l.run (c :: cs) = (l.step c).bind (·.run cs) := rfl

theorem run_append (l : Lexer) (cs ds : List Char) :
    l.run (cs ++ ds) = (l.run cs).bind (·.run ds) := List.foldlM_append ..

/-- Behind what was written for it, a character is read. -/
theorem run_escapeChar (toks : List Token) (s : List Char) (c : Char) :
    run ⟨toks, .str s⟩ (escapeChar c) = some ⟨toks, .str (c :: s)⟩ := by
  have hcode : ∀ {n : Nat}, c.toNat = n → c = Char.ofNat n := fun h => by
    rw [← h, Char.ofNat_toNat]
  unfold escapeChar
  split_ifs with hq h8 h9 h10 h12 h13 hctl
  · obtain rfl | rfl := hq <;> rfl
  · rw [hcode h8]; rfl
  · rw [hcode h9]; rfl
  · rw [hcode h10]; rfl
  · rw [hcode h12]; rfl
  · rw [hcode h13]; rfl
  · generalize hn : c.toNat = n at hctl
    rw [hcode hn]
    interval_cases n <;> rfl
  · obtain ⟨hq, hb⟩ := not_or.mp hq
    simp [step, hq, hb, hctl]

theorem run_chars (toks : List Token) (s : List Char) (cs : List Char) :
    run ⟨toks, .str s⟩ (cs.flatMap escapeChar) = some ⟨toks, .str (cs.reverse ++ s)⟩ := by
  induction cs generalizing s with
  | nil => rfl
  | cons c cs ih =>
      rw [List.flatMap_cons, run_append, run_escapeChar, Option.bind_some, ih,
        List.reverse_cons, List.append_assoc, List.singleton_append]

theorem run_printStr (toks : List Token) (s : String) :
    run ⟨toks, .plain⟩ (printStr s) = some ⟨.value (.str s) :: toks, .plain⟩ := by
  have hopen : step ⟨toks, .plain⟩ quote = some ⟨toks, .str []⟩ := rfl
  rw [printStr, run_cons, hopen, Option.bind_some, run_append, run_chars, List.append_nil,
    Option.bind_some, run_cons]
  simp [step]

/-- A digit is read as its value. -/
theorem digit_of_lt {n : Nat} (h : n < 10) :
    n.digitChar.isDigit ∧ digitValue n.digitChar = n ∧ n.digitChar ≠ quote := by
  interval_cases n <;> decide

theorem run_toDigits (toks : List Token) (n : Nat) :
    run ⟨toks, .plain⟩ (Nat.toDigits 10 n) = some ⟨toks, .num n⟩ := by
  induction n using Nat.strong_induction_on with
  | _ n ih =>
      rw [Nat.toDigits_eq_if (by decide)]
      split
      · next hlt =>
        obtain ⟨hdigit, hvalue, hquote⟩ := digit_of_lt hlt
        simp [step, between, hdigit, hvalue, hquote]
      · next hlt =>
        obtain ⟨hdigit, hvalue, -⟩ := digit_of_lt (Nat.mod_lt n (by decide : 0 < 10))
        rw [run_append, ih _ (by omega), Option.bind_some, run_cons]
        simp [step, hdigit, hvalue, Nat.div_add_mod]

/-- A value and what ends it. -/
theorem run_value (toks : List Token) (v : Value) {c : Char} (hc : c = ',' ∨ c = closeBrace)
    (rest : List Char) :
    run ⟨toks, .plain⟩ (v.print ++ c :: rest)
      = run ⟨.punct c :: .value v :: toks, .plain⟩ rest := by
  cases v with
  | str s =>
      rw [Value.print, run_append, run_printStr, Option.bind_some, run_cons]
      obtain rfl | rfl := hc <;> rfl
  | num n =>
      rw [Value.print, run_append, run_toDigits, Option.bind_some, run_cons]
      obtain rfl | rfl := hc <;> rfl

/-- A key and its colon. -/
theorem run_key (toks : List Token) (k : String) (rest : List Char) :
    run ⟨toks, .plain⟩ (printStr k ++ ':' :: rest)
      = run ⟨.punct ':' :: .value (.str k) :: toks, .plain⟩ rest := by
  rw [run_append, run_printStr, Option.bind_some, run_cons]
  rfl

end Lexer

/-- The tokens of the fields and the closing brace. -/
def fieldToks : List (String × Value) → List Token
  | [] => [.punct closeBrace]
  | [(k, v)] => [.value (.str k), .punct ':', .value v, .punct closeBrace]
  | (k, v) :: f :: fs =>
      .value (.str k) :: .punct ':' :: .value v :: .punct ',' :: fieldToks (f :: fs)

theorem Lexer.run_printFields (toks : List Token) (fields : List (String × Value)) :
    Lexer.run ⟨toks, .plain⟩ (printFields fields)
      = some ⟨(fieldToks fields).reverse ++ toks, .plain⟩ := by
  induction fields using printFields.induct generalizing toks with
  | case1 => rfl
  | case2 k v =>
      rw [printFields, Lexer.run_key, Lexer.run_value _ _ (.inr rfl)]
      rfl
  | case3 k v f fs ih =>
      rw [printFields, Lexer.run_key, Lexer.run_value _ _ (.inl rfl), ih, fieldToks]
      simp

theorem readFields_fieldToks (fields : List (String × Value)) :
    readFields (fieldToks fields) = some fields := by
  induction fields using printFields.induct with
  | case1 => rfl
  | case2 k v => rfl
  | case3 k v f fs ih =>
      have hmore : fieldToks (f :: fs) ≠ [.punct closeBrace] := by
        cases fs <;> exact nofun
      have hcomma : ¬ (',' : Char) = closeBrace := by decide
      simp [fieldToks, readFields, ih, hmore, hcomma]

/-- What was written is read back. -/
theorem readObject_printObject (fields : List (String × Value)) :
    readObject (printObject fields) = some fields := by
  have hopen : Lexer.start.step openBrace = some ⟨[.punct openBrace], .plain⟩ := rfl
  rw [readObject, printObject, Lexer.run_cons, hopen, Option.bind_some,
    Lexer.run_printFields]
  simp [readTokens, readFields_fieldToks]

/-- An object stands between its braces. -/
theorem printObject_braced (fields : List (String × Value)) :
    ∃ body, printObject fields = openBrace :: (body ++ [closeBrace]) := by
  suffices h : ∃ body, printFields fields = body ++ [closeBrace] by
    obtain ⟨body, hbody⟩ := h
    exact ⟨body, by rw [printObject, hbody]⟩
  induction fields using printFields.induct with
  | case1 => exact ⟨[], rfl⟩
  | case2 k v => exact ⟨printStr k ++ ':' :: v.print, by simp [printFields]⟩
  | case3 k v f fs ih =>
      obtain ⟨body, hbody⟩ := ih
      exact ⟨printStr k ++ ':' :: (v.print ++ ',' :: body), by simp [printFields, hbody]⟩

-- ====================================================== an object behind other text

/-- The grammar accepts the tokens of its fields and no others. -/
theorem eq_fieldToks_of_readFields {toks : List Token} {fields : List (String × Value)}
    (h : readFields toks = some fields) : toks = fieldToks fields := by
  fun_induction readFields toks generalizing fields with
  | case1 => cases h; rfl
  | case2 => cases h
  | case3 => cases h
  | case4 k col v hcol =>
      cases h
      rw [not_not.mp hcol]
      rfl
  | case5 => cases h
  | case6 k col v c rest hcol hc hcomma ih =>
      obtain ⟨fs, hfs, rfl⟩ := Option.map_eq_some_iff.mp h
      rw [ih hfs] at hcomma ⊢
      rw [not_not.mp hcol, hcomma.1]
      cases fs with
      | nil => exact absurd rfl hcomma.2
      | cons f fs => rfl
  | case7 => cases h
  | case8 => cases h

theorem openBrace_notMem_fieldToks (fields : List (String × Value)) :
    .punct openBrace ∉ fieldToks fields := by
  induction fields using printFields.induct with
  | case1 => decide
  | case2 k v =>
      simp only [fieldToks, List.mem_cons, not_or]
      exact ⟨nofun, by decide, nofun, by decide, nofun⟩
  | case3 k v f fs ih =>
      simp only [fieldToks, List.mem_cons, not_or]
      exact ⟨nofun, by decide, nofun, by decide, ih⟩

/-- An opening brace that is not the first token. -/
theorem readTokens_eq_none {before after : List Token} (h : before ≠ []) :
    readTokens (before ++ .punct openBrace :: after) = none := by
  by_contra hsome
  obtain ⟨fields, hfields⟩ := Option.ne_none_iff_exists'.mp hsome
  obtain ⟨t, ts, rfl⟩ := List.exists_cons_of_ne_nil h
  rw [List.cons_append] at hfields
  unfold readTokens at hfields
  split at hfields
  · next heq =>
    cases heq
    split at hfields
    · have hmem := eq_fieldToks_of_readFields hfields
      exact openBrace_notMem_fieldToks fields (hmem ▸ by simp)
    · cases hfields
  · cases hfields

namespace Lexer

/-- Tokens are never taken back. -/
theorem toks_of_step {l l' : Lexer} {c : Char} (h : l.step c = some l') :
    l.toks <:+ l'.toks := by
  have hbetween : ∀ toks, l.toks <:+ toks → between toks c = some l' → l.toks <:+ l'.toks := by
    intro toks htoks hb
    unfold between at hb
    split_ifs at hb <;> cases hb
    · exact htoks
    · exact htoks
    · exact htoks.trans (List.suffix_cons _ _)
  unfold step at h
  split at h
  · exact hbetween _ (List.suffix_refl _) h
  · split at h
    · cases h
      exact List.suffix_refl _
    · exact hbetween _ (List.suffix_cons _ _) h
  · split_ifs at h <;> cases h
    · exact List.suffix_cons _ _
    · exact List.suffix_refl _
    · exact List.suffix_refl _
  · split at h
    · cases h
      exact List.suffix_refl _
    · obtain ⟨d, -, rfl⟩ := Option.map_eq_some_iff.mp h
      exact List.suffix_refl _
  · obtain ⟨d, -, h⟩ := Option.bind_eq_some_iff.mp h
    dsimp only at h
    split_ifs at h <;>
    · cases h
      exact List.suffix_refl _

theorem toks_of_run {l l' : Lexer} {cs : List Char} (h : l.run cs = some l') :
    l.toks <:+ l'.toks := by
  induction cs generalizing l with
  | nil =>
      cases h
      exact List.suffix_refl _
  | cons c cs ih =>
      obtain ⟨l₁, hstep, hrest⟩ := Option.bind_eq_some_iff.mp h
      exact (toks_of_step hstep).trans (ih hrest)

theorem moved_of_step {l l' : Lexer} {c : Char} (h : l.step c = some l')
    (hplain : l'.mode = .plain) : l'.toks ≠ [] := by
  have hbetween : ∀ toks, between toks c = some l' → l'.toks ≠ [] := by
    intro toks hb
    unfold between at hb
    split_ifs at hb <;> cases hb
    · cases hplain
    · cases hplain
    · exact List.cons_ne_nil _ _
  unfold step at h
  split at h
  · exact hbetween _ h
  · split at h
    · cases h
      cases hplain
    · exact hbetween _ h
  · split_ifs at h <;> cases h
    · exact List.cons_ne_nil _ _
    · cases hplain
    · cases hplain
  · split at h
    · cases h
      cases hplain
    · obtain ⟨d, -, rfl⟩ := Option.map_eq_some_iff.mp h
      cases hplain
  · obtain ⟨d, -, h⟩ := Option.bind_eq_some_iff.mp h
    dsimp only at h
    split_ifs at h <;>
    · cases h
      cases hplain

/-- Behind some text the lexer is in a token or has one. -/
theorem moved_of_run {l l' : Lexer} {cs : List Char} (hcs : cs ≠ [])
    (h : l.run cs = some l') (hplain : l'.mode = .plain) : l'.toks ≠ [] := by
  induction cs generalizing l with
  | nil => exact absurd rfl hcs
  | cons c cs ih =>
      obtain ⟨l₁, hstep, hrest⟩ := Option.bind_eq_some_iff.mp h
      cases cs with
      | nil =>
          cases hrest
          exact moved_of_step hstep hplain
      | cons c' cs => exact ih (List.cons_ne_nil _ _) hrest

/-- Whatever came before, an object's opening brace is a token of its own, or
the lexer does not get past the first key. -/
theorem run_openBrace {l l' : Lexer} {c : Char} (hc : ∀ toks, between toks c = none)
    {cs : List Char} (h : l.run (openBrace :: quote :: c :: cs) = some l') :
    (l.mode = .plain ∧ .punct openBrace :: l.toks <:+ l'.toks)
      ∨ ∃ v, .punct openBrace :: .value v :: l.toks <:+ l'.toks := by
  obtain ⟨toks, mode⟩ := l
  cases mode with
  | plain => exact .inl ⟨rfl, toks_of_run (l := ⟨.punct openBrace :: toks, .plain⟩) h⟩
  | num n =>
      exact .inr ⟨.num n, toks_of_run (l := ⟨.punct openBrace :: .value (.num n) :: toks, .plain⟩) h⟩
  | str s =>
      have hclose : run ⟨toks, .str s⟩ (openBrace :: quote :: c :: cs)
          = (between (.value (.str (String.ofList (openBrace :: s).reverse)) :: toks) c).bind
            (·.run cs) := rfl
      rw [hclose, hc] at h
      cases h
  | esc s => cases h
  | uni s left value => cases h

end Lexer

/-- An object behind other text cannot be read. -/
theorem readObject_behind {before : List Char} (hbefore : before ≠ [])
    {fields : List (String × Value)} {c : Char} {cs : List Char}
    (hc : ∀ toks, Lexer.between toks c = none)
    (hobj : printObject fields = openBrace :: quote :: c :: cs) :
    readObject (before ++ printObject fields) = none := by
  unfold readObject
  split
  · next toks hrun =>
    rw [Lexer.run_append] at hrun
    obtain ⟨l, hl, hrest⟩ := Option.bind_eq_some_iff.mp hrun
    rw [hobj] at hrest
    obtain ⟨earlier, hne, later, rfl⟩ :
        ∃ earlier ≠ [], ∃ later, toks = later ++ .punct openBrace :: earlier := by
      obtain ⟨hplain, later, rfl⟩ | ⟨v, later, rfl⟩ := Lexer.run_openBrace hc hrest
      · exact ⟨l.toks, Lexer.moved_of_run hbefore hl hplain, later, rfl⟩
      · exact ⟨.value v :: l.toks, List.cons_ne_nil _ _, later, rfl⟩
    rw [List.reverse_append, List.reverse_cons, List.append_assoc, List.singleton_append]
    exact readTokens_eq_none (by simpa using hne)
  · rfl

end Ruletka.Json
