import Mathlib.Data.Bool.AllAny
import Dormouse.Terminal.CommandLine

/-!
# Dormouse.Terminal.ShellEscape

The **escaping of a pasted path** (`shellEscapePosix` of `shell-escape.ts`) against the tokenizer
that reads it back. Both go by `POSIX_ESCAPABLE`; they part at a blank that is not in it.
-/

namespace Dormouse.Terminal

open JsString

/-- `POSIX_NEEDS_QUOTES`. -/
def posixNeedsQuotes (c : UInt16) : Bool := c == unit '\n' || c == unit '\r'

/-- Between single quotes, `'` is written `'\''`. -/
def quoteUnit (c : UInt16) : JsString := if c = unit '\'' then js "'\\''" else [c]

def escapeUnit (c : UInt16) : JsString := if posixEscapable c then [unit '\\', c] else [c]

def shellEscapePosix (input : JsString) : JsString :=
  if input = [] then js "''"
  else if input.any posixNeedsQuotes then js "'" ++ (input.flatMap quoteUnit ++ js "'")
  else input.flatMap escapeUnit

/-! ### One character of the tokenizer -/

/-- Outside quotes, with `current` read of a word. -/
def TokenScan.bare (current : JsString) : TokenScan := ⟨current, none, false, false⟩

/-- Between single quotes. -/
def TokenScan.quoted (current : JsString) : TokenScan := ⟨current, some (unit '\''), false, false⟩

theorem ne_of_not_escapable {c d : UInt16} (hc : posixEscapable c = false)
    (hd : posixEscapable d = true) : c ≠ d := by
  intro heq
  rw [heq, hd] at hc
  cases hc

/-- Of the blanks, exactly the space and the tab are escaped. -/
theorem escapable_blank {c : UInt16} (hc : isWhitespace c = true) :
    posixEscapable c = true ↔ c = unit ' ' ∨ c = unit '\t' := by
  constructor
  · intro h
    have hall : ∀ d ∈ js " \t!\"#$&'()*;<>?[\\]\u0060\x7b|\x7d~", isWhitespace d = true →
        d = unit ' ' ∨ d = unit '\t' := List.all_iff_forall_prop.1 (by decide)
    exact hall c (List.contains_iff_mem.1 h) hc
  · rintro (rfl | rfl) <;> decide

theorem scanTokens_escaped {c : UInt16} (hc : posixEscapable c = true) (current rest : JsString) :
    scanTokens (.bare current) (unit '\\' :: c :: rest) = scanTokens (.bare (current ++ [c])) rest := by
  simp [scanTokens, TokenScan.bare, TokenScan.add, hc]

/-- A blank that is not escaped ends the word. -/
theorem scanTokens_blank {c : UInt16} (hc : posixEscapable c = false) (hblank : isWhitespace c = true)
    (current rest : JsString) :
    scanTokens (.bare current) (c :: rest) =
      (TokenScan.bare current).push ++ scanTokens (.bare []) rest := by
  have hbackslash : c ≠ unit '\\' := ne_of_not_escapable hc (by decide)
  have hdouble : c ≠ unit '"' := ne_of_not_escapable hc (by decide)
  have hsingle : c ≠ unit '\'' := ne_of_not_escapable hc (by decide)
  simp [scanTokens, TokenScan.bare, TokenScan.clear, hbackslash, hdouble, hsingle, hblank]

theorem scanTokens_ordinary {c : UInt16} (hc : posixEscapable c = false)
    (hblank : isWhitespace c = false) (current rest : JsString) :
    scanTokens (.bare current) (c :: rest) = scanTokens (.bare (current ++ [c])) rest := by
  have hbackslash : c ≠ unit '\\' := ne_of_not_escapable hc (by decide)
  have hdouble : c ≠ unit '"' := ne_of_not_escapable hc (by decide)
  have hsingle : c ≠ unit '\'' := ne_of_not_escapable hc (by decide)
  -- Nor is it a separator: these are all escaped.
  have hand : c ≠ unit '&' := ne_of_not_escapable hc (by decide)
  have hbar : c ≠ unit '|' := ne_of_not_escapable hc (by decide)
  have hsemicolon : c ≠ unit ';' := ne_of_not_escapable hc (by decide)
  simp [scanTokens, TokenScan.bare, TokenScan.add, hbackslash, hdouble, hsingle, hblank, hand, hbar,
    hsemicolon]

theorem scanTokens_quoteUnit (c : UInt16) (current rest : JsString) :
    scanTokens (.quoted current) (quoteUnit c ++ rest) =
      scanTokens (.quoted (current ++ [c])) rest := by
  by_cases hc : c = unit '\''
  · subst hc
    -- The quote is closed, the character escaped, and a quote opened.
    have hunits : quoteUnit (unit '\'') ++ rest =
        unit '\'' :: unit '\\' :: unit '\'' :: unit '\'' :: rest := rfl
    have hescapable : posixEscapable (unit '\'') = true := by decide
    have hne : unit '\'' ≠ unit '\\' := by decide
    rw [hunits]
    simp [scanTokens, TokenScan.quoted, TokenScan.add, hescapable, hne]
  · rw [quoteUnit, if_neg hc, List.singleton_append]
    simp [scanTokens, TokenScan.quoted, TokenScan.add, hc]

/-! ### A path read back -/

/-- Between quotes everything reads back as it is. -/
theorem scanTokens_flatMap_quoteUnit (input current : JsString) :
    scanTokens (.quoted current) (input.flatMap quoteUnit ++ js "'") =
      (TokenScan.bare (current ++ input)).push := by
  induction input generalizing current with
  | nil =>
    have hne : unit '\'' ≠ unit '\\' := by decide
    have hunit : js "'" = [unit '\''] := rfl
    rw [List.append_nil, List.flatMap_nil, List.nil_append, hunit]
    simp [scanTokens, TokenScan.quoted, TokenScan.bare, hne]
  | cons c input ih =>
    rw [List.flatMap_cons, List.append_assoc, scanTokens_quoteUnit, ih, List.append_assoc,
      List.singleton_append]

/-- Escaped, a path without other blanks than those that are escaped reads back as it is. -/
theorem scanTokens_flatMap_escapeUnit {input : JsString}
    (hblank : ∀ c ∈ input, isWhitespace c = true → posixEscapable c = true) (current : JsString) :
    scanTokens (.bare current) (input.flatMap escapeUnit) =
      (TokenScan.bare (current ++ input)).push := by
  induction input generalizing current with
  | nil => simp [scanTokens]
  | cons c input ih =>
    have hrest : ∀ d ∈ input, isWhitespace d = true → posixEscapable d = true :=
      fun d hd => hblank d (List.mem_cons_of_mem _ hd)
    rw [List.flatMap_cons, escapeUnit]
    split
    · rename_i hc
      rw [List.cons_append, List.singleton_append, scanTokens_escaped hc, ih hrest,
        List.append_assoc, List.singleton_append]
    rename_i hc
    rw [Bool.not_eq_true] at hc
    have hnot : isWhitespace c = false := by
      rw [← Bool.not_eq_true]
      intro h
      rw [hblank c List.mem_cons_self h] at hc
      cases hc
    rw [List.singleton_append, scanTokens_ordinary hc hnot, ih hrest, List.append_assoc,
      List.singleton_append]

theorem flatten_push (current : JsString) : (TokenScan.bare current).push.flatten = current := by
  rw [TokenScan.push]
  split
  · rename_i hnil
    exact hnil.symm
  · exact List.append_nil _

/-- Of an escaped path, the tokens hold everything but the blanks that are not escaped. -/
theorem flatten_scanTokens_escape (input current : JsString) :
    (scanTokens (.bare current) (input.flatMap escapeUnit)).flatten =
      current ++ input.filter fun c => !isWhitespace c || posixEscapable c := by
  induction input generalizing current with
  | nil => simp [scanTokens, flatten_push]
  | cons c input ih =>
    rw [List.flatMap_cons, escapeUnit]
    split
    · rename_i hc
      rw [List.cons_append, List.singleton_append, scanTokens_escaped hc, ih,
        List.filter_cons_of_pos (by simp [hc]), List.append_assoc, List.singleton_append]
    rename_i hc
    rw [Bool.not_eq_true] at hc
    rw [List.singleton_append]
    cases hblank : isWhitespace c with
    | true =>
      rw [scanTokens_blank hc hblank, List.flatten_append, flatten_push, ih, List.nil_append,
        List.filter_cons_of_neg (by simp [hc, hblank])]
    | false =>
      rw [scanTokens_ordinary hc hblank, ih, List.filter_cons_of_pos (by simp [hblank]),
        List.append_assoc, List.singleton_append]

/-- **A pasted path reads back as itself** exactly if it is quoted, for a line break in it, or has no
blank but spaces and tabs. -/
theorem tokenizeCommand_shellEscapePosix (path : JsString) (hpath : path ≠ []) :
    tokenizeCommand (shellEscapePosix path) = [path] ↔
      (unit '\n' ∈ path ∨ unit '\r' ∈ path) ∨
        ∀ c ∈ path, isWhitespace c = true → c = unit ' ' ∨ c = unit '\t' := by
  have hpush : (TokenScan.bare path).push = [path] := if_neg hpath
  have hbreak : path.any posixNeedsQuotes = true ↔ unit '\n' ∈ path ∨ unit '\r' ∈ path := by
    simp [posixNeedsQuotes, List.any_eq_true, and_or_left, exists_or]
  rw [shellEscapePosix, if_neg hpath, tokenizeCommand]
  split
  · rename_i hquotes
    have hopen : scanTokens ⟨[], none, false, false⟩ (js "'" ++ (path.flatMap quoteUnit ++ js "'")) =
        scanTokens (.quoted []) (path.flatMap quoteUnit ++ js "'") := by
      have hne : unit '\'' ≠ unit '\\' := by decide
      have hunit : js "'" = [unit '\''] := rfl
      rw [hunit, List.singleton_append]
      simp [scanTokens, TokenScan.quoted, hne]
    rw [hopen, scanTokens_flatMap_quoteUnit, List.nil_append, hpush]
    exact iff_of_true rfl (.inl (hbreak.1 hquotes))
  · rename_i hquotes
    rw [or_iff_right (fun h => hquotes (hbreak.2 h))]
    constructor
    · intro htokens c hc hblank
      -- Nothing was lost, so no blank was left as it is.
      have hkept := flatten_scanTokens_escape path []
      rw [show scanTokens (.bare []) (path.flatMap escapeUnit) = [path] from htokens,
        List.flatten_singleton, List.nil_append] at hkept
      have hall := List.filter_eq_self.1 hkept.symm c hc
      rw [hblank, Bool.not_true, Bool.false_or] at hall
      exact (escapable_blank hblank).1 hall
    · intro hblanks
      have hread := scanTokens_flatMap_escapeUnit
        (fun c hc hblank => (escapable_blank hblank).2 (hblanks c hc hblank)) []
      rw [List.nil_append, hpush] at hread
      exact hread

theorem tokenizeCommand_shellEscapePosix_quoted :
    tokenizeCommand (shellEscapePosix (js "it's\na path")) = [js "it's\na path"] :=
  (tokenizeCommand_shellEscapePosix (js "it's\na path") (by decide)).2 (.inl (.inl (by decide)))

/-- A path with a no-break space comes back as two tokens. -/
theorem shellEscapePosix_noBreakSpace :
    ¬∀ path : JsString, path ≠ [] → tokenizeCommand (shellEscapePosix path) = [path] := by
  intro h
  exact absurd (h (js "a\u00a0b") (by decide)) (by decide)

end Dormouse.Terminal
