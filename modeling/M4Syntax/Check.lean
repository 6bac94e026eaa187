import M4Syntax.Table

/-!
# The derived flags and the quote age

`check_is_single_quotes` and `check_is_single_comments` are one function of the delimiter pair
(`checkIsSingle`). A cleared flag stays cleared. A set flag stays set when the stored bytes still
carry their roles; otherwise the table is scanned from `UCHAR_MAX` down for the bearers of the
two roles (`scanBearers`), the scan stopping at a second bearer of either, and the flag survives
only when each role has one bearer, which then becomes the stored delimiter. The check changes
nothing but the pair and its flag (`checkIsSingle_frame`), and whatever it stores is a bearer
of the role (`scanBearers_start`, `scanBearers_stop`).

`check_is_macro_escaped` recomputes its flag from a scan for the ESCAPE basis.

`set_quote_age` moves the syntax age and stores the quote age that `quoteAgeFor` computes from
the rest of the state; the reset path computes it with age zero and leaves the stored counter
alone.
-/

set_option autoImplicit false

namespace M4Syntax

open SyntaxCategory

/-! ## The single-delimiter checks -/

/-- The scan of `check_is_single_quotes`: `ch` runs from `n - 1` down, and `start` and `stop`
hold the bearers of the two roles found so far (`-1` is `none`). A second bearer of either role
ends the loop (`break`); the last component says the loop ran to its end. -/
def scanBearers (table : Byte → BitVec 16) (startCode stopCode : BitVec 16) :
    (n : Nat) → n ≤ 256 → Option Byte → Option Byte → Option Byte × Option Byte × Bool
  | 0, _, start, stop => (start, stop, true)
  | n + 1, bound, start, stop =>
      let ch : Byte := ⟨n, bound⟩
      if m4HasSyntax (table ch) startCode && start.isSome then (start, stop, false)
      else
        let start := if m4HasSyntax (table ch) startCode then some ch else start
        if m4HasSyntax (table ch) stopCode && stop.isSome then (start, stop, false)
        else
          scanBearers table startCode stopCode n (Nat.le_of_succ_le bound) start
            (if m4HasSyntax (table ch) stopCode then some ch else stop)

/-- The end of `check_is_single_quotes`: a scan that ran to its end with a bearer of each role
stores the two bearers; any other scan clears the flag. -/
def adoptBearers (d : Delim) (s : M4SyntaxTable) :
    Option Byte × Option Byte × Bool → M4SyntaxTable × Bool
  | (some start, some stop, true) =>
      (s.setPair d { s.pair d with str1 := setFirstByte (s.pair d).str1 start,
                                   str2 := setFirstByte (s.pair d).str2 stop }, true)
  | _ => (s.setSingle d false, false)

/-- `check_is_single_quotes` (`Delim.quote`) and `check_is_single_comments` (`Delim.comm`): the
state after the check and the flag it returns. The `assert` on the stored lengths is not
modelled; the invariant of reachable states shows it holds. -/
def checkIsSingle (d : Delim) (s : M4SyntaxTable) : M4SyntaxTable × Bool :=
  if !s.isSingle d then (s, false)
  else if m4HasSyntax (s.table (firstByte (s.pair d).str1)) d.start.code
      && m4HasSyntax (s.table (firstByte (s.pair d).str2)) d.stop.code then (s, true)
  else adoptBearers d s (scanBearers s.table d.start.code d.stop.code 256 (Nat.le_refl 256) none none)

/-- `check_is_single_quotes`. -/
def checkIsSingleQuotes (s : M4SyntaxTable) : M4SyntaxTable × Bool := checkIsSingle .quote s

/-- `check_is_single_comments`. -/
def checkIsSingleComments (s : M4SyntaxTable) : M4SyntaxTable × Bool := checkIsSingle .comm s

section Scan

variable (table : Byte → BitVec 16) (startCode stopCode : BitVec 16)

theorem scanBearers_start :
    ∀ (n : Nat) (bound : n ≤ 256) (start stop : Option Byte) (b : Byte),
      (scanBearers table startCode stopCode n bound start stop).1 = some b →
        start = some b ∨ m4HasSyntax (table b) startCode = true
  | 0, _, _, _, _, found => .inl found
  | n + 1, bound, start, stop, b, found => by
      simp only [scanBearers] at found
      split at found
      · exact .inl found
      · split at found
        · split at found
          · exact .inr (by cases found; assumption)
          · exact .inl found
        · rcases scanBearers_start n _ _ _ b found with earlier | bearer
          · split at earlier
            · exact .inr (by cases earlier; assumption)
            · exact .inl earlier
          · exact .inr bearer

theorem scanBearers_stop :
    ∀ (n : Nat) (bound : n ≤ 256) (start stop : Option Byte) (b : Byte),
      (scanBearers table startCode stopCode n bound start stop).2.1 = some b →
        stop = some b ∨ m4HasSyntax (table b) stopCode = true
  | 0, _, _, _, _, found => .inl found
  | n + 1, bound, start, stop, b, found => by
      simp only [scanBearers] at found
      split at found
      · exact .inl found
      · split at found
        · exact .inl found
        · rcases scanBearers_stop n _ _ _ b found with earlier | bearer
          · split at earlier
            · exact .inr (by cases earlier; assumption)
            · exact .inl earlier
          · exact .inr bearer

end Scan

/-- The check changes only its own pair and flag. -/
theorem checkIsSingle_frame (d : Delim) (s : M4SyntaxTable) :
    ∃ p b, (checkIsSingle d s).1 = (s.setPair d p).setSingle d b := by
  have same : ∀ p, (s.setPair d p).setSingle d (s.isSingle d) = s.setPair d p := by
    cases d <;> intro p <;> rfl
  unfold checkIsSingle
  split
  · exact ⟨s.pair d, s.isSingle d, by rw [same]; cases d <;> rfl⟩
  split
  · exact ⟨s.pair d, s.isSingle d, by rw [same]; cases d <;> rfl⟩
  unfold adoptBearers
  split
  · exact ⟨_, s.isSingle d, (same _).symm⟩
  · exact ⟨s.pair d, false, by cases d <;> rfl⟩

/-- A set flag after the check was set before it, and the stored bytes are then the old ones or
bearers of the two roles. -/
theorem checkIsSingle_stores (d : Delim) (s : M4SyntaxTable) :
    ((checkIsSingle d s).1.isSingle d = true → s.isSingle d = true) ∧
    ((checkIsSingle d s).1.pair d = s.pair d ∨
      ∃ start stop, m4HasSyntax (s.table start) d.start.code = true ∧
        m4HasSyntax (s.table stop) d.stop.code = true ∧
        (checkIsSingle d s).1.pair d = { s.pair d with
          str1 := setFirstByte (s.pair d).str1 start,
          str2 := setFirstByte (s.pair d).str2 stop }) := by
  unfold checkIsSingle
  split
  · exact ⟨id, .inl rfl⟩
  rename_i set
  simp only [Bool.not_eq_true', Bool.not_eq_false] at set
  split
  · exact ⟨fun _ => set, .inl rfl⟩
  unfold adoptBearers
  split
  · rename_i start stop found
    refine ⟨fun _ => set, .inr ⟨start, stop, ?_, ?_, by simp⟩⟩
    · simpa using scanBearers_start s.table _ _ 256 (Nat.le_refl 256) none none start
        (by rw [found])
    · simpa using scanBearers_stop s.table _ _ 256 (Nat.le_refl 256) none none stop
        (by rw [found])
  · exact ⟨fun _ => set, .inl (by simp)⟩

/-! ## The escape check -/

/-- The scan of `check_is_macro_escaped`: a byte below `n` with the ESCAPE basis. -/
def anyEscape (table : Byte → BitVec 16) : (n : Nat) → n ≤ 256 → Bool
  | 0, _ => false
  | n + 1, bound =>
      if m4HasSyntax (table ⟨n, bound⟩) escape.code then true
      else anyEscape table n (Nat.le_of_succ_le bound)

/-- `check_is_macro_escaped`: the state after the check and the flag it returns. -/
def checkIsMacroEscaped (s : M4SyntaxTable) : M4SyntaxTable × Bool :=
  let flag := anyEscape s.table 256 (Nat.le_refl 256)
  ({ s with isMacroEscaped := flag }, flag)

theorem anyEscape_iff (table : Byte → BitVec 16) :
    ∀ (n : Nat) (bound : n ≤ 256),
      anyEscape table n bound = true ↔
        ∃ ch : Byte, ch.val < n ∧ m4HasSyntax (table ch) escape.code = true
  | 0, _ => by simp [anyEscape]
  | n + 1, bound => by
      rw [anyEscape]
      split
      · exact ⟨fun _ => ⟨⟨n, bound⟩, Nat.lt_succ_self n, ‹_›⟩, fun _ => rfl⟩
      · rename_i none
        rw [anyEscape_iff table n]
        constructor
        · rintro ⟨ch, below, escaped⟩
          exact ⟨ch, Nat.lt_succ_of_lt below, escaped⟩
        · rintro ⟨ch, below, escaped⟩
          have : ch.val ≠ n := fun same =>
            none (by rwa [show (⟨n, bound⟩ : Byte) = ch from Fin.ext same.symm])
          exact ⟨ch, by omega, escaped⟩

/-- `check_is_macro_escaped` sets its flag exactly when some byte has the ESCAPE basis bit. -/
theorem checkIsMacroEscaped_flag (s : M4SyntaxTable) :
    (checkIsMacroEscaped s).1.isMacroEscaped = true ↔
      ∃ ch, m4HasSyntax (s.table ch) escape.code = true := by
  simp only [checkIsMacroEscaped, anyEscape_iff]
  exact ⟨fun ⟨ch, _, escaped⟩ => ⟨ch, escaped⟩,
    fun ⟨ch, escaped⟩ => ⟨ch, ch.isLt, escaped⟩⟩

/-- `if (syntax->is_macro_escaped) check_is_macro_escaped (syntax);` -/
def recheckMacroEscaped (s : M4SyntaxTable) : M4SyntaxTable :=
  if s.isMacroEscaped then (checkIsMacroEscaped s).1 else s

/-! ## The quote age -/

/-- The categories that make a quote byte unsafe for the quote age. -/
def quoteUnsafeCodes : BitVec 16 :=
  alpha.code ||| num.code ||| «open».code ||| comma.code ||| close.code ||| space.code

/-- The categories that make a begin-comment byte unsafe for the quote age. -/
def commentUnsafeCodes : BitVec 16 := «open».code ||| comma.code ||| close.code

/-- The safety test of `set_quote_age`, for the syntax age `localAge`. -/
def quoteAgeSafe (s : M4SyntaxTable) (localAge : Nat) : Bool :=
  let lq := firstByte s.quote.str1
  let rq := firstByte s.quote.str2
  let bc := firstByte s.comm.str1
  localAge < 0xffff && s.isSingleQuotes
    && !m4HasSyntax (s.table lq) quoteUnsafeCodes
    && !m4HasSyntax (s.table rq) quoteUnsafeCodes
    && lq != rq
    && (s.comm.len1 == 0 || (bc != rq && !m4HasSyntax (s.table bc) commentUnsafeCodes))
    && m4HasSyntax (s.table 44) comma.code

/-- The quote age `set_quote_age` stores for the syntax age `localAge`: the age and the two
quote bytes packed into one word when the state is safe, zero otherwise. -/
def quoteAgeFor (s : M4SyntaxTable) (localAge : Nat) : Nat :=
  if quoteAgeSafe s localAge then
    (localAge <<< 16) ||| (((firstByte s.quote.str1).val &&& 0xff) <<< 8)
      ||| ((firstByte s.quote.str2).val &&& 0xff)
  else 0

/-- The syntax age `set_quote_age` stores: a change that is not a reset moves it up, saturating
at `0xffff`. -/
def nextSyntaxAge (age : Nat) (reset change : Bool) : Nat :=
  if !reset && change && age < 0xffff then age + 1 else age

/-- `local_syntax_age`: zero for a reset, the stored syntax age otherwise. -/
def localSyntaxAge (age : Nat) (reset change : Bool) : Nat :=
  if reset then 0 else nextSyntaxAge age reset change

/-- `set_quote_age`. With `reset` the quote age is computed for age zero and the stored counter
is left alone; with `change` the counter moves up, saturating at `0xffff`. -/
def setQuoteAge (s : M4SyntaxTable) (reset change : Bool) : M4SyntaxTable :=
  { s with syntaxAge := nextSyntaxAge s.syntaxAge reset change,
           quoteAge := quoteAgeFor s (localSyntaxAge s.syntaxAge reset change) }

/-! ## What the checks leave alone -/

section Frames

variable (d e : Delim) (s : M4SyntaxTable) (reset change : Bool)

@[simp] theorem table_checkIsSingle : (checkIsSingle d s).1.table = s.table := by
  obtain ⟨p, b, same⟩ := checkIsSingle_frame d s
  simp [same]

@[simp] theorem orig_checkIsSingle : (checkIsSingle d s).1.orig = s.orig := by
  obtain ⟨p, b, same⟩ := checkIsSingle_frame d s
  simp [same]

@[simp] theorem isMacroEscaped_checkIsSingle :
    (checkIsSingle d s).1.isMacroEscaped = s.isMacroEscaped := by
  obtain ⟨p, b, same⟩ := checkIsSingle_frame d s
  simp [same]

theorem pair_checkIsSingle_of_ne (other : e ≠ d) : (checkIsSingle d s).1.pair e = s.pair e := by
  obtain ⟨p, b, same⟩ := checkIsSingle_frame d s
  simp [same, other]

theorem isSingle_checkIsSingle_of_ne (other : e ≠ d) :
    (checkIsSingle d s).1.isSingle e = s.isSingle e := by
  obtain ⟨p, b, same⟩ := checkIsSingle_frame d s
  simp [same, other]

@[simp] theorem table_checkIsMacroEscaped : (checkIsMacroEscaped s).1.table = s.table := rfl
@[simp] theorem orig_checkIsMacroEscaped : (checkIsMacroEscaped s).1.orig = s.orig := rfl
@[simp] theorem pair_checkIsMacroEscaped : (checkIsMacroEscaped s).1.pair d = s.pair d := by
  cases d <;> rfl
@[simp] theorem isSingle_checkIsMacroEscaped :
    (checkIsMacroEscaped s).1.isSingle d = s.isSingle d := by cases d <;> rfl

@[simp] theorem table_recheckMacroEscaped : (recheckMacroEscaped s).table = s.table := by
  unfold recheckMacroEscaped; split <;> rfl
@[simp] theorem orig_recheckMacroEscaped : (recheckMacroEscaped s).orig = s.orig := by
  unfold recheckMacroEscaped; split <;> rfl
@[simp] theorem pair_recheckMacroEscaped : (recheckMacroEscaped s).pair d = s.pair d := by
  unfold recheckMacroEscaped; split <;> simp
@[simp] theorem isSingle_recheckMacroEscaped :
    (recheckMacroEscaped s).isSingle d = s.isSingle d := by
  unfold recheckMacroEscaped; split <;> simp

@[simp] theorem table_setQuoteAge : (setQuoteAge s reset change).table = s.table := rfl
@[simp] theorem orig_setQuoteAge : (setQuoteAge s reset change).orig = s.orig := rfl
@[simp] theorem pair_setQuoteAge : (setQuoteAge s reset change).pair d = s.pair d := by
  cases d <;> rfl
@[simp] theorem isSingle_setQuoteAge : (setQuoteAge s reset change).isSingle d = s.isSingle d := by
  cases d <;> rfl
@[simp] theorem isMacroEscaped_setQuoteAge :
    (setQuoteAge s reset change).isMacroEscaped = s.isMacroEscaped := rfl

/-- The packed quote age reads none of the ages it is stored beside. -/
@[simp] theorem quoteAgeFor_setQuoteAge (l : Nat) :
    quoteAgeFor (setQuoteAge s reset change) l = quoteAgeFor s l := rfl

end Frames

/-- The quote age reads only the table, the two pairs and the single-quotes flag. -/
theorem quoteAgeFor_congr {s t : M4SyntaxTable} (table : s.table = t.table)
    (quote : s.quote = t.quote) (comm : s.comm = t.comm)
    (single : s.isSingleQuotes = t.isSingleQuotes) (l : Nat) :
    quoteAgeFor s l = quoteAgeFor t l := by
  simp only [quoteAgeFor, quoteAgeSafe, table, quote, comm, single]

end M4Syntax
