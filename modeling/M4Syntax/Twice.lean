import M4Syntax.Reset

/-!
# The same change twice

`changesyntax` is meant to set a category, not to toggle it: making the same call a second time
leaves the table, the delimiters and the three flags as the first call left them, and only the
ages move again (`m4SetSyntax_twice`). This holds of every state, reachable or not.

The proof goes up the layers of the code. Each entry write is idempotent, also the composite
write of `=` (`addSyntaxAttribute_twice`, `resetEntry_twice`,
`addSyntaxAttribute_subtractEntry_add`); so each table loop is (`forEachChar_twice`,
`setTable_twice`, `resetTable_twice`). Each check is idempotent on the table it leaves, and the
two single checks commute (`checkIsSingle_twice`, `checkIsSingle_comm`), so the three checks of
`=` and of the reset are idempotent together (`checkAll_twice`). Each verb is then idempotent on
the whole state (`SyntaxAction.run_twice`), and `set_quote_age` with the cache drop touch only the
bookkeeping.
-/

set_option autoImplicit false

namespace M4Syntax

open SyntaxCategory M4SyntaxTable

/-! ## Entries -/

section Entries

variable (x y : BitVec 16) (c : SyntaxCategory)

/-- `add_syntax_attribute` twice with one code is once, whatever the code. -/
theorem addSyntaxAttribute_twice :
    addSyntaxAttribute (addSyntaxAttribute x y) y = addSyntaxAttribute x y := by
  unfold addSyntaxAttribute
  by_cases mask : (y &&& syntaxMasks != 0) = true
  · rw [if_pos mask, if_pos mask, BitVec.or_assoc, BitVec.or_self]
  · rw [if_neg mask, if_neg mask]
    have disjoint : y &&& syntaxMasks = 0 := by simpa using mask
    ext i
    have bit := getLsbD_of_and_eq_zero disjoint i
    simp only [BitVec.getLsbD_and, BitVec.getLsbD_or]
    revert bit
    cases x.getLsbD i <;> cases y.getLsbD i <;> cases syntaxMasks.getLsbD i <;> simp

theorem removeSyntaxAttribute_twice :
    removeSyntaxAttribute (removeSyntaxAttribute x y) y = removeSyntaxAttribute x y := by
  rw [removeSyntaxAttribute, removeSyntaxAttribute, BitVec.and_assoc, BitVec.and_self]

/-- The write of `=` for a byte of the string, done over its own result, changes nothing: the
sweep takes back what the write gave, and the write gives it again. -/
theorem addSyntaxAttribute_subtractEntry_add :
    addSyntaxAttribute (subtractEntry c.code (addSyntaxAttribute y c.code)) c.code =
      addSyntaxAttribute y c.code := by
  cases mask : c.isMask
  · have basis : (c.code &&& syntaxMasks != 0) = false := by simp [(code_and_masks c).2 mask]
    simp only [subtractEntry, basis, Bool.false_eq_true, if_false]
    split
    · simp only [addSyntaxAttribute_basis _ mask,
        addSyntaxAttribute_basis _ (rfl : other.isMask = false),
        maskBits_maskBits_or ((code_and_masks c).2 mask),
        maskBits_maskBits_or ((code_and_masks other).2 rfl)]
    · exact addSyntaxAttribute_twice _ _
  · have nonzero : (c.code &&& syntaxMasks != 0) = true := by simpa using code_and_masks_ne mask
    rw [subtractEntry, if_pos nonzero, removeSyntaxAttribute, addSyntaxAttribute_mask _ mask,
      addSyntaxAttribute_mask _ mask, and_not_or_self, BitVec.or_assoc, BitVec.or_self]

/-- The reset sweep on one byte is idempotent. -/
theorem resetEntry_twice (orig : Byte → BitVec 16) (code : BitVec 16) (ch : Byte) :
    resetEntry orig code ch (resetEntry orig code ch x) = resetEntry orig code ch x := by
  unfold resetEntry
  by_cases right : (code == rquote.code) = true
  · by_cases apostrophe : ch = 39 <;>
      simp only [right, apostrophe, if_true, if_false, addSyntaxAttribute_twice,
        removeSyntaxAttribute_twice]
  by_cases stop : (code == ecomm.code) = true
  · by_cases newline : ch = 10 <;>
      simp only [right, stop, newline, Bool.false_eq_true, if_true, if_false,
        addSyntaxAttribute_twice, removeSyntaxAttribute_twice]
  simp only [right, stop, Bool.false_eq_true, if_false]
  by_cases resets : (orig ch == code || m4HasSyntax x code) = true
  · rw [if_pos resets]
    split
    · exact addSyntaxAttribute_twice _ _
    · rfl
  · rw [if_neg resets, if_neg resets]

end Entries

/-! ## Table loops -/

section Loops

variable (chars : List Byte) (c : SyntaxCategory) (table : Byte → BitVec 16)

theorem forEachChar_twice {body : BitVec 16 → BitVec 16}
    (idempotent : ∀ entry, body (body entry) = body entry) :
    forEachChar chars body (forEachChar chars body table) = forEachChar chars body table := by
  funext b
  rw [forEachChar_apply idempotent, forEachChar_apply idempotent]
  by_cases member : b ∈ cstr chars <;> simp [member, idempotent]

/-- The sweep and the loop of `=` twice are once. -/
theorem setTable_twice :
    forEachChar chars (addSyntaxAttribute · c.code)
        (sweepTable (fun _ => setSweepEntry c.code)
          (forEachChar chars (addSyntaxAttribute · c.code)
            (sweepTable (fun _ => setSweepEntry c.code) table))) =
      forEachChar chars (addSyntaxAttribute · c.code)
        (sweepTable (fun _ => setSweepEntry c.code) table) := by
  funext b
  simp only [@forEachChar_apply (addSyntaxAttribute · c.code) (addSyntaxAttribute_idem · c),
    sweepTable_apply, setSweepEntry_eq_subtractEntry]
  by_cases member : b ∈ cstr chars
  · simp only [member, if_true, addSyntaxAttribute_subtractEntry_add]
  · simp only [member, if_false, subtractEntry_idem]

theorem resetTable_twice (orig : Byte → BitVec 16) (code : BitVec 16) :
    sweepTable (resetEntry orig code) (sweepTable (resetEntry orig code) table) =
      sweepTable (resetEntry orig code) table := by
  funext b
  simp only [sweepTable_apply, resetEntry_twice]

end Loops

/-! ## Checks -/

section Checks

variable (s : M4SyntaxTable) {d e : Delim}

theorem checkIsMacroEscaped_twice :
    (checkIsMacroEscaped (checkIsMacroEscaped s).1).1 = (checkIsMacroEscaped s).1 := rfl

/-- A flag computed from the table as it is needs no new check. -/
theorem checkIsMacroEscaped_of_computed
    (computed : s.isMacroEscaped = anyEscape s.table 256 (Nat.le_refl 256)) :
    (checkIsMacroEscaped s).1 = s := by
  rw [checkIsMacroEscaped]
  dsimp only
  rw [← computed]

theorem recheckMacroEscaped_twice :
    recheckMacroEscaped (recheckMacroEscaped s) = recheckMacroEscaped s := by
  unfold recheckMacroEscaped
  by_cases flag : s.isMacroEscaped = true
  · rw [if_pos flag]
    split
    · exact checkIsMacroEscaped_twice s
    · rfl
  · rw [if_neg flag, if_neg flag]

/-- A check finds nothing to do under a clear flag. -/
theorem checkIsSingle_of_clear (clear : s.isSingle d = false) : checkIsSingle d s = (s, false) := by
  rw [checkIsSingle, if_pos (by simp [clear])]

theorem setSingle_isSingle : s.setSingle d (s.isSingle d) = s := by
  cases d <;> rfl

theorem setPair_setPair (p q : M4StringPair) : (s.setPair d p).setPair d q = s.setPair d q := by
  cases d <;> rfl

theorem setPair_comm (other : e ≠ d) (p q : M4StringPair) :
    (s.setPair e p).setPair d q = (s.setPair d q).setPair e p := by
  cases d <;> cases e <;> first | rfl | exact absurd rfl other

theorem setSingle_comm (other : e ≠ d) (a b : Bool) :
    (s.setSingle e a).setSingle d b = (s.setSingle d b).setSingle e a := by
  cases d <;> cases e <;> first | rfl | exact absurd rfl other

theorem setSingle_setPair (p : M4StringPair) (a : Bool) :
    (s.setPair d p).setSingle e a = (s.setSingle e a).setPair d p := by
  cases d <;> cases e <;> rfl

/-- Bearers the check adopted are adopted again as they are. -/
theorem adoptBearers_adopted (start stop : Byte) :
    (adoptBearers d (s.setPair d { s.pair d with str1 := setFirstByte (s.pair d).str1 start,
                                                 str2 := setFirstByte (s.pair d).str2 stop })
        (some start, some stop, true)).1 =
      s.setPair d { s.pair d with str1 := setFirstByte (s.pair d).str1 start,
                                  str2 := setFirstByte (s.pair d).str2 stop } := by
  simp only [adoptBearers, pair_setPair, if_true, setPair_setPair, setFirstByte, List.set_set]

/-- A check run twice is run once. -/
theorem checkIsSingle_twice :
    (checkIsSingle d (checkIsSingle d s).1).1 = (checkIsSingle d s).1 := by
  cases set : s.isSingle d
  · rw [checkIsSingle_of_clear s set, checkIsSingle_of_clear s set]
  by_cases carry : (m4HasSyntax (s.table (firstByte (s.pair d).str1)) d.start.code &&
      m4HasSyntax (s.table (firstByte (s.pair d).str2)) d.stop.code) = true
  · have first : checkIsSingle d s = (s, true) := by
      rw [checkIsSingle, if_neg (by simp [set]), if_pos carry]
    rw [first, first]
  have first : checkIsSingle d s = adoptBearers d s
      (scanBearers s.table d.start.code d.stop.code 256 (Nat.le_refl 256) none none) := by
    rw [checkIsSingle, if_neg (by simp [set]), if_neg carry]
  rw [first]
  unfold adoptBearers
  split
  · rename_i start stop found
    rw [checkIsSingle, isSingle_setPair, pair_setPair, if_pos rfl, if_neg (by simp [set]),
      M4SyntaxTable.table_setPair, found]
    split
    · rfl
    · exact adoptBearers_adopted s start stop
  · rw [checkIsSingle_of_clear _ (by simp)]

/-- A check reads nothing of the other pair and flag, and writes nothing of them. -/
theorem checkIsSingle_setPair_setSingle (other : e ≠ d) (p : M4StringPair) (b : Bool) :
    (checkIsSingle d ((s.setPair e p).setSingle e b)).1 =
      ((checkIsSingle d s).1.setPair e p).setSingle e b := by
  have reads : ((s.setPair e p).setSingle e b).isSingle d = s.isSingle d ∧
      ((s.setPair e p).setSingle e b).pair d = s.pair d := by
    simp [Ne.symm other]
  unfold checkIsSingle
  rw [reads.1, reads.2, table_setSingle, table_setPair]
  split
  · rfl
  split
  · rfl
  unfold adoptBearers
  split <;> cases d <;> cases e <;> first | rfl | exact absurd rfl other

/-- The quote check and the comment check commute. -/
theorem checkIsSingle_comm :
    (checkIsSingle .quote (checkIsSingle .comm s).1).1 =
      (checkIsSingle .comm (checkIsSingle .quote s).1).1 := by
  obtain ⟨p, b, comm⟩ := checkIsSingle_frame .comm s
  obtain ⟨p', b', quote⟩ := checkIsSingle_frame .quote s
  rw [comm, checkIsSingle_setPair_setSingle _ (by decide), quote,
    checkIsSingle_setPair_setSingle _ (by decide), comm]
  rfl

/-- The three checks `=` and the reset end with. -/
def checkAll (s : M4SyntaxTable) : M4SyntaxTable :=
  (checkIsSingleComments (checkIsSingleQuotes (checkIsMacroEscaped s).1).1).1

theorem table_checkAll : (checkAll s).table = s.table := by
  simp [checkAll]

theorem checkAll_twice : checkAll (checkAll s) = checkAll s := by
  have escaped : (checkIsMacroEscaped (checkAll s)).1 = checkAll s :=
    checkIsMacroEscaped_of_computed _ (by
      simp only [checkAll, checkIsSingleQuotes, checkIsSingleComments,
        isMacroEscaped_checkIsSingle, table_checkIsSingle]
      rfl)
  unfold checkAll at escaped ⊢
  rw [escaped]
  simp only [checkIsSingleQuotes, checkIsSingleComments]
  rw [checkIsSingle_comm, checkIsSingle_twice, checkIsSingle_twice]

end Checks

/-! ## Verbs -/

section Verbs

variable (s : M4SyntaxTable) (chars : List Byte) (c : SyntaxCategory)

theorem setTable_of_eq {t : M4SyntaxTable} {T : Byte → BitVec 16} (same : t.table = T) :
    t.setTable T = t := by
  subst same
  rfl

theorem addSyntaxSet_twice :
    addSyntaxSet (addSyntaxSet s chars c.code) chars c.code = addSyntaxSet s chars c.code := by
  have twice := @forEachChar_twice chars s.table (addSyntaxAttribute · c.code)
    (addSyntaxAttribute_idem · c)
  unfold addSyntaxSet
  by_cases empty : firstByte chars = 0
  · simp only [if_pos empty]
  rw [if_neg empty, if_neg empty]
  dsimp only
  split_ifs <;> simp only [M4SyntaxTable.setTable, twice]

/-- The switch that ends `subtract_syntax_set`: the one check the subtracted code calls for,
each only under its flag. -/
def subtractCheck (code : BitVec 16) (s : M4SyntaxTable) : M4SyntaxTable :=
  if code = escape.code then
    if s.isMacroEscaped then (checkIsMacroEscaped s).1 else s
  else if code = lquote.code || code = rquote.code then
    if s.isSingleQuotes then (checkIsSingleQuotes s).1 else s
  else if code = bcomm.code || code = ecomm.code then
    if s.isSingleComments then (checkIsSingleComments s).1 else s
  else s

theorem subtractSyntaxSet_eq (code : BitVec 16) :
    subtractSyntaxSet s chars code =
      if firstByte chars = 0 then s
      else subtractCheck code (s.setTable (forEachChar chars (subtractEntry code) s.table)) :=
  rfl

theorem table_subtractCheck (code : BitVec 16) : (subtractCheck code s).table = s.table := by
  simp only [subtractCheck, apply_ite M4SyntaxTable.table, table_checkIsMacroEscaped,
    table_checkIsSingleQuotes, table_checkIsSingleComments, ite_self]

/-- A single check under its flag is the check itself, which does nothing under a clear flag. -/
theorem checkIsSingle_under_flag (d : Delim) :
    (if s.isSingle d then (checkIsSingle d s).1 else s) = (checkIsSingle d s).1 := by
  cases set : s.isSingle d
  · rw [checkIsSingle_of_clear s set]
    rfl
  · rfl

theorem subtractCheck_twice (code : BitVec 16) :
    subtractCheck code (subtractCheck code s) = subtractCheck code s := by
  have quotes : ∀ t : M4SyntaxTable,
      (if t.isSingleQuotes then (checkIsSingleQuotes t).1 else t) = (checkIsSingleQuotes t).1 :=
    fun t => checkIsSingle_under_flag t .quote
  have comments : ∀ t : M4SyntaxTable,
      (if t.isSingleComments then (checkIsSingleComments t).1 else t) =
        (checkIsSingleComments t).1 :=
    fun t => checkIsSingle_under_flag t .comm
  unfold subtractCheck
  by_cases escaped : code = escape.code
  · simp only [if_pos escaped]
    exact recheckMacroEscaped_twice s
  by_cases quoted : (code = lquote.code || code = rquote.code) = true
  · simp only [if_neg escaped, if_pos quoted, quotes]
    exact checkIsSingle_twice s
  by_cases commented : (code = bcomm.code || code = ecomm.code) = true
  · simp only [if_neg escaped, if_neg quoted, if_pos commented, comments]
    exact checkIsSingle_twice s
  · simp only [if_neg escaped, if_neg quoted, if_neg commented]

theorem subtractCheck_setTable_table (code : BitVec 16) (T : Byte → BitVec 16) :
    (subtractCheck code (s.setTable T)).setTable T = subtractCheck code (s.setTable T) :=
  setTable_of_eq (by rw [table_subtractCheck, table_setTable])

theorem subtractSyntaxSet_twice :
    subtractSyntaxSet (subtractSyntaxSet s chars c.code) chars c.code =
      subtractSyntaxSet s chars c.code := by
  rw [subtractSyntaxSet_eq s]
  by_cases empty : firstByte chars = 0
  · rw [if_pos empty, subtractSyntaxSet_eq, if_pos empty]
  rw [if_neg empty, subtractSyntaxSet_eq, if_neg empty, table_subtractCheck, table_setTable,
    @forEachChar_twice chars s.table (subtractEntry c.code) (subtractEntry_idem · c),
    subtractCheck_setTable_table, subtractCheck_twice]

theorem checkAll_setTable_table (T : Byte → BitVec 16) :
    (checkAll (s.setTable T)).setTable T = checkAll (s.setTable T) :=
  setTable_of_eq (by rw [table_checkAll, table_setTable])

theorem orig_checkAll : (checkAll s).orig = s.orig := by
  simp [checkAll, checkIsSingleQuotes, checkIsSingleComments]

theorem setSyntaxSet_eq (code : BitVec 16) :
    setSyntaxSet s chars code = checkAll (s.setTable (forEachChar chars (addSyntaxAttribute · code)
      (sweepTable (fun _ => setSweepEntry code) s.table))) :=
  rfl

theorem setSyntaxSet_twice :
    setSyntaxSet (setSyntaxSet s chars c.code) chars c.code = setSyntaxSet s chars c.code := by
  rw [setSyntaxSet_eq s, setSyntaxSet_eq, table_checkAll, table_setTable, setTable_twice,
    checkAll_setTable_table, checkAll_twice]

theorem resetSyntaxSet_eq (code : BitVec 16) :
    resetSyntaxSet s code = checkAll (s.setTable (sweepTable (resetEntry s.orig code) s.table)) :=
  rfl

theorem resetSyntaxSet_twice (code : BitVec 16) :
    resetSyntaxSet (resetSyntaxSet s code) code = resetSyntaxSet s code := by
  rw [resetSyntaxSet_eq s, resetSyntaxSet_eq, table_checkAll, table_setTable, orig_checkAll,
    orig_setTable, resetTable_twice, checkAll_setTable_table, checkAll_twice]

/-- Each verb done twice is done once, on the whole state. -/
theorem SyntaxAction.run_twice (action : SyntaxAction) :
    action.run (action.run s chars c.code) chars c.code = action.run s chars c.code := by
  cases action
  · exact addSyntaxSet_twice s chars c
  · exact subtractSyntaxSet_twice s chars c
  · exact setSyntaxSet_twice s chars c
  · exact resetSyntaxSet_twice s c.code

end Verbs

/-! ## The call -/

/-- `set_quote_age` for a change and the cache drop touch only the bookkeeping. -/
theorem m4QuoteUncache_setQuoteAge (u : M4SyntaxTable) :
    m4QuoteUncache (setQuoteAge u false true) =
      u.withBookkeeping ⟨nextSyntaxAge u.syntaxAge false true,
        quoteAgeFor u (localSyntaxAge u.syntaxAge false true), none, u.cachedLquote,
        u.cachedRquote⟩ :=
  rfl

/-- For every state, making the same `m4_set_syntax` call twice leaves the table, the
delimiters and the three flags as making it once; only the ages and the quote cache may
differ. -/
theorem m4SetSyntax_twice (s : M4SyntaxTable) (key : Byte) (action : SyntaxAction)
    (chars : List Byte) :
    ∃ k : Bookkeeping, (m4SetSyntax (m4SetSyntax s key action chars).1 key action chars).1 =
      (m4SetSyntax s key action chars).1.withBookkeeping k := by
  by_cases nul : key = 0
  · have reset : ∀ t, (m4SetSyntax t key action chars).1 = restoreDefaultSyntax t :=
      fun t => by rw [m4SetSyntax, if_pos nul]
    rw [reset, reset]
    exact ⟨_, restoreDefaultSyntax_of_orig _ rfl⟩
  cases known : m4SyntaxCode key with
  | none =>
      have same : ∀ t, (m4SetSyntax t key action chars).1 = t :=
        fun t => by simp [m4SetSyntax, nul, known]
      rw [same, same]
      exact ⟨s.bookkeeping, (withBookkeeping_bookkeeping s).symm⟩
  | some c =>
      rw [m4SetSyntax_of_known s chars c known, m4SetSyntax_of_known _ chars c known]
      dsimp only
      rw [m4QuoteUncache_setQuoteAge (action.run s chars c.code), run_withBookkeeping,
        SyntaxAction.run_twice]
      exact ⟨_, m4QuoteUncache_setQuoteAge _⟩

end M4Syntax
