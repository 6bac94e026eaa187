import M4Syntax.Check

/-!
# The changesyntax verbs

`m4_set_syntax` takes a key naming a category, an action (`+`, `-`, `=` or NUL) and a string of
bytes. The key NUL restores the default syntax (`restoreDefaultSyntax`); any other key that
`m4_syntax_code` knows runs one of `add_syntax_set`, `subtract_syntax_set`, `set_syntax_set` or
`reset_syntax_set`, moves the syntax age and drops the cached quote copy. `m4_syntax_create`
fills the default table and then runs the NUL key on a zeroed record.

The byte loop of the string verbs (`forEachChar`) visits the bytes of the C string in order. The
writes it makes are idempotent, so each entry ends as one write of its old value when its byte
is in the string and as it was otherwise (`forEachChar_apply`).
-/

set_option autoImplicit false

namespace M4Syntax

open SyntaxCategory

/-- `while ((ch = to_uchar (*chars++))) table[ch] = body (table[ch])`. -/
def forEachChar (chars : List Byte) (body : BitVec 16 → BitVec 16) (table : Byte → BitVec 16) :
    Byte → BitVec 16 :=
  (cstr chars).foldl (fun table ch => writeEntry table ch body) table

theorem forEachChar_apply {body : BitVec 16 → BitVec 16}
    (idempotent : ∀ entry, body (body entry) = body entry) (chars : List Byte)
    (table : Byte → BitVec 16) (b : Byte) :
    forEachChar chars body table b = if b ∈ cstr chars then body (table b) else table b := by
  unfold forEachChar
  induction cstr chars generalizing table with
  | nil => simp
  | cons ch rest ih =>
      rw [List.foldl_cons, ih, writeEntry_apply]
      by_cases here : b = ch <;> by_cases later : b ∈ rest <;> simp [here, later, idempotent]

theorem forEachChar_of_not_mem (body : BitVec 16 → BitVec 16) (chars : List Byte)
    (table : Byte → BitVec 16) {b : Byte} (absent : b ∉ cstr chars) :
    forEachChar chars body table b = table b := by
  unfold forEachChar
  generalize cstr chars = bytes at absent ⊢
  induction bytes generalizing table with
  | nil => rfl
  | cons ch rest ih =>
      simp only [List.mem_cons, not_or] at absent
      rw [List.foldl_cons, ih _ absent.2, writeEntry_apply, if_neg absent.1]

/-- A property of entries that every write keeps holds of every entry after the loop. -/
theorem forEachChar_keeps (P : BitVec 16 → Prop) {body : BitVec 16 → BitVec 16}
    (keeps : ∀ entry, P entry → P (body entry)) (chars : List Byte) {table : Byte → BitVec 16}
    (holds : ∀ b, P (table b)) (b : Byte) : P (forEachChar chars body table b) := by
  unfold forEachChar
  induction cstr chars generalizing table with
  | nil => exact holds b
  | cons ch rest ih =>
      refine ih fun b' => ?_
      dsimp only
      rw [writeEntry_apply]
      split
      · exact keeps _ (holds b')
      · exact holds b'

/-! ## The four verbs -/

/-- The body of `subtract_syntax_set` for one byte: clear a mask, or turn a holder of the
basis `code` into OTHER. -/
def subtractEntry (code entry : BitVec 16) : BitVec 16 :=
  if (code &&& syntaxMasks) != 0 then removeSyntaxAttribute entry code
  else if m4HasSyntax entry code then addSyntaxAttribute entry other.code
  else entry

/-- The sweep of `set_syntax_set` for one byte: clear the mask `code`, or turn a holder of the
basis `code` into OTHER. -/
def setSweepEntry (code entry : BitVec 16) : BitVec 16 :=
  if code == rquote.code || code == ecomm.code then removeSyntaxAttribute entry code
  else if m4HasSyntax entry code then addSyntaxAttribute entry other.code
  else entry

/-- The sweep of `reset_syntax_set` for one byte: RQUOTE back on the apostrophe only, ECOMM
back on newline only, and a byte whose default or current basis is `code` back to its
default. -/
def resetEntry (orig : Byte → BitVec 16) (code : BitVec 16) (ch : Byte) (entry : BitVec 16) :
    BitVec 16 :=
  if code == rquote.code then
    if ch = 39 then addSyntaxAttribute entry code else removeSyntaxAttribute entry code
  else if code == ecomm.code then
    if ch = 10 then addSyntaxAttribute entry code else removeSyntaxAttribute entry code
  else if orig ch == code || m4HasSyntax entry code then addSyntaxAttribute entry (orig ch)
  else entry

/-- `add_syntax_set`. Adding runs no check: its comment says adding cannot affect single quotes
or single comments. -/
def addSyntaxSet (s : M4SyntaxTable) (chars : List Byte) (code : BitVec 16) : M4SyntaxTable :=
  if firstByte chars = 0 then s
  else
    let s := if code = escape.code then { s with isMacroEscaped := true } else s
    s.setTable (forEachChar chars (addSyntaxAttribute · code) s.table)

/-- `subtract_syntax_set`: the byte loop, then the one check the code calls for. -/
def subtractSyntaxSet (s : M4SyntaxTable) (chars : List Byte) (code : BitVec 16) :
    M4SyntaxTable :=
  if firstByte chars = 0 then s
  else
    let s := s.setTable (forEachChar chars (subtractEntry code) s.table)
    if code = escape.code then
      if s.isMacroEscaped then (checkIsMacroEscaped s).1 else s
    else if code = lquote.code || code = rquote.code then
      if s.isSingleQuotes then (checkIsSingleQuotes s).1 else s
    else if code = bcomm.code || code = ecomm.code then
      if s.isSingleComments then (checkIsSingleComments s).1 else s
    else s

/-- `set_syntax_set`: the sweep over every byte, the byte loop, and all three checks. -/
def setSyntaxSet (s : M4SyntaxTable) (chars : List Byte) (code : BitVec 16) : M4SyntaxTable :=
  let s := s.setTable (forEachChar chars (addSyntaxAttribute · code)
                         (sweepTable (fun _ => setSweepEntry code) s.table))
  let s := (checkIsMacroEscaped s).1
  let s := (checkIsSingleQuotes s).1
  (checkIsSingleComments s).1

/-- `reset_syntax_set`: the sweep over every byte and all three checks. -/
def resetSyntaxSet (s : M4SyntaxTable) (code : BitVec 16) : M4SyntaxTable :=
  let s := s.setTable (sweepTable (resetEntry s.orig code) s.table)
  let s := (checkIsMacroEscaped s).1
  let s := (checkIsSingleQuotes s).1
  (checkIsSingleComments s).1

/-! ## `m4_set_syntax` -/

/-- Modelled from the spec: `m4__quote_uncache`, declared outside `syntax.c`, drops the
memoised quote copy. -/
def m4QuoteUncache (s : M4SyntaxTable) : M4SyntaxTable := { s with cachedQuote := none }

section Uncache

variable (s : M4SyntaxTable) (d : Delim)

@[simp] theorem table_m4QuoteUncache : (m4QuoteUncache s).table = s.table := rfl
@[simp] theorem orig_m4QuoteUncache : (m4QuoteUncache s).orig = s.orig := rfl
@[simp] theorem pair_m4QuoteUncache : (m4QuoteUncache s).pair d = s.pair d := by cases d <;> rfl
@[simp] theorem isSingle_m4QuoteUncache : (m4QuoteUncache s).isSingle d = s.isSingle d := by
  cases d <;> rfl
@[simp] theorem isMacroEscaped_m4QuoteUncache :
    (m4QuoteUncache s).isMacroEscaped = s.isMacroEscaped := rfl

end Uncache

/-- The branch of `m4_set_syntax` for the key NUL: the default table, the default delimiters
with RQUOTE and ECOMM on their end bytes, the default flags, and the quote age of syntax age
zero. The stored syntax age and the quote cache are left as they were. -/
def restoreDefaultSyntax (s : M4SyntaxTable) : M4SyntaxTable :=
  let s := { s with table := s.orig, quote := ⟨defLquote, 1, defRquote, 1⟩,
                    comm := ⟨defBcomm, 1, defEcomm, 1⟩ }
  let s := { s with table := writeEntry s.table (firstByte s.quote.str2)
                               (addSyntaxAttribute · rquote.code) }
  let s := { s with table := writeEntry s.table (firstByte s.comm.str2)
                               (addSyntaxAttribute · ecomm.code) }
  setQuoteAge { s with isSingleQuotes := true, isSingleComments := true,
                       isMacroEscaped := false } true false

/-- The table the key NUL installs: the default entries, with the RQUOTE mask on the apostrophe
and the ECOMM mask on newline. -/
def withDelimiterMasks (orig : Byte → BitVec 16) (b : Byte) : BitVec 16 :=
  orig b ||| (if b = 39 then rquote.code else 0) ||| (if b = 10 then ecomm.code else 0)

theorem restoreDefaultSyntax_table (s : M4SyntaxTable) :
    (restoreDefaultSyntax s).table = withDelimiterMasks s.orig := by
  funext b
  simp only [restoreDefaultSyntax, table_setQuoteAge, writeEntry_apply, withDelimiterMasks,
    addSyntaxAttribute_mask _ (rfl : rquote.isMask = true),
    addSyntaxAttribute_mask _ (rfl : ecomm.isMask = true)]
  by_cases apostrophe : b = 39
  · subst apostrophe
    simp [defRquote, defEcomm, firstByte]
  · by_cases newline : b = 10
    · subst newline
      simp [defRquote, defEcomm, firstByte]
    · simp [defRquote, defEcomm, firstByte, apostrophe, newline]

/-- The action of `m4_set_syntax`: `'+'`, `'-'`, `'='` or NUL. Any other action fails an
assertion. -/
inductive SyntaxAction
  | add
  | subtract
  | set
  | reset
  deriving DecidableEq, Repr

/-- The verb an action runs. -/
def SyntaxAction.run (s : M4SyntaxTable) (chars : List Byte) (code : BitVec 16) :
    SyntaxAction → M4SyntaxTable
  | add => addSyntaxSet s chars code
  | subtract => subtractSyntaxSet s chars code
  | set => setSyntaxSet s chars code
  | reset => resetSyntaxSet s code

/-- `m4_set_syntax`: the new state and the returned code (`-1` for an unknown key). -/
def m4SetSyntax (s : M4SyntaxTable) (key : Byte) (action : SyntaxAction) (chars : List Byte) :
    M4SyntaxTable × Int :=
  if key = 0 then (restoreDefaultSyntax s, 0)
  else
    match m4SyntaxCode key with
    | none => (s, -1)
    | some c => (m4QuoteUncache (setQuoteAge (action.run s chars c.code) false true), c.code.toNat)

/-- `m4_syntax_create`: a zeroed record with the default table, run through the key NUL. -/
def m4SyntaxCreate : M4SyntaxTable :=
  (m4SetSyntax
    { orig := m4SyntaxOrig, table := fun _ => 0, quote := ⟨[], 0, [], 0⟩, comm := ⟨[], 0, [], 0⟩,
      isSingleQuotes := false, isSingleComments := false, isMacroEscaped := false,
      syntaxAge := 0, quoteAge := 0, cachedQuote := none, cachedLquote := 0,
      cachedRquote := 0 } 0 .reset []).1

end M4Syntax
