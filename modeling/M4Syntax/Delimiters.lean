import M4Syntax.SetSyntax

/-!
# The quote and comment installers

`m4_set_quotes` and `m4_set_comment` first default their arguments, each by its own policy
(`quoteArgs`, `commentArgs`), and then run one body (`setDelimiters`) on their own pair. The body
returns at once when the new strings equal the stored ones. Otherwise it stores them, decides
the single-delimiter flag from the lengths and from the bases that would hide the start byte,
sweeps the start basis and the end mask off every byte (`clearDelimEntry`), and installs them
on the two new bytes when the flag is set.

The sweep sends a holder of the start basis to its default basis, or to OTHER when that default
is the start basis itself. It does not look at the other pair: a byte whose default is the other
pair's start basis gets that basis back.

The table the body leaves is given byte by byte (`setDelimiters_table`), and so are its pair and
flags (`setDelimiters_pair`, `setDelimiters_isSingle`).
-/

set_option autoImplicit false

namespace M4Syntax

open SyntaxCategory

/-- The argument policy of `m4_set_quotes`: no left quote restores the defaults, and a missing
right quote, or an empty one after a non-empty left quote, becomes the apostrophe. -/
def quoteArgs : Option (List Byte) → Option (List Byte) → List Byte × List Byte
  | none, _ => (defLquote, defRquote)
  | some lq, none => (lq, defRquote)
  | some lq, some rq => (lq, if firstByte lq != 0 && firstByte rq == 0 then defRquote else rq)

/-- The argument policy of `m4_set_comment`: no begin comment disables comments, and a missing
end comment, or an empty one after a non-empty begin comment, becomes newline. -/
def commentArgs : Option (List Byte) → Option (List Byte) → List Byte × List Byte
  | none, _ => ([], [])
  | some bc, none => (bc, defEcomm)
  | some bc, some ec => (bc, if firstByte bc != 0 && firstByte ec == 0 then defEcomm else ec)

/-- The sweep of the installers for one byte: a holder of the start basis goes back to its
default basis, or to OTHER when that default is the start basis itself, and the end mask is
cleared. -/
def clearDelimEntry (d : Delim) (orig : Byte → BitVec 16) (ch : Byte) (entry : BitVec 16) :
    BitVec 16 :=
  let entry :=
    if m4HasSyntax entry d.start.code then
      addSyntaxAttribute entry (if orig ch = d.start.code then other.code else orig ch)
    else entry
  if m4HasSyntax entry d.stop.code then removeSyntaxAttribute entry d.stop.code else entry

/-- `strcmp` of the stored strings with the new ones: both equal. -/
def sameDelimiters (d : Delim) (s : M4SyntaxTable) (left right : List Byte) : Prop :=
  cstr (s.pair d).str1 = cstr left ∧ cstr (s.pair d).str2 = cstr right

instance (d : Delim) (s : M4SyntaxTable) (left right : List Byte) :
    Decidable (sameDelimiters d s left right) :=
  inferInstanceAs (Decidable (_ ∧ _))

/-- The pair the body stores: copies of the two C strings and their lengths. -/
def storedPair (left right : List Byte) : M4StringPair :=
  ⟨cstr left, strlen left, cstr right, strlen right⟩

/-- The flag the body sets: both strings one byte long, and the start byte not holding a
blocking basis. -/
def installsSingle (blocking : BitVec 16) (s : M4SyntaxTable) (left right : List Byte) : Bool :=
  (storedPair left right).len1 == 1 && (storedPair left right).len2 == 1
    && !m4HasSyntax (s.table (firstByte (storedPair left right).str1)) blocking

/-- The body of `m4_set_quotes` and `m4_set_comment` on defaulted arguments. `blocking` holds
the bases that take precedence over the start delimiter in the tokenizer.

The arguments are taken by value. The code frees the stored strings before it copies the new
ones (`syntax.c`, lines 584-588), so an argument that aliases a stored string, as in
`m4_set_quotes (s, m4_get_syntax_lquote (s), "]")`, is read after it is freed. That call is a
use-after-free of the code and lies outside the model. -/
def setDelimiters (d : Delim) (blocking : BitVec 16) (s : M4SyntaxTable)
    (left right : List Byte) : M4SyntaxTable :=
  if sameDelimiters d s left right then s
  else
    let p := storedPair left right
    let single := installsSingle blocking s left right
    let s := (s.setPair d p).setSingle d single
    let s := s.setTable (sweepTable (clearDelimEntry d s.orig) s.table)
    let s :=
      if single then
        s.setTable (writeEntry (writeEntry s.table (firstByte p.str1)
          (addSyntaxAttribute · d.start.code)) (firstByte p.str2) (addSyntaxAttribute · d.stop.code))
      else s
    setQuoteAge (recheckMacroEscaped s) false false

/-- The bases that hide a start quote: IGNORE, ESCAPE, ALPHA and NUM. -/
def quoteBlocking : BitVec 16 := ignore.code ||| escape.code ||| alpha.code ||| num.code

/-- The bases that hide a start comment: those that hide a start quote, and LQUOTE. -/
def commentBlocking : BitVec 16 :=
  ignore.code ||| escape.code ||| alpha.code ||| num.code ||| lquote.code

/-- `m4_set_quotes`; `none` is a NULL argument. -/
def m4SetQuotes (s : M4SyntaxTable) (lq rq : Option (List Byte)) : M4SyntaxTable :=
  setDelimiters .quote quoteBlocking s (quoteArgs lq rq).1 (quoteArgs lq rq).2

/-- `m4_set_comment`; `none` is a NULL argument. -/
def m4SetComment (s : M4SyntaxTable) (bc ec : Option (List Byte)) : M4SyntaxTable :=
  setDelimiters .comm commentBlocking s (commentArgs bc ec).1 (commentArgs bc ec).2

/-- `m4_get_syntax_lquote`. -/
def m4GetSyntaxLquote (s : M4SyntaxTable) : List Byte := s.quote.str1

/-- `m4_get_syntax_rquote`. -/
def m4GetSyntaxRquote (s : M4SyntaxTable) : List Byte := s.quote.str2

/-- `m4_get_syntax_bcomm`. -/
def m4GetSyntaxBcomm (s : M4SyntaxTable) : List Byte := s.comm.str1

/-- `m4_get_syntax_ecomm`. -/
def m4GetSyntaxEcomm (s : M4SyntaxTable) : List Byte := s.comm.str2

/-- `m4_get_syntax_quotes`. -/
def m4GetSyntaxQuotes (s : M4SyntaxTable) : M4StringPair := s.quote

/-! ## What the body leaves -/

section Body

variable (d : Delim) (blocking : BitVec 16) (s : M4SyntaxTable) (left right : List Byte)

/-- The entry of byte `b` after the sweep and the install. -/
def installedEntry (b : Byte) : BitVec 16 :=
  let entry := clearDelimEntry d s.orig b (s.table b)
  let entry :=
    if installsSingle blocking s left right && b = firstByte (cstr left) then
      addSyntaxAttribute entry d.start.code
    else entry
  if installsSingle blocking s left right && b = firstByte (cstr right) then
    addSyntaxAttribute entry d.stop.code
  else entry

theorem setDelimiters_of_same (same : sameDelimiters d s left right) :
    setDelimiters d blocking s left right = s := if_pos same

variable {d blocking s left right}
variable (differ : ¬sameDelimiters d s left right)
include differ

theorem setDelimiters_table (b : Byte) :
    (setDelimiters d blocking s left right).table b = installedEntry d blocking s left right b := by
  rw [setDelimiters, if_neg differ, installedEntry]
  cases installsSingle blocking s left right <;> simp [writeEntry_apply, storedPair]

theorem setDelimiters_pair (e : Delim) :
    (setDelimiters d blocking s left right).pair e =
      if e = d then storedPair left right else s.pair e := by
  rw [setDelimiters, if_neg differ]
  cases installsSingle blocking s left right <;> simp

theorem setDelimiters_isSingle (e : Delim) :
    (setDelimiters d blocking s left right).isSingle e =
      if e = d then installsSingle blocking s left right else s.isSingle e := by
  rw [setDelimiters, if_neg differ]
  cases installsSingle blocking s left right <;> simp

theorem setDelimiters_orig : (setDelimiters d blocking s left right).orig = s.orig := by
  rw [setDelimiters, if_neg differ]
  dsimp only
  cases installsSingle blocking s left right
  · rw [if_neg Bool.false_ne_true, orig_setQuoteAge, orig_recheckMacroEscaped,
      M4SyntaxTable.orig_setTable, M4SyntaxTable.orig_setSingle, M4SyntaxTable.orig_setPair]
  · rw [if_pos rfl, orig_setQuoteAge, orig_recheckMacroEscaped,
      M4SyntaxTable.orig_setTable, M4SyntaxTable.orig_setTable, M4SyntaxTable.orig_setSingle,
      M4SyntaxTable.orig_setPair]

end Body

/-- An entry after the body, whether or not it finds its pair stored, read byte by byte. -/
theorem setDelimiters_table_apply (d : Delim) (blocking : BitVec 16) (s : M4SyntaxTable)
    (left right : List Byte) (b : Byte) :
    (setDelimiters d blocking s left right).table b =
      if sameDelimiters d s left right then s.table b
      else installedEntry d blocking s left right b := by
  by_cases same : sameDelimiters d s left right
  · rw [if_pos same, setDelimiters_of_same _ _ _ _ _ same]
  · rw [if_neg same, setDelimiters_table same]

end M4Syntax
