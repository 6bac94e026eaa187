import M4Syntax.Category
import Mathlib.Data.List.Basic

/-!
# The syntax table record

`m4_syntax_table` holds the default entries `orig`, the current entries `table`, the quote and
comment delimiter pairs, the three derived flags, the syntax age and quote age, and the quote
cache. Quotes and comments are handled in `syntax.c` by twin functions that differ in their
codes; `Delim` names the pair a twin works on, and `M4SyntaxTable.pair`, `isSingle`,
`setPair` and `setSingle` read and write that pair's fields.

A string is a NUL-terminated buffer. It is modelled by the bytes of the buffer, and the C string
it holds is the part before the first NUL (`cstr`), so that a checker writing a byte into a
stored delimiter is modelled exactly, whatever the byte.

The loops `for (ch = UCHAR_MAX + 1; --ch >= 0; )` that rewrite the table one entry at a time
are `forEachByteDown`. Such a loop leaves each entry to its own body and changes nothing else
(`forEachByteDown_apply`, `sweepTable_apply`).

`m4SyntaxOrig` is the body of the loop of `m4_syntax_create` that fills the default table. Every
default is one basis category other than IGNORE (`m4SyntaxOrig_basis`), and the backquote and
`#` are the only bytes whose default is LQUOTE or BCOMM (`m4SyntaxOrig_eq_lquote`,
`m4SyntaxOrig_eq_bcomm`).
-/

set_option autoImplicit false

namespace M4Syntax

open SyntaxCategory

/-! ## Strings -/

/-- The C string a buffer holds: its bytes before the first NUL. -/
def cstr (buffer : List Byte) : List Byte := buffer.takeWhile (· != 0)

/-- `*p`: the first byte of a buffer, the terminating NUL for an empty one. -/
def firstByte (buffer : List Byte) : Byte := buffer.headD 0

/-- `strlen`. -/
def strlen (buffer : List Byte) : Nat := (cstr buffer).length

/-- `*p = b`: the buffer with its first byte overwritten. -/
def setFirstByte (buffer : List Byte) (b : Byte) : List Byte := buffer.set 0 b

theorem zero_not_mem_cstr (buffer : List Byte) : (0 : Byte) ∉ cstr buffer := by
  intro member
  have bounded : (buffer.takeWhile (· != 0)).all (· != 0) = true := List.all_takeWhile
  simpa using List.all_eq_true.1 bounded 0 member

theorem cstr_of_zero_not_mem {buffer : List Byte} (noNul : (0 : Byte) ∉ buffer) :
    cstr buffer = buffer :=
  List.takeWhile_eq_self_iff.2 fun b member => by
    simpa using fun same : b = 0 => noNul (same ▸ member)

@[simp] theorem cstr_cstr (buffer : List Byte) : cstr (cstr buffer) = cstr buffer :=
  cstr_of_zero_not_mem (zero_not_mem_cstr buffer)

theorem firstByte_cstr (buffer : List Byte) : firstByte (cstr buffer) = firstByte buffer := by
  cases buffer with
  | nil => rfl
  | cons b rest => by_cases zero : b = 0 <;> simp [cstr, firstByte, List.takeWhile_cons, zero]

theorem cstr_ne_nil_iff (buffer : List Byte) : cstr buffer ≠ [] ↔ firstByte buffer ≠ 0 := by
  cases buffer with
  | nil => simp [cstr, firstByte]
  | cons b rest => by_cases zero : b = 0 <;> simp [cstr, firstByte, List.takeWhile_cons, zero]

/-- A one-byte C string is a non-NUL byte. -/
theorem cstr_of_strlen_one {buffer : List Byte} (one : (cstr buffer).length = 1) :
    ∃ a, cstr buffer = [a] ∧ a ≠ 0 := by
  match h : cstr buffer, one with
  | [a], _ => exact ⟨a, rfl, fun zero => zero_not_mem_cstr buffer (by simp [h, zero])⟩

/-- `m4_string_pair`: two strings with their recorded lengths. -/
structure M4StringPair where
  str1 : List Byte
  len1 : Nat
  str2 : List Byte
  len2 : Nat
  deriving DecidableEq, Repr

/-- Modelled from the spec: `DEF_LQUOTE`, the backquote. -/
def defLquote : List Byte := [96]

/-- Modelled from the spec: `DEF_RQUOTE`, the apostrophe. -/
def defRquote : List Byte := [39]

/-- Modelled from the spec: `DEF_BCOMM`, `#`. -/
def defBcomm : List Byte := [35]

/-- Modelled from the spec: `DEF_ECOMM`, newline. -/
def defEcomm : List Byte := [10]

/-! ## The record -/

/-- `m4_syntax_table`. `cached_simple` is not a field: it always points at `cachedLquote` and
`cachedRquote` (`M4SyntaxTable.cachedSimple`). -/
structure M4SyntaxTable where
  orig : Byte → BitVec 16
  table : Byte → BitVec 16
  quote : M4StringPair
  comm : M4StringPair
  isSingleQuotes : Bool
  isSingleComments : Bool
  isMacroEscaped : Bool
  syntaxAge : Nat
  quoteAge : Nat
  cachedQuote : Option M4StringPair
  cachedLquote : Byte
  cachedRquote : Byte

/-- `cached_simple`: the one-byte pair over `cached_lquote` and `cached_rquote`. -/
def M4SyntaxTable.cachedSimple (s : M4SyntaxTable) : M4StringPair :=
  ⟨[s.cachedLquote], 1, [s.cachedRquote], 1⟩

/-- The delimiter pair a twin function works on. -/
inductive Delim
  | quote
  | comm
  deriving DecidableEq, Repr

namespace Delim

/-- LQUOTE or BCOMM: the basis of a single-byte start delimiter. -/
def start : Delim → SyntaxCategory
  | quote => lquote
  | comm => bcomm

/-- RQUOTE or ECOMM: the mask of a single-byte end delimiter. -/
def stop : Delim → SyntaxCategory
  | quote => rquote
  | comm => ecomm

@[simp] theorem start_isMask (d : Delim) : d.start.isMask = false := by cases d <;> rfl

@[simp] theorem stop_isMask (d : Delim) : d.stop.isMask = true := by cases d <;> rfl

@[simp] theorem start_ne_ignore (d : Delim) : d.start ≠ ignore := by cases d <;> decide

end Delim

namespace M4SyntaxTable

variable (s : M4SyntaxTable)

/-- `syntax->quote` or `syntax->comm`. -/
def pair : Delim → M4StringPair
  | .quote => s.quote
  | .comm => s.comm

/-- `syntax->is_single_quotes` or `syntax->is_single_comments`. -/
def isSingle : Delim → Bool
  | .quote => s.isSingleQuotes
  | .comm => s.isSingleComments

/-- Store a delimiter pair. -/
def setPair : Delim → M4StringPair → M4SyntaxTable
  | .quote, p => { s with quote := p }
  | .comm, p => { s with comm := p }

/-- Store a single-delimiter flag. -/
def setSingle : Delim → Bool → M4SyntaxTable
  | .quote, b => { s with isSingleQuotes := b }
  | .comm, b => { s with isSingleComments := b }

/-- Store new table entries. -/
def setTable (table : Byte → BitVec 16) : M4SyntaxTable := { s with table := table }

variable (d e : Delim) (p : M4StringPair) (b : Bool) (t : Byte → BitVec 16)

@[simp] theorem table_setTable : (s.setTable t).table = t := rfl
@[simp] theorem orig_setTable : (s.setTable t).orig = s.orig := rfl
@[simp] theorem pair_setTable : (s.setTable t).pair d = s.pair d := by cases d <;> rfl
@[simp] theorem isSingle_setTable : (s.setTable t).isSingle d = s.isSingle d := by cases d <;> rfl
@[simp] theorem isMacroEscaped_setTable : (s.setTable t).isMacroEscaped = s.isMacroEscaped := rfl

@[simp] theorem pair_setPair : (s.setPair d p).pair e = if e = d then p else s.pair e := by
  cases d <;> cases e <;> rfl

@[simp] theorem isSingle_setPair : (s.setPair d p).isSingle e = s.isSingle e := by
  cases d <;> cases e <;> rfl

@[simp] theorem pair_setSingle : (s.setSingle d b).pair e = s.pair e := by
  cases d <;> cases e <;> rfl

@[simp] theorem isSingle_setSingle :
    (s.setSingle d b).isSingle e = if e = d then b else s.isSingle e := by
  cases d <;> cases e <;> rfl

@[simp] theorem table_setPair : (s.setPair d p).table = s.table := by cases d <;> rfl
@[simp] theorem orig_setPair : (s.setPair d p).orig = s.orig := by cases d <;> rfl
@[simp] theorem isMacroEscaped_setPair : (s.setPair d p).isMacroEscaped = s.isMacroEscaped := by
  cases d <;> rfl
@[simp] theorem table_setSingle : (s.setSingle d b).table = s.table := by cases d <;> rfl
@[simp] theorem orig_setSingle : (s.setSingle d b).orig = s.orig := by cases d <;> rfl
@[simp] theorem isMacroEscaped_setSingle :
    (s.setSingle d b).isMacroEscaped = s.isMacroEscaped := by cases d <;> rfl

end M4SyntaxTable

/-! ## Loops over every byte -/

/-- `for (ch = n; --ch >= 0; ) table[ch] = body (ch, table[ch])`: bytes `n - 1` down to `0`. -/
def forEachByteDown (body : Byte → BitVec 16 → BitVec 16) :
    (n : Nat) → n ≤ 256 → (Byte → BitVec 16) → (Byte → BitVec 16)
  | 0, _, table => table
  | n + 1, bound, table =>
      forEachByteDown body n (Nat.le_of_succ_le bound)
        (Function.update table ⟨n, bound⟩ (body ⟨n, bound⟩ (table ⟨n, bound⟩)))

/-- The loop over every byte, from `UCHAR_MAX` down. -/
def sweepTable (body : Byte → BitVec 16 → BitVec 16) (table : Byte → BitVec 16) :
    Byte → BitVec 16 :=
  forEachByteDown body 256 (Nat.le_refl 256) table

theorem forEachByteDown_apply (body : Byte → BitVec 16 → BitVec 16) :
    ∀ (n : Nat) (bound : n ≤ 256) (table : Byte → BitVec 16) (ch : Byte),
      forEachByteDown body n bound table ch = if ch.val < n then body ch (table ch) else table ch
  | 0, _, _, _ => by simp [forEachByteDown]
  | n + 1, bound, table, ch => by
      rw [forEachByteDown, forEachByteDown_apply body n]
      by_cases here : ch = ⟨n, bound⟩
      · subst here
        simp
      · have other : ch.val ≠ n := fun same => here (Fin.ext same)
        simp only [Function.update_noteq here]
        by_cases below : ch.val < n
        · simp [below, Nat.lt_succ_of_lt below]
        · simp [below, show ¬ch.val < n + 1 by omega]

@[simp] theorem sweepTable_apply (body : Byte → BitVec 16 → BitVec 16)
    (table : Byte → BitVec 16) (ch : Byte) : sweepTable body table ch = body ch (table ch) := by
  simp [sweepTable, forEachByteDown_apply, ch.isLt]

/-- Write `table[ch]` through a function of its old value. -/
def writeEntry (table : Byte → BitVec 16) (ch : Byte) (f : BitVec 16 → BitVec 16) :
    Byte → BitVec 16 :=
  Function.update table ch (f (table ch))

theorem writeEntry_apply (table : Byte → BitVec 16) (ch b : Byte) (f : BitVec 16 → BitVec 16) :
    writeEntry table ch f b = if b = ch then f (table b) else table b := by
  by_cases same : b = ch
  · subst same
    simp [writeEntry]
  · simp [writeEntry, same]

/-! ## The default table -/

/-- `isspace` in the C locale: space, tab, newline, vertical tab, form feed, return. -/
def cIsspace (ch : Byte) : Bool := ch.val == 32 || (9 ≤ ch.val && ch.val ≤ 13)

/-- `isalpha` in the C locale. -/
def cIsalpha (ch : Byte) : Bool := (65 ≤ ch.val && ch.val ≤ 90) || (97 ≤ ch.val && ch.val ≤ 122)

/-- `isdigit`. -/
def cIsdigit (ch : Byte) : Bool := 48 ≤ ch.val && ch.val ≤ 57

/-- The body of the loop of `m4_syntax_create` that fills `orig[ch]`. -/
def m4SyntaxOrig (ch : Byte) : BitVec 16 :=
  match ch.val with
  | 40 => «open».code     -- '('
  | 41 => close.code      -- ')'
  | 44 => comma.code      -- ','
  | 36 => dollar.code     -- '$'
  | 123 => lbrace.code    -- '{'
  | 125 => rbrace.code    -- '}'
  | 96 => lquote.code     -- '`'
  | 35 => bcomm.code      -- '#'
  | _ =>
      if cIsspace ch then space.code
      else if cIsalpha ch || ch.val == 95 then alpha.code
      else if cIsdigit ch then num.code
      else other.code

theorem m4SyntaxOrig_basis (ch : Byte) :
    ∃ c : SyntaxCategory, c.isMask = false ∧ c ≠ ignore ∧ m4SyntaxOrig ch = c.code := by
  unfold m4SyntaxOrig
  split <;> (try split_ifs) <;> refine ⟨_, ?_, ?_, rfl⟩ <;> decide

theorem m4SyntaxOrig_eq_lquote (ch : Byte) : m4SyntaxOrig ch = lquote.code ↔ ch = 96 := by
  refine ⟨fun h => ?_, by rintro rfl; rfl⟩
  unfold m4SyntaxOrig at h
  split at h <;> first | exact Fin.ext ‹_› | (split_ifs at h <;> cases h) | cases h

theorem m4SyntaxOrig_eq_bcomm (ch : Byte) : m4SyntaxOrig ch = bcomm.code ↔ ch = 35 := by
  refine ⟨fun h => ?_, by rintro rfl; rfl⟩
  unfold m4SyntaxOrig at h
  split at h <;> first | exact Fin.ext ‹_› | (split_ifs at h <;> cases h) | cases h

/-- No byte of the default table is an escape. -/
theorem m4SyntaxOrig_ne_escape (ch : Byte) : m4SyntaxOrig ch ≠ escape.code := by
  unfold m4SyntaxOrig
  split <;> (try split_ifs) <;> decide

end M4Syntax
