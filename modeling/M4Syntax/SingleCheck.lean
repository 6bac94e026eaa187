import M4Syntax.SetSyntax

/-!
# What the single checks compute

`check_is_single_quotes` and `check_is_single_comments` (`checkIsSingle`) scan the table from
`UCHAR_MAX` down for the bearers of the start and the stop role, and stop at the first second
bearer of either. For every table, the scan ends with a bearer of each role and without a break
exactly when each role has one bearer, and it then holds those two (`scanBearers_eq_iff`). Its
invariant says what the bytes already scanned hold (`FoundFrom`): no bearer, or one, which the
scan holds; a break comes with a second bearer (`FoundFrom.second`), and a step without one keeps
the invariant (`FoundFrom.next`).

So, on every table and every stored pair of one-byte strings, the check keeps the table, keeps a
cleared flag, keeps a set flag whose stored bytes still carry their roles, and otherwise sets the
flag to whether each role has exactly one bearer, storing the two bearers in that case
(`checkIsSingle_spec`). Whenever it returns true the stored bytes carry the two roles.

A bearer is a byte whose entry passes the bit test `m4_has_syntax` of the role's code. For the
basis codes LQUOTE and BCOMM on a well-formed entry, as in every reachable state, this is having
that basis (`m4HasSyntax_code_of_entryWF`).
-/

set_option autoImplicit false

namespace M4Syntax

/-! ## Bearers -/

section Bearers

variable (table : Byte → BitVec 16) (code : BitVec 16)

/-- `b` is the one byte whose entry carries `code`. -/
def OnlyBearer (b : Byte) : Prop :=
  m4HasSyntax (table b) code = true ∧ ∀ b', m4HasSyntax (table b') code = true → b' = b

/-- What the scan has found of the bearers of `code` once it has looked at the bytes from `n`
up: `none` when none of them carries it, else the one that does. -/
def FoundFrom (n : Nat) : Option Byte → Prop
  | none => ∀ b : Byte, n ≤ b.val → m4HasSyntax (table b) code = false
  | some a => n ≤ a.val ∧ m4HasSyntax (table a) code = true ∧
      ∀ b : Byte, n ≤ b.val → m4HasSyntax (table b) code = true → b = a

variable {table code}

/-- Nothing is scanned before the loop. -/
theorem foundFrom_start : FoundFrom table code 256 none := fun b above => absurd b.isLt (by omega)

/-- A bearer at `n` with one already found above it is a second bearer. -/
theorem FoundFrom.second {n : Nat} {a : Byte} (found : FoundFrom table code (n + 1) (some a))
    (bound : n < 256) (has : m4HasSyntax (table ⟨n, bound⟩) code = true) (b : Byte) :
    ¬OnlyBearer table code b := by
  rintro ⟨-, only⟩
  have above : n + 1 ≤ a.val := found.1
  rw [only a found.2.1, ← only ⟨n, bound⟩ has] at above
  exact absurd above (by simp)

/-- A step that finds no second bearer keeps the invariant one byte lower. -/
theorem FoundFrom.next {n : Nat} {found : Option Byte} (prev : FoundFrom table code (n + 1) found)
    (bound : n < 256)
    (notTwo : ¬(m4HasSyntax (table ⟨n, bound⟩) code = true ∧ found.isSome = true)) :
    FoundFrom table code n
      (if m4HasSyntax (table ⟨n, bound⟩) code then some ⟨n, bound⟩ else found) := by
  have here : ∀ b : Byte, n ≤ b.val → b.val ≠ n → n + 1 ≤ b.val := fun b low other => by omega
  have atN : ∀ b : Byte, b.val = n → b = ⟨n, bound⟩ := fun b same => Fin.ext same
  cases has : m4HasSyntax (table ⟨n, bound⟩) code
  · cases found with
    | none =>
        exact fun b low => if same : b.val = n then atN b same ▸ has else prev b (here b low same)
    | some a =>
        refine ⟨Nat.le_of_succ_le prev.1, prev.2.1, fun b low bearer => ?_⟩
        by_cases same : b.val = n
        · rw [atN b same, has] at bearer
          cases bearer
        · exact prev.2.2 b (here b low same) bearer
  · cases found with
    | none =>
        refine ⟨Nat.le_refl n, has, fun b low bearer => ?_⟩
        by_cases same : b.val = n
        · exact atN b same
        · rw [prev b (here b low same)] at bearer
          cases bearer
    | some a => exact absurd ⟨has, rfl⟩ notTwo

/-- After the whole table, what the scan holds is the only bearer. -/
theorem FoundFrom.zero_iff {found : Option Byte} (all : FoundFrom table code 0 found) (a : Byte) :
    found = some a ↔ OnlyBearer table code a := by
  cases found with
  | none => exact iff_of_false (by simp) fun only => by simpa [all a (Nat.zero_le _)] using only.1
  | some a' =>
      refine ⟨fun same => ?_, fun only => by rw [only.2 a' all.2.1]⟩
      cases same
      exact ⟨all.2.1, fun b bearer => all.2.2 b (Nat.zero_le _) bearer⟩

end Bearers

/-! ## The scan -/

section Scan

variable {table : Byte → BitVec 16} {startCode stopCode : BitVec 16}

/-- From any point of the loop where the invariant holds, the scan ends with a bearer of each
role and without a break exactly when each role has one bearer, and then holds those two. -/
theorem scanBearers_eq_iff :
    ∀ (n : Nat) (bound : n ≤ 256) (start stop : Option Byte),
      FoundFrom table startCode n start → FoundFrom table stopCode n stop → ∀ a b : Byte,
        scanBearers table startCode stopCode n bound start stop = (some a, some b, true) ↔
          OnlyBearer table startCode a ∧ OnlyBearer table stopCode b
  | 0, _, start, stop, foundStart, foundStop, a, b => by
      rw [scanBearers, ← foundStart.zero_iff, ← foundStop.zero_iff]
      simp only [Prod.mk.injEq, and_true]
  | n + 1, bound, start, stop, foundStart, foundStop, a, b => by
      have lt : n < 256 := bound
      rw [scanBearers]
      dsimp only
      split
      · rename_i twoStarts
        simp only [Bool.and_eq_true, Option.isSome_iff_exists] at twoStarts
        obtain ⟨has, a', rfl⟩ := twoStarts
        exact iff_of_false (by simp) fun ⟨only, _⟩ => foundStart.second lt has a only
      · rename_i oneStart
        have nextStart := foundStart.next lt (by simpa using oneStart)
        split
        · rename_i twoStops
          simp only [Bool.and_eq_true, Option.isSome_iff_exists] at twoStops
          obtain ⟨has, b', rfl⟩ := twoStops
          exact iff_of_false (by simp) fun ⟨_, only⟩ => foundStop.second lt has b only
        · rename_i oneStop
          exact scanBearers_eq_iff n _ _ _ nextStart (foundStop.next lt (by simpa using oneStop))
            a b

end Scan

/-! ## The check -/

section Check

variable (d : Delim) (s : M4SyntaxTable)

/-- A cleared flag is kept, and nothing else changes. -/
theorem checkIsSingle_of_cleared (cleared : s.isSingle d = false) :
    checkIsSingle d s = (s, false) := by
  rw [checkIsSingle, if_pos (by simp [cleared])]

/-- A set flag whose stored bytes still carry their roles is kept, and nothing else changes. -/
theorem checkIsSingle_of_kept (set : s.isSingle d = true)
    (start : m4HasSyntax (s.table (firstByte (s.pair d).str1)) d.start.code = true)
    (stop : m4HasSyntax (s.table (firstByte (s.pair d).str2)) d.stop.code = true) :
    checkIsSingle d s = (s, true) := by
  rw [checkIsSingle, if_neg (by simp [set]), if_pos (by simp [start, stop])]

/-- A set flag whose stored bytes lost a role stays set, with the stored bytes rewritten to the
only bearers, when each role has one bearer, and is cleared with nothing else changed otherwise. -/
theorem checkIsSingle_of_lost (set : s.isSingle d = true)
    (lost : ¬(m4HasSyntax (s.table (firstByte (s.pair d).str1)) d.start.code = true ∧
      m4HasSyntax (s.table (firstByte (s.pair d).str2)) d.stop.code = true)) :
    (∀ a b, OnlyBearer s.table d.start.code a → OnlyBearer s.table d.stop.code b →
      checkIsSingle d s = (s.setPair d { s.pair d with
        str1 := setFirstByte (s.pair d).str1 a, str2 := setFirstByte (s.pair d).str2 b }, true)) ∧
    (¬((∃ a, OnlyBearer s.table d.start.code a) ∧ ∃ b, OnlyBearer s.table d.stop.code b) →
      checkIsSingle d s = (s.setSingle d false, false)) := by
  have scan := @scanBearers_eq_iff s.table d.start.code d.stop.code 256 (Nat.le_refl 256) none none
    foundFrom_start foundFrom_start
  rw [checkIsSingle, if_neg (by simp [set]), if_neg (by simpa using lost)]
  refine ⟨fun a b onlyA onlyB => by rw [(scan a b).2 ⟨onlyA, onlyB⟩, adoptBearers], fun none => ?_⟩
  rcases ended : scanBearers s.table d.start.code d.stop.code 256 _ _ _ with
    ⟨_ | a, _ | b, _ | _⟩ <;> try rfl
  obtain ⟨onlyA, onlyB⟩ := (scan a b).1 ended
  exact absurd ⟨⟨a, onlyA⟩, b, onlyB⟩ none

/-- Rewriting the first byte of a nonempty string makes it the string's first byte. -/
theorem firstByte_setFirstByte {str : List Byte} (one : strlen str = 1) (b : Byte) :
    firstByte (setFirstByte str b) = b := by
  cases str with
  | nil => cases one
  | cons => rfl

/-- On every table and every stored pair of one-byte strings, `check_is_single_quotes`
(`Delim.quote`) and `check_is_single_comments` (`Delim.comm`) keep the table; keep a cleared
flag; keep a set flag whose stored bytes still carry their roles; otherwise store the two bearers
when each role has exactly one and clear the flag when not. Whenever the check returns true, the
stored bytes carry the two roles. -/
theorem checkIsSingle_spec (oneByte : strlen (s.pair d).str1 = 1 ∧ strlen (s.pair d).str2 = 1) :
    (checkIsSingle d s).1.table = s.table ∧
    (s.isSingle d = false → checkIsSingle d s = (s, false)) ∧
    (s.isSingle d = true →
      m4HasSyntax (s.table (firstByte (s.pair d).str1)) d.start.code = true →
      m4HasSyntax (s.table (firstByte (s.pair d).str2)) d.stop.code = true →
      checkIsSingle d s = (s, true)) ∧
    (s.isSingle d = true →
      ¬(m4HasSyntax (s.table (firstByte (s.pair d).str1)) d.start.code = true ∧
        m4HasSyntax (s.table (firstByte (s.pair d).str2)) d.stop.code = true) →
      (∀ a b, OnlyBearer s.table d.start.code a → OnlyBearer s.table d.stop.code b →
        checkIsSingle d s = (s.setPair d { s.pair d with
          str1 := setFirstByte (s.pair d).str1 a, str2 := setFirstByte (s.pair d).str2 b }, true)) ∧
      (¬((∃ a, OnlyBearer s.table d.start.code a) ∧ ∃ b, OnlyBearer s.table d.stop.code b) →
        checkIsSingle d s = (s.setSingle d false, false))) ∧
    ((checkIsSingle d s).2 = true →
      m4HasSyntax (s.table (firstByte ((checkIsSingle d s).1.pair d).str1)) d.start.code = true ∧
      m4HasSyntax (s.table (firstByte ((checkIsSingle d s).1.pair d).str2))
        d.stop.code = true) := by
  refine ⟨table_checkIsSingle d s, checkIsSingle_of_cleared d s, checkIsSingle_of_kept d s,
    checkIsSingle_of_lost d s, fun returned => ?_⟩
  cases set : s.isSingle d
  · rw [checkIsSingle_of_cleared d s set] at returned
    cases returned
  by_cases kept : m4HasSyntax (s.table (firstByte (s.pair d).str1)) d.start.code = true ∧
      m4HasSyntax (s.table (firstByte (s.pair d).str2)) d.stop.code = true
  · rwa [checkIsSingle_of_kept d s set kept.1 kept.2]
  by_cases unique : (∃ a, OnlyBearer s.table d.start.code a) ∧
      ∃ b, OnlyBearer s.table d.stop.code b
  · obtain ⟨⟨a, onlyA⟩, b, onlyB⟩ := unique
    rw [(checkIsSingle_of_lost d s set kept).1 a b onlyA onlyB]
    simp only [M4SyntaxTable.pair_setPair, ↓reduceIte, firstByte_setFirstByte oneByte.1,
      firstByte_setFirstByte oneByte.2]
    exact ⟨onlyA.1, onlyB.1⟩
  · rw [(checkIsSingle_of_lost d s set kept).2 unique] at returned
    cases returned

/-- The quotes of the created table, the backquote and the apostrophe. -/
theorem checkIsSingle_spec_created_quotes :
    (strlen (m4SyntaxCreate.pair .quote).str1 = 1 ∧ strlen (m4SyntaxCreate.pair .quote).str2 = 1) ∧
    (checkIsSingle .quote m4SyntaxCreate).1.table = m4SyntaxCreate.table ∧
    (m4SyntaxCreate.isSingle .quote = false →
      checkIsSingle .quote m4SyntaxCreate = (m4SyntaxCreate, false)) ∧
    (m4SyntaxCreate.isSingle .quote = true →
      m4HasSyntax (m4SyntaxCreate.table (firstByte (m4SyntaxCreate.pair .quote).str1))
        Delim.quote.start.code = true →
      m4HasSyntax (m4SyntaxCreate.table (firstByte (m4SyntaxCreate.pair .quote).str2))
        Delim.quote.stop.code = true →
      checkIsSingle .quote m4SyntaxCreate = (m4SyntaxCreate, true)) ∧
    (m4SyntaxCreate.isSingle .quote = true →
      ¬(m4HasSyntax (m4SyntaxCreate.table (firstByte (m4SyntaxCreate.pair .quote).str1))
          Delim.quote.start.code = true ∧
        m4HasSyntax (m4SyntaxCreate.table (firstByte (m4SyntaxCreate.pair .quote).str2))
          Delim.quote.stop.code = true) →
      (∀ a b, OnlyBearer m4SyntaxCreate.table Delim.quote.start.code a →
        OnlyBearer m4SyntaxCreate.table Delim.quote.stop.code b →
        checkIsSingle .quote m4SyntaxCreate = (m4SyntaxCreate.setPair .quote
          { m4SyntaxCreate.pair .quote with
            str1 := setFirstByte (m4SyntaxCreate.pair .quote).str1 a,
            str2 := setFirstByte (m4SyntaxCreate.pair .quote).str2 b }, true)) ∧
      (¬((∃ a, OnlyBearer m4SyntaxCreate.table Delim.quote.start.code a) ∧
          ∃ b, OnlyBearer m4SyntaxCreate.table Delim.quote.stop.code b) →
        checkIsSingle .quote m4SyntaxCreate = (m4SyntaxCreate.setSingle .quote false, false))) ∧
    ((checkIsSingle .quote m4SyntaxCreate).2 = true →
      m4HasSyntax (m4SyntaxCreate.table
          (firstByte ((checkIsSingle .quote m4SyntaxCreate).1.pair .quote).str1))
        Delim.quote.start.code = true ∧
      m4HasSyntax (m4SyntaxCreate.table
          (firstByte ((checkIsSingle .quote m4SyntaxCreate).1.pair .quote).str2))
        Delim.quote.stop.code = true) :=
  have oneByte : strlen (m4SyntaxCreate.pair .quote).str1 = 1 ∧
      strlen (m4SyntaxCreate.pair .quote).str2 = 1 := ⟨rfl, rfl⟩
  ⟨oneByte, checkIsSingle_spec .quote m4SyntaxCreate oneByte⟩

end Check

end M4Syntax
