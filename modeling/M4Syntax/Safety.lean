import M4Syntax.Verbs

/-!
# What the code relies on in every reachable state

Every entry of the table of a reachable state is one basis code, a single bit below bit 14 or
none for IGNORE, with a subset of the two mask bits RQUOTE and ECOMM and no other bit
(`reachable_entry_shape`). This is what makes the bit test `m4_has_syntax` on a basis code a test
of the basis (`m4HasSyntax_code_of_entryWF`).

Every stored delimiter string has the length recorded beside it, and a set single flag comes
with two one-byte strings. `check_is_single_quotes` and `check_is_single_comments` assert the
latter when their flag is set. They are called only by the verbs of `m4_set_syntax`
(`SyntaxOp.singleChecks`), each on a state whose flag and pair of its own family are those of
the state the call started from (`SyntaxOp.singleChecks_read`). So no call from a reachable state
fails one of these assertions (`reachable_lengths_and_asserts`).
-/

set_option autoImplicit false

namespace M4Syntax

open SyntaxCategory M4SyntaxTable

/-! ## The entries -/

/-- The code of a basis category is a single bit below the masks, or none for IGNORE. -/
theorem code_of_basis {c : SyntaxCategory} (basis : c.isMask = false) :
    c = ignore ∧ c.code = 0 ∨ ∃ i < 14, c.code = BitVec.twoPow 16 i := by
  cases c <;> first | exact .inl ⟨rfl, rfl⟩ | (right; decide) | cases basis

/-- A well-formed entry is its basis code ORed with its two mask bits. -/
theorem EntryWF.eq_code_or_masks {x : BitVec 16} {c : SyntaxCategory} (basis : c.isMask = false)
    (bits : basisBits x = c.code) :
    x = c.code ||| (if x.getLsbD 14 then rquote.code else 0) |||
      (if x.getLsbD 15 then ecomm.code else 0) := by
  have notMask : c ≠ rquote ∧ c ≠ ecomm := by constructor <;> rintro rfl <;> cases basis
  refine entry_ext_bits ?_ ?_ ?_
  · rw [basisBits_or_of_inMasks (ite_code_and_not_masks (rfl : ecomm.isMask = true) _),
      basisBits_or_of_inMasks (ite_code_and_not_masks (rfl : rquote.isMask = true) _),
      basisBits_code basis, bits]
  · cases x.getLsbD 14 <;> simp [apply_ite (BitVec.getLsbD · 14),
      beq_eq_false_iff_ne.2 notMask.1, show (ecomm == rquote) = false from rfl]
  · cases x.getLsbD 15 <;> simp [apply_ite (BitVec.getLsbD · 15),
      beq_eq_false_iff_ne.2 notMask.2, show (rquote == ecomm) = false from rfl]

/-- In every reachable state each entry is exactly one basis code, a single basis bit or none
for IGNORE, ORed with a subset of the mask bits RQUOTE and ECOMM. -/
theorem reachable_entry_shape {s : M4SyntaxTable} (reachable : Reachable s) (b : Byte) :
    ∃ c : SyntaxCategory, c.isMask = false ∧
      (c = ignore ∧ c.code = 0 ∨ ∃ i < 14, c.code = BitVec.twoPow 16 i) ∧
      ∃ r e : Bool, s.table b =
        c.code ||| (if r then rquote.code else 0) ||| (if e then ecomm.code else 0) := by
  obtain ⟨c, basis, bits⟩ := reachable.syntaxInv.entries b
  exact ⟨c, basis, code_of_basis basis, _, _, EntryWF.eq_code_or_masks basis bits⟩

/-- The newline of the created table, SPACE with the mask ECOMM. -/
theorem reachable_entry_shape_newline :
    Reachable m4SyntaxCreate ∧ ∃ c : SyntaxCategory, c.isMask = false ∧
      (c = ignore ∧ c.code = 0 ∨ ∃ i < 14, c.code = BitVec.twoPow 16 i) ∧
      ∃ r e : Bool, m4SyntaxCreate.table 10 =
        c.code ||| (if r then rquote.code else 0) ||| (if e then ecomm.code else 0) :=
  ⟨.create, reachable_entry_shape .create 10⟩

/-! ## The lengths and the assertions of the single checks -/

/-- The `assert` that `check_is_single_quotes` (`Delim.quote`) and `check_is_single_comments`
(`Delim.comm`) reach when their flag is set: both stored lengths are one. -/
def singleAssert (d : Delim) (s : M4SyntaxTable) : Prop :=
  s.isSingle d = true → (s.pair d).len1 = 1 ∧ (s.pair d).len2 = 1

/-- The calls of `check_is_single_quotes` and `check_is_single_comments` that a verb of
`m4_set_syntax` makes, each with the state it is made on. `subtract_syntax_set` makes the one its
code calls for, when that flag is set; `set_syntax_set` and `reset_syntax_set` make both, after
`check_is_macro_escaped`; `add_syntax_set` makes none. -/
def SyntaxAction.singleChecks (s : M4SyntaxTable) (chars : List Byte) (code : BitVec 16) :
    SyntaxAction → List (Delim × M4SyntaxTable)
  | .add => []
  | .subtract =>
      if firstByte chars = 0 then []
      else
        let s := s.setTable (forEachChar chars (subtractEntry code) s.table)
        if code = escape.code then []
        else if code = lquote.code || code = rquote.code then
          if s.isSingleQuotes then [(.quote, s)] else []
        else if code = bcomm.code || code = ecomm.code then
          if s.isSingleComments then [(.comm, s)] else []
        else []
  | .set =>
      let s := (checkIsMacroEscaped (s.setTable (forEachChar chars (addSyntaxAttribute · code)
        (sweepTable (fun _ => setSweepEntry code) s.table)))).1
      [(.quote, s), (.comm, (checkIsSingleQuotes s).1)]
  | .reset =>
      let s := (checkIsMacroEscaped (s.setTable (sweepTable (resetEntry s.orig code) s.table))).1
      [(.quote, s), (.comm, (checkIsSingleQuotes s).1)]

/-- The calls of the single checks that a call makes: `m4_set_syntax` with a known key makes
those of its verb; the key NUL, an unknown key, `m4_set_quotes` and `m4_set_comment` make none. -/
def SyntaxOp.singleChecks : SyntaxOp → M4SyntaxTable → List (Delim × M4SyntaxTable)
  | .setSyntax key action chars, s =>
      if key = 0 then []
      else
        match m4SyntaxCode key with
        | none => []
        | some c => action.singleChecks s chars c.code
  | .setQuotes _ _, _ => []
  | .setComment _ _, _ => []

/-- The single checks listed for `=` and for the reset are the last two steps of the verb. -/
theorem SyntaxAction.singleChecks_sweep (s : M4SyntaxTable) (chars : List Byte)
    (code : BitVec 16) {action : SyntaxAction} (sweeping : action = .set ∨ action = .reset) :
    ∃ t, action.singleChecks s chars code = [(.quote, t), (.comm, (checkIsSingleQuotes t).1)] ∧
      action.run s chars code = (checkIsSingleComments (checkIsSingleQuotes t).1).1 := by
  rcases sweeping with rfl | rfl <;> exact ⟨_, rfl, rfl⟩

/-- A property of every element of a list chosen by an `if` holds when it holds in each branch. -/
theorem forall_mem_ite {α : Type} {p : Prop} [Decidable p] {l₁ l₂ : List α} {P : α → Prop}
    (pos : ∀ a ∈ l₁, P a) (neg : ∀ a ∈ l₂, P a) : ∀ a ∈ (if p then l₁ else l₂), P a := by
  by_cases h : p
  · rwa [if_pos h]
  · rwa [if_neg h]

/-- The same, for an equation whose left side is chosen by the same `if`. -/
theorem forall_mem_ite_eq {α β : Type} {p : Prop} [Decidable p] {l₁ l₂ : List α} {x₁ x₂ : β}
    {f : α → β} (pos : ∀ a ∈ l₁, x₁ = f a) (neg : ∀ a ∈ l₂, x₂ = f a) :
    ∀ a ∈ (if p then l₁ else l₂), (if p then x₁ else x₂) = f a := by
  by_cases h : p
  · rwa [if_pos h, if_pos h]
  · rwa [if_neg h, if_neg h]

/-- The single check listed for `-` is the last step of the verb. The proof follows the `if`s
that the list and the verb share. -/
theorem SyntaxAction.singleChecks_subtract (s : M4SyntaxTable) (chars : List Byte)
    (code : BitVec 16) :
    ∀ check ∈ SyntaxAction.subtract.singleChecks s chars code,
      subtractSyntaxSet s chars code = (checkIsSingle check.1 check.2).1 := by
  have none : ∀ {x : M4SyntaxTable}, ∀ check ∈ ([] : List (Delim × M4SyntaxTable)),
      x = (checkIsSingle check.1 check.2).1 := fun _ no => nomatch no
  have single : ∀ (d : Delim) (t : M4SyntaxTable), ∀ check ∈ [(d, t)],
      (checkIsSingle d t).1 = (checkIsSingle check.1 check.2).1 := by
    simp only [List.mem_singleton]
    rintro d t _ rfl
    rfl
  unfold subtractSyntaxSet
  simp only [singleChecks]
  exact forall_mem_ite_eq none (forall_mem_ite_eq none (forall_mem_ite_eq
    (forall_mem_ite_eq (single .quote _) none)
    (forall_mem_ite_eq (forall_mem_ite_eq (single .comm _) none) none)))

/-- Each single check a verb makes reads the flag and the pair of its family as the verb found
them. -/
theorem SyntaxAction.singleChecks_read (s : M4SyntaxTable) (chars : List Byte) (code : BitVec 16)
    (action : SyntaxAction) :
    ∀ check ∈ action.singleChecks s chars code,
      check.2.isSingle check.1 = s.isSingle check.1 ∧ check.2.pair check.1 = s.pair check.1 := by
  have quoteCheck : ∀ t : M4SyntaxTable, t.isSingle .comm = s.isSingle .comm →
      t.pair .comm = s.pair .comm → (checkIsSingleQuotes t).1.isSingle .comm = s.isSingle .comm ∧
        (checkIsSingleQuotes t).1.pair .comm = s.pair .comm := fun t flag pair =>
    ⟨(isSingle_checkIsSingle_of_ne .quote .comm t (by decide)).trans flag,
      (pair_checkIsSingle_of_ne .quote .comm t (by decide)).trans pair⟩
  have none : ∀ check ∈ ([] : List (Delim × M4SyntaxTable)),
      check.2.isSingle check.1 = s.isSingle check.1 ∧ check.2.pair check.1 = s.pair check.1 :=
    fun _ no => nomatch no
  cases action with
  | add => exact none
  | subtract =>
      simp only [singleChecks]
      refine forall_mem_ite none (forall_mem_ite none (forall_mem_ite
        (forall_mem_ite ?_ none) (forall_mem_ite (forall_mem_ite ?_ none) none))) <;>
      simp
  | set | reset =>
      intro check mem
      simp only [singleChecks, List.mem_cons, List.not_mem_nil, or_false] at mem
      rcases mem with rfl | rfl
      · simp
      · exact quoteCheck _ (by simp) (by simp)

theorem SyntaxOp.singleChecks_read (op : SyntaxOp) (s : M4SyntaxTable) :
    ∀ check ∈ op.singleChecks s,
      check.2.isSingle check.1 = s.isSingle check.1 ∧ check.2.pair check.1 = s.pair check.1 := by
  cases op with
  | setSyntax key action chars =>
      simp only [singleChecks]
      split
      · exact fun _ none => nomatch none
      · split
        · exact fun _ none => nomatch none
        · exact action.singleChecks_read s chars _
  | setQuotes => exact fun _ none => nomatch none
  | setComment => exact fun _ none => nomatch none

/-- A stored pair records the lengths of its strings. -/
theorem PairWF.len_eq_strlen {p : M4StringPair} (wf : PairWF p) :
    p.len1 = strlen p.str1 ∧ p.len2 = strlen p.str2 := by
  rw [strlen, strlen, cstr_of_zero_not_mem wf.nul1, cstr_of_zero_not_mem wf.nul2]
  exact ⟨wf.len1, wf.len2⟩

/-- In every reachable state the four stored lengths are the lengths of the strings, a set
single flag comes with two one-byte strings of its family, and every single check that a call
makes passes its assertion. -/
theorem reachable_lengths_and_asserts {s : M4SyntaxTable} (reachable : Reachable s) :
    s.quote.len1 = strlen s.quote.str1 ∧ s.quote.len2 = strlen s.quote.str2 ∧
      s.comm.len1 = strlen s.comm.str1 ∧ s.comm.len2 = strlen s.comm.str2 ∧
      (s.isSingleQuotes = true → s.quote.len1 = 1 ∧ s.quote.len2 = 1) ∧
      (s.isSingleComments = true → s.comm.len1 = 1 ∧ s.comm.len2 = 1) ∧
      ∀ op : SyntaxOp, ∀ check ∈ op.singleChecks s, singleAssert check.1 check.2 := by
  have inv := reachable.syntaxInv
  refine ⟨(inv.pairs .quote).len_eq_strlen.1, (inv.pairs .quote).len_eq_strlen.2,
    (inv.pairs .comm).len_eq_strlen.1, (inv.pairs .comm).len_eq_strlen.2, inv.single .quote,
    inv.single .comm, fun op check mem set => ?_⟩
  obtain ⟨flag, pair⟩ := op.singleChecks_read s check mem
  rw [pair]
  exact inv.single check.1 (flag ▸ set)

/-- The created table. -/
theorem reachable_lengths_and_asserts_create :
    Reachable m4SyntaxCreate ∧
      m4SyntaxCreate.quote.len1 = strlen m4SyntaxCreate.quote.str1 ∧
      m4SyntaxCreate.quote.len2 = strlen m4SyntaxCreate.quote.str2 ∧
      m4SyntaxCreate.comm.len1 = strlen m4SyntaxCreate.comm.str1 ∧
      m4SyntaxCreate.comm.len2 = strlen m4SyntaxCreate.comm.str2 ∧
      (m4SyntaxCreate.isSingleQuotes = true →
        m4SyntaxCreate.quote.len1 = 1 ∧ m4SyntaxCreate.quote.len2 = 1) ∧
      (m4SyntaxCreate.isSingleComments = true →
        m4SyntaxCreate.comm.len1 = 1 ∧ m4SyntaxCreate.comm.len2 = 1) ∧
      ∀ op : SyntaxOp, ∀ check ∈ op.singleChecks m4SyntaxCreate, singleAssert check.1 check.2 :=
  ⟨.create, reachable_lengths_and_asserts .create⟩

end M4Syntax
