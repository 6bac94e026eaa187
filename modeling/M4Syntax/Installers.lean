import M4Syntax.Verbs

/-!
# What the installers leave

`m4_set_quotes` and `m4_set_comment` run one body on their own role family: LQUOTE and RQUOTE
for quotes, BCOMM and ECOMM for comments. On a well-formed entry the sweep takes a holder of the
start basis back to its default, or to OTHER, and clears the end mask; the install then puts the
start basis on the first byte of the left string and the end mask on the first byte of the right
one (`basisBits_installedEntry`, `m4HasSyntax_installedEntry`).

So a call that changes the pair leaves what `InstallSpec` describes: when the flag is set, the
first byte of the left string is the only holder of the start basis and the first byte of the
right string the only holder of the end mask, and otherwise no byte holds either; the flag is
set exactly when both strings are one byte long and the start byte held no blocking basis; the
other family's mask is untouched; and only the start byte and the former holders of the start
basis change basis (`setDelimiters_installSpec`, `m4SetQuotes_m4SetComment_installSpec`).

A stored pair is a fixpoint of the argument policy, so reinstalling the current delimiters
changes nothing, and a second identical call finds its strings stored
(`m4SetQuotes_m4SetComment_idempotent`).

The sweep does not look at the other family. Making the hash the left quote takes it out of
BCOMM; after a new begin-comment, restoring the default quotes sends the hash back to its
default basis BCOMM, beside the byte the comment delimiters name
(`changequote_hash_restores_bcomm`).
-/

set_option autoImplicit false

namespace M4Syntax

open SyntaxCategory

/-! ## Mask tests under the writes -/

section MaskTests

variable {x : BitVec 16} {c m : SyntaxCategory}

theorem m4HasSyntax_or_entry {y c : BitVec 16} :
    m4HasSyntax (x ||| y) c = (m4HasSyntax x c || m4HasSyntax y c) := by
  have split : (x ||| y) &&& c = (x &&& c) ||| (y &&& c) := by
    ext i
    simp only [BitVec.getLsbD_and, BitVec.getLsbD_or]
    cases c.getLsbD i <;> simp
  rw [Bool.eq_iff_iff]
  simp only [m4HasSyntax, split, bne_iff_ne, ne_eq, or_eq_zero_iff, not_and_or, Bool.or_eq_true]

theorem code_and_code_of_ne (differ : c ≠ m) : c.code &&& m.code = 0 := by
  by_contra nonzero
  exact differ ((code_and_code c m).1 nonzero).1

/-- Removing a mask clears its own test and leaves the test of any other category. -/
theorem m4HasSyntax_removeSyntaxAttribute :
    m4HasSyntax (removeSyntaxAttribute x c.code) m.code = (m != c && m4HasSyntax x m.code) := by
  by_cases same : c = m
  · subst same
    have cleared : x &&& ~~~c.code &&& c.code = 0 := by
      ext i
      simp only [BitVec.getLsbD_and, BitVec.getLsbD_not, BitVec.getLsbD_zero]
      cases c.code.getLsbD i <;> simp
    simp [m4HasSyntax, removeSyntaxAttribute, cleared]
  · have disjoint := code_and_code_of_ne (Ne.symm same)
    have kept : x &&& ~~~c.code &&& m.code = x &&& m.code := by
      ext i
      have bit := getLsbD_of_and_eq_zero disjoint i
      simp only [BitVec.getLsbD_and, BitVec.getLsbD_not]
      revert bit
      cases m.code.getLsbD i <;> cases c.code.getLsbD i <;> simp
    simp [m4HasSyntax, removeSyntaxAttribute, kept, Ne.symm same]

/-- Adding a basis keeps every mask test. -/
theorem m4HasSyntax_addSyntaxAttribute_basis (basis : c.isMask = false) (mask : m.isMask = true) :
    m4HasSyntax (addSyntaxAttribute x c.code) m.code = m4HasSyntax x m.code := by
  have differ : c ≠ m := by rintro rfl; simp [basis] at mask
  rw [addSyntaxAttribute_basis x basis, m4HasSyntax_or_entry,
    ← m4HasSyntax_mask (code_and_not_masks mask), m4HasSyntax_code_code]
  simp [differ]

/-- Adding a mask sets its own test and leaves the test of any other category. -/
theorem m4HasSyntax_addSyntaxAttribute_mask (mask : c.isMask = true) :
    m4HasSyntax (addSyntaxAttribute x c.code) m.code = (c == m || m4HasSyntax x m.code) := by
  have real : (c != ignore) = true := by cases c <;> first | rfl | cases mask
  rw [addSyntaxAttribute_mask x mask, m4HasSyntax_or_entry, m4HasSyntax_code_code, real,
    Bool.and_true, Bool.or_comm]

end MaskTests

/-! ## One entry under the sweep and the install -/

section Entry

variable {x : BitVec 16} {d : Delim} {orig : Byte → BitVec 16} {b : Byte}
  {blocking : BitVec 16} {s : M4SyntaxTable} {left right : List Byte}

theorem basisBits_installedEntry (entry : s.table b = x) (origEq : s.orig = orig) :
    basisBits (installedEntry d blocking s left right b) =
      if installsSingle blocking s left right = true ∧ b = firstByte left then d.start.code
      else basisBits (clearDelimEntry d orig b x) := by
  have stopKeeps : ∀ (P : Prop) [Decidable P] (e : BitVec 16),
      basisBits (if P then addSyntaxAttribute e d.stop.code else e) = basisBits e := fun P _ e => by
    split
    · rw [addSyntaxAttribute_mask e (Delim.stop_isMask d),
        basisBits_or_of_inMasks (code_and_not_masks (Delim.stop_isMask d))]
    · rfl
  rw [installedEntry, firstByte_cstr, firstByte_cstr, entry, origEq, stopKeeps]
  by_cases chosen : installsSingle blocking s left right = true ∧ b = firstByte left
  · rw [if_pos (by simpa using chosen), if_pos chosen,
      basisBits_addSyntaxAttribute _ (Delim.start_isMask d)]
  · rw [if_neg (by simpa using chosen), if_neg chosen]

variable {o : SyntaxCategory} (default : orig b = o.code) (basis : o.isMask = false)
include default basis

theorem basisBits_clearDelimEntry (wf : EntryWF x) :
    basisBits (clearDelimEntry d orig b x) =
      if basisBits x = d.start.code then (if o = d.start then other.code else o.code)
      else basisBits x := by
  have stopped : ∀ e : BitVec 16, basisBits (if m4HasSyntax e d.stop.code then
      removeSyntaxAttribute e d.stop.code else e) = basisBits e := fun e => by
    split
    · exact basisBits_and_not_of_inMasks (code_and_not_masks (Delim.stop_isMask d))
    · rfl
  rw [clearDelimEntry, stopped, m4HasSyntax_code_of_entryWF wf (Delim.start_isMask d)]
  by_cases holds : basisBits x = d.start.code
  · by_cases restart : o = d.start
    · simp [holds, restart, default, basisBits_addSyntaxAttribute x (rfl : other.isMask = false)]
    · have differ : o.code ≠ d.start.code := fun same => restart (code_inj.1 same)
      simp [holds, restart, default, differ, basisBits_addSyntaxAttribute x basis]
  · simp [holds]

/-- The sweep leaves no holder of the start basis. -/
theorem basisBits_clearDelimEntry_ne (wf : EntryWF x) :
    basisBits (clearDelimEntry d orig b x) ≠ d.start.code := by
  rw [basisBits_clearDelimEntry default basis wf]
  split
  · split
    · cases d <;> decide
    · exact fun same => ‹¬o = d.start› (code_inj.1 same)
  · assumption

theorem m4HasSyntax_clearDelimEntry {m : SyntaxCategory} (mask : m.isMask = true) :
    m4HasSyntax (clearDelimEntry d orig b x) m.code = (m != d.stop && m4HasSyntax x m.code) := by
  have restored : m4HasSyntax (if m4HasSyntax x d.start.code then
      addSyntaxAttribute x (if orig b = d.start.code then other.code else orig b) else x) m.code =
        m4HasSyntax x m.code := by
    split
    · split
      · exact m4HasSyntax_addSyntaxAttribute_basis rfl mask
      · rw [default]
        exact m4HasSyntax_addSyntaxAttribute_basis basis mask
    · rfl
  have stopped : ∀ e : BitVec 16, m4HasSyntax (if m4HasSyntax e d.stop.code then
      removeSyntaxAttribute e d.stop.code else e) m.code = (m != d.stop && m4HasSyntax e m.code) :=
    fun e => by
      split
      · rw [m4HasSyntax_removeSyntaxAttribute]
      · rename_i absent
        by_cases same : m = d.stop
        · subst same
          simp [absent]
        · simp [same]
  rw [clearDelimEntry]
  exact (stopped _).trans (by rw [restored])

theorem m4HasSyntax_installedEntry (entry : s.table b = x) (origEq : s.orig = orig)
    {m : SyntaxCategory} (mask : m.isMask = true) :
    m4HasSyntax (installedEntry d blocking s left right b) m.code =
      if m = d.stop then installsSingle blocking s left right && b == firstByte right
      else m4HasSyntax x m.code := by
  have startKeeps : ∀ e : BitVec 16,
      m4HasSyntax (addSyntaxAttribute e d.start.code) m.code = m4HasSyntax e m.code :=
    fun _ => m4HasSyntax_addSyntaxAttribute_basis (Delim.start_isMask d) mask
  have stopSets : ∀ e : BitVec 16, m4HasSyntax (addSyntaxAttribute e d.stop.code) m.code =
      (d.stop == m || m4HasSyntax e m.code) := fun e => by
    rw [m4HasSyntax_addSyntaxAttribute_mask (Delim.stop_isMask d)]
  rw [installedEntry, firstByte_cstr, firstByte_cstr, entry, origEq]
  rw [apply_ite (m4HasSyntax · m.code), stopSets, apply_ite (m4HasSyntax · m.code), startKeeps,
    ite_self, m4HasSyntax_clearDelimEntry default basis mask]
  by_cases same : m = d.stop
  · subst same
    cases installsSingle blocking s left right <;> by_cases here : b = firstByte right <;>
      simp [here]
  · have differ : (d.stop == m) = false := by simpa using Ne.symm same
    simp [same, differ]

end Entry

/-! ## What a call that changes the pair leaves -/

/-- What an installer for the role family `d` leaves in `s'`, from `s`, when it stores `left`
and `right`; `blockers` are the bases of the start byte that keep the flag off. -/
structure InstallSpec (d : Delim) (blockers : List SyntaxCategory) (s s' : M4SyntaxTable)
    (left right : List Byte) : Prop where
  startBasis : ∀ b, basisBits (s'.table b) = d.start.code ↔
    s'.isSingle d = true ∧ b = firstByte left
  stopMask : ∀ b, m4HasSyntax (s'.table b) d.stop.code = true ↔
    s'.isSingle d = true ∧ b = firstByte right
  single : s'.isSingle d = true ↔ strlen left = 1 ∧ strlen right = 1 ∧
    ∀ c ∈ blockers, basisBits (s.table (firstByte left)) ≠ c.code
  otherMasks : ∀ m : SyntaxCategory, m.isMask = true → m ≠ d.stop → ∀ b,
    m4HasSyntax (s'.table b) m.code = m4HasSyntax (s.table b) m.code
  basisFrame : ∀ b, basisBits (s'.table b) ≠ basisBits (s.table b) →
    b = firstByte left ∨ basisBits (s.table b) = d.start.code

/-- The body of both installers, on a state satisfying the invariant and a pair it does not
hold, leaves what `InstallSpec` describes, for a blocking code whose test on a well-formed entry
is the test of the `blockers`. -/
theorem setDelimiters_installSpec {d : Delim} {blocking : BitVec 16} {s : M4SyntaxTable}
    {left right : List Byte} (inv : SyntaxInv s) (differ : ¬sameDelimiters d s left right)
    {blockers : List SyntaxCategory}
    (blocks : ∀ x, EntryWF x →
      (m4HasSyntax x blocking = true ↔ ∃ c ∈ blockers, basisBits x = c.code)) :
    InstallSpec d blockers s (setDelimiters d blocking s left right) left right := by
  have flag : (setDelimiters d blocking s left right).isSingle d =
      installsSingle blocking s left right := by
    rw [setDelimiters_isSingle differ, if_pos rfl]
  have defaults : ∀ b, ∃ o : SyntaxCategory, s.orig b = o.code ∧ o.isMask = false :=
    fun b => by
    obtain ⟨o, basis, _, default⟩ := m4SyntaxOrig_basis b
    exact ⟨o, inv.orig ▸ default, basis⟩
  refine ⟨fun b => ?_, fun b => ?_, ?_, fun m mask other b => ?_, fun b => ?_⟩
  · obtain ⟨o, default, basis⟩ := defaults b
    rw [setDelimiters_table differ, basisBits_installedEntry rfl rfl, flag]
    split
    · simpa
    · exact iff_of_false (basisBits_clearDelimEntry_ne default basis (inv.entries b)) ‹_›
  · obtain ⟨o, default, basis⟩ := defaults b
    rw [setDelimiters_table differ, m4HasSyntax_installedEntry default basis rfl rfl
      (Delim.stop_isMask d), flag]
    simp
  · rw [flag, installsSingle]
    simp only [storedPair, firstByte_cstr, Bool.and_eq_true, beq_iff_eq, Bool.not_eq_true']
    rw [← Bool.not_eq_true, blocks _ (inv.entries _)]
    simp [strlen, and_assoc]
  · obtain ⟨o, default, basis⟩ := defaults b
    rw [setDelimiters_table differ, m4HasSyntax_installedEntry default basis rfl rfl mask,
      if_neg other]
  · obtain ⟨o, default, basis⟩ := defaults b
    rw [setDelimiters_table differ, basisBits_installedEntry rfl rfl,
      basisBits_clearDelimEntry default basis (inv.entries b)]
    split
    · rename_i chosen
      exact fun _ => .inl chosen.2
    · split
      · exact fun _ => .inr ‹_›
      · exact fun changed => absurd rfl changed

theorem m4HasSyntax_quoteBlocking {x : BitVec 16} (wf : EntryWF x) :
    m4HasSyntax x quoteBlocking = true ↔
      ∃ c ∈ [escape, alpha, num], basisBits x = c.code := by
  simp only [quoteBlocking, m4HasSyntax_or_code,
    m4HasSyntax_code_of_entryWF wf (rfl : ignore.isMask = false),
    m4HasSyntax_code_of_entryWF wf (rfl : escape.isMask = false),
    m4HasSyntax_code_of_entryWF wf (rfl : alpha.isMask = false),
    m4HasSyntax_code_of_entryWF wf (rfl : num.isMask = false)]
  simp [or_assoc]

theorem m4HasSyntax_commentBlocking {x : BitVec 16} (wf : EntryWF x) :
    m4HasSyntax x commentBlocking = true ↔
      ∃ c ∈ [escape, alpha, num, lquote], basisBits x = c.code := by
  simp only [commentBlocking, m4HasSyntax_or_code,
    m4HasSyntax_code_of_entryWF wf (rfl : ignore.isMask = false),
    m4HasSyntax_code_of_entryWF wf (rfl : escape.isMask = false),
    m4HasSyntax_code_of_entryWF wf (rfl : alpha.isMask = false),
    m4HasSyntax_code_of_entryWF wf (rfl : num.isMask = false),
    m4HasSyntax_code_of_entryWF wf (rfl : lquote.isMask = false)]
  simp [or_assoc]

/-- From every reachable state, on all arguments whose defaulted pair is not the stored one,
`m4_set_quotes` leaves what `InstallSpec` describes with ESCAPE, ALPHA and NUM keeping its flag
off, and `m4_set_comment` with those and LQUOTE. -/
theorem m4SetQuotes_m4SetComment_installSpec {s : M4SyntaxTable} (reachable : Reachable s)
    (lq rq bc ec : Option (List Byte)) :
    (¬sameDelimiters .quote s (quoteArgs lq rq).1 (quoteArgs lq rq).2 →
      InstallSpec .quote [escape, alpha, num] s (m4SetQuotes s lq rq)
        (quoteArgs lq rq).1 (quoteArgs lq rq).2) ∧
    (¬sameDelimiters .comm s (commentArgs bc ec).1 (commentArgs bc ec).2 →
      InstallSpec .comm [escape, alpha, num, lquote] s (m4SetComment s bc ec)
        (commentArgs bc ec).1 (commentArgs bc ec).2) :=
  ⟨fun differ => setDelimiters_installSpec reachable.syntaxInv differ
      fun _ wf => m4HasSyntax_quoteBlocking wf,
    fun differ => setDelimiters_installSpec reachable.syntaxInv differ
      fun _ wf => m4HasSyntax_commentBlocking wf⟩

/-- `changequote([, ])` and `changecom(%)` on the created table. -/
theorem m4SetQuotes_m4SetComment_installSpec_brackets :
    Reachable m4SyntaxCreate ∧
      ¬sameDelimiters .quote m4SyntaxCreate (quoteArgs (some [91]) (some [93])).1
        (quoteArgs (some [91]) (some [93])).2 ∧
      ¬sameDelimiters .comm m4SyntaxCreate (commentArgs (some [37]) none).1
        (commentArgs (some [37]) none).2 ∧
      InstallSpec .quote [escape, alpha, num] m4SyntaxCreate
        (m4SetQuotes m4SyntaxCreate (some [91]) (some [93]))
        (quoteArgs (some [91]) (some [93])).1 (quoteArgs (some [91]) (some [93])).2 ∧
      InstallSpec .comm [escape, alpha, num, lquote] m4SyntaxCreate
        (m4SetComment m4SyntaxCreate (some [37]) none)
        (commentArgs (some [37]) none).1 (commentArgs (some [37]) none).2 :=
  have differQuote : ¬sameDelimiters .quote m4SyntaxCreate (quoteArgs (some [91]) (some [93])).1
      (quoteArgs (some [91]) (some [93])).2 := by decide
  have differComm : ¬sameDelimiters .comm m4SyntaxCreate (commentArgs (some [37]) none).1
      (commentArgs (some [37]) none).2 := by decide
  have both := m4SetQuotes_m4SetComment_installSpec .create (some [91]) (some [93]) (some [37]) none
  ⟨.create, differQuote, differComm, both.1 differQuote, both.2 differComm⟩

/-! ## Reinstalling and repeating -/

theorem firstByte_eq_zero_iff {buffer : List Byte} (nul : (0 : Byte) ∉ buffer) :
    firstByte buffer = 0 ↔ buffer = [] := by
  cases buffer with
  | nil => simp [firstByte]
  | cons b rest =>
      simp only [firstByte, List.headD_cons, reduceCtorEq, iff_false]
      exact fun zero => nul (zero ▸ List.mem_cons_self b rest)

/-- A stored pair is a fixpoint of both argument policies. -/
theorem PairWF.args_stored {p : M4StringPair} (wf : PairWF p) :
    quoteArgs (some p.str1) (some p.str2) = (p.str1, p.str2) ∧
      commentArgs (some p.str1) (some p.str2) = (p.str1, p.str2) := by
  have kept : ¬(firstByte p.str1 ≠ 0 ∧ firstByte p.str2 = 0) := fun ⟨open', closed'⟩ =>
    wf.closed (mt (firstByte_eq_zero_iff wf.nul1).2 open')
      ((firstByte_eq_zero_iff wf.nul2).1 closed')
  simp [quoteArgs, commentArgs, kept]

theorem setDelimiters_twice (d : Delim) (blocking : BitVec 16) (s : M4SyntaxTable)
    (left right : List Byte) :
    setDelimiters d blocking (setDelimiters d blocking s left right) left right =
      setDelimiters d blocking s left right := by
  by_cases same : sameDelimiters d s left right
  · rw [setDelimiters_of_same d blocking s left right same, setDelimiters_of_same _ _ _ _ _ same]
  · apply setDelimiters_of_same
    rw [sameDelimiters, setDelimiters_pair same, if_pos rfl]
    simp [storedPair]

/-- Reinstalling the stored delimiters of a reachable state changes nothing, and for every
state and all arguments a second identical call of an installer changes nothing more. -/
theorem m4SetQuotes_m4SetComment_idempotent :
    (∀ s : M4SyntaxTable, Reachable s →
      m4SetQuotes s (some (m4GetSyntaxLquote s)) (some (m4GetSyntaxRquote s)) = s ∧
        m4SetComment s (some (m4GetSyntaxBcomm s)) (some (m4GetSyntaxEcomm s)) = s) ∧
    (∀ (s : M4SyntaxTable) (lq rq : Option (List Byte)),
      m4SetQuotes (m4SetQuotes s lq rq) lq rq = m4SetQuotes s lq rq) ∧
    (∀ (s : M4SyntaxTable) (bc ec : Option (List Byte)),
      m4SetComment (m4SetComment s bc ec) bc ec = m4SetComment s bc ec) := by
  refine ⟨fun s reachable => ?_, fun s lq rq => setDelimiters_twice _ _ _ _ _,
    fun s bc ec => setDelimiters_twice _ _ _ _ _⟩
  have quote := (reachable.syntaxInv.pairs .quote).args_stored
  have comm := (reachable.syntaxInv.pairs .comm).args_stored
  exact ⟨by simp only [m4SetQuotes, m4GetSyntaxLquote, m4GetSyntaxRquote]
            rw [show s.quote = s.pair .quote from rfl, quote.1]
            exact setDelimiters_of_same _ _ _ _ _ ⟨rfl, rfl⟩,
         by simp only [m4SetComment, m4GetSyntaxBcomm, m4GetSyntaxEcomm]
            rw [show s.comm = s.pair .comm from rfl, comm.2]
            exact setDelimiters_of_same _ _ _ _ _ ⟨rfl, rfl⟩⟩

/-- Reinstalling the created table's delimiters. -/
theorem m4SetQuotes_m4SetComment_idempotent_create :
    Reachable m4SyntaxCreate ∧
      m4SetQuotes m4SyntaxCreate (some (m4GetSyntaxLquote m4SyntaxCreate))
          (some (m4GetSyntaxRquote m4SyntaxCreate)) = m4SyntaxCreate ∧
        m4SetComment m4SyntaxCreate (some (m4GetSyntaxBcomm m4SyntaxCreate))
          (some (m4GetSyntaxEcomm m4SyntaxCreate)) = m4SyntaxCreate :=
  ⟨.create, m4SetQuotes_m4SetComment_idempotent.1 m4SyntaxCreate .create⟩

/-! ## The sweep restores the other family's start -/

set_option maxRecDepth 4000 in
/-- `changequote(#)`, `changecom(%)` and then `changequote` from the created table: the hash is
back in BCOMM, while the comment delimiters, still single, begin with the percent sign. -/
theorem changequote_hash_restores_bcomm :
    basisBits ((runOps [.setQuotes (some [35]) none, .setComment (some [37]) none,
        .setQuotes none none] m4SyntaxCreate).table 35) = bcomm.code ∧
      (runOps [.setQuotes (some [35]) none, .setComment (some [37]) none,
        .setQuotes none none] m4SyntaxCreate).isSingleComments = true ∧
      firstByte (runOps [.setQuotes (some [35]) none, .setComment (some [37]) none,
        .setQuotes none none] m4SyntaxCreate).comm.str1 = 37 := by
  simp only [runOps, List.foldl_cons, List.foldl_nil, SyntaxOp.apply, m4SetQuotes, m4SetComment,
    setDelimiters_table_apply, installedEntry, installsSingle]
  decide

end M4Syntax
