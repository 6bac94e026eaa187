import M4Syntax.Flags

/-!
# When a call of the risky kind makes a flag stale

`+` of a basis category writes that basis over every byte of its string, and `m4_set_quotes`
puts LQUOTE on its new start byte; neither rechecks the other flags. Each such call keeps a
truthful flag exactly when it spares what the flag depends on.

**The single flags.** `+` of a basis other than the start basis of a family keeps that family's
truthful flag iff the flag is clear or the stored start byte is not in the string
(`add_basis_single_flag_sound_iff`). The end mask survives every `+`.

**The escape flag.** `+` of a basis other than ESCAPE keeps an exact escape flag iff the flag is
clear or some escape lies outside the string (`add_basis_escape_flag_exact_iff`).

**The comment flag under `changequote`.** From a reachable state, `m4_set_quotes` keeps a
truthful single-comment flag iff it does not install a one-byte left quote on the stored
begin-comment byte (`m4SetQuotes_comment_flag_sound_iff`). BCOMM is not among the quote
installer's blocking bases, while LQUOTE is among the comment installer's, so the converse
case never arises.

None of the three needs more than the flag being truthful before the call, except the last,
which reads the invariant of reachable states.
-/

set_option autoImplicit false

namespace M4Syntax

open SyntaxCategory

section Writes

variable {x : BitVec 16} {c k : SyntaxCategory} (s : M4SyntaxTable) (chars : List Byte)

/-- `+` of a basis takes its byte out of every other basis. -/
theorem m4HasSyntax_addSyntaxAttribute_other (basis : c.isMask = false)
    (basisK : k.isMask = false) (other : c ≠ k) :
    m4HasSyntax (addSyntaxAttribute x c.code) k.code = false := by
  rw [m4HasSyntax_basis ((code_and_masks k).2 basisK), basisBits_addSyntaxAttribute x basis,
    m4HasSyntax_code_code]
  simp [other]

/-- `+` of any category but ESCAPE leaves the escape flag as it was. -/
theorem isMacroEscaped_addSyntaxSet (other : c ≠ escape) :
    (addSyntaxSet s chars c.code).isMacroEscaped = s.isMacroEscaped := by
  unfold addSyntaxSet
  split
  · rfl
  · dsimp only
    rw [if_neg (mt code_inj.1 other)]
    rfl

/-- A known key with `+` runs `add_syntax_set`, then moves the ages and drops the cache. -/
theorem m4SetSyntax_add {key : Byte} (known : m4SyntaxCode key = some c) :
    (m4SetSyntax s key .add chars).1 =
      m4QuoteUncache (setQuoteAge (addSyntaxSet s chars c.code) false true) := by
  rw [m4SetSyntax_of_known s chars c known]
  rfl

end Writes

/-! ## `+` of a basis -/

/-- `+` of a basis other than the start basis of `d` keeps a truthful single flag of `d` exactly
when the flag is clear or the stored start byte is not in the string. -/
theorem add_basis_single_flag_sound_iff {s : M4SyntaxTable} (d : Delim) (sound : SingleSound d s)
    {key : Byte} {c : SyntaxCategory} (known : m4SyntaxCode key = some c)
    (basis : c.isMask = false) (other : c ≠ d.start) (chars : List Byte) :
    SingleSound d (m4SetSyntax s key .add chars).1 ↔
      (s.isSingle d = true → firstByte (s.pair d).str1 ∉ cstr chars) := by
  simp only [SingleSound, m4SetSyntax_add s chars known, table_m4QuoteUncache,
    pair_m4QuoteUncache, isSingle_m4QuoteUncache, table_setQuoteAge, pair_setQuoteAge,
    isSingle_setQuoteAge, pair_addSyntaxSet, isSingle_addSyntaxSet, table_addSyntaxSet]
  constructor
  · intro after set inChars
    have lost := (after set).1
    rw [if_pos inChars, m4HasSyntax_addSyntaxAttribute_other basis (Delim.start_isMask d) other]
      at lost
    exact Bool.false_ne_true lost
  · intro spared set
    obtain ⟨start, stop⟩ := sound set
    refine ⟨by rwa [if_neg (spared set)], ?_⟩
    split
    · exact m4HasSyntax_add_mask (Delim.stop_isMask d) stop
    · exact stop

/-- `changesyntax(O+, "`")` on the created table, whose single quotes are truthful. -/
theorem add_basis_single_flag_sound_iff_backquote :
    SingleSound .quote m4SyntaxCreate ∧ m4SyntaxCode 79 = some other ∧
      other.isMask = false ∧ other ≠ Delim.quote.start ∧
      (SingleSound .quote (m4SetSyntax m4SyntaxCreate 79 .add [96]).1 ↔
        (m4SyntaxCreate.isSingle .quote = true →
          firstByte (m4SyntaxCreate.pair .quote).str1 ∉ cstr [96])) :=
  have known : m4SyntaxCode 79 = some other := by decide
  have differ : other ≠ Delim.quote.start := by decide
  ⟨FlagsTruthful.create.quotes, known, rfl, differ,
    add_basis_single_flag_sound_iff .quote FlagsTruthful.create.quotes known rfl differ [96]⟩

/-- `+` of a basis other than ESCAPE keeps an exact escape flag exactly when the flag is clear
or some escape lies outside the string. -/
theorem add_basis_escape_flag_exact_iff {s : M4SyntaxTable} (exact : EscapeExact s) {key : Byte}
    {c : SyntaxCategory} (known : m4SyntaxCode key = some c) (basis : c.isMask = false)
    (other : c ≠ escape) (chars : List Byte) :
    EscapeExact (m4SetSyntax s key .add chars).1 ↔
      (s.isMacroEscaped = true → ∃ b, b ∉ cstr chars ∧ basisBits (s.table b) = escape.code) := by
  have escapes : ∀ b, basisBits ((addSyntaxSet s chars c.code).table b) = escape.code ↔
      b ∉ cstr chars ∧ basisBits (s.table b) = escape.code := fun b => by
    rw [table_addSyntaxSet]
    by_cases inChars : b ∈ cstr chars
    · rw [if_pos inChars, basisBits_addSyntaxAttribute _ basis]
      simp [inChars, mt code_inj.1 other]
    · simp [inChars]
  simp only [EscapeExact, m4SetSyntax_add s chars known, isMacroEscaped_m4QuoteUncache,
    isMacroEscaped_setQuoteAge, isMacroEscaped_addSyntaxSet s chars other, table_m4QuoteUncache,
    table_setQuoteAge, escapes]
  exact ⟨fun after => after.1, fun before =>
    ⟨before, fun ⟨b, _, escaped⟩ => exact.2 ⟨b, escaped⟩⟩⟩

/-- `changesyntax(@+, "!")` and then `changesyntax(O+, "!")`: the only escape is overwritten. -/
theorem add_basis_escape_flag_exact_iff_bang :
    EscapeExact (m4SetSyntax m4SyntaxCreate 64 .add [33]).1 ∧ m4SyntaxCode 79 = some other ∧
      other.isMask = false ∧ other ≠ escape ∧
      (EscapeExact (m4SetSyntax (m4SetSyntax m4SyntaxCreate 64 .add [33]).1 79 .add [33]).1 ↔
        ((m4SetSyntax m4SyntaxCreate 64 .add [33]).1.isMacroEscaped = true →
          ∃ b, b ∉ cstr [33] ∧
            basisBits ((m4SetSyntax m4SyntaxCreate 64 .add [33]).1.table b) = escape.code)) :=
  have exact : EscapeExact (m4SetSyntax m4SyntaxCreate 64 .add [33]).1 :=
    FlagsTruthful.create.escapes.apply .create (.setSyntax 64 .add [33]) (by decide)
  have known : m4SyntaxCode 79 = some other := by decide
  ⟨exact, known, rfl, by decide, add_basis_escape_flag_exact_iff exact known rfl (by decide) [33]⟩

/-! ## `changequote` over the begin-comment byte -/

/-- From a reachable state, `m4_set_quotes` keeps a truthful single-comment flag exactly when it
does not install a one-byte left quote on the stored begin-comment byte. -/
theorem m4SetQuotes_comment_flag_sound_iff {s : M4SyntaxTable} (reachable : Reachable s)
    (sound : SingleSound .comm s) (lq rq : Option (List Byte)) :
    SingleSound .comm (m4SetQuotes s lq rq) ↔
      ¬(s.isSingle .comm = true ∧
        ¬sameDelimiters .quote s (quoteArgs lq rq).1 (quoteArgs lq rq).2 ∧
        installsSingle quoteBlocking s (quoteArgs lq rq).1 (quoteArgs lq rq).2 = true ∧
        firstByte (s.pair .comm).str1 = firstByte (quoteArgs lq rq).1) := by
  have inv := reachable.syntaxInv
  constructor
  · rintro after ⟨set, differ, installs, here⟩
    have flag : (m4SetQuotes s lq rq).isSingle .comm = true := by
      rwa [m4SetQuotes, setDelimiters_isSingle differ, if_neg (by decide)]
    have lost := (after flag).1
    rw [m4SetQuotes, setDelimiters_pair differ, if_neg (by decide), setDelimiters_table differ,
      m4HasSyntax_basis ((code_and_masks Delim.comm.start).2 (Delim.start_isMask _)),
      basisBits_installedEntry rfl rfl, if_pos ⟨installs, here⟩] at lost
    exact absurd lost (by decide)
  · intro spared
    by_cases same : sameDelimiters .quote s (quoteArgs lq rq).1 (quoteArgs lq rq).2
    · rwa [m4SetQuotes, setDelimiters_of_same _ _ _ _ _ same]
    · exact sound.setDelimiters_other inv (by decide) quoteBlocking _ _
        fun set ⟨installs, here⟩ => spared ⟨set, same, installs, here⟩

/-- `changequote(#, ')` on the created table. -/
theorem m4SetQuotes_comment_flag_sound_iff_hash :
    Reachable m4SyntaxCreate ∧ SingleSound .comm m4SyntaxCreate ∧
      (SingleSound .comm (m4SetQuotes m4SyntaxCreate (some [35]) (some [39])) ↔
        ¬(m4SyntaxCreate.isSingle .comm = true ∧
          ¬sameDelimiters .quote m4SyntaxCreate (quoteArgs (some [35]) (some [39])).1
            (quoteArgs (some [35]) (some [39])).2 ∧
          installsSingle quoteBlocking m4SyntaxCreate (quoteArgs (some [35]) (some [39])).1
            (quoteArgs (some [35]) (some [39])).2 = true ∧
          firstByte (m4SyntaxCreate.pair .comm).str1 =
            firstByte (quoteArgs (some [35]) (some [39])).1)) :=
  ⟨.create, FlagsTruthful.create.comments,
    m4SetQuotes_comment_flag_sound_iff .create FlagsTruthful.create.comments _ _⟩

end M4Syntax
