import M4Syntax.Category
import M4Syntax.Table
import M4Syntax.Check
import M4Syntax.SetSyntax
import M4Syntax.Delimiters
import M4Syntax.Invariant
import M4Syntax.Verbs
import M4Syntax.Installers
import M4Syntax.Cache
import M4Syntax.Reset
import M4Syntax.SyntaxAge
import M4Syntax.Safety
import M4Syntax.SingleCheck
import M4Syntax.Escape
import M4Syntax.QuoteAge
import M4Syntax.Twice
import M4Syntax.Fixed
import M4Syntax.Flags
import M4Syntax.Stale
import M4Syntax.CacheReads
import M4Syntax.Interface
import M4Syntax.Compose
import M4Syntax.EntryView
