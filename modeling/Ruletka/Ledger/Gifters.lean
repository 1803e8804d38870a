/-
Who gave a user trust, read back from the edges of the ledger.

An edge is one text, the two names with a bar between them; who stands in
front of it is found by the end of the text.
-/
import Ruletka.Ledger.Store

namespace Ruletka

namespace Text

/-- Cut a text off the end of another as long as it is there. -/
def cutEnd (pat : List Char) : Nat → List Char → List Char
  | 0, l => l
  | fuel + 1, l =>
      if pat.isSuffixOf l then cutEnd pat fuel (l.take (l.length - pat.length)) else l

/-- `str::trim_end_matches` for a text that is not empty. -/
def trimEndMatches (s pat : String) : String :=
  String.ofList (cutEnd pat.toList s.toList.length s.toList)

end Text

namespace Ledger.StarLedger

open Text

variable (l : StarLedger)

/-- The edges that end in the user's name. -/
def edgesInto (user : String) : Finset String :=
  l.trust.edges.filter fun e => hasSuffix e ("|" ++ user)

/-- `trust_gifters`. -/
def trustGifters (user : String) : UInt32 :=
  if user = "" then 0 else UInt32.ofNat (l.edgesInto user).card

/-- `trust_giver_ids`. -/
def trustGiverIds (user : String) : List String :=
  if user = "" then []
  else (((l.edgesInto user).image fun e => trimEndMatches e ("|" ++ user)).filter
    fun «from» => «from» ≠ "" ∧ «from» ≠ user).sort (· ≤ ·)

end Ledger.StarLedger

end Ruletka
