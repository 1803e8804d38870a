/-
Rewriting the session descriptions of a call.

A description is a text of lines; a line that begins with `m=` opens a
section. `forceVideoSendrecvSdp` puts one direction into each video section,
the other two functions drop candidate lines. Texts are sequences of Unicode
scalar values; the patterns are those of the source, where letters match in
either case.
-/
import Ruletka.Lib.Lines
import Ruletka.Lib.Pattern
import Ruletka.Mobile.MatchPeers

namespace Ruletka.Mobile

abbrev Line : Type := List Char

namespace Sdp

open Pattern

-- ====================================================================== the patterns

/-- `/^m=/i` -/
def isMedia (l : Line) : Bool := begins isBlank (word "m=") l

/-- `/^m=video\b/i` -/
def isVideo (l : Line) : Bool := begins isBlank (word "m=video" ++ [.edge]) l

/-- `/^a=(sendrecv|recvonly|sendonly|inactive)\b/i` -/
def isDirection (l : Line) : Bool :=
  ["a=sendrecv", "a=recvonly", "a=sendonly", "a=inactive"].any fun d =>
    begins isBlank (word d ++ [.edge]) l

/-- `/^a=candidate:/i` -/
def isCandidate (l : Line) : Bool := begins isBlank (word "a=candidate:") l

/-- `/\btyp\s+host\b/i` and the like. -/
def hasType (type : String) (l : Line) : Bool :=
  occurs isBlank ([.edge] ++ word "typ" ++ [.blanks] ++ word type ++ [.edge]) l

/-- `/\.local\b/i` -/
def isLocal (l : Line) : Bool := occurs isBlank (word ".local" ++ [.edge]) l

def sendrecv : Line := "a=sendrecv".toList

-- ===================================================================== the rewriters

/-- What the loop of `forceVideoSendrecvSdp` keeps. -/
structure Scan where
  inVideo : Bool
  sawDir : Bool
  out : List Line

/-- One turn of the loop. -/
def Scan.read (s : Scan) (line : Line) : Scan :=
  if isVideo line then ⟨true, false, s.out ++ [line]⟩
  else if isMedia line then
    let out := if s.inVideo && !s.sawDir then s.out ++ [sendrecv] else s.out
    ⟨false, s.sawDir, out ++ [line]⟩
  else if s.inVideo && isDirection line then
    if s.sawDir then s else { s with out := s.out ++ [sendrecv], sawDir := true }
  else { s with out := s.out ++ [line] }

/-- The lines after the loop. -/
def Scan.finish (s : Scan) : List Line :=
  if s.inVideo && !s.sawDir then s.out ++ [sendrecv] else s.out

def forceVideoSendrecvSdp (sdp : List Char) : List Char :=
  if sdp = [] then sdp
  else Lines.join ((Lines.split sdp).foldl Scan.read ⟨false, false, []⟩).finish

/-- A candidate that names a host of the local network by its mDNS name. -/
def isMdnsHost (l : Line) : Bool := isCandidate l && isLocal l && hasType "host" l

def stripMdnsHostCandidatesFromSdp (sdp : List Char) : List Char :=
  if sdp = [] then sdp
  else Lines.join ((Lines.split sdp).filter fun l => !isMdnsHost l)

def isRelay (l : Line) : Bool := isCandidate l && hasType "relay" l

def stripNonRelayCandidatesFromSdp (sdp : List Char) : List Char :=
  if sdp = [] then sdp
  else
    let lines := Lines.split sdp
    let relayN := lines.countP isRelay
    let candN := lines.countP isCandidate
    if relayN = 0 ∨ relayN = candN then sdp
    else Lines.join (lines.filter fun l => !(isCandidate l && !hasType "relay" l))

end Sdp

end Ruletka.Mobile
