/-
The people of a match on the phone, beside the first partner.

The hub lists rows in a match; `extraPeersFromMatch` reads the ones that are
not the first partner, and `extrasAfterOmitPrimary` joins them with the rows
the phone shows already. Two rows are of one person when their peer ids
match loosely, or their user ids, or their friend codes. Texts are sequences
of Unicode scalar values; the full case maps of the language are parameters.
A row is what decides who it is of; what a tile paints is left out.
-/
import Mathlib.Data.List.Infix
import Mathlib.Algebra.Ring.Nat
import Ruletka.Lib.Text

namespace Ruletka.Mobile

-- =========================================================================== texts

/-- White space and line ends. -/
def isBlank (c : Char) : Bool :=
  let n := c.toNat
  (9 ≤ n && n ≤ 13) || n == 0x20 || n == 0xA0 || n == 0x1680 || (0x2000 ≤ n && n ≤ 0x200A)
    || n == 0x2028 || n == 0x2029 || n == 0x202F || n == 0x205F || n == 0x3000 || n == 0xFEFF

/-- `trim`. -/
def trim : String → String := Text.trimBy isBlank

/-- `length`: a character past the first plane counts twice. -/
def units (s : String) : Nat := (s.toList.map fun c => if c.toNat < 0x10000 then 1 else 2).sum

/-- `toLowerCase` and `toUpperCase`. -/
structure CaseMaps where
  lower : String → String
  upper : String → String
  lower_empty : lower "" = ""

/-- `a || b || …` of fields, and what stands when all are missing or empty. -/
def firstOf (fields : List (Option String)) (last : String) : String :=
  ((fields.filterMap id).find? (· ≠ "")).getD last

-- ======================================================================== peer ids

variable (T : CaseMaps)

/-- `fed/{session}/{peer}` without its first two parts. -/
def withoutSession (s : List Char) : List Char :=
  if "fed/".toList <+: s then
    let parts := s.splitOn '/'
    if 3 ≤ parts.length then
      let joined := ['/'].intercalate (parts.drop 2)
      if joined = [] then s else joined
    else s
  else s

def isKeyChar (c : Char) : Bool := ('a' ≤ c && c ≤ 'z') || ('0' ≤ c && c ≤ '9')

def normalizePeerIdKey (raw : String) : List Char :=
  let s := T.lower (trim raw)
  if s = "" then [] else (withoutSession s.toList).filter isKeyChar

/-- The length from which an id may stand for a longer one. -/
def shortIdLength : Nat := 8

def peerIdsLooseMatch (a b : String) : Bool :=
  let x := normalizePeerIdKey T a
  let y := normalizePeerIdKey T b
  if x = [] ∨ y = [] then false
  else x = y
    ∨ shortIdLength ≤ x.length ∧ shortIdLength ≤ y.length
      ∧ x.take shortIdLength = y.take shortIdLength
    ∨ shortIdLength ≤ x.length ∧ x <:+: y
    ∨ shortIdLength ≤ y.length ∧ y <:+: x

-- ============================================================================ rows

/-- A row of the hub, under either spelling of its fields. -/
structure MatchPeer where
  peer_id : Option String := none
  peerId : Option String := none
  user_id : Option String := none
  userId : Option String := none
  friend_code : Option String := none
  friendCode : Option String := none

structure PeerPick where
  peerId : String
  userId : String
  friendCode : String
  deriving DecidableEq, Repr

/-- A message whose `peers` is no array has none; a row may be no object. -/
structure ServerMatched where
  peers : Option (List (Option MatchPeer))

def normalizePeer (p : Option MatchPeer) : PeerPick :=
  let p := p.getD {}
  { peerId := firstOf [p.peer_id, p.peerId] "legacy"
    userId := firstOf [p.user_id, p.userId] ""
    friendCode := T.upper (trim (firstOf [p.friend_code, p.friendCode] "")) }

/-- One person on two rows. -/
def sameExtraPerson (a b : PeerPick) : Bool :=
  let aid := trim a.peerId
  let bid := trim b.peerId
  let au := trim a.userId
  let bu := trim b.userId
  let ac := T.upper (trim a.friendCode)
  let bc := T.upper (trim b.friendCode)
  (aid ≠ "" ∧ bid ≠ "" ∧ aid ≠ "legacy" ∧ bid ≠ "legacy")
      ∧ (aid = bid ∨ peerIdsLooseMatch T aid bid)
    ∨ (au ≠ "" ∧ bu ≠ "" ∧ au = bu)
    ∨ 6 ≤ units ac ∧ ac = bc

/-- `MAX_EXTRA_PEERS`: four people, of whom one is the user and one the first
partner. -/
def maxExtraPeers : Nat := 2

/-- An id of the first partner. -/
def isPrimary (primary id : String) : Bool :=
  primary ≠ "" ∧ (id = primary ∨ peerIdsLooseMatch T id primary)

/-- The loop of `extraPeersFromMatch`. -/
def pickExtras (primary : String) (out : List PeerPick) : List PeerPick → List PeerPick
  | [] => out
  | p :: rest =>
      if p.peerId = "" ∨ p.peerId = "legacy" then pickExtras primary out rest
      else if isPrimary T primary p.peerId then pickExtras primary out rest
      else if out.any (sameExtraPerson T · p) then pickExtras primary out rest
      else if maxExtraPeers ≤ (out ++ [p]).length then out ++ [p]
      else pickExtras primary (out ++ [p]) rest

def extraPeersFromMatch (msg : ServerMatched) (primaryPeerId : String) : List PeerPick :=
  pickExtras T (trim primaryPeerId) [] ((msg.peers.getD []).map (normalizePeer T))

-- =========================================================================== union

/-- What `extrasAfterOmitPrimary` is given beside the rows of the message. -/
structure OmitOpts where
  wasMatched : Bool
  prevSecondary : String
  prevExtras : Option (List PeerPick)
  listedIds : List String
  primaryId : String
  keepListed3rd : Option Bool

/-- Rows with an id, of somebody other than the first partner. -/
def isExtra (primary : String) (p : PeerPick) : Bool :=
  let id := trim p.peerId
  ¬ (id = "" ∨ id = "legacy") ∧ ¬ isPrimary T primary id

/-- A row to the list: at the end, unless a row of the same person is there;
then it stays or, with `replace`, gives way. -/
def placeExtra (replace : Bool) (out : List PeerPick) (p : PeerPick) : List PeerPick :=
  match out.findIdx? (sameExtraPerson T · p) with
  | some i => if replace then out.set i p else out
  | none => out ++ [p]

/-- `add`. -/
def addExtra (primary : String) (replace : Bool) (out : List PeerPick) (p : PeerPick) :
    List PeerPick :=
  if isExtra T primary p then placeExtra T replace out p else out

/-- The row that stands for the second partner's id alone. -/
def placeholderExtra (prev : String) : PeerPick := ⟨prev, "", ""⟩

def extrasAfterOmitPrimary (extras : List PeerPick) (o : OmitOpts) : List PeerPick :=
  let primary := trim o.primaryId
  let prevExtras := o.prevExtras.getD []
  if extras ≠ [] then
    if !o.wasMatched || o.keepListed3rd = some false then extras.take maxExtraPeers
    else
      let out := prevExtras.foldl (addExtra T primary false) []
      (extras.foldl (addExtra T primary true) out).take maxExtraPeers
  else if !o.wasMatched then extras
  else if o.keepListed3rd ≠ some true then extras
  else
    let listed := (o.listedIds.map trim).filter (· ≠ "")
    if ¬ (listed.all fun id => isPrimary T primary id || id = "legacy") then extras
    else
      let kept := prevExtras.filter (isExtra T primary)
      if kept ≠ [] then kept.take maxExtraPeers
      else
        let prev := trim o.prevSecondary
        if prev = "" ∨ prev = "legacy" then extras
        else if isPrimary T primary prev then extras
        else [placeholderExtra prev]

end Ruletka.Mobile
