/-
The friends file, and the hub from one.

The hub writes its friend graph, its blocks and its friend codes to a file
after each change and takes them from it at start. Who is connected is not
in the file. A write that fails is not modelled: the file of a restart is
that of the last state.
-/
import Ruletka.Hub.Run
import Ruletka.Lib.Ties

namespace Ruletka

/-- What the hub itself keeps of `FriendsFile`. -/
structure FriendsFile where
  friendships : Finset (UserId × UserId)
  codeIndex : Table String UserId
  blocks : Finset (UserId × UserId)
  pending : Finset (UserId × UserId)
  matchBans : Table UserId Nat
  matchIpBans : Table String Nat
  matchIpBanUsers : Table String UserId
  userLastIp : Table UserId String

namespace FriendsFile

/-- A file that is not there. -/
def empty : FriendsFile := ⟨∅, ∅, ∅, ∅, ∅, ∅, ∅, ∅⟩

def ties (f : FriendsFile) : Ties UserId := ⟨f.friendships, f.pending, f.blocks⟩

end FriendsFile

namespace SimpleHub

/-- `persist_friends`. -/
def persistFriends (h : SimpleHub) : FriendsFile :=
  ⟨h.friendships, h.codeIndex, h.blocks, h.pending, h.matchBans, h.matchIpBans,
    h.matchIpBanUsers, h.userLastIp⟩

/-- The hub at start, on a friends file. -/
def load (sys : Sys) (f : FriendsFile) : SimpleHub :=
  { empty sys with
    friendships := f.friendships
    codeIndex := f.codeIndex
    blocks := f.blocks
    pending := f.pending
    matchBans := f.matchBans
    matchIpBans := f.matchIpBans
    matchIpBanUsers := f.matchIpBanUsers
    userLastIp := f.userLastIp }

/-- The friend graph of a hub. -/
def ties (h : SimpleHub) : Ties UserId := ⟨h.friendships, h.pending, h.blocks⟩

end SimpleHub

/-- Friend codes as a `Hello` files them: a code is that of its user, who has
a name. -/
def Coded (sys : Sys) (codes : Table String UserId) : Prop :=
  ∀ code user, codes.get? code = some user → code = sys.friendCodeFor user ∧ user ≠ ""

/-- A file as a hub writes it. -/
structure FriendsFile.Sound (sys : Sys) (f : FriendsFile) : Prop where
  ties : f.ties.Sound
  codes : Coded sys f.codeIndex

/-- The hub from a friends file, through events and restarts. -/
def friendsMachine (sys : Sys) : Machine World (Option Input) where
  start w := ∃ f : FriendsFile, f.Sound sys ∧ w = ⟨.load sys f, 0, ∅, ∅⟩
  step w i w' := match i with
    | some i => (hubMachine sys).step w i w'
    -- every socket closes with the process
    | none => w' = ⟨.load sys w.hub.persistFriends, w.now, w.used, w.used⟩

end Ruletka
