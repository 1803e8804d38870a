/-
Start-up: the hub from its two files, and what it writes to them at once.

`friends.json` and `star_ledger.jsonl` are read with different policies. A
friends file that cannot be read or parsed counts as an empty one. Replay of
the ledger keeps what it has when it meets a line it does not accept, and a
ledger that cannot be read is begun empty on the same file. The friends file
is then written, whatever was read.

# What is outside

How `serde_json` writes and reads the friends file is a `FriendsFormat`.
`Disk` is what the disk does at this start: whether the friends file can be
read, whether the new one gets written and renamed, and how reading the
ledger goes. The ledger's own writes fail only in a file without room. A text
file is its characters, with `none` for a byte that is not part of UTF-8
text.
-/
import Ruletka.Hub.Friends
import Ruletka.Star.Effect
import Ruletka.Chat.Dm
import Ruletka.Ledger.Store

namespace Ruletka

open Ledger

deriving instance DecidableEq for FriendsFile

/-- `FriendsFile`, whole. -/
structure FriendsStore extends FriendsFile where
  names : Table UserId String
  avatars : Table UserId String
  reportReporters : Table UserId (Finset UserId)
  dms : Table String (List StoredDm)
  starCounts : Table String UInt64
  starEdges : Finset String
  vouchEdges : Finset String
  starEffects : Table UserId StarEffectRecord
  hourStarSessions : Finset String
  noSkipUntil : Table UserId Nat
  pleaseStayLast : Table String Nat
  barsEdgesLast : Table String Nat
  socialForceMutedUntil : Table UserId Nat
  deriving DecidableEq

/-- `FriendsFile::default`. -/
def FriendsStore.empty : FriendsStore :=
  ⟨.empty, ∅, ∅, ∅, ∅, ∅, ∅, ∅, ∅, ∅, ∅, ∅, ∅, ∅⟩

/-- `to_string_pretty` and `from_str` on the friends store. -/
structure FriendsFormat where
  print : FriendsStore → String
  parse : String → Option FriendsStore

/-- The characters of a text file. -/
abbrev RawText : Type := List (Option Char)

/-- What the text of a friends file stands for. -/
def FriendsFormat.read (format : FriendsFormat) (raw : RawText) : Option FriendsStore :=
  if raw.any Option.isNone then none else format.parse (String.ofList (raw.filterMap id))

/-- How reading the ledger goes. -/
inductive LedgerRead where
  | fine
  /-- `exists` cannot see the file -/
  | hidden
  /-- the open (`0`) or the read of a later line fails -/
  | fails (line : Nat)
  deriving DecidableEq, Repr

/-- What the disk does at a start. -/
structure Disk where
  friendsRead : Bool
  friendsWritten : Bool
  ledgerRead : LedgerRead

/-- The two files; a friends file may be missing. -/
structure Files where
  friends : Option RawText
  ledger : LedgerFile

-- ====================================================================== the friends

/-- `friends_store::load`. -/
def loadFriends (format : FriendsFormat) (disk : Disk) (file : Option RawText) :
    FriendsStore :=
  match file with
  | none => .empty
  | some raw => if disk.friendsRead then (format.read raw).getD .empty else .empty

/-- `friends_store::save`; a write that fails leaves the file as it is. -/
def saveFriends (format : FriendsFormat) (disk : Disk) (file : Option RawText)
    (data : FriendsStore) : Option RawText :=
  if disk.friendsWritten then some (rawOf (format.print data)) else file

-- ======================================================================= the ledger

/-- The lines `replay_file` gets to see, ending in one that fails. -/
def LedgerRead.seen (read : LedgerRead) (f : LedgerFile) : List RawLine :=
  match read with
  | .fine => f.all
  | .hidden => []
  | .fails line => f.all.take line ++ [[none]]

section
variable (sha256 : String → List UInt8) (codec : LineCodec)

/-- The appends of the seeding, and whether all of them went through. -/
def seedAll (ts : UInt64) (s : Store) : List (String × UInt64) → (ids : Nat → String) →
    Store × Bool
  | [], _ => (s, true)
  | (uid, amt) :: entries, ids =>
      match s.appendEvent sha256 codec kindAdjust "" uid amt "genesis_snapshot" "" ""
        ⟨ids 0, ts⟩ with
      | .ok (_, s) => seedAll ts s entries fun n => ids (n + 1)
      | .error _ => (s, false)

/-- `load_or_migrate`, and the empty ledger on the same file where it fails. -/
def startLedger (read : LedgerRead) (f : LedgerFile) (legacyCounts : Table String UInt64)
    (ids : Nat → String) (ts : UInt64) : Store :=
  match scan (StarLedger.replayLine sha256 codec) .empty (read.seen f) with
  | none => ⟨.empty, f⟩
  | some (ledger, _) =>
      if ledger.seq = 0 then
        match seedAll sha256 codec ts ⟨ledger, f⟩ (Store.genesisEntries legacyCounts) ids with
        | (s, true) => s
        | (s, false) => ⟨.empty, s.file⟩
      else ⟨ledger, f⟩

end

-- ========================================================================== the hub

/-- What the hub keeps on disk. -/
structure StoredHub where
  hub : SimpleHub
  knownNames : Table UserId String
  knownAvatars : Table UserId String
  reportReporters : Table UserId (Finset UserId)
  dms : Table String (List StoredDm)
  starCounts : Table String UInt64
  starLedger : Store
  starEdges : Finset String
  vouchEdges : Finset String
  starEffects : Table UserId StarEffectRecord
  hourStarSessions : Finset String
  noSkipUntil : Table UserId Nat
  pleaseStayLast : Table String Nat
  barsEdgesLast : Table String Nat
  socialForceMutedUntil : Table UserId Nat

namespace StoredHub

/-- The hub from what was loaded; the ledger has the star counts. -/
def ofStored (sys : Sys) (stored : FriendsStore) (starLedger : Store) : StoredHub where
  hub := .load sys stored.toFriendsFile
  knownNames := stored.names
  knownAvatars := stored.avatars
  reportReporters := stored.reportReporters
  dms := stored.dms
  starCounts := starLedger.ledger.balances
  starLedger := starLedger
  starEdges := stored.starEdges
  vouchEdges := stored.vouchEdges
  starEffects := stored.starEffects
  hourStarSessions := stored.hourStarSessions
  noSkipUntil := stored.noSkipUntil
  pleaseStayLast := stored.pleaseStayLast
  barsEdgesLast := stored.barsEdgesLast
  socialForceMutedUntil := stored.socialForceMutedUntil

/-- The data `persist_friends` writes. -/
def persistFriends (h : StoredHub) : FriendsStore where
  toFriendsFile := h.hub.persistFriends
  names := h.knownNames
  avatars := h.knownAvatars
  reportReporters := h.reportReporters
  dms := h.dms
  starCounts := h.starCounts
  starEdges := h.starEdges
  vouchEdges := h.vouchEdges
  starEffects := h.starEffects
  hourStarSessions := h.hourStarSessions
  noSkipUntil := h.noSkipUntil
  pleaseStayLast := h.pleaseStayLast
  barsEdgesLast := h.barsEdgesLast
  socialForceMutedUntil := h.socialForceMutedUntil

end StoredHub

/-- A start of the hub. -/
structure Start where
  format : FriendsFormat
  sha256 : String → List UInt8
  codec : LineCodec
  sys : Sys
  disk : Disk
  /-- the uuids and the clock of the seeding -/
  ids : Nat → String
  ts : UInt64

namespace Start

variable (start : Start) (files : Files)

/-- What is loaded from the friends file. -/
def stored : FriendsStore := loadFriends start.format start.disk files.friends

/-- `with_limits_store_webhook_vapid`: the hub. -/
def hub : StoredHub :=
  .ofStored start.sys (start.stored files)
    (startLedger start.sha256 start.codec start.disk.ledgerRead files.ledger
      (start.stored files).starCounts start.ids start.ts)

/-- The files it leaves. -/
def left : Files where
  friends := saveFriends start.format start.disk files.friends (start.hub files).persistFriends
  ledger := (start.hub files).starLedger.file

end Start

end Ruletka
