/-
What a start keeps of the two files.

The friends file is written over at every start. What it says survives when
it was read, and a file that says nothing about blocks, bans, friendships or
messages has nothing to lose; a file that could not be read, or that is not
a friends store, is replaced by an empty one.

The ledger is never written over, but a start can forget it: replay that
takes no event leaves the number at `0` and the tip empty, and so does a
ledger that could not be read. The next append is then a first event, behind
whatever the file has.
-/
import Ruletka.Hub.Startup
import Ruletka.Ledger.Proofs.Reload
import Ruletka.Ledger.Line
import Ruletka.Star.Cache

namespace Ruletka

open Ledger

-- ==================================================================== definitions

/-- The blocks, bans, friendships and messages of a store. -/
def FriendsStore.kept (d : FriendsStore) :
    Finset (UserId × UserId) × Table UserId Nat × Table String Nat
      × Finset (UserId × UserId) × Table String (List StoredDm) :=
  (d.blocks, d.matchBans, d.matchIpBans, d.friendships, d.dms)

/-- What the friends file says; a missing one says nothing. -/
def Files.friendsData (files : Files) (format : FriendsFormat) : Option FriendsStore :=
  match files.friends with
  | none => some .empty
  | some raw => format.read raw

/-- Some line of the file is an event. -/
def HoldsEvents (codec : LineCodec) (f : LedgerFile) : Prop :=
  ∃ raw ∈ f.all, ∃ ev, StarLedger.readLine codec raw = .event ev

/-- The next append starts a second chain behind the events of the file. -/
def StartsChain (sha256 : String → List UInt8) (codec : LineCodec) (s : Store) : Prop :=
  ∃ kind «from» «to» amount reason session opId stamp ev s',
    s.appendEvent sha256 codec kind «from» «to» amount reason session opId stamp = .ok (ev, s')
      ∧ ev.seq = 1 ∧ ev.prevHash = "" ∧ HoldsEvents codec s.file

/-- The files are the same to a later start, and the ledger goes on from its events. -/
structure Start.Keeps (start : Start) (files : Files) : Prop where
  friends : (start.left files).friends = files.friends
    ∨ ∃ d d', files.friendsData start.format = some d
      ∧ (start.left files).friendsData start.format = some d' ∧ d'.kept = d.kept
  ledger : ¬ StartsChain start.sha256 start.codec (start.hub files).starLedger

/-- The first line that is not blank is the first event of a chain. -/
def OpensChain (sha256 : String → List UInt8) (codec : LineCodec) : List RawLine → Prop
  | [] => False
  | raw :: raws => match StarLedger.readLine codec raw with
    | .blank => OpensChain sha256 codec raws
    | .event ev => StarLedger.empty.Follows sha256 ev
    | .unreadable => False
    | .corrupt => False

/-- Replay does not come upon a line that it cannot read. -/
def Replayed (sha256 : String → List UInt8) (codec : LineCodec) (raws : List RawLine) : Prop :=
  scan (StarLedger.replayLine sha256 codec) .empty raws ≠ none

/-- The new file is not written; or the old one says something, and it can be
read, is missing, or has nothing to lose. -/
def Start.FriendsSafe (start : Start) (files : Files) : Prop :=
  start.disk.friendsWritten = false
    ∨ ∃ d, files.friendsData start.format = some d
      ∧ (files.friends = none ∨ start.disk.friendsRead = true
        ∨ d.kept = FriendsStore.empty.kept)

/-- There are no events, there is no room for another, or replay gets by and
either takes the first event or there are star counts to seed the ledger from. -/
def Start.LedgerSafe (start : Start) (files : Files) : Prop :=
  ¬ HoldsEvents start.codec files.ledger
    ∨ 2 ^ 63 ≤ files.ledger.lines.length + 1
    ∨ Replayed start.sha256 start.codec (start.disk.ledgerRead.seen files.ledger)
      ∧ (OpensChain start.sha256 start.codec (start.disk.ledgerRead.seen files.ledger)
        ∨ Store.genesisEntries (start.stored files).starCounts ≠ [])

-- =================================================================== the friends file

section
variable {start : Start} {files : Files}

theorem read_rawOf (format : FriendsFormat) (s : String) :
    format.read (rawOf s) = format.parse s := by
  rw [FriendsFormat.read, StarLedger.rawOf_all_isSome, StarLedger.filterMap_rawOf,
    String.ofList_toList]
  rfl

/-- What is written is what was loaded, with the ledger's star counts. -/
theorem persist_hub (start : Start) (files : Files) :
    (start.hub files).persistFriends
      = { start.stored files with
          starCounts := (start.hub files).starLedger.ledger.balances } := rfl

theorem kept_persist (start : Start) (files : Files) :
    (start.hub files).persistFriends.kept = (start.stored files).kept := rfl

theorem stored_unread (hread : start.disk.friendsRead = false) :
    start.stored files = .empty := by
  rw [Start.stored]
  cases files.friends with
  | none => rfl
  | some raw =>
      unfold loadFriends
      rw [hread]
      rfl

theorem stored_read {d : FriendsStore} (hd : files.friendsData start.format = some d)
    (hread : files.friends = none ∨ start.disk.friendsRead = true) :
    start.stored files = d := by
  rw [Files.friendsData] at hd
  rw [Start.stored]
  cases hfile : files.friends with
  | none =>
      rw [hfile] at hd
      exact Option.some.inj hd
  | some raw =>
      rw [hfile] at hd hread
      have hd : start.format.read raw = some d := hd
      have hread : start.disk.friendsRead = true := hread.resolve_left (Option.some_ne_none _)
      unfold loadFriends
      dsimp only
      rw [hread, if_pos rfl, hd, Option.getD_some]

/-- What the friends file says afterwards. -/
theorem friendsData_left (hwritten : start.disk.friendsWritten = true)
    (hsaved : start.format.parse (start.format.print (start.hub files).persistFriends)
      = some (start.hub files).persistFriends) :
    (start.left files).friendsData start.format
      = some (start.hub files).persistFriends := by
  have hleft : (start.left files).friends
      = some (rawOf (start.format.print (start.hub files).persistFriends)) := by
    rw [Start.left, saveFriends, if_pos hwritten]
  rw [Files.friendsData, hleft]
  exact (read_rawOf _ _).trans hsaved

/-- The friends file keeps what it says exactly when it is safe. -/
theorem friends_kept_iff
    (hsaved : start.format.parse (start.format.print (start.hub files).persistFriends)
      = some (start.hub files).persistFriends) :
    ((start.left files).friends = files.friends
      ∨ ∃ d d', files.friendsData start.format = some d
        ∧ (start.left files).friendsData start.format = some d' ∧ d'.kept = d.kept)
      ↔ start.FriendsSafe files := by
  cases hwritten : start.disk.friendsWritten with
  | false =>
      refine iff_of_true (.inl ?_) (.inl hwritten)
      rw [Start.left, saveFriends, hwritten]
      rfl
  | true =>
      have hafter := friendsData_left hwritten hsaved
      constructor
      · intro h
        -- either way the old file says what the new one says
        obtain ⟨d, hd, hkept⟩ : ∃ d, files.friendsData start.format = some d
            ∧ (start.stored files).kept = d.kept := by
          obtain hsame | ⟨d, d', hd, hd', hkept⟩ := h
          · refine ⟨(start.hub files).persistFriends, ?_, rfl⟩
            rw [Files.friendsData, hsame] at hafter
            exact hafter
          · rw [hafter] at hd'
            cases hd'
            exact ⟨d, hd, hkept⟩
        refine .inr ⟨d, hd, .inr ?_⟩
        cases hread : start.disk.friendsRead with
        | true => exact .inl rfl
        | false =>
            rw [stored_unread hread] at hkept
            exact .inr hkept.symm
      · intro h
        obtain ⟨d, hd, hsafe⟩ := h.resolve_left (by rw [hwritten]; exact nofun)
        refine .inr ⟨d, _, hd, hafter, ?_⟩
        rw [kept_persist]
        obtain hnone | hread | hempty := hsafe
        · rw [stored_read hd (.inl hnone)]
        · rw [stored_read hd (.inr hread)]
        · cases hread : start.disk.friendsRead with
          | true => rw [stored_read hd (.inr hread)]
          | false => rw [stored_unread hread, hempty]

end

-- ========================================================================= the ledger

section
variable {sha256 : String → List UInt8} {codec : LineCodec}

/-- A first event opens a chain. -/
theorem opensChain_cons {raw : RawLine} {raws : List RawLine} {ev : StarEvent}
    (hread : StarLedger.readLine codec raw = .event ev)
    (hev : StarLedger.empty.Follows sha256 ev) : OpensChain sha256 codec (raw :: raws) := by
  unfold OpensChain
  rw [hread]
  exact hev

/-- Replay takes an event exactly when the file opens with a chain. -/
theorem replay_cases {raws : List RawLine} {l : StarLedger} {b : Bool}
    (hroom : raws.length + 1 < 2 ^ 64)
    (h : scan (StarLedger.replayLine sha256 codec) .empty raws = some (l, b)) :
    (l.seq ≠ 0 ∧ OpensChain sha256 codec raws)
      ∨ (l = .empty ∧ ¬ OpensChain sha256 codec raws) := by
  induction raws with
  | nil =>
      cases h
      exact .inr ⟨rfl, id⟩
  | cons raw raws ih =>
      rw [List.length_cons] at hroom
      unfold OpensChain
      rw [scan, StarLedger.replayLine] at h
      cases hread : StarLedger.readLine codec raw with
      | unreadable =>
          rw [hread] at h
          cases h
      | blank =>
          rw [hread] at h
          exact ih (by omega) h
      | corrupt =>
          rw [hread] at h
          cases h
          exact .inr ⟨rfl, id⟩
      | event ev =>
          by_cases hev : StarLedger.empty.Follows sha256 ev
          · refine .inl ⟨?_, hev⟩
            have htake := StarLedger.replayLine_of_follows hread hev
            rw [StarLedger.replayLine] at htake
            rw [htake] at h
            have hone : (StarLedger.empty.record ev).seq.toNat = 1 := by
              rw [show (StarLedger.empty.record ev).seq = ev.seq from rfl, hev.seq]
              rfl
            have hle := StarLedger.le_seq_of_scan (by omega) h
            intro hzero
            rw [hzero, hone] at hle
            exact absurd hle (by decide)
          · refine .inr ⟨?_, hev⟩
            rw [hread] at h
            dsimp only at h
            by_cases hseq : ev.seq = StarLedger.empty.seq + 1
            · by_cases hprev : ev.prevHash = StarLedger.empty.tipHash
              · have hhash : ev.recomputed sha256 ≠ ev.hash := fun heq => hev ⟨hseq, hprev, heq⟩
                rw [if_neg (not_not.mpr hseq), if_neg (not_not.mpr hprev), if_pos hhash] at h
                cases h
                rfl
              · rw [if_neg (not_not.mpr hseq), if_pos hprev] at h
                cases h
                rfl
            · rw [if_pos hseq] at h
              cases h
              rfl

theorem satAdd_one_ne_zero (n : UInt64) : satAdd n 1 ≠ 0 := by
  intro hzero
  have hnat := congrArg UInt64.toNat hzero
  have hone : ((1 : UInt64)).toNat = 1 := rfl
  have hnone : ((0 : UInt64)).toNat = 0 := rfl
  rw [toNat_satAdd, hone, hnone, u64Max] at hnat
  omega

theorem satAdd_one_eq_one {n : UInt64} (h : satAdd n 1 = 1) : n = 0 := by
  have hnat := congrArg UInt64.toNat h
  have hone : ((1 : UInt64)).toNat = 1 := rfl
  rw [toNat_satAdd, hone, u64Max] at hnat
  apply UInt64.toNat_inj.mp
  have hnone : ((0 : UInt64)).toNat = 0 := rfl
  omega

/-- What an append that goes through has written. -/
theorem appendEvent_ok {s s' : Store} {kind «from» «to» : String} {amount : UInt64}
    {reason session opId : String} {stamp : Stamp} {ev : StarEvent}
    (h : s.appendEvent sha256 codec kind «from» «to» amount reason session opId stamp
      = .ok (ev, s')) :
    ev.seq = satAdd s.ledger.seq 1 ∧ ev.prevHash = s.ledger.tipHash
      ∧ s'.ledger = s.ledger.record ev ∧ s.file.lines.length + 1 < 2 ^ 63 := by
  unfold Store.appendEvent Store.push LedgerFile.append at h
  dsimp only at h
  split at h
  · next hpush =>
    split at hpush
    · next hroom =>
      cases hpush
      cases h
      exact ⟨rfl, rfl, rfl, hroom⟩
    · cases hpush
  · cases h

/-- A second chain starts behind events in a ledger that has none. -/
theorem startsChain_empty_iff {f : LedgerFile} :
    StartsChain sha256 codec ⟨.empty, f⟩
      ↔ HoldsEvents codec f ∧ f.lines.length + 1 < 2 ^ 63 := by
  constructor
  · rintro ⟨_, _, _, _, _, _, _, _, _, _, happ, -, -, hevents⟩
    exact ⟨hevents, (appendEvent_ok happ).2.2.2⟩
  · rintro ⟨hevents, hroom⟩
    let ev := (⟨.empty, f⟩ : Store).nextEvent sha256 kindMint "" "" 0 "" "" "" ⟨"", 0⟩
    obtain ⟨f', hf⟩ : ∃ f', f.append (codec.print ev) = some f' := ⟨_, dif_pos hroom⟩
    refine ⟨kindMint, "", "", 0, "", "", "", ⟨"", 0⟩, ev, ⟨StarLedger.empty.record ev, f'⟩, ?_,
      rfl, rfl, hevents⟩
    rw [Store.appendEvent, Store.push, hf]
    rfl

/-- A ledger with an event goes on from it. -/
theorem not_startsChain {s : Store} (h : s.ledger.seq ≠ 0) :
    ¬ StartsChain sha256 codec s := by
  rintro ⟨_, _, _, _, _, _, _, _, _, _, happ, hone, -, -⟩
  rw [(appendEvent_ok happ).1] at hone
  exact h (satAdd_one_eq_one hone)

/-- A file that is full takes no append. -/
theorem not_startsChain_full {s : Store} (h : 2 ^ 63 ≤ s.file.lines.length + 1) :
    ¬ StartsChain sha256 codec s := by
  rintro ⟨_, _, _, _, _, _, _, _, _, _, happ, -⟩
  have hroom := (appendEvent_ok happ).2.2.2
  omega

/-- A seeding that goes through leaves an event behind. -/
theorem seq_seedAll {ts : UInt64} {entries : List (String × UInt64)} {ids : Nat → String}
    {s s' : Store} (h : seedAll sha256 codec ts s entries ids = (s', true))
    (hs : entries ≠ [] ∨ s.ledger.seq ≠ 0) : s'.ledger.seq ≠ 0 := by
  induction entries generalizing s ids with
  | nil =>
      cases h
      exact hs.resolve_left (not_not.mpr rfl)
  | cons e entries ih =>
      rw [seedAll] at h
      split at h
      · next ev s₁ happ =>
        obtain ⟨hseq, -, hledger, -⟩ := appendEvent_ok happ
        refine ih h (.inr ?_)
        rw [hledger, show (s.ledger.record ev).seq = ev.seq from rfl, hseq]
        exact satAdd_one_ne_zero _
      · cases h

/-- One that does not has filled the file. -/
theorem full_of_seedAll {ts : UInt64} {entries : List (String × UInt64)}
    {ids : Nat → String} {s s' : Store}
    (h : seedAll sha256 codec ts s entries ids = (s', false)) :
    2 ^ 63 ≤ s'.file.lines.length + 1 := by
  induction entries generalizing s ids with
  | nil => cases h
  | cons e entries ih =>
      rw [seedAll] at h
      split at h
      · exact ih h
      · next happ =>
        cases h
        unfold Store.appendEvent Store.push LedgerFile.append at happ
        dsimp only at happ
        split at happ
        · cases happ
        · next hnone =>
          split at hnone
          · cases hnone
          · omega

theorem length_seen_lt (read : LedgerRead) (f : LedgerFile) :
    (read.seen f).length + 1 < 2 ^ 64 := by
  have hfits := f.fits
  have hall : f.all.length = f.lines.length + 1 := by simp [LedgerFile.all]
  cases read with
  | fine => simp only [LedgerRead.seen]; omega
  | hidden => simp [LedgerRead.seen]
  | fails line => simp only [LedgerRead.seen, List.length_append, List.length_take,
      List.length_singleton]; omega

/-- The ledger goes on from the events of its file exactly when it is safe. -/
theorem startsChain_startLedger_iff {read : LedgerRead} {f : LedgerFile}
    {legacyCounts : Table String UInt64} {ids : Nat → String} {ts : UInt64} :
    ¬ StartsChain sha256 codec (startLedger sha256 codec read f legacyCounts ids ts)
      ↔ ¬ HoldsEvents codec f ∨ 2 ^ 63 ≤ f.lines.length + 1
        ∨ Replayed sha256 codec (read.seen f)
          ∧ (OpensChain sha256 codec (read.seen f) ∨ Store.genesisEntries legacyCounts ≠ []) := by
  unfold startLedger Replayed
  split
  · next hnone =>
    rw [startsChain_empty_iff, hnone, not_and_or, Nat.not_lt]
    simp only [ne_eq, not_true, false_and, or_false]
  · next l b hscan =>
    rw [hscan]
    simp only [ne_eq, Option.some_ne_none, not_false_eq_true, true_and]
    obtain ⟨hseq, hopens⟩ | ⟨rfl, hopens⟩ := replay_cases (length_seen_lt read f) hscan
    · rw [if_neg hseq]
      exact iff_of_true (not_startsChain hseq) (.inr (.inr (.inl hopens)))
    rw [if_pos (show StarLedger.empty.seq = 0 from rfl)]
    by_cases hnil : Store.genesisEntries legacyCounts = []
    · rw [hnil, seedAll]
      dsimp only
      rw [startsChain_empty_iff, not_and_or, Nat.not_lt]
      simp only [hopens, not_true, or_false]
    · refine iff_of_true ?_ (.inr (.inr (.inr hnil)))
      split
      · next s hseed => exact not_startsChain (seq_seedAll hseed (.inl hnil))
      · next s hseed =>
        have hfull := full_of_seedAll hseed
        exact not_startsChain_full (s := ⟨.empty, s.file⟩) hfull

/-- A ledger that took an event is the one the start has. -/
theorem startLedger_of_scan {read : LedgerRead} {f : LedgerFile}
    {legacyCounts : Table String UInt64} {ids : Nat → String} {ts : UInt64} {l : StarLedger}
    {b : Bool}
    (h : scan (StarLedger.replayLine sha256 codec) .empty (read.seen f) = some (l, b))
    (hseq : l.seq ≠ 0) :
    startLedger sha256 codec read f legacyCounts ids ts = ⟨l, f⟩ := by
  unfold startLedger
  rw [h]
  exact if_neg hseq

theorem seedAll_of_seed {ts : UInt64} {entries : List (String × UInt64)}
    {ids : Nat → String} {s s' : Store}
    (h : Store.seed sha256 codec ts s entries ids = .ok s') :
    seedAll sha256 codec ts s entries ids = (s', true) := by
  induction entries generalizing s ids with
  | nil =>
      cases h
      rfl
  | cons e entries ih =>
      obtain ⟨⟨ev, s₁⟩, happ, hrest⟩ := Store.of_bind_eq_ok h
      rw [seedAll, happ]
      exact ih hrest

/-- With nothing in its way the ledger is the one `openLedger` opens. -/
theorem startLedger_eq_openLedger {f : LedgerFile} {legacyCounts : Table String UInt64}
    {ids : Nat → String} {ts : UInt64} {s : Store}
    (h : Store.loadOrMigrate sha256 codec f legacyCounts ids ts = .ok s) :
    startLedger sha256 codec .fine f legacyCounts ids ts
      = CountedHub.openLedger sha256 codec f legacyCounts ids ts := by
  rw [CountedHub.openLedger, h]
  unfold Store.loadOrMigrate StarLedger.replayFile at h
  unfold startLedger LedgerRead.seen
  split at h
  · cases h
  next l b hscan =>
  rw [hscan]
  dsimp only
  split at h
  · next hzero =>
    rw [if_pos hzero, seedAll_of_seed h]
  · next hzero =>
    cases h
    rw [if_neg hzero]

end

-- ======================================================================== both files

/-- A start keeps both files exactly when each of them is safe. The friends
file has to be readable again once it is written. -/
theorem startup_keeps_iff (start : Start) (files : Files)
    (hsaved : start.format.parse (start.format.print (start.hub files).persistFriends)
      = some (start.hub files).persistFriends) :
    start.Keeps files ↔ start.FriendsSafe files ∧ start.LedgerSafe files := by
  have hfriends := friends_kept_iff hsaved
  have hledger : ¬ StartsChain start.sha256 start.codec (start.hub files).starLedger
      ↔ start.LedgerSafe files := startsChain_startLedger_iff
  constructor
  · rintro ⟨hf, hl⟩
    exact ⟨hfriends.mp hf, hledger.mp hl⟩
  · rintro ⟨hf, hl⟩
    exact ⟨hfriends.mpr hf, hledger.mpr hl⟩

/-- The text of a friends store in which only these maps hold anything. -/
def storeText (filled : List (String × String)) : String :=
  let maps := ["friendships", "code_index", "names", "avatars", "blocks", "pending",
    "report_reporters", "match_bans", "match_ip_bans", "match_ip_ban_users", "user_last_ip",
    "dms", "star_counts"]
  let more := ["no_skip_until", "please_stay_last", "bars_edges_last",
    "social_force_muted_until"]
  let map name := "  \"" ++ name ++ "\": " ++ (filled.lookup name).getD "\x7b\x7d"
  let set name := "  \"" ++ name ++ "\": []"
  "\x7b\n" ++ ",\n".intercalate
    (maps.map map ++ [set "star_edges", set "vouch_edges", map "star_effects",
      set "hour_star_sessions"] ++ more.map map) ++ "\n\x7d"

/-- A friends file with one block, written by hand. -/
def blockedText : String := "\x7b\"blocks\":\x7b\"alice\":[\"bob\"]\x7d\x7d"

def blocked : FriendsStore := { FriendsStore.empty with blocks := {("alice", "bob")} }

/-- The block, and ten stars. -/
def starred : FriendsStore := { blocked with starCounts := Table.set ∅ "alice" 10 }

def starredText : String :=
  storeText [("blocks", "\x7b\n    \"alice\": [\n      \"bob\"\n    ]\n  \x7d"),
    ("star_counts", "\x7b\n    \"alice\": 10\n  \x7d")]

/-- The format on these stores. -/
def plainFormat : FriendsFormat where
  print d := if d = .empty then storeText [] else if d = starred then starredText else blockedText
  parse s :=
    if s = blockedText then some blocked else if s = starredText then some starred
    else if s = storeText [] then some .empty else none

theorem plainFormat_empty : plainFormat.parse (plainFormat.print .empty) = some .empty := by
  have hne : storeText [] ≠ blockedText := by decide +kernel
  have hne' : storeText [] ≠ starredText := by decide +kernel
  simp only [plainFormat, if_true, if_neg hne, if_neg hne']

theorem plainFormat_blocked : plainFormat.parse blockedText = some blocked := by
  simp only [plainFormat, if_true]

theorem plainFormat_starred : plainFormat.parse (plainFormat.print starred) = some starred := by
  have hne : starredText ≠ blockedText := by decide +kernel
  have hfull : starred ≠ .empty := by
    intro h
    exact absurd (congrArg (fun d => d.blocks) h) (by decide)
  simp only [plainFormat, if_true, if_neg hfull, if_neg hne]

/-- A start with this format. -/
def plainStart (disk : Disk) : Start where
  format := plainFormat
  sha256 := Sha256.sha256
  codec := compactCodec
  sys := plainSys
  disk := disk
  ids _ := ""
  ts := 0

/-- A first mint. -/
def oneMint : StarEvent :=
  (⟨.empty, .empty⟩ : Store).nextEvent Sha256.sha256 kindMint "" "alice" 10 "rate" "" "" ⟨"u1", 1⟩

/-- The ledger file with it. -/
def oneEvent : LedgerFile := ⟨[rawOf (compactCodec.print oneMint)], [], by decide⟩

theorem readLine_oneMint :
    StarLedger.readLine compactCodec (rawOf (compactCodec.print oneMint)) = .event oneMint :=
  StarLedger.readLine_behind_blank compactCodec (t := []) (List.forall_mem_nil _) oneMint

theorem follows_oneMint : StarLedger.empty.Follows Sha256.sha256 oneMint := ⟨rfl, rfl, rfl⟩

/-- Replay takes the event. -/
theorem scan_oneEvent :
    scan (StarLedger.replayLine Sha256.sha256 compactCodec) .empty oneEvent.all
      = some (StarLedger.empty.record oneMint, true) := by
  have hblank : StarLedger.readLine compactCodec [] = .blank :=
    (StarLedger.readLine_eq_blank_iff compactCodec []).mpr (List.forall_mem_nil _)
  show scan _ _ [rawOf (compactCodec.print oneMint), []] = _
  rw [scan, StarLedger.replayLine_of_follows readLine_oneMint follows_oneMint]
  dsimp only
  rw [scan, StarLedger.replayLine, hblank]
  rfl

/-- A start that reads the block and the event keeps them. -/
theorem startup_keeps_iff_first :
    (plainStart ⟨true, true, .fine⟩).Keeps ⟨some (rawOf blockedText), oneEvent⟩ := by
  let start := plainStart ⟨true, true, .fine⟩
  let files : Files := ⟨some (rawOf blockedText), oneEvent⟩
  have hdata : files.friendsData start.format = some blocked :=
    (read_rawOf _ _).trans plainFormat_blocked
  have hseq : (StarLedger.empty.record oneMint).seq ≠ 0 := by
    show oneMint.seq ≠ 0
    decide
  have hledger : (start.hub files).starLedger = ⟨StarLedger.empty.record oneMint, oneEvent⟩ :=
    startLedger_of_scan scan_oneEvent hseq
  have hcounts : (StarLedger.empty.record oneMint).balances = Table.set ∅ "alice" 10 := by
    decide
  have hsaved : (start.hub files).persistFriends = starred := by
    rw [persist_hub, stored_read hdata (.inr rfl), hledger]
    show { blocked with starCounts := (StarLedger.empty.record oneMint).balances } = _
    rw [hcounts]
    rfl
  refine (startup_keeps_iff start files ?_).mpr ⟨.inr ⟨blocked, hdata, .inr (.inl rfl)⟩,
    .inr (.inr ⟨ne_of_eq_of_ne scan_oneEvent (Option.some_ne_none _),
      .inl (opensChain_cons readLine_oneMint follows_oneMint)⟩)⟩
  rw [hsaved]
  exact plainFormat_starred

/-- Both files are fine but neither can be read at this start: the block is
gone for good, and the next star starts a second chain. -/
theorem unread_files_lost :
    let start := plainStart ⟨false, true, .fails 0⟩
    let files : Files := ⟨some (rawOf blockedText), oneEvent⟩
    files.friendsData start.format = some blocked
      ∧ (start.left files).friendsData start.format = some .empty
      ∧ StartsChain start.sha256 start.codec (start.hub files).starLedger
      ∧ ¬ start.Keeps files := by
  intro start files
  have hbefore : files.friendsData start.format = some blocked :=
    (read_rawOf _ _).trans plainFormat_blocked
  have hsaved : (start.hub files).persistFriends = .empty := rfl
  have hafter : (start.left files).friendsData start.format = some .empty := by
    rw [friendsData_left rfl (by rw [hsaved]; exact plainFormat_empty), hsaved]
  have hchain : StartsChain start.sha256 start.codec (start.hub files).starLedger := by
    exact startsChain_empty_iff.mpr ⟨⟨_, List.mem_cons_self, oneMint, readLine_oneMint⟩, by decide⟩
  exact ⟨hbefore, hafter, hchain, fun hkeeps => hkeeps.ledger hchain⟩

end Ruletka
