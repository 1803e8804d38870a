/-
Reloading the ledger: when the file gives back the ledger in memory.

Append and replay make the same update for an event, so as long as replay
gets to the new line the two agree. What keeps it from getting there is the
file the ledger was loaded from. Replay stops early at a line it does not
accept and keeps what it has; appends go behind that line all the same, and
the next replay stops at it again. An unfinished last line is worse: the
next event is written right behind it and neither of the two can be read.

`Caught s` is the agreement as a run keeps it: replay reads the file to its
end and finds the ledger in memory. `Lost s` is the other case after the
first append: replay stops in front of the last event taken. Each append
preserves either, and the load decides which one it is.
-/
import Ruletka.Ledger.Line
import Ruletka.Lib.Sha256
import Mathlib.Logic.Relation

namespace Ruletka.Ledger

open Text

variable {sha256 : String → List UInt8} {codec : LineCodec}

-- ==================================================================== definitions

/-- The same number, tip, balances, operations and trust. -/
structure StarLedger.Agrees (l l' : StarLedger) : Prop where
  seq : l.seq = l'.seq
  tipHash : l.tipHash = l'.tipHash
  balances : l.balances = l'.balances
  spentOps : l.spentOps = l'.spentOps
  scores : l.trust.scores = l'.trust.scores
  edges : l.trust.edges = l'.trust.edges

/-- Loading the file again gives the ledger in memory, whatever the star
counts are by then; an empty ledger has no stars to be seeded from. -/
def Store.Reloads (sha256 : String → List UInt8) (codec : LineCodec) (s : Store) : Prop :=
  ∀ legacyCounts ids ts, (s.ledger.seq = 0 → Store.genesisEntries legacyCounts = []) →
    ∃ s', Store.loadOrMigrate sha256 codec s.file legacyCounts ids ts = .ok s'
      ∧ s'.ledger.Agrees s.ledger

/-- Nothing but white space. -/
def RawLine.Blank (raw : RawLine) : Prop := ∀ c ∈ raw, ∃ w, c = some w ∧ isWhite w

/-- Replay reads the file to its end, and the last line is finished. -/
def LedgerFile.Whole (sha256 : String → List UInt8) (codec : LineCodec) (f : LedgerFile) :
    Prop :=
  RawLine.Blank f.tail ∧ ∃ l, StarLedger.replayFile sha256 codec f = some (l, true)

/-- Neither the load nor a call appends anything. -/
def LedgerFile.Untouched (sha256 : String → List UInt8) (codec : LineCodec) (f : LedgerFile)
    (legacyCounts : Table String UInt64) (calls : List Call) : Prop :=
  (∀ l b, StarLedger.replayFile sha256 codec f = some (l, b) → l.seq = 0 →
      Store.genesisEntries legacyCounts = [])
    ∧ ∀ c ∈ calls, c.Idle

-- ================================================================ reading one line

namespace StarLedger

theorem rawOf_all_isSome (s : String) : (rawOf s).any Option.isNone = false := by
  simp [rawOf]

theorem filterMap_rawOf (s : String) : (rawOf s).filterMap id = s.toList := by
  simp [rawOf]

/-- A line behind text that can be decoded. -/
theorem readLine_append {t : RawLine} (ht : t.any Option.isNone = false) (s : String) :
    readLine codec (t ++ rawOf s)
      = if trim (String.ofList (t.filterMap id) ++ s) = "" then .blank
        else match codec.parse (trim (String.ofList (t.filterMap id) ++ s)) with
          | some ev => .event ev
          | none => .corrupt := by
  have hdec : (t ++ rawOf s).any Option.isNone = false := by
    rw [List.any_append, ht, rawOf_all_isSome, Bool.or_false]
  have htext : String.ofList ((t ++ rawOf s).filterMap id)
      = String.ofList (t.filterMap id) ++ s := by
    rw [List.filterMap_append, filterMap_rawOf, String.ofList_append, String.ofList_toList]
  rw [readLine, hdec, htext]
  exact (if_neg Bool.false_ne_true).trans rfl

theorem print_not_blank (ev : StarEvent) (t : String) : trim (t ++ codec.print ev) ≠ "" := by
  obtain ⟨body, hbody⟩ := codec.braced ev
  rw [Ne, trim_eq_empty_iff, hbody]
  intro hall
  exact absurd (hall '\x7b' (by simp)) (by decide)

theorem readable_of_blank {t : RawLine} (ht : RawLine.Blank t) :
    t.any Option.isNone = false := by
  rw [List.any_eq_false]
  intro c hc
  obtain ⟨w, rfl, -⟩ := ht c hc
  simp

theorem white_of_blank {t : RawLine} (ht : RawLine.Blank t) :
    ∀ c ∈ (String.ofList (t.filterMap id)).toList, isWhite c := by
  intro c hc
  rw [String.toList_ofList, List.mem_filterMap] at hc
  obtain ⟨o, ho, rfl⟩ := hc
  obtain ⟨w, hw, hwhite⟩ := ht _ ho
  cases hw
  exact hwhite

/-- A line is blank to the reader when it is. -/
theorem readLine_eq_blank_iff (codec : LineCodec) (raw : RawLine) :
    readLine codec raw = .blank ↔ RawLine.Blank raw := by
  constructor
  · intro h
    unfold readLine at h
    split at h
    · cases h
    next hdec =>
    dsimp only at h
    split at h
    · next hempty =>
      intro c hc
      cases c with
      | none => exact absurd (List.any_eq_true.mpr ⟨none, hc, rfl⟩) hdec
      | some w =>
          rw [trim_eq_empty_iff, String.toList_ofList] at hempty
          exact ⟨w, rfl, hempty w (List.mem_filterMap.mpr ⟨some w, hc, rfl⟩)⟩
    · split at h <;> cases h
  · intro h
    have hempty : trim (String.ofList (raw.filterMap id)) = "" :=
      (trim_eq_empty_iff _).mpr (white_of_blank h)
    rw [readLine, readable_of_blank h, hempty]
    rfl

/-- An event behind white space is read back. -/
theorem readLine_behind_blank (codec : LineCodec) {t : RawLine} (ht : RawLine.Blank t)
    (ev : StarEvent) :
    readLine codec (t ++ rawOf (codec.print ev)) = .event ev := by
  obtain ⟨body, hbody⟩ := codec.braced ev
  have hchars : (codec.print ev).toList = '\x7b' :: (body.toList ++ ['\x7d']) := by
    simp [hbody]
  have htrim := trim_append_of_white (white_of_blank ht) (by decide) (by decide) hchars
  rw [readLine_append (readable_of_blank ht), if_neg (print_not_blank ev _), htrim,
    codec.parse_print]

/-- An event behind anything else is not. -/
theorem readLine_behind_text (codec : LineCodec) {t : RawLine} (hdec : t.any Option.isNone = false)
    (ht : ¬ RawLine.Blank t) (ev : StarEvent) :
    readLine codec (t ++ rawOf (codec.print ev)) = .corrupt := by
  have htext : trim (String.ofList (t.filterMap id)) ≠ "" := by
    intro hempty
    apply ht
    rw [← readLine_eq_blank_iff codec, readLine, hdec, hempty]
    rfl
  rw [readLine_append hdec, if_neg (print_not_blank ev _), codec.alone ev _ htext]

-- ==================================================================== one event more

/-- The event carries on from the ledger: the next number, the tip, its hash. -/
structure Follows (sha256 : String → List UInt8) (l : StarLedger) (ev : StarEvent) :
    Prop where
  seq : ev.seq = l.seq + 1
  prevHash : ev.prevHash = l.tipHash
  hash : ev.recomputed sha256 = ev.hash

theorem replayLine_of_follows {l : StarLedger} {ev : StarEvent} {raw : RawLine}
    (hread : readLine codec raw = .event ev) (hev : l.Follows sha256 ev) :
    replayLine sha256 codec l raw = .go (l.record ev) := by
  rw [replayLine, hread]
  simp [hev.seq, hev.prevHash, hev.hash]

/-- A line takes the ledger nowhere or one number on. -/
theorem seq_of_replayLine {l l' : StarLedger} {raw : RawLine}
    (h : replayLine sha256 codec l raw = .go l') :
    (l' = l ∧ readLine codec raw = .blank)
      ∨ l'.seq = l.seq + 1 ∧ ∃ ev, readLine codec raw = .event ev := by
  unfold replayLine at h
  split at h
  · cases h
  · next hread =>
    cases h
    exact .inl ⟨rfl, hread⟩
  · cases h
  · next ev hread =>
    split_ifs at h with hseq hprev hhash
    cases h
    exact .inr ⟨not_not.mp hseq, ev, hread⟩

theorem toNat_succ_le (n : UInt64) : (n + 1).toNat ≤ n.toNat + 1 := by
  rw [UInt64.toNat_add]
  exact Nat.mod_le _ _

/-- Replay counts no more events than there are lines. -/
theorem seq_le_of_scan {raws : List RawLine} {l l' : StarLedger} {b : Bool}
    (h : scan (replayLine sha256 codec) l raws = some (l', b)) :
    l'.seq.toNat ≤ l.seq.toNat + raws.length := by
  induction raws generalizing l with
  | nil =>
      cases h
      exact Nat.le_refl _
  | cons raw raws ih =>
      rw [scan] at h
      rw [List.length_cons]
      split at h
      · next l₁ hl₁ =>
        have hle := ih h
        obtain ⟨rfl, -⟩ | ⟨hseq, -⟩ := seq_of_replayLine hl₁
        · omega
        · have := toNat_succ_le l.seq
          rw [← hseq] at this
          omega
      · cases h
        omega
      · cases h

/-- With fewer lines than numbers, replay never counts back. -/
theorem le_seq_of_scan {raws : List RawLine} {l l' : StarLedger} {b : Bool}
    (hroom : l.seq.toNat + raws.length < 2 ^ 64)
    (h : scan (replayLine sha256 codec) l raws = some (l', b)) :
    l.seq.toNat ≤ l'.seq.toNat := by
  induction raws generalizing l with
  | nil =>
      cases h
      exact Nat.le_refl _
  | cons raw raws ih =>
      rw [scan] at h
      rw [List.length_cons] at hroom
      split at h
      · next l₁ hl₁ =>
        obtain ⟨rfl, -⟩ | ⟨hseq, -⟩ := seq_of_replayLine hl₁
        · exact ih (by omega) h
        · have hnext : l₁.seq.toNat = l.seq.toNat + 1 := by
            rw [hseq, UInt64.toNat_add]
            exact Nat.mod_eq_of_lt (by simp; omega)
          have hle := ih (by omega) h
          omega
      · cases h
        exact Nat.le_refl _
      · cases h

end StarLedger

-- ============================================================== what the calls append

namespace Store

/-- One event more, in memory and on disk. -/
def Appended (sha256 : String → List UInt8) (codec : LineCodec) (s s' : Store) : Prop :=
  ∃ kind «from» «to» amount reason session opId stamp,
    s.push codec (s.nextEvent sha256 kind «from» «to» amount reason session opId stamp)
      = some s'

theorem appended_of_appendEvent {s : Store} {kind «from» «to» : String} {amount : UInt64}
    {reason session opId : String} {stamp : Stamp} {ev : StarEvent} {s' : Store}
    (h : s.appendEvent sha256 codec kind «from» «to» amount reason session opId stamp
      = .ok (ev, s')) : Appended sha256 codec s s' := by
  unfold appendEvent at h
  dsimp only at h
  split at h
  · next hpush =>
    cases h
    exact ⟨_, _, _, _, _, _, _, _, hpush⟩
  · cases h

/-- The calls append an event and then return. -/
theorem of_bind_eq_ok {ε α β : Type} {x : Except ε α} {g : α → Except ε β} {b : β}
    (h : x >>= g = .ok b) : ∃ a, x = .ok a ∧ g a = .ok b := by
  cases x with
  | error e => cases h
  | ok a => exact ⟨a, rfl, h⟩

/-- A successful call appends its event, or it is idle and does nothing. -/
theorem apply_cases {s s' : Store} {c : Call} {r : StarEvent × UInt64}
    (h : c.apply sha256 codec s = .ok (r, s')) :
    (c.Idle ∧ s' = s) ∨ (¬ c.Idle ∧ Appended sha256 codec s s') := by
  cases c with
  | mintFrom «from» «to» amount reason session stamp =>
      simp only [Call.apply, mintFrom] at h
      split at h
      · next hidle =>
        cases h
        exact .inl ⟨hidle, rfl⟩
      · next hidle =>
        obtain ⟨⟨ev, s₁⟩, hev, hr⟩ := of_bind_eq_ok h
        cases hr
        exact .inr ⟨hidle, appended_of_appendEvent hev⟩
  | adjust «to» amount reason stamp =>
      simp only [Call.apply, adjust] at h
      split at h
      · next hidle =>
        simp only [mint, mintFrom, or_true, if_true] at h
        cases h
        exact .inl ⟨hidle, rfl⟩
      · next hidle =>
        obtain ⟨⟨ev, s₁⟩, hev, hr⟩ := of_bind_eq_ok h
        cases hr
        exact .inr ⟨hidle, appended_of_appendEvent hev⟩
  | spend «from» «to» amount reason opId session stamp =>
      simp only [Call.apply, spend] at h
      split_ifs at h
      obtain ⟨⟨ev, s₁⟩, hev, hr⟩ := of_bind_eq_ok h
      cases hr
      exact .inr ⟨id, appended_of_appendEvent hev⟩
  | clawback userId balanceBurn trustBurn reason opId stamp =>
      simp only [Call.apply, clawback] at h
      split_ifs at h <;>
      · obtain ⟨⟨ev, s₁⟩, hev, hr⟩ := of_bind_eq_ok h
        cases hr
        exact .inr ⟨id, appended_of_appendEvent hev⟩

open Relation

theorem runAll_cases {calls : List Call} {s s' : Store}
    (h : Call.runAll sha256 codec s calls = .ok s') :
    ((∀ c ∈ calls, c.Idle) ∧ s' = s)
      ∨ (¬ (∀ c ∈ calls, c.Idle) ∧ TransGen (Appended sha256 codec) s s') := by
  induction calls generalizing s with
  | nil =>
      cases h
      exact .inl ⟨nofun, rfl⟩
  | cons c calls ih =>
      obtain ⟨⟨r, s₁⟩, hc, hrest⟩ := of_bind_eq_ok h
      simp only [List.forall_mem_cons]
      obtain ⟨hidle, rfl⟩ | ⟨hidle, hstep⟩ := apply_cases hc
      · obtain ⟨hall, rfl⟩ | ⟨hnot, hruns⟩ := ih hrest
        · exact .inl ⟨⟨hidle, hall⟩, rfl⟩
        · exact .inr ⟨fun hall => hnot hall.2, hruns⟩
      · refine .inr ⟨fun hall => hidle hall.1, ?_⟩
        obtain ⟨-, rfl⟩ | ⟨-, hruns⟩ := ih hrest
        · exact .single hstep
        · exact .head hstep hruns

theorem seed_cases {ts : UInt64} {entries : List (String × UInt64)} {ids : Nat → String}
    {s s' : Store} (h : seed sha256 codec ts s entries ids = .ok s') :
    (entries = [] ∧ s' = s) ∨ (entries ≠ [] ∧ TransGen (Appended sha256 codec) s s') := by
  induction entries generalizing s ids with
  | nil =>
      cases h
      exact .inl ⟨rfl, rfl⟩
  | cons e entries ih =>
      obtain ⟨⟨ev, s₁⟩, hev, hrest⟩ := of_bind_eq_ok h
      refine .inr ⟨List.cons_ne_nil _ _, ?_⟩
      obtain ⟨-, rfl⟩ | ⟨-, hruns⟩ := ih hrest
      · exact .single (appended_of_appendEvent hev)
      · exact .head (appended_of_appendEvent hev) hruns

/-- A load and the calls after it start from what replay found, and append
unless the file stays untouched. -/
theorem load_cases {f : LedgerFile} {legacyCounts : Table String UInt64} {ids : Nat → String}
    {ts : UInt64} {calls : List Call} {s₀ s : Store}
    (hload : loadOrMigrate sha256 codec f legacyCounts ids ts = .ok s₀)
    (hrun : Call.runAll sha256 codec s₀ calls = .ok s) :
    ∃ l b, StarLedger.replayFile sha256 codec f = some (l, b)
      ∧ ((f.Untouched sha256 codec legacyCounts calls ∧ s = ⟨l, f⟩)
        ∨ (¬ f.Untouched sha256 codec legacyCounts calls
          ∧ TransGen (Appended sha256 codec) ⟨l, f⟩ s)) := by
  unfold loadOrMigrate at hload
  split at hload
  · cases hload
  next l b hreplay =>
  refine ⟨l, b, hreplay, ?_⟩
  have hseeded : (f.Untouched sha256 codec legacyCounts calls ↔
      (l.seq = 0 → genesisEntries legacyCounts = []) ∧ ∀ c ∈ calls, c.Idle) := by
    unfold LedgerFile.Untouched
    rw [hreplay]
    refine and_congr_left fun _ => ⟨fun h => h l b rfl, fun h l' b' heq => ?_⟩
    cases heq
    exact h
  rw [hseeded]
  have hloaded : ((l.seq = 0 → genesisEntries legacyCounts = []) ∧ s₀ = ⟨l, f⟩)
      ∨ (¬ (l.seq = 0 → genesisEntries legacyCounts = [])
        ∧ TransGen (Appended sha256 codec) ⟨l, f⟩ s₀) := by
    split at hload
    · next hzero =>
      obtain ⟨hnil, rfl⟩ | ⟨hne, hruns⟩ := seed_cases hload
      · exact .inl ⟨fun _ => hnil, rfl⟩
      · exact .inr ⟨fun h => hne (h hzero), hruns⟩
    · next hzero =>
      cases hload
      exact .inl ⟨fun h => absurd h hzero, rfl⟩
  obtain ⟨hgen, rfl⟩ | ⟨hgen, hfirst⟩ := hloaded
  · obtain ⟨hidle, rfl⟩ | ⟨hidle, hruns⟩ := runAll_cases hrun
    · exact .inl ⟨⟨hgen, hidle⟩, rfl⟩
    · exact .inr ⟨fun h => hidle h.2, hruns⟩
  · refine .inr ⟨fun h => hgen h.1, ?_⟩
    obtain ⟨-, rfl⟩ | ⟨-, hruns⟩ := runAll_cases hrun
    · exact hfirst
    · exact hfirst.trans hruns

-- ======================================================= what an append preserves

/-- No more events than lines: the number is far from the last `u64`. -/
def Bounded (s : Store) : Prop := s.ledger.seq.toNat ≤ s.file.all.length

/-- Replay reads the file to its end and finds the ledger in memory. -/
structure Caught (sha256 : String → List UInt8) (codec : LineCodec) (s : Store) : Prop where
  finished : RawLine.Blank s.file.tail
  replay : StarLedger.replayFile sha256 codec s.file = some (s.ledger, true)

/-- Replay stops in the finished lines, in front of the last event taken. -/
def Lost (sha256 : String → List UInt8) (codec : LineCodec) (s : Store) : Prop :=
  ∃ l, scan (StarLedger.replayLine sha256 codec) .empty s.file.lines = some (l, false)
    ∧ l.seq.toNat < s.ledger.seq.toNat

/-- The parts of an append: an event that follows, and its line. -/
theorem Appended.parts {s s' : Store} (h : Appended sha256 codec s s') (hs : s.Bounded) :
    ∃ ev, s.ledger.Follows sha256 ev ∧ s'.ledger = s.ledger.record ev
      ∧ ev.seq.toNat = s.ledger.seq.toNat + 1
      ∧ s'.file.lines = s.file.lines ++ [s.file.tail ++ rawOf (codec.print ev)]
      ∧ s'.file.tail = [] := by
  obtain ⟨kind, «from», «to», amount, reason, session, opId, stamp, hpush⟩ := h
  unfold push LedgerFile.append at hpush
  split at hpush
  · cases hpush
    next hroom =>
    have hone : ((1 : UInt64)).toNat = 1 := rfl
    have hlen : s.ledger.seq.toNat ≤ s.file.lines.length + 1 := by
      simpa [Bounded, LedgerFile.all] using hs
    have hsat : (satAdd s.ledger.seq 1).toNat = s.ledger.seq.toNat + 1 := by
      rw [toNat_satAdd, hone, u64Max]
      omega
    have hseq : satAdd s.ledger.seq 1 = s.ledger.seq + 1 := by
      apply UInt64.toNat_inj.mp
      rw [hsat, UInt64.toNat_add, hone, Nat.mod_eq_of_lt (by omega)]
    exact ⟨_, ⟨hseq, rfl, rfl⟩, rfl, hsat, rfl, rfl⟩
  · cases hpush

theorem Appended.bounded {s s' : Store} (h : Appended sha256 codec s s') (hs : s.Bounded) :
    s'.Bounded := by
  obtain ⟨ev, -, hledger, hseq, hlines, -⟩ := h.parts hs
  have hlen : s.ledger.seq.toNat ≤ s.file.lines.length + 1 := by
    simpa [Bounded, LedgerFile.all] using hs
  have hnew : s'.ledger.seq = ev.seq := by rw [hledger]; rfl
  unfold Bounded LedgerFile.all
  rw [hnew, hseq, hlines]
  simp
  omega

theorem Appended.caught {s s' : Store} (h : Appended sha256 codec s s') (hs : s.Bounded)
    (hc : Caught sha256 codec s) : Caught sha256 codec s' := by
  obtain ⟨ev, hev, hledger, -, hlines, htail⟩ := h.parts hs
  refine ⟨by rw [htail]; exact nofun, ?_⟩
  have hblank := (StarLedger.readLine_eq_blank_iff codec _).mpr hc.finished
  -- replay gets through the old lines with the ledger in memory
  have hold : scan (StarLedger.replayLine sha256 codec) .empty s.file.lines
      = some (s.ledger, true) := by
    have hreplay := hc.replay
    rw [StarLedger.replayFile, LedgerFile.all, scan_append] at hreplay
    split at hreplay
    · next l hl =>
      rw [scan, StarLedger.replayLine, hblank] at hreplay
      cases hreplay
      exact hl
    · next hnot => exact absurd hreplay (hnot s.ledger)
  have hnew := StarLedger.replayLine_of_follows
    (StarLedger.readLine_behind_blank codec hc.finished ev) hev
  have hempty : StarLedger.readLine codec [] = .blank :=
    (StarLedger.readLine_eq_blank_iff codec _).mpr nofun
  rw [StarLedger.replayFile, LedgerFile.all, hlines, htail, List.append_assoc,
    scan_append_of_through hold, List.singleton_append, scan, hnew, hledger]
  simp only [scan, StarLedger.replayLine, hempty]

theorem Appended.lost {s s' : Store} (h : Appended sha256 codec s s') (hs : s.Bounded)
    (hl : Lost sha256 codec s) : Lost sha256 codec s' := by
  obtain ⟨ev, -, hledger, hseq, hlines, -⟩ := h.parts hs
  obtain ⟨l, hscan, hlt⟩ := hl
  have hnew : s'.ledger.seq.toNat = s.ledger.seq.toNat + 1 := by rw [hledger]; exact hseq
  refine ⟨l, ?_, by omega⟩
  rw [hlines, scan_append_of_halted hscan]

-- ========================================================== what the load decides

theorem bounded_of_replay {f : LedgerFile} {l : StarLedger} {b : Bool}
    (h : StarLedger.replayFile sha256 codec f = some (l, b)) : Bounded ⟨l, f⟩ := by
  have hle := StarLedger.seq_le_of_scan h
  change l.seq.toNat ≤ f.all.length
  have hzero : StarLedger.empty.seq.toNat = 0 := rfl
  omega

/-- Behind a file that is not whole the first append is lost. -/
theorem lost_of_first {f : LedgerFile} {l : StarLedger} {b : Bool} {s : Store}
    (hreplay : StarLedger.replayFile sha256 codec f = some (l, b))
    (hf : ¬ f.Whole sha256 codec) (hfirst : Appended sha256 codec ⟨l, f⟩ s) :
    Lost sha256 codec s := by
  obtain ⟨ev, -, hledger, hseq, hlines, -⟩ := hfirst.parts (bounded_of_replay hreplay)
  have hnew : s.ledger.seq.toNat = l.seq.toNat + 1 := by rw [hledger]; exact hseq
  have hall := hreplay
  rw [StarLedger.replayFile, LedgerFile.all, scan_append] at hall
  split at hall
  · next l₀ hl₀ =>
    -- the finished lines are read, so the last line is unfinished
    have htext : ¬ RawLine.Blank f.tail := by
      intro hblank
      have hread := (StarLedger.readLine_eq_blank_iff codec _).mpr hblank
      rw [scan, StarLedger.replayLine, hread] at hall
      cases hall
      exact hf ⟨hblank, l, hreplay⟩
    have hdec : f.tail.any Option.isNone = false := by
      by_contra hnone
      rw [Bool.not_eq_false] at hnone
      have hread : StarLedger.readLine codec f.tail = .unreadable := by
        rw [StarLedger.readLine, if_pos hnone]
      rw [scan, StarLedger.replayLine, hread] at hall
      cases hall
    have hle : l₀.seq.toNat ≤ l.seq.toNat := by
      have hfits := f.fits
      have hcount := StarLedger.seq_le_of_scan hl₀
      have hzero : StarLedger.empty.seq.toNat = 0 := rfl
      exact StarLedger.le_seq_of_scan (by rw [List.length_singleton]; omega) hall
    have hcorrupt := StarLedger.readLine_behind_text codec hdec htext ev
    refine ⟨l₀, ?_, by omega⟩
    rw [hlines, scan_append_of_through hl₀, scan, StarLedger.replayLine, hcorrupt]
  · next hnot =>
    -- replay stops in the finished lines already
    cases b with
    | true => exact absurd hall (hnot l)
    | false =>
        refine ⟨l, ?_, by omega⟩
        rw [hlines, scan_append_of_halted hall]

-- =================================================================== the reload

/-- A load that has nothing to seed is its replay. -/
theorem load_of_replay {f : LedgerFile} {l : StarLedger} {b : Bool}
    (h : StarLedger.replayFile sha256 codec f = some (l, b))
    {legacyCounts : Table String UInt64}
    (hgen : l.seq = 0 → genesisEntries legacyCounts = []) (ids : Nat → String) (ts : UInt64) :
    loadOrMigrate sha256 codec f legacyCounts ids ts = .ok ⟨l, f⟩ := by
  rw [loadOrMigrate, h]
  dsimp only
  split
  · next hzero =>
    rw [hgen hzero]
    rfl
  · rfl

theorem reloads_of_replay {s : Store} {b : Bool}
    (h : StarLedger.replayFile sha256 codec s.file = some (s.ledger, b)) :
    s.Reloads sha256 codec := fun _ ids ts hgen =>
  ⟨s, load_of_replay h hgen ids ts, ⟨rfl, rfl, rfl, rfl, rfl, rfl⟩⟩

theorem genesisEntries_empty : genesisEntries ∅ = [] := by simp [genesisEntries]

theorem not_reloads_of_lost {s : Store} (h : Lost sha256 codec s) :
    ¬ s.Reloads sha256 codec := by
  intro hre
  obtain ⟨l, hscan, hlt⟩ := h
  have hreplay : StarLedger.replayFile sha256 codec s.file = some (l, false) := by
    rw [StarLedger.replayFile, LedgerFile.all, scan_append_of_halted hscan]
  obtain ⟨s', hload, hagrees⟩ := hre ∅ (fun _ => "") 0 fun _ => genesisEntries_empty
  rw [load_of_replay hreplay fun _ => genesisEntries_empty] at hload
  cases hload
  rw [← hagrees.seq] at hlt
  exact Nat.lt_irrefl _ hlt

open Relation

/-- Every append preserves what holds of a store within bounds. -/
theorem of_appends {P : Store → Prop}
    (hstep : ∀ s s', Appended sha256 codec s s' → s.Bounded → P s → P s') {s s' : Store}
    (hs : s.Bounded) (hP : P s) (h : ReflTransGen (Appended sha256 codec) s s') : P s' := by
  have hboth : s'.Bounded ∧ P s' := by
    induction h with
    | refl => exact ⟨hs, hP⟩
    | tail _ hlast ih => exact ⟨hlast.bounded ih.1, hstep _ _ hlast ih.1 ih.2⟩
  exact hboth.2

/-- After a load and any successful calls, loading the file again gives the
ledger in memory exactly when nothing was appended or the file that was
loaded is read to its end and has a finished last line. -/
theorem reloads_iff {f : LedgerFile} {legacyCounts : Table String UInt64} {ids : Nat → String}
    {ts : UInt64} {calls : List Call} {s₀ s : Store}
    (hload : loadOrMigrate sha256 codec f legacyCounts ids ts = .ok s₀)
    (hrun : Call.runAll sha256 codec s₀ calls = .ok s) :
    s.Reloads sha256 codec
      ↔ f.Untouched sha256 codec legacyCounts calls ∨ f.Whole sha256 codec := by
  obtain ⟨l, b, hreplay, ⟨hsame, rfl⟩ | ⟨happ, hruns⟩⟩ := load_cases hload hrun
  · exact iff_of_true (reloads_of_replay hreplay) (.inl hsame)
  have hbound := bounded_of_replay hreplay
  by_cases hf : f.Whole sha256 codec
  · obtain ⟨hblank, l', hall⟩ := hf
    cases hreplay.symm.trans hall
    have hcaught : Caught sha256 codec s :=
      of_appends (fun _ _ happ hs hc => happ.caught hs hc) hbound ⟨hblank, hreplay⟩
        hruns.to_reflTransGen
    exact iff_of_true (reloads_of_replay hcaught.replay) (.inr ⟨hblank, l, hall⟩)
  · obtain ⟨s₁, hfirst, hrest⟩ := TransGen.head'_iff.mp hruns
    have hlost : Lost sha256 codec s :=
      of_appends (fun _ _ happ hs hl => happ.lost hs hl) (hfirst.bounded hbound)
        (lost_of_first hreplay hf hfirst) hrest
    exact iff_of_false (not_reloads_of_lost hlost) (not_or.mpr ⟨happ, hf⟩)

/-- A file of blank lines, or of none, has no events. -/
theorem replayFile_of_blank (sha256 : String → List UInt8) (codec : LineCodec)
    {f : LedgerFile} (h : ∀ raw ∈ f.all, RawLine.Blank raw) :
    StarLedger.replayFile sha256 codec f = some (.empty, true) := by
  unfold StarLedger.replayFile
  generalize f.all = raws at h
  induction raws with
  | nil => rfl
  | cons raw raws ih =>
      obtain ⟨hraw, hraws⟩ := List.forall_mem_cons.mp h
      rw [scan, StarLedger.replayLine, (StarLedger.readLine_eq_blank_iff codec raw).mpr hraw]
      exact ih hraws

/-- Stars for a first user. -/
def firstMint : Call := .mintFrom "" "alice" 10 "test_mint" "" ⟨"u1", 1⟩

theorem runAll_firstMint (sha256 : String → List UInt8) (codec : LineCodec) (s : Store)
    (hroom : s.file.lines.length + 1 < 2 ^ 63) :
    ∃ s', Call.runAll sha256 codec s [firstMint] = .ok s' ∧ Appended sha256 codec s s' := by
  have hidle : ¬ ("alice" = "" ∨ (10 : UInt64) = 0) := by decide
  obtain ⟨s', hpush⟩ : ∃ s', s.push codec
      (s.nextEvent sha256 kindMint "" "alice" 10 "test_mint" "" "" ⟨"u1", 1⟩) = some s' := by
    exact ⟨_, by rw [push, LedgerFile.append, dif_pos hroom]; rfl⟩
  refine ⟨s', ?_, _, _, _, _, _, _, _, _, hpush⟩
  simp only [Call.runAll, firstMint, Call.apply, mintFrom, if_neg hidle, appendEvent, hpush]
  rfl

/-- A fresh ledger, a mint, and the ledger again. -/
theorem reloads_iff_fresh :
    ∃ s, Call.runAll Sha256.sha256 compactCodec ⟨.empty, .empty⟩ [firstMint] = .ok s
      ∧ s.Reloads Sha256.sha256 compactCodec := by
  have hblank : ∀ raw ∈ LedgerFile.empty.all, RawLine.Blank raw := by
    simp [LedgerFile.all, LedgerFile.empty, RawLine.Blank]
  have hreplay := replayFile_of_blank Sha256.sha256 compactCodec hblank
  obtain ⟨s, hrun, -⟩ := runAll_firstMint Sha256.sha256 compactCodec ⟨.empty, .empty⟩
    (by decide)
  have hload := load_of_replay hreplay (fun _ => genesisEntries_empty) (fun _ => "") 0
  exact ⟨s, hrun, (reloads_iff hload hrun).mpr (.inr ⟨nofun, _, hreplay⟩)⟩

/-- A file that ends in an unfinished line. -/
def tornFile : LedgerFile := ⟨[], rawOf "\x7b", LedgerFile.empty.fits⟩

/-- Behind an unfinished line the mint is lost. -/
theorem torn_line_forgets :
    ∃ s, loadOrMigrate Sha256.sha256 compactCodec tornFile ∅ (fun _ => "") 0
        = .ok ⟨.empty, tornFile⟩
      ∧ Call.runAll Sha256.sha256 compactCodec ⟨.empty, tornFile⟩ [firstMint] = .ok s
      ∧ ¬ s.Reloads Sha256.sha256 compactCodec := by
  have hcorrupt : StarLedger.readLine compactCodec (rawOf "\x7b") = .corrupt := by decide
  have hreplay : StarLedger.replayFile Sha256.sha256 compactCodec tornFile
      = some (.empty, false) := by
    simp [StarLedger.replayFile, LedgerFile.all, tornFile, scan, StarLedger.replayLine,
      hcorrupt]
  have hwhole : ¬ tornFile.Whole Sha256.sha256 compactCodec := by
    rintro ⟨-, l, hl⟩
    cases hreplay.symm.trans hl
  obtain ⟨s, hrun, hfirst⟩ := runAll_firstMint Sha256.sha256 compactCodec
    ⟨.empty, tornFile⟩ (by decide)
  exact ⟨s, load_of_replay hreplay (fun _ => genesisEntries_empty) _ _, hrun,
    not_reloads_of_lost (lost_of_first hreplay hwhole hfirst)⟩

end Store

end Ruletka.Ledger
