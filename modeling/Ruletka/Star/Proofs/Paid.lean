/-
Every effect that is announced as bought has been paid for.

The ledger remembers the operation ids of its debits in one set for all
users. An id it remembers makes a purchase a retry: the answer announces the
effect that runs on the target, and nobody is debited. `SameRetry` is what
makes that answer true: the debit under the id is one of this sender, for
this target, for the effect that the answer shows.

The invariant is `Accounted`: an id is remembered for every journaled debit,
no id has two, and every announcement stands on a journaled spend. A call on
the ledger keeps it because it refuses an id that it remembers.
-/
import Ruletka.Star.Effect
import Ruletka.Ledger.Proofs.Conservation
import Ruletka.Hub.Run

namespace Ruletka

open Text

namespace Ledger

variable {sha256 : String → List UInt8} {codec : LineCodec}

/-- An id is fresh when it is written. -/
structure FreshOp (l : StarLedger) (ev : StarEvent) : Prop where
  unknown : ev.opId ∉ l.spentOps
  trimmed : trim ev.opId = ev.opId
  debit : ev.kind = kindSpend ∨ ev.kind = kindClawback

theorem Store.tryAppend_ok {s s' : Store} {w : Write} {kind «from» «to» : String}
    {amount : UInt64} {reason session opId who : String} {stamp : Stamp} {ev : StarEvent}
    {b : UInt64}
    (h : withBalance who (s.tryAppend sha256 codec w kind «from» «to» amount reason session opId
      stamp) = (.ok (ev, b), s')) :
    ev = s.nextEvent sha256 kind «from» «to» amount reason session opId stamp
      ∧ s'.ledger = s.ledger.record ev := by
  unfold tryAppend at h
  dsimp only at h
  split at h
  · cases h
  · cases h
  · cases h
    exact ⟨rfl, rfl⟩

/-- What a call records, if it records anything: an id only if it is fresh. -/
theorem Call.attempt_fresh {s s' : Store} {w : Write} {c : Call} {ev : StarEvent} {b : UInt64}
    (h : c.attempt sha256 codec w s = (.ok (ev, b), s')) (hbusy : ¬ c.Idle) :
    s'.ledger = s.ledger.record ev ∧ (ev.opId ≠ "" → FreshOp s.ledger ev) := by
  cases c with
  | mintFrom «from» «to» amount reason session stamp =>
      simp only [Call.attempt, Store.tryMintFrom] at h
      rw [if_neg (show ¬ (_ = _ ∨ _ = _) from hbusy)] at h
      obtain ⟨rfl, hs'⟩ := Store.tryAppend_ok h
      exact ⟨hs', fun hop => absurd rfl hop⟩
  | adjust «to» amount reason stamp =>
      simp only [Call.attempt, Store.tryAdjust] at h
      rw [if_neg (show ¬ (_ = _ ∨ _ = _) from hbusy)] at h
      obtain ⟨rfl, hs'⟩ := Store.tryAppend_ok h
      exact ⟨hs', fun hop => absurd rfl hop⟩
  | spend «from» «to» amount reason opId session stamp =>
      simp only [Call.attempt, Store.trySpend] at h
      split_ifs at h with hempty hop hshort
      · cases h
      · cases h
      · cases h
      · obtain ⟨rfl, hs'⟩ := Store.tryAppend_ok h
        exact ⟨hs', fun hne => ⟨fun hmem => hop ⟨hne, hmem⟩, trim_trim opId, .inl rfl⟩⟩
  | clawback userId balanceBurn trustBurn reason opId stamp =>
      simp only [Call.attempt, Store.tryClawback] at h
      split_ifs at h with hempty hzero hop hreason
      · cases h
      · cases h
      · cases h
      · obtain ⟨rfl, hs'⟩ := Store.tryAppend_ok h
        exact ⟨hs', fun hne => ⟨fun hmem => hop ⟨hne, hmem⟩, trim_trim opId, .inr rfl⟩⟩
      · obtain ⟨rfl, hs'⟩ := Store.tryAppend_ok h
        exact ⟨hs', fun hne => ⟨fun hmem => hop ⟨hne, hmem⟩, trim_trim opId, .inr rfl⟩⟩

/-- The event of a spend. -/
theorem Store.trySpend_event {s s' : Store} {w : Write} {«from» «to» : String} {amount : UInt64}
    {reason opId session : String} {stamp : Stamp} {ev : StarEvent} {b : UInt64}
    (h : s.trySpend sha256 codec w «from» «to» amount reason opId session stamp
      = (.ok (ev, b), s')) :
    ev.kind = kindSpend ∧ ev.from = «from» ∧ ev.to = «to» ∧ ev.reason = reason
      ∧ ev.opId = trim opId := by
  unfold trySpend at h
  dsimp only at h
  split_ifs at h with hempty hop hshort
  · cases h
  · cases h
  · cases h
  · obtain ⟨rfl, -⟩ := Store.tryAppend_ok h
    exact ⟨rfl, rfl, rfl, rfl, rfl⟩

/-- A spend is refused as applied only when its id is remembered. -/
theorem Store.trySpend_applied {s : Store} {w : Write} {«from» «to» : String} {amount : UInt64}
    {reason opId session : String} {stamp : Stamp} {b : UInt64}
    (h : (s.trySpend sha256 codec w «from» «to» amount reason opId session stamp).1
      = .error (.alreadyApplied b)) :
    trim opId ≠ "" ∧ trim opId ∈ s.ledger.spentOps := by
  unfold trySpend tryAppend at h
  dsimp only at h
  split_ifs at h with hempty hop hshort
  · cases h
  · exact hop
  · cases h
  · split at h
    · cases h
    · cases h
    · cases h

end Ledger

open Ledger

namespace StarHub

variable {sha256 : String → List UInt8} {codec : LineCodec} {s : StarHub}

-- ==================================================================== accounts

/-- A spend that pays for an effect. -/
def Pays (ev : StarEvent) (me target : UserId) (effect : String) : Prop :=
  ev.kind = kindSpend ∧ ev.from = me ∧ ev.to = target ∧ ev.reason = "spend:" ++ effect

/-- An announcement stands on a journaled spend. -/
def Purchased (journal : List StarEvent) (m : StarEffect) : Prop :=
  ∃ ev ∈ journal, Pays ev m.fromUserId m.userId m.effect

/-- The debits under an operation id. -/
def underOp (journal : List StarEvent) (op : String) : List StarEvent :=
  journal.filter fun ev => ev.opId = op

structure Accounted (s : StarHub) : Prop where
  known : ∀ ev ∈ s.journal, ev.opId ≠ "" → ev.opId ∈ s.store.ledger.spentOps
  once : ∀ op, op ≠ "" → (underOp s.journal op).length ≤ 1
  trimmed : ∀ op ∈ s.store.ledger.spentOps, trim op = op
  paid : ∀ p ∈ s.outbox, p.2.ok = true → Purchased s.journal p.2

/-- Nothing under an id that is not remembered. -/
theorem Accounted.underOp_eq_nil (ha : Accounted s) {op : String} (hop : op ≠ "")
    (hnew : op ∉ s.store.ledger.spentOps) : underOp s.journal op = [] := by
  rw [underOp, List.filter_eq_nil_iff]
  intro ev hev heq
  rw [decide_eq_true_eq] at heq
  subst heq
  exact hnew (ha.known ev hev hop)

theorem mem_spentOps_record {l : StarLedger} {ev : StarEvent} {op : String}
    (hop : op ∈ (l.record ev).spentOps) : op ∈ l.spentOps ∨ (op = ev.opId ∧ ev.opId ≠ "") := by
  have hop' : op ∈ StarLedger.indexOp l.spentOps ev := hop
  unfold StarLedger.indexOp at hop'
  split at hop'
  · next h =>
    rcases Finset.mem_insert.mp hop' with heq | hold
    · exact .inr ⟨heq, h.2⟩
    · exact .inl hold
  · exact .inl hop'

theorem subset_spentOps_record (l : StarLedger) (ev : StarEvent) :
    l.spentOps ⊆ (l.record ev).spentOps := by
  show l.spentOps ⊆ StarLedger.indexOp l.spentOps ev
  unfold StarLedger.indexOp
  split
  · exact Finset.subset_insert _ _
  · exact Finset.Subset.refl _

/-- Another event in the journal, its id fresh. -/
theorem Accounted.record (ha : Accounted s) {ev : StarEvent} {store : Store}
    (hl : store.ledger = s.store.ledger.record ev)
    (hfresh : ev.opId ≠ "" → FreshOp s.store.ledger ev) :
    Accounted { s with store := store, journal := s.journal ++ [ev] } where
  known ev' hmem hop := by
    show ev'.opId ∈ store.ledger.spentOps
    rw [hl]
    rcases List.mem_append.mp hmem with hold | hnew
    · exact subset_spentOps_record _ _ (ha.known ev' hold hop)
    · obtain rfl := List.mem_singleton.mp hnew
      show ev'.opId ∈ StarLedger.indexOp s.store.ledger.spentOps ev'
      rw [StarLedger.indexOp, if_pos ⟨(hfresh hop).debit, hop⟩]
      exact Finset.mem_insert_self _ _
  once op hop := by
    show (underOp (s.journal ++ [ev]) op).length ≤ 1
    by_cases heq : ev.opId = op
    · subst heq
      have hnil := ha.underOp_eq_nil hop (hfresh hop).unknown
      unfold underOp at hnil ⊢
      rw [List.filter_append, hnil]
      simp
    · have hone : [ev].filter (fun ev => ev.opId = op) = [] := by simp [heq]
      rw [underOp, List.filter_append, hone, List.append_nil]
      exact ha.once op hop
  trimmed op hop := by
    have hop' : op ∈ store.ledger.spentOps := hop
    rw [hl] at hop'
    rcases mem_spentOps_record hop' with hold | ⟨rfl, hne⟩
    · exact ha.trimmed op hold
    · exact (hfresh hne).trimmed
  paid p hp hok := by
    obtain ⟨ev', hev', hpays⟩ := ha.paid p hp hok
    exact ⟨ev', List.mem_append_left _ hev', hpays⟩

theorem Accounted.sameLedger (ha : Accounted s) {store : Store}
    (hl : store.ledger = s.store.ledger) : Accounted { s with store := store } where
  known := by
    show ∀ ev ∈ s.journal, ev.opId ≠ "" → ev.opId ∈ store.ledger.spentOps
    rw [hl]
    exact ha.known
  once := ha.once
  trimmed := by
    show ∀ op ∈ store.ledger.spentOps, trim op = op
    rw [hl]
    exact ha.trimmed
  paid := ha.paid

/-- How a call on the ledger ends here. -/
theorem ledgerCall_cases (sha256 : String → List UInt8) (codec : LineCodec) (s : StarHub)
    (w : Write) (c : Call) :
    (∃ r store, store.ledger = s.store.ledger
        ∧ s.ledgerCall sha256 codec w c = (r, { s with store := store })
        ∧ (c.Idle ∨ ∃ e, r = .error e ∧ (c.attempt sha256 codec w s.store).1 = .error e))
      ∨ ∃ ev bal store, ¬ c.Idle
        ∧ c.attempt sha256 codec w s.store = (.ok (ev, bal), store)
        ∧ store.ledger = s.store.ledger.record ev
        ∧ (ev.opId ≠ "" → FreshOp s.store.ledger ev)
        ∧ s.ledgerCall sha256 codec w c
          = (.ok bal, { s with store := store, journal := s.journal ++ [ev] }) := by
  have hatt : Attempted codec w c s.store (c.attempt sha256 codec w s.store) :=
    Store.attempt_attempted w s.store c
  unfold ledgerCall
  cases hres : c.attempt sha256 codec w s.store with
  | mk r store =>
    rw [hres] at hatt
    cases hatt with
    | error e hsame _ => exact .inl ⟨_, store, hsame, rfl, .inr ⟨e, rfl, rfl⟩⟩
    | idle hidle r =>
        refine .inl ⟨.ok r.2, s.store, rfl, ?_, .inl hidle⟩
        dsimp only
        rw [if_pos hidle]
    | @recorded hbusy ev hev b s' hrec =>
        obtain ⟨hledger, hfresh⟩ := Call.attempt_fresh hres hbusy
        refine .inr ⟨ev, b, store, hbusy, rfl, hledger, hfresh, ?_⟩
        dsimp only
        rw [if_neg hbusy]

theorem Accounted.ledgerCall (ha : Accounted s) (w : Write) (c : Call) :
    Accounted (s.ledgerCall sha256 codec w c).2 := by
  rcases ledgerCall_cases sha256 codec s w c with
    ⟨r, store, hsame, hcall, -⟩ | ⟨ev, bal, store, -, -, hledger, hfresh, hcall⟩
  · rw [hcall]
    exact ha.sameLedger hsame
  · rw [hcall]
    exact ha.record hledger hfresh

-- ==================================================================== messages

/-- The books behind the announcements: nothing but messages and the tables of
the effects may differ. -/
def SameBooks (s' s : StarHub) : Prop := s'.store = s.store ∧ s'.journal = s.journal

/-- Messages that announce nothing, or something that is paid for. -/
theorem Accounted.say (ha : Accounted s) {s' : StarHub} (hb : SameBooks s' s)
    {ms : List (ConnId × StarEffect)} (hout : s'.outbox = s.outbox ++ ms)
    (hms : ∀ p ∈ ms, p.2.ok = true → Purchased s.journal p.2) : Accounted s' where
  known := by
    rw [hb.1, hb.2]
    exact ha.known
  once := by
    rw [hb.2]
    exact ha.once
  trimmed := by
    rw [hb.1]
    exact ha.trimmed
  paid p hp hok := by
    rw [hb.2]
    rw [hout] at hp
    rcases List.mem_append.mp hp with hold | hnew
    · exact ha.paid p hold hok
    · exact hms p hnew hok

/-- Somebody was told of a success. -/
def Announces (s' s : StarHub) : Prop :=
  ∃ p ∈ s'.outbox.drop s.outbox.length, p.2.ok = true

/-- A refusal keeps the accounts and announces nothing. -/
theorem Accounted.refuse (ha : Accounted s) {id : ConnId} {user effect : String}
    {mine theirs : Nat} {why me : String} {P : Prop} :
    Accounted (s.refuse id user effect mine theirs why me)
      ∧ (Announces (s.refuse id user effect mine theirs why me) s → P) := by
  constructor
  · refine ha.say ⟨rfl, rfl⟩ rfl fun p hp hok => ?_
    rw [List.mem_singleton.mp hp] at hok
    cases hok
  · rintro ⟨p, hp, hok⟩
    have hp' : p ∈ (s.outbox ++ [(id, (⟨false, user, effect, 0, 1, 0, mine, theirs, why, me⟩ :
        StarEffect))]).drop s.outbox.length := hp
    rw [List.drop_left, List.mem_singleton] at hp'
    rw [hp'] at hok
    cases hok

/-- A paid announcement. -/
theorem Accounted.broadcast (ha : Accounted s) (env : Env) {target me : UserId}
    {effect : String} (hpaid : ∃ ev ∈ s.journal, Pays ev me target effect)
    («until» cost stars : Nat) (message : String) (level : Nat) :
    Accounted (s.broadcastStarEffect env target effect «until» cost me stars message level) := by
  refine ha.say ⟨rfl, rfl⟩ rfl fun p hp _ => ?_
  obtain ⟨x, -, rfl⟩ := List.mem_map.mp hp
  exact hpaid

-- ==================================================================== a purchase

theorem applyEffect_same (env : Env) (me target : UserId) (kind : EffectKind) :
    SameBooks (s.applyEffect env me target kind).1 s
      ∧ (s.applyEffect env me target kind).1.outbox = s.outbox := by
  unfold applyEffect
  dsimp only
  split
  · exact ⟨⟨rfl, rfl⟩, rfl⟩
  · exact ⟨⟨rfl, rfl⟩, rfl⟩

/-- The journal only grows. -/
theorem ledgerCall_grows (sha256 : String → List UInt8) (codec : LineCodec) (s : StarHub)
    (w : Write) (c : Call) :
    s.journal ⊆ (s.ledgerCall sha256 codec w c).2.journal
      ∧ (s.ledgerCall sha256 codec w c).2.outbox = s.outbox := by
  rcases ledgerCall_cases sha256 codec s w c with
    ⟨r, store, -, hcall, -⟩ | ⟨ev, bal, store, -, -, -, -, hcall⟩
  · rw [hcall]
    exact ⟨List.Subset.refl _, rfl⟩
  · rw [hcall]
    exact ⟨List.subset_append_left _ _, rfl⟩

/-- A purchase that is debited keeps the accounts. -/
theorem Accounted.purchase (sha256 : String → List UInt8) (codec : LineCodec) (ha : Accounted s)
    (env : StarEnv) {me target : UserId}
    {kind : EffectKind} (hpaid : ∃ ev ∈ s.journal, Pays ev me target kind.text) (bal : Nat) :
    Accounted (s.purchase sha256 codec env me target kind bal)
      ∧ s.journal ⊆ (s.purchase sha256 codec env me target kind bal).journal := by
  obtain ⟨hsame, hout⟩ := applyEffect_same (s := s) env.toEnv me target kind
  unfold StarHub.purchase
  generalize s.applyEffect env.toEnv me target kind = r at hsame hout
  obtain ⟨s₁, «until», level, message⟩ := r
  dsimp only at hsame hout ⊢
  have h₁ : Accounted s₁ := ha.say hsame (by rw [hout, List.append_nil]) (by simp)
  have hpaid₁ : ∃ ev ∈ s₁.journal, Pays ev me target kind.text := by
    rw [hsame.2]
    exact hpaid
  split
  · obtain ⟨hgrows, -⟩ := ledgerCall_grows sha256 codec s₁ env.giftWrite
      (.mintFrom me target (UInt64.ofNat 1) ("gift:" ++ kind.text) "" env.giftStamp)
    obtain ⟨ev, hev, hpays⟩ := hpaid₁
    refine ⟨(h₁.ledgerCall _ _).broadcast env.toEnv ⟨ev, hgrows hev, hpays⟩ .., ?_⟩
    show s.journal ⊆ (s₁.ledgerCall sha256 codec env.giftWrite _).2.journal
    rw [← hsame.2]
    exact hgrows
  · refine ⟨h₁.broadcast env.toEnv hpaid₁ .., ?_⟩
    show s.journal ⊆ s₁.journal
    rw [hsame.2]
    exact List.Subset.refl _

-- ===================================================================== retries

/-- The ledger remembers the id: as it is, or trimmed once nothing else stands
in the way. -/
def Retries (s : StarHub) (env : Env) (id : ConnId) (me target : UserId) (kind : EffectKind)
    (op : String) : Prop :=
  (op ≠ "" ∧ op ∈ s.store.ledger.spentOps)
    ∨ (s.spendRefusal env id me target kind = none
      ∧ trim op ≠ "" ∧ trim op ∈ s.store.ledger.spentOps)

/-- What the ledger has under the id is the sender's own purchase for the
target, of the effect that a retry is answered with. -/
def OwnPurchase (s : StarHub) (env : Env) (me target : UserId) (kind : EffectKind)
    (op : String) : Prop :=
  ∃ ev ∈ s.journal, ev.opId = trim op ∧ Pays ev me target (s.shownEffect env kind target)

theorem Accounted.alreadyApplied (ha : Accounted s) {env : Env} {kind : EffectKind}
    {me target : UserId} (op : String) (hown : s.OwnPurchase env me target kind op)
    (bal idle : Nat) : Accounted (s.alreadyApplied env kind me target bal idle) := by
  obtain ⟨ev, hev, -, hpays⟩ := hown
  exact ha.broadcast env ⟨ev, hev, hpays⟩ ..

/-- **Step**: a purchase, or the answer to a retry. -/
theorem buy_spec (ha : Accounted s) {env : StarEnv} {id : ConnId} {me target : UserId}
    {kind : EffectKind} {op : String}
    (hretry : s.Retries env.toEnv id me target kind op →
      s.OwnPurchase env.toEnv me target kind op) :
    Accounted (s.buy sha256 codec env id me target kind op)
      ∧ (Announces (s.buy sha256 codec env id me target kind op) s →
        ∃ ev ∈ (s.buy sha256 codec env id me target kind op).journal,
          ev.opId = trim op ∧ ev.kind = kindSpend ∧ ev.from = me) := by
  unfold buy
  by_cases hop : op ≠ "" ∧ op ∈ s.store.ledger.spentOps
  · rw [if_pos hop]
    have hown := hretry (.inl hop)
    refine ⟨ha.alreadyApplied op hown _ _, fun _ => ?_⟩
    obtain ⟨ev, hev, hid, hkind, hfrom, -⟩ := hown
    exact ⟨ev, hev, hid, hkind, hfrom⟩
  rw [if_neg hop]
  cases hrefusal : s.spendRefusal env.toEnv id me target kind with
  | some why => exact ha.refuse
  | none =>
    dsimp only
    unfold ledgerSpend
    rcases ledgerCall_cases sha256 codec s env.spendWrite
        (.spend me target (UInt64.ofNat kind.costDuration.1) ("spend:" ++ kind.text) op ""
          env.spendStamp) with
      ⟨r, store, hsame, hcall, hidle | ⟨e, rfl, hattempt⟩⟩
        | ⟨ev, bal, store, -, hattempt, hledger, hfresh, hcall⟩
    · cases hidle
    · have ha' := ha.sameLedger hsame
      rw [hcall]
      cases e with
      | alreadyApplied bal =>
          obtain ⟨hne, hmem⟩ := Store.trySpend_applied hattempt
          have hown := hretry (.inr ⟨hrefusal, hne, hmem⟩)
          refine ⟨ha'.alreadyApplied op hown _ _, fun _ => ?_⟩
          obtain ⟨ev, hev, hid, hkind, hfrom, -⟩ := hown
          exact ⟨ev, hev, hid, hkind, hfrom⟩
      | insufficient h n => exact ha'.refuse
      | io => exact ha'.refuse
      | empty => exact ha'.refuse
    · obtain ⟨hkind, hfrom, hto, hreason, hid⟩ := Store.trySpend_event hattempt
      have ha' := ha.record hledger hfresh
      have hev : ev ∈ s.journal ++ [ev] := List.mem_append_right _ (List.mem_singleton_self ev)
      rw [hcall]
      dsimp only
      obtain ⟨hacc, hgrows⟩ := ha'.purchase sha256 codec env
        ⟨ev, hev, hkind, hfrom, hto, hreason⟩ bal.toNat
      exact ⟨hacc, fun _ => ⟨ev, hgrows hev, hid, hkind, hfrom⟩⟩

/-- A retry of `handle_spend_stars` repeats the sender's own purchase. -/
def SameRetry (s : StarHub) (env : StarEnv) (id : ConnId) (raw effectRaw opRaw : String) :
    Prop :=
  ∀ kind c target, EffectKind.normalize effectRaw = some kind → s.hub.get id = some c →
    s.hub.resolveTargetUserId env.toEnv raw = some target →
    ¬ (c.userId = "" ∨ target = "" ∨ target = c.userId) →
    s.Retries env.toEnv id c.userId target kind (opIdOf opRaw) →
    s.OwnPurchase env.toEnv c.userId target kind (opIdOf opRaw)

/-- **Step**: `handle_spend_stars`. -/
theorem handleSpendStars_spec (sha256 : String → List UInt8) (codec : LineCodec)
    (ha : Accounted s) {env : StarEnv} {id : ConnId}
    {raw effectRaw opRaw : String} (hretry : s.SameRetry env id raw effectRaw opRaw) :
    Accounted (s.handleSpendStars sha256 codec env id raw effectRaw opRaw)
      ∧ (Announces (s.handleSpendStars sha256 codec env id raw effectRaw opRaw) s →
        ∃ ev ∈ (s.handleSpendStars sha256 codec env id raw effectRaw opRaw).journal,
          ev.opId = trim (opIdOf opRaw) ∧ ev.kind = kindSpend
            ∧ ev.from = s.hub.userOf id) := by
  unfold handleSpendStars
  cases hkind : EffectKind.normalize effectRaw with
  | none => exact ha.refuse
  | some kind =>
    cases hc : s.hub.get id with
    | none =>
        refine ⟨ha, ?_⟩
        rintro ⟨p, hp, -⟩
        have hp' : p ∈ s.outbox.drop s.outbox.length := hp
        rw [List.drop_length] at hp'
        cases hp'
    | some c =>
      have huser : s.hub.userOf id = c.userId := by
        unfold SimpleHub.userOf
        rw [hc]
        rfl
      dsimp only
      cases htarget : s.hub.resolveTargetUserId env.toEnv raw with
      | none => exact ha.refuse
      | some target =>
        dsimp only
        split
        · exact ha.refuse
        · next hvalid =>
          rw [huser]
          exact buy_spec ha (hretry kind c target hkind hc htarget hvalid)

-- ======================================================================== runs

/-- What may happen: a purchase, any other call on the ledger with its write,
or a change of the hub and of the effects' tables. -/
inductive StarMove where
  | spend (env : StarEnv) (id : ConnId) (raw effect opId : String)
  | ledger (w : Write) (c : Call)
  | elsewhere (hub : SimpleHub) (starEffects : Table UserId StarEffectRecord)
      (noSkipUntil : Table UserId Nat) (pleaseStayLast : Table String Nat)

def next (sha256 : String → List UInt8) (codec : LineCodec) (s : StarHub) : StarMove → StarHub
  | .spend env id raw effect opId => s.handleSpendStars sha256 codec env id raw effect opId
  | .ledger w c => (s.ledgerCall sha256 codec w c).2
  | .elsewhere hub starEffects noSkipUntil pleaseStayLast =>
      { s with
        hub := hub
        starEffects := starEffects
        noSkipUntil := noSkipUntil
        pleaseStayLast := pleaseStayLast }

/-- Purchases over a ledger that starts empty. -/
def starMachine (sha256 : String → List UInt8) (codec : LineCodec) :
    Machine StarHub StarMove where
  start s := s.store = ⟨.empty, .empty⟩ ∧ s.journal = [] ∧ s.outbox = []
  step s m s' := s' = s.next sha256 codec m

/-- Every retry repeats the sender's own purchase. -/
def OwnRetries (s : StarHub) : StarMove → Prop
  | .spend env id raw effect opId => s.SameRetry env id raw effect opId
  | _ => True

theorem Accounted.next (ha : Accounted s) {m : StarMove} (hown : s.OwnRetries m) :
    Accounted (s.next sha256 codec m) := by
  cases m with
  | spend env id raw effect opId =>
      dsimp only [StarHub.next]
      exact (handleSpendStars_spec sha256 codec ha hown).1
  | ledger w c =>
      dsimp only [StarHub.next]
      exact ha.ledgerCall w c
  | elsewhere hub starEffects noSkipUntil pleaseStayLast =>
      exact {
        known := ha.known
        once := ha.once
        trimmed := ha.trimmed
        paid := ha.paid }

/-- **Invariant**: the books account for everything that was announced. -/
theorem accounted_of_reach
    (h : ((starMachine sha256 codec).guard OwnRetries).Reach s) : Accounted s := by
  induction h with
  | @start s h =>
      obtain ⟨hstore, hjournal, hout⟩ := h
      refine ⟨?_, ?_, ?_, ?_⟩
      · rw [hjournal]
        simp
      · rw [hjournal]
        exact fun _ _ => Nat.zero_le _
      · rw [hstore]
        exact fun op hop => absurd hop (Finset.notMem_empty op)
      · rw [hout]
        simp
  | @step s s' m hr hs ih =>
      obtain ⟨hown, rfl⟩ := hs
      exact ih.next hown

/-- **Every announced effect is paid for**, an operation id debits at most
once, and a `SpendStars` that is announced has debited its sender exactly
once under its id, now or before. -/
theorem paid_effects_only
    (h : ((starMachine sha256 codec).guard OwnRetries).Reach s) :
    (∀ p ∈ s.outbox, p.2.ok = true → ∃ ev ∈ s.journal, ev.kind = kindSpend
        ∧ ev.from = p.2.fromUserId ∧ ev.to = p.2.userId
        ∧ ev.reason = "spend:" ++ p.2.effect)
      ∧ (∀ op, op ≠ "" → (underOp s.journal op).length ≤ 1)
      ∧ ∀ env id raw effect opId, s.SameRetry env id raw effect opId →
        trim (opIdOf opId) ≠ "" →
        Announces (s.handleSpendStars sha256 codec env id raw effect opId) s →
        ∃ ev, underOp (s.handleSpendStars sha256 codec env id raw effect opId).journal
            (trim (opIdOf opId)) = [ev]
          ∧ ev.kind = kindSpend ∧ ev.from = s.hub.userOf id := by
  have ha := accounted_of_reach h
  refine ⟨ha.paid, ha.once, fun env id raw effect opId hown hop htold => ?_⟩
  obtain ⟨ha', hev⟩ := handleSpendStars_spec sha256 codec ha hown
  obtain ⟨ev, hmem, hid, hkind, hfrom⟩ := hev htold
  have hunder : ev ∈ underOp _ (trim (opIdOf opId)) :=
    List.mem_filter.mpr ⟨hmem, decide_eq_true hid⟩
  obtain ⟨ev', hone⟩ := List.length_eq_one_iff.mp
    (Nat.le_antisymm (ha'.once _ hop) (List.length_pos_of_mem hunder))
  rw [hone] at hunder
  obtain rfl := List.mem_singleton.mp hunder
  exact ⟨ev, hone, hkind, hfrom⟩

-- ============================================================== a concrete run

/-- Nothing bought yet. -/
def stall (h : SimpleHub) : StarHub := ⟨h, ⟨.empty, .empty⟩, [], ∅, ∅, ∅, []⟩

/-- A moment, with appends that go through. -/
def plainStarEnv (now : Instant) : StarEnv :=
  { plainEnv now with
    spendWrite := .ok, spendStamp := ⟨"s", 0⟩, giftWrite := .ok, giftStamp := ⟨"g", 0⟩ }

/-- Two strangers are matched and a third user looks on. -/
def twoAndOne : List Input := script
  [(0, .connect 1 ""), (0, .connect 2 ""), (0, .connect 3 ""), (1, .frame 1 (.spin "")),
    (1, .frame 2 (.spin ""))]

/-- The first user gets ten stars. -/
def tenStars : StarMove := .ledger .ok (.mintFrom "" "u1" 10 "admin:test" "" ⟨"m", 0⟩)

/-- Flowers for the second user, under an operation id. -/
def flowersFrom (id : ConnId) : StarMove := .spend (plainStarEnv 2000) id "u2" "flowers" "op"

/-- The moves one after the other. -/
def after (h : SimpleHub) (ms : List StarMove) : StarHub :=
  ms.foldl (fun s m => s.next (fun _ => []) compactCodec m) (stall h)

theorem after_snoc (h : SimpleHub) (ms : List StarMove) (m : StarMove) :
    after h (ms ++ [m]) = (after h ms).next (fun _ => []) compactCodec m := by
  unfold after
  rw [List.foldl_append, List.foldl_cons, List.foldl_nil]

theorem reach_after (h : SimpleHub) (ms : List StarMove) :
    (starMachine (fun _ => []) compactCodec).Reach (after h ms) := by
  induction ms using List.reverseRecOn with
  | nil => exact .start ⟨rfl, rfl, rfl⟩
  | append_singleton ms m ih => exact ih.step (after_snoc h ms m)

theorem ownRetries_of_no_ops {env : StarEnv} {id : ConnId} {raw effect opId : String}
    (h : s.store.ledger.spentOps = ∅) : s.OwnRetries (.spend env id raw effect opId) := by
  rintro kind c target - - - - hretries
  unfold Retries at hretries
  rw [h] at hretries
  rcases hretries with ⟨-, hmem⟩ | ⟨-, -, hmem⟩
  · exact absurd hmem (Finset.notMem_empty _)
  · exact absurd hmem (Finset.notMem_empty _)

/-- The first user buys flowers for the second. -/
theorem paid_effects_only_flowers : ∃ s,
    ((starMachine (fun _ => []) compactCodec).guard OwnRetries).Reach s
    ∧ ∃ p ∈ s.outbox, p.2.ok = true ∧ p.2.fromUserId = "u1"
      ∧ ∃ ev ∈ s.journal, ev.kind = kindSpend ∧ ev.from = p.2.fromUserId
        ∧ ev.to = p.2.userId ∧ ev.reason = "spend:" ++ p.2.effect := by
  obtain ⟨w, hw, hp⟩ := @reach_of_replay plainSys 2 twoAndOne (fun w =>
    decide ((after w.hub [tenStars]).store.ledger.spentOps = ∅)
      && (after w.hub [tenStars, flowersFrom 1]).outbox.any fun p =>
        p.2.ok && p.2.fromUserId = "u1") (by decide)
  rw [Bool.and_eq_true, decide_eq_true_eq, List.any_eq_true] at hp
  obtain ⟨hops, p, hmem, hp⟩ := hp
  rw [Bool.and_eq_true, decide_eq_true_eq] at hp
  have hstart : ((starMachine (fun _ => []) compactCodec).guard OwnRetries).Reach
      (after w.hub []) := .start ⟨rfl, rfl, rfl⟩
  have hminted : ((starMachine (fun _ => []) compactCodec).guard OwnRetries).Reach
      (after w.hub [tenStars]) :=
    hstart.step (l := tenStars) ⟨trivial, after_snoc w.hub [] tenStars⟩
  have hreach : ((starMachine (fun _ => []) compactCodec).guard OwnRetries).Reach
      (after w.hub [tenStars, flowersFrom 1]) :=
    hminted.step (l := flowersFrom 1)
      ⟨ownRetries_of_no_ops hops, after_snoc w.hub [tenStars] (flowersFrom 1)⟩
  exact ⟨_, hreach, p, hmem, hp.1, hp.2, (paid_effects_only hreach).1 p hmem hp.1⟩

/-- The third user sends the same operation id: everybody is told that it
gave flowers to the second, and it has never spent a star. -/
theorem stolen_op_announces : ∃ s,
    (starMachine (fun _ => []) compactCodec).Reach s
    ∧ ∃ p ∈ s.outbox, p.2.ok = true ∧ ¬ ∃ ev ∈ s.journal, ev.kind = kindSpend
        ∧ ev.from = p.2.fromUserId ∧ ev.to = p.2.userId
        ∧ ev.reason = "spend:" ++ p.2.effect := by
  obtain ⟨w, hw, hp⟩ := @reach_of_replay plainSys 2 twoAndOne (fun w =>
    let s := after w.hub [tenStars, flowersFrom 1, flowersFrom 3]
    (s.outbox.any fun p => p.2.ok && p.2.fromUserId = "u3")
      && s.journal.all fun ev => ev.from ≠ "u3") (by decide)
  rw [Bool.and_eq_true, List.any_eq_true, List.all_eq_true] at hp
  obtain ⟨⟨p, hmem, hp⟩, hnone⟩ := hp
  rw [Bool.and_eq_true, decide_eq_true_eq] at hp
  refine ⟨_, reach_after w.hub _, p, hmem, hp.1, ?_⟩
  rintro ⟨ev, hev, -, hfrom, -⟩
  exact absurd (hfrom.trans hp.2) (of_decide_eq_true (hnone ev hev))

end StarHub

end Ruletka
