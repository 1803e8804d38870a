/-
The client and its sockets.

`openSocket` takes `onclose` off the socket it replaces, `disconnect` does not:
the close of a socket that `disconnect` let go of runs the handler whenever it
comes. Where it comes before the client connects again there is nothing for it
to change, and then the client keeps its newest socket until that one closes.
Where it comes later it clears the field of a socket that is open.
-/
import Ruletka.Mobile.HubClient

namespace Ruletka.Mobile

/-- The client holds on to its socket. `since` counts the sockets made by the
last `disconnect()`. -/
structure Page.Keeps (since : SocketId) (p : Page) : Prop where
  /-- the socket is the newest, made since the last `disconnect()` -/
  newest : ∀ s, p.client.ws = some s → s + 1 = p.made ∧ since ≤ s
  /-- such a socket is the client's until its close -/
  kept : ∀ s k, p.sockets.get? s = some k → s + 1 = p.made → since ≤ s →
    k.hasOnclose = true → k.readyState ≠ .closed → p.client.ws = some s
  /-- one socket is open at most, and it is the client's -/
  alone : ∀ s k, p.sockets.get? s = some k → k.Live → p.client.ws = some s
  /-- one reconnect timer is pending at most -/
  timer : p.timeouts.card ≤ 1

/-- A close that runs the handler comes of the client's socket, or finds the
client without one and not about to connect. -/
def Page.Timely (p : Page) : PageEvent → Prop
  | .closed s _ => p.client.ws = some s ∨ (p.sockets.get? s).all (! ·.hasOnclose)
      ∨ (p.client.ws = none ∧ p.reconnects = false)
  | _ => True

instance (p : Page) (e : PageEvent) : Decidable (p.Timely e) := by
  unfold Page.Timely
  cases e <;> infer_instance

namespace Page

-- =================================================================== the invariant

/-- What the client keeps over any events whose closes are timely. -/
structure Holds (since : SocketId) (p : Page) : Prop where
  newest : ∀ s, p.client.ws = some s → s + 1 = p.made ∧ since ≤ s
  heard : ∀ s k, p.sockets.get? s = some k → since ≤ s → k.hasOnclose = true →
    k.readyState ≠ .closed → p.client.ws = some s
  alone : ∀ s k, p.sockets.get? s = some k → k.Live → p.client.ws = some s
  made : ∀ s k, p.sockets.get? s = some k → s < p.made
  since_le : since ≤ p.made
  timers : ∀ t ∈ p.timeouts, p.client.reconnectTimer = some t ∧ t < p.nextTimer

theorem Holds.keeps {since : SocketId} {p : Page} (h : p.Holds since) : p.Keeps since where
  newest := h.newest
  kept s k hk _ hs := h.heard s k hk hs
  alone := h.alone
  timer := by
    refine Finset.card_le_one.mpr fun t ht u hu => ?_
    exact Option.some.inj ((h.timers t ht).1.symm.trans (h.timers u hu).1)

theorem holds_new (base : String) : (new base).Holds 0 where
  newest s h := by cases h
  heard s k h := by simp [new] at h
  alone s k h := by simp [new] at h
  made s k h := by simp [new] at h
  since_le := le_rfl
  timers t h := by simp [new] at h

/-- Sockets, reconnect timer and what the client knows of them are untouched,
up to what the sockets were sent. -/
structure Steady (p p' : Page) : Prop where
  ws : p'.client.ws = p.client.ws
  made : p'.made = p.made
  sockets : ∀ s k', p'.sockets.get? s = some k' → ∃ k, p.sockets.get? s = some k
    ∧ k'.readyState = k.readyState ∧ k'.hasOnclose = k.hasOnclose
  timeouts : p'.timeouts = p.timeouts
  reconnectTimer : p'.client.reconnectTimer = p.client.reconnectTimer
  nextTimer : p.nextTimer ≤ p'.nextTimer

namespace Steady

variable {p p' p'' : Page}

theorem refl (p : Page) : Steady p p :=
  ⟨rfl, rfl, fun _ k h => ⟨k, h, rfl, rfl⟩, rfl, rfl, le_rfl⟩

theorem trans (h : Steady p p') (h' : Steady p' p'') : Steady p p'' where
  ws := h'.ws.trans h.ws
  made := h'.made.trans h.made
  sockets s k'' hk'' := by
    obtain ⟨k', hk', hr', ho'⟩ := h'.sockets s k'' hk''
    obtain ⟨k, hk, hr, ho⟩ := h.sockets s k' hk'
    exact ⟨k, hk, hr'.trans hr, ho'.trans ho⟩
  timeouts := h'.timeouts.trans h.timeouts
  reconnectTimer := h'.reconnectTimer.trans h.reconnectTimer
  nextTimer := h.nextTimer.trans h'.nextTimer

/-- The other fields of the client do not matter. -/
theorem of_client {c : HubClient} (hws : c.ws = p.client.ws)
    (ht : c.reconnectTimer = p.client.reconnectTimer) : Steady p { p with client := c } :=
  ⟨hws, rfl, fun _ k h => ⟨k, h, rfl, rfl⟩, rfl, ht, le_rfl⟩

theorem holds {since : SocketId} (h : Steady p p') (hp : p.Holds since) : p'.Holds since where
  newest s hs := by
    rw [h.made]
    exact hp.newest s (h.ws ▸ hs)
  heard s k' hk' hs ho hr := by
    obtain ⟨k, hk, hkr, hko⟩ := h.sockets s k' hk'
    exact h.ws ▸ hp.heard s k hk hs (hko ▸ ho) (hkr ▸ hr)
  alone s k' hk' hl := by
    obtain ⟨k, hk, hkr, -⟩ := h.sockets s k' hk'
    refine h.ws ▸ hp.alone s k hk ?_
    simpa only [Socket.Live, ← hkr] using hl
  made s k' hk' := by
    obtain ⟨k, hk, -⟩ := h.sockets s k' hk'
    exact h.made ▸ hp.made s k hk
  since_le := h.made ▸ hp.since_le
  timers t ht := by
    obtain ⟨hr, hn⟩ := hp.timers t (h.timeouts ▸ ht)
    exact ⟨h.reconnectTimer.trans hr, lt_of_lt_of_le hn h.nextTimer⟩

end Steady

variable (hubs : HubAddresses) (p : Page)

theorem steady_setBase (base : String) : Steady p (p.setBase hubs base) :=
  .of_client rfl rfl

/-- A frame that is sent goes to the client's socket, and changes no more. -/
theorem steady_send {p' : Page} {json : String} (h : p.send json = some p') : Steady p p' := by
  unfold send at h
  split at h
  · cases h
  · next s _ =>
    split at h
    · cases h
      refine ⟨rfl, rfl, fun t k' hk' => ?_, rfl, rfl, le_rfl⟩
      simp only [onSocket, Table.get?_modify] at hk'
      split at hk'
      · next heq =>
        obtain ⟨k, hk, rfl⟩ := Option.map_eq_some_iff.mp hk'
        exact ⟨k, hk, rfl, rfl⟩
      · exact ⟨k', hk', rfl, rfl⟩
    · cases h

theorem steady_trySend (json : String) : Steady p ((p.send json).getD p) := by
  cases h : p.send json with
  | none => exact .refl p
  | some p' => exact steady_send p h

theorem steady_ping : Steady p p.ping := steady_trySend p _

theorem steady_stopPing : Steady p p.stopPing := by
  unfold stopPing
  split
  · exact .refl p
  · exact ⟨rfl, rfl, fun _ k h => ⟨k, h, rfl, rfl⟩, rfl, rfl, le_rfl⟩

theorem steady_startPing : Steady p p.startPing := by
  refine ((steady_stopPing p).trans (steady_ping p.stopPing)).trans ?_
  exact ⟨rfl, rfl, fun _ k h => ⟨k, h, rfl, rfl⟩, rfl, rfl, Nat.le_succ _⟩

theorem steady_onopen : Steady p p.onopen :=
  have hc : Steady p { p with
      client := { p.client with reconnectAttempt := 0, sessionOpened := true } } :=
    .of_client rfl rfl
  hc.trans (steady_startPing _)

theorem steady_maybeSwapSiblingHub (now : Nat) : Steady p (p.maybeSwapSiblingHub hubs now) := by
  unfold maybeSwapSiblingHub
  split
  · exact .refl p
  split
  · exact .refl p
  split
  · exact .refl p
  simp only
  split
  · exact .refl p
  · exact (steady_setBase hubs p (hubs.siblingHubBase p.client.base)).trans (.of_client rfl rfl)

-- ============================================================ sockets and the timer

variable {hubs p} {since : SocketId}

@[simp]
theorem clearReconnect_ws : p.clearReconnect.client.ws = p.client.ws := by
  unfold clearReconnect
  split <;> rfl

@[simp]
theorem clearReconnect_made : p.clearReconnect.made = p.made := by
  unfold clearReconnect
  split <;> rfl

@[simp]
theorem clearReconnect_sockets : p.clearReconnect.sockets = p.sockets := by
  unfold clearReconnect
  split <;> rfl

@[simp]
theorem stopPing_ws : p.stopPing.client.ws = p.client.ws := (steady_stopPing p).ws

/-- A reconnect timer is forgotten only when it is cleared. -/
theorem timeouts_clearReconnect (hp : p.Holds since) : p.clearReconnect.timeouts = ∅ := by
  refine Finset.eq_empty_of_forall_notMem fun t ht => ?_
  unfold clearReconnect at ht
  split at ht
  · next hn => cases (hp.timers t ht).1.symm.trans hn
  · next u hu =>
    obtain ⟨hne, ht⟩ := Finset.mem_erase.mp ht
    exact hne (Option.some.inj ((hp.timers t ht).1.symm.trans hu))

theorem Holds.clearReconnect (hp : p.Holds since) : p.clearReconnect.Holds since where
  newest := by simpa using hp.newest
  heard := by simpa using hp.heard
  alone := by simpa using hp.alone
  made := by simpa using hp.made
  since_le := by simpa using hp.since_le
  timers t ht := by
    rw [timeouts_clearReconnect hp] at ht
    cases Finset.notMem_empty t ht

/-- The timer is set where none is pending. -/
theorem Holds.setReconnect (hp : p.Holds since) (hnone : p.timeouts = ∅) :
    p.setReconnect.Holds since where
  newest := hp.newest
  heard := hp.heard
  alone := hp.alone
  made := hp.made
  since_le := hp.since_le
  timers t ht := by
    obtain rfl : t = p.nextTimer := by simpa [Page.setReconnect, hnone] using ht
    exact ⟨rfl, Nat.lt_succ_self _⟩

theorem Holds.scheduleReconnect (hp : p.Holds since) (now : Nat) :
    (p.scheduleReconnect hubs now).Holds since := by
  have hs := steady_maybeSwapSiblingHub hubs p.clearReconnect now
  refine Holds.setReconnect (Steady.holds (.of_client rfl rfl) (hs.holds hp.clearReconnect)) ?_
  exact hs.timeouts.trans (timeouts_clearReconnect hp)

/-- A socket whose handler is off or whose close was reported may go; the
others are not live. -/
theorem Holds.dropSocket (hp : p.Holds since) : p.dropSocket.Holds since := by
  unfold Page.dropSocket
  split
  · exact hp
  · next s hs =>
    have hget : ∀ t k', (p.onSocket s fun k =>
          { k with hasOnclose := false }.close).sockets.get? t = some k' →
        (t = s ∧ k'.hasOnclose = false ∧ ¬ k'.Live) ∨ (t ≠ s ∧ p.sockets.get? t = some k') := by
      intro t k' hk'
      simp only [onSocket, Table.get?_modify] at hk'
      split at hk'
      · next heq =>
        obtain ⟨k, -, rfl⟩ := Option.map_eq_some_iff.mp hk'
        refine .inl ⟨heq, rfl, ?_⟩
        simp only [Socket.Live, Socket.close]
        split <;> simp
      · next hne => exact .inr ⟨hne, hk'⟩
    refine ⟨nofun, fun t k' hk' hle ho hr => ?_, fun t k' hk' hl => ?_,
      fun t k' hk' => ?_, hp.since_le, hp.timers⟩
    · rcases hget t k' hk' with ⟨-, hoff, -⟩ | ⟨hne, hk⟩
      · rw [hoff] at ho
        cases ho
      · exact absurd (Option.some.inj ((hp.heard t k' hk hle ho hr).symm.trans hs)) hne
    · rcases hget t k' hk' with ⟨-, -, hdead⟩ | ⟨hne, hk⟩
      · exact absurd hl hdead
      · exact absurd (Option.some.inj ((hp.alone t k' hk hl).symm.trans hs)) hne
    · rcases hget t k' hk' with ⟨rfl, -⟩ | ⟨-, hk⟩
      · have := (hp.newest t hs).1
        exact Nat.lt_of_succ_le this.le
      · exact hp.made t k' hk

theorem ws_dropSocket : p.dropSocket.client.ws = none := by
  unfold dropSocket
  split
  · assumption
  · rfl

/-- A new socket is the newest, and the only one where the client has none. -/
theorem Holds.makeSocket (hp : p.Holds since) (hnone : p.client.ws = none) (url : String) :
    (p.makeSocket url).Holds since where
  newest s hs := by
    cases hs
    exact ⟨rfl, hp.since_le⟩
  heard s k hk hle ho hr := by
    simp only [Page.makeSocket, Table.get?_set] at hk ⊢
    split at hk
    · next heq => rw [heq]
    · have := hp.heard s k hk hle ho hr
      rw [hnone] at this
      cases this
  alone s k hk hl := by
    simp only [Page.makeSocket, Table.get?_set] at hk ⊢
    split at hk
    · next heq => rw [heq]
    · have := hp.alone s k hk hl
      rw [hnone] at this
      cases this
  made s k hk := by
    simp only [Page.makeSocket, Table.get?_set] at hk ⊢
    split at hk
    · next heq =>
      rw [heq]
      exact Nat.lt_succ_self _
    · exact Nat.lt_succ_of_lt (hp.made s k hk)
  since_le := Nat.le_succ_of_le hp.since_le
  timers := hp.timers

theorem Holds.openSocket (hp : p.Holds since) : (p.openSocket hubs).Holds since := by
  have hd := hp.clearReconnect.dropSocket
  unfold Page.openSocket
  simp only
  split
  · exact hd
  · exact hd.makeSocket ws_dropSocket _

theorem Holds.connect (hp : p.Holds since) (autoReconnect : Bool) :
    (p.connect hubs autoReconnect).Holds since :=
  Holds.openSocket (Steady.holds (.of_client rfl rfl) hp)

/-- `close()` on the client's socket leaves none that is live. -/
theorem holds_close (hp : p.Holds since) {s : SocketId} (hs : p.client.ws = some s) :
    ({ p.onSocket s Socket.close with
      client := { p.client with ws := none } } : Page).Holds p.made := by
  have hget : ∀ t k', (p.onSocket s Socket.close).sockets.get? t = some k' →
      t < p.made ∧ (t = s ∧ ¬ k'.Live ∨ t ≠ s ∧ p.sockets.get? t = some k') := by
    intro t k' hk'
    simp only [onSocket, Table.get?_modify] at hk'
    split at hk'
    · next heq =>
      obtain ⟨k, hk, rfl⟩ := Option.map_eq_some_iff.mp hk'
      refine ⟨hp.made t k (heq ▸ hk), .inl ⟨heq, ?_⟩⟩
      simp only [Socket.Live, Socket.close]
      split <;> simp
    · next hne => exact ⟨hp.made t k' hk', .inr ⟨hne, hk'⟩⟩
  refine ⟨nofun, fun t k' hk' hle _ _ => ?_, fun t k' hk' hl => ?_,
    fun t k' hk' => (hget t k' hk').1, le_rfl, hp.timers⟩
  · exact absurd hle (Nat.not_le.mpr (hget t k' hk').1)
  · rcases (hget t k' hk').2 with ⟨-, hdead⟩ | ⟨hne, hk⟩
    · exact absurd hl hdead
    · exact absurd (Option.some.inj ((hp.alone t k' hk hl).symm.trans hs)) hne

theorem Holds.disconnect (hp : p.Holds since) : p.disconnect.Holds p.made := by
  have hq : Holds since (Page.stopPing (Page.clearReconnect { p with client := { p.client with
      intentionalClose := true, shouldReconnect := false, sessionOpened := false } })) := by
    exact (steady_stopPing _).holds (Holds.clearReconnect (Steady.holds (.of_client rfl rfl) hp))
  have hmade := (steady_stopPing (Page.clearReconnect { p with client := { p.client with
      intentionalClose := true, shouldReconnect := false, sessionOpened := false } })).made
  rw [clearReconnect_made] at hmade
  unfold Page.disconnect
  simp only
  split
  · next hnone =>
    refine ⟨fun s hs => ?_, fun s k hk hle _ _ => ?_, hq.alone, hq.made, hmade.ge, hq.timers⟩
    · rw [hnone] at hs
      cases hs
    · exact absurd hle (Nat.not_le.mpr (hmade ▸ hq.made s k hk))
  · next s hs =>
    have := holds_close hq hs
    rwa [hmade] at this

-- ====================================================================== the events

/-- A socket that goes from one state to another that is no more live. -/
theorem Holds.onSocket (hp : p.Holds since) {s : SocketId} {f : Socket → Socket}
    (hon : ∀ k, (f k).hasOnclose = k.hasOnclose)
    (hclosed : ∀ k, (f k).readyState ≠ .closed → k.readyState ≠ .closed)
    (hlive : ∀ k, (f k).Live → k.Live) : (p.onSocket s f).Holds since := by
  have hget : ∀ t k', (p.onSocket s f).sockets.get? t = some k' →
      ∃ k, p.sockets.get? t = some k ∧ (k' = k ∨ k' = f k) := by
    intro t k' hk'
    simp only [Page.onSocket, Table.get?_modify] at hk'
    split at hk'
    · obtain ⟨k, hk, rfl⟩ := Option.map_eq_some_iff.mp hk'
      exact ⟨k, ‹t = s› ▸ hk, .inr rfl⟩
    · exact ⟨k', hk', .inl rfl⟩
  refine ⟨hp.newest, fun t k' hk' hle ho hr => ?_, fun t k' hk' hl => ?_, fun t k' hk' => ?_,
    hp.since_le, hp.timers⟩
  · obtain ⟨k, hk, rfl | rfl⟩ := hget t k' hk'
    · exact hp.heard t k' hk hle ho hr
    · exact hp.heard t k hk hle (hon k ▸ ho) (hclosed k hr)
  · obtain ⟨k, hk, rfl | rfl⟩ := hget t k' hk'
    · exact hp.alone t k' hk hl
    · exact hp.alone t k hk (hlive k hl)
  · obtain ⟨k, hk, -⟩ := hget t k' hk'
    exact hp.made t k hk

/-- Without its socket, when that one is closed. -/
theorem Holds.forget (hp : p.Holds since)
    (hdead : ∀ s k, p.client.ws = some s → p.sockets.get? s = some k → k.readyState = .closed) :
    ({ p with client := { p.client with ws := none } } : Page).Holds since where
  newest := nofun
  heard s k hk hle ho hr := absurd (hdead s k (hp.heard s k hk hle ho hr) hk) hr
  alone s k hk hl := by
    have hc := hdead s k (hp.alone s k hk hl) hk
    rcases hl with hl | hl <;> rw [hc] at hl <;> cases hl
  made := hp.made
  since_le := hp.since_le
  timers := hp.timers

theorem Holds.onclose (hp : p.Holds since) (now : Nat)
    (hdead : ∀ s k, p.client.ws = some s → p.sockets.get? s = some k → k.readyState = .closed) :
    (p.onclose hubs now).Holds since := by
  have hs := steady_stopPing p
  have hf := Holds.forget (hs.holds hp) fun s k hw hk => by
    obtain ⟨k₀, hk₀, hr, -⟩ := hs.sockets s k hk
    exact hr.trans (hdead s k₀ (hs.ws ▸ hw) hk₀)
  unfold Page.onclose
  simp only
  split
  · exact hf.scheduleReconnect now
  · exact hf

/-- Where nothing is to be done, a close changes neither the socket nor the
reconnect timer. -/
theorem onclose_idle (hw : p.client.ws = none) (hr : p.reconnects = false) (now : Nat) :
    Steady p (p.onclose hubs now) := by
  have hs := steady_stopPing p
  have hc : p.stopPing.client.shouldReconnect = p.client.shouldReconnect
      ∧ p.stopPing.client.intentionalClose = p.client.intentionalClose := by
    unfold stopPing
    split <;> exact ⟨rfl, rfl⟩
  have hr' : ({ p.stopPing with
      client := { p.stopPing.client with ws := none } } : Page).reconnects = false := by
    simpa only [reconnects, hc.1, hc.2] using hr
  unfold Page.onclose
  simp only [hr']
  exact hs.trans (.of_client (hs.ws.trans hw).symm rfl)

/-- The close of a socket is reported once, to its handler if that is on. -/
theorem step_closed {p' : Page} {s : SocketId} {now : Nat}
    (h : p.step hubs (.closed s now) = some p') :
    ∃ k, p.sockets.get? s = some k ∧ k.readyState ≠ .closed ∧
      p' = if k.hasOnclose then
        Page.onclose hubs (p.onSocket s fun k => { k with readyState := .closed }) now
      else p.onSocket s fun k => { k with readyState := .closed } := by
  simp only [step] at h
  split at h
  · cases h
  next k hk =>
  split at h
  · cases h
  next hopen =>
  cases h
  exact ⟨k, hk, hopen, rfl⟩

theorem step_holds {p' : Page} {e : PageEvent} (hp : p.Holds since) (he : p.Timely e)
    (h : p.step hubs e = some p') : p'.Holds (if e = .disconnect then p.made else since) := by
  cases e with
  | connect autoReconnect =>
    cases h
    exact hp.connect autoReconnect
  | disconnect =>
    cases h
    exact hp.disconnect
  | setBase base =>
    cases h
    exact (steady_setBase hubs p base).holds hp
  | send json =>
    cases h
    exact (steady_trySend p json).holds hp
  | opened s =>
    simp only [step] at h
    split at h
    · cases h
    split at h
    · cases h
    cases h
    refine (steady_onopen _).holds (hp.onSocket (fun _ => rfl) (fun k hr hc => ?_) fun k hl => ?_)
    · exact hr (by simp [hc])
    · by_cases hc : k.readyState = .connecting
      · exact .inl hc
      · simpa [Socket.Live, hc] using hl
  | message s | errored s =>
    simp only [step] at h
    split at h
    · cases h
    split at h
    · cases h
    cases h
    exact hp
  | lost s =>
    simp only [step] at h
    split at h
    · cases h
    split at h
    · cases h
      refine hp.onSocket (fun _ => rfl) (fun k hr hc => ?_) fun k hl => ?_
      · exact hr (by simp [Socket.close, hc])
      · unfold Socket.Live Socket.close at hl
        simp only at hl
        split at hl <;> simp at hl
    · cases h
  | closed s now =>
    rw [if_neg nofun]
    obtain ⟨k, hk, -, rfl⟩ := step_closed h
    have hc : (p.onSocket s fun k => { k with readyState := .closed }).Holds since := by
      refine hp.onSocket (fun _ => rfl) (fun k hr => absurd rfl hr) fun k hl => ?_
      simp [Socket.Live] at hl
    have hget : (p.onSocket s fun k => { k with readyState := .closed }).sockets.get? s
        = some { k with readyState := .closed } := by
      simp [Page.onSocket, Table.get?_modify, hk]
    split
    · next ho =>
      rcases he with hw | hoff | ⟨hw, hr⟩
      · refine hc.onclose now fun t k' ht hk' => ?_
        obtain rfl : s = t := Option.some.inj (hw.symm.trans ht)
        cases hget.symm.trans hk'
        rfl
      · simp [hk, ho] at hoff
      · exact (onclose_idle (p := p.onSocket s _) hw hr now).holds hc
    · exact hc
  | reconnect t =>
    rw [if_neg nofun]
    simp only [step] at h
    split at h
    · cases h
      have hq : ({ p with timeouts := p.timeouts.erase t } : Page).Holds since :=
        ⟨hp.newest, hp.heard, hp.alone, hp.made, hp.since_le,
          fun u hu => hp.timers u (Finset.mem_of_mem_erase hu)⟩
      split
      · exact hq.openSocket
      · exact hq
    · cases h
  | ping t =>
    simp only [step] at h
    split at h
    · cases h
      exact (steady_ping p).holds hp
    · cases h

theorem holds_reach {q : Page × SocketId}
    (h : ((pageMachine hubs).guard fun q e => q.1.Timely e).Reach q) : q.1.Holds q.2 := by
  refine Machine.Reach.invariant (I := fun q => q.1.Holds q.2) ?_ ?_ h
  · rintro q ⟨base, rfl⟩
    exact holds_new base
  · rintro q e q' - hq ⟨he, hs, hg⟩
    rw [hg]
    exact step_holds hq he hs

-- ============================================================== the socket is kept

/-- The close of a socket the client has let go of leaves its socket and the
reconnect timers alone. -/
def Ignores (hubs : HubAddresses) (p : Page) (e : PageEvent) : Prop :=
  ∀ s now p', e = .closed s now → p.client.ws ≠ some s → p.step hubs e = some p' →
    p'.client.ws = p.client.ws ∧ p'.timeouts = p.timeouts

/-- After a close that runs the handler the client has no socket. -/
theorem ws_onclose (now : Nat) : (p.onclose hubs now).client.ws = none := by
  unfold onclose
  simp only
  split
  · exact (steady_maybeSwapSiblingHub hubs _ now).ws.trans clearReconnect_ws
  · rfl

/-- Where the client is to reconnect, a close sets a timer. -/
theorem timer_onclose (hr : p.reconnects = true) (now : Nat) :
    ∃ t ∈ (p.onclose hubs now).timeouts, p.nextTimer ≤ t := by
  have hs := steady_stopPing p
  have hr' : ({ p.stopPing with
      client := { p.stopPing.client with ws := none } } : Page).reconnects = true := by
    rw [← hr]
    unfold stopPing
    split <;> rfl
  unfold onclose
  simp only [hr', if_true]
  refine ⟨_, Finset.mem_insert_self _ _, hs.nextTimer.trans ?_⟩
  refine le_trans ?_ (steady_maybeSwapSiblingHub hubs _ now).nextTimer
  unfold clearReconnect
  split <;> exact le_rfl

/-- A late close is ignored just when it is timely. -/
theorem Holds.ignores_iff (hp : p.Holds since) (e : PageEvent) :
    Ignores hubs p e ↔ (p.step hubs e = none ∨ p.Timely e) := by
  constructor
  · intro hi
    by_contra hnot
    obtain ⟨hstep, hlate⟩ := not_or.mp hnot
    cases e with
    | closed s now =>
      obtain ⟨hw, hrest⟩ := not_or.mp hlate
      obtain ⟨hon, hidle⟩ := not_or.mp hrest
      obtain ⟨k, hk⟩ : ∃ k, p.sockets.get? s = some k := by
        cases hk : p.sockets.get? s with
        | none => simp [hk] at hon
        | some k => exact ⟨k, rfl⟩
      have ho : k.hasOnclose = true := by simpa [hk] using hon
      have hopen : k.readyState ≠ .closed := fun hc => hstep (by simp [step, hk, hc])
      have hrun : p.step hubs (.closed s now) = some
          (Page.onclose hubs (p.onSocket s fun k => { k with readyState := .closed }) now) := by
        simp [step, hk, hopen, ho]
      obtain ⟨hws, ht⟩ := hi s now _ rfl hw hrun
      rw [ws_onclose] at hws
      have hr : p.reconnects = true := by
        simpa [← hws] using hidle
      obtain ⟨t, hmem, hle⟩ := timer_onclose
        (p := p.onSocket s fun k => { k with readyState := .closed }) hr now
      rw [ht] at hmem
      exact Nat.not_le.mpr (hp.timers t hmem).2 hle
    | _ => exact hlate trivial
  · rintro (hnone | he) s now p' rfl hw h
    · rw [hnone] at h
      cases h
    · obtain ⟨k, hk, -, rfl⟩ := step_closed h
      rcases he with hs | hoff | ⟨hnone, hr⟩
      · exact absurd hs hw
      · have hno : k.hasOnclose = false := by simpa [hk] using hoff
        rw [if_neg (by simp [hno])]
        exact ⟨rfl, rfl⟩
      · split
        · have hs : Steady _ (Page.onclose hubs _ now) :=
            onclose_idle (p := p.onSocket s fun k => { k with readyState := .closed }) hnone hr now
          exact ⟨hs.ws, hs.timeouts⟩
        · exact ⟨rfl, rfl⟩

/-- While no socket that `disconnect()` let go of reports its close after a new
`connect()`, the client keeps its newest socket to its close, and the next
late close is ignored if and only if it is no such one. -/
theorem keeps_live_socket (hubs : HubAddresses) {q : Page × SocketId}
    (h : ((pageMachine hubs).guard fun q e => q.1.Timely e).Reach q) :
    q.1.Keeps q.2 ∧ ∀ e, Ignores hubs q.1 e ↔ (q.1.step hubs e = none ∨ q.1.Timely e) :=
  ⟨(holds_reach h).keeps, (holds_reach h).ignores_iff⟩

-- ===================================================================== a late close

/-- One hub without a sibling. -/
def oneHub : HubAddresses := ⟨"https://hub", fun _ => "", some⟩

/-- The computable step of the machine. -/
def next (hubs : HubAddresses) (q : Page × SocketId) (e : PageEvent) : Option (Page × SocketId) :=
  (q.1.step hubs e).map fun p => (p, if e = .disconnect then q.1.made else q.2)

theorem next_step (hubs : HubAddresses) (q : Page × SocketId) (e : PageEvent)
    (q' : Page × SocketId) (h : next hubs q e = some q') : (pageMachine hubs).step q e q' := by
  obtain ⟨p, hp, rfl⟩ := Option.map_eq_some_iff.mp h
  exact ⟨hp, rfl⟩

/-- The socket is lost, and the client opens another. -/
def lostSocket : List PageEvent :=
  [.connect true, .opened 0, .lost 0, .closed 0 5, .reconnect 2, .opened 1]

/-- A client that reconnected after its socket was lost keeps the new socket. -/
theorem keeps_live_socket_lost : ∃ q,
    ((pageMachine oneHub).guard fun q e => q.1.Timely e).Reach q
      ∧ q.1.client.ws = some 1 ∧ q.1.Keeps q.2 := by
  obtain ⟨q, hq, hw⟩ := @Machine.exists_reach _ _ ((pageMachine oneHub).guard _) _
    (Machine.guardNext_step (C := fun q e => q.1.Timely e) (next_step oneHub))
    (new "https://hub", 0) ⟨_, rfl⟩ lostSocket (fun q => q.1.client.ws = some 1)
    (by decide +kernel)
  exact ⟨q, hq, by simpa using hw, (keeps_live_socket oneHub hq).1⟩

/-- The close of the first socket comes once the second is open. -/
def lateClose : List PageEvent :=
  [.connect true, .opened 0, .disconnect, .connect true, .opened 1, .closed 0 5,
    .reconnect 3, .opened 2]

/-- A client that disconnects and connects again loses its open socket when the
close of the first arrives, and opens a third beside it. -/
theorem late_close_drops_socket : ∃ q, (pageMachine oneHub).Reach q ∧ ¬ q.1.Keeps q.2 := by
  obtain ⟨q, hq, hw⟩ := @Machine.exists_reach _ _ (pageMachine oneHub) _ (next_step oneHub)
    (new "https://hub", 0) ⟨_, rfl⟩ lateClose
    (fun q => (q.1.sockets.get? 1).any (·.readyState = .open)
      && (q.1.sockets.get? 2).any (·.readyState = .open)) (by decide +kernel)
  refine ⟨q, hq, fun hk => ?_⟩
  obtain ⟨h₁, h₂⟩ := Bool.and_eq_true_iff.mp hw
  obtain ⟨k₁, hk₁, ho₁⟩ := (Option.any_eq_true _ _).mp h₁
  obtain ⟨k₂, hk₂, ho₂⟩ := (Option.any_eq_true _ _).mp h₂
  have hw₁ := hk.alone 1 k₁ hk₁ (.inr (by simpa using ho₁))
  have hw₂ := hk.alone 2 k₂ hk₂ (.inr (by simpa using ho₂))
  cases hw₁.symm.trans hw₂

end Page

end Ruletka.Mobile
