/-
The index of users.

`by_user` is written in four places: a connect and a `Hello` point an entry
at the connection, a `Hello` under another name drops the entry of the
former one, and a removal drops the entry of the leaver's user. The two
drops go by user and not by connection. When a second tab takes over a user
while the first is in a live 1v1, the first is parked and not removed; both
then go by the user, the index points at the second, and the later removal
(or renaming) of the first drops the second's entry. Such a connection is
`shadowed`.

The index always points at a connection that goes by the user. That the
last connection to say `Hello` for a user is indexed needs that no event
removes or renames a shadowed connection.
-/
import Ruletka.Hub.Run
import Ruletka.Hub.Proofs.Handlers

namespace Ruletka

namespace Books

variable (b : Books) (env : Env)

/-- The user a connection goes by. -/
def user (x : ConnId) : Option UserId := (b.badge x).map (·.userId)

/-- The hold of the connection ran out. -/
def runOut (x : ConnId) : Bool :=
  (b.badge x).any fun g => g.wsHoldUntil.any (· ≤ env.now)

/-- Another connection, and not one that is about to be swept, has the index
entry of this one's user. -/
def shadowed (x : ConnId) : Bool :=
  ((b.user x).bind b.byUser.get?).any fun d => d ≠ x && !b.runOut env d

/-- Every index entry points at a connection that goes by its user. -/
def Sound (b : Books) : Prop := ∀ u c, b.byUser.get? u = some c → b.user c = some u

/-- The sender of the last `Hello` for a user, while it goes by that user,
has the index entry. -/
def Current (b : Books) (latest : UserId → Option ConnId) : Prop :=
  ∀ u c, latest u = some c → b.user c = some u → b.byUser.get? u = some c

variable {b env}

theorem shadowed_iff {x : ConnId} : b.shadowed env x = true ↔
    ∃ u d, b.user x = some u ∧ b.byUser.get? u = some d ∧ d ≠ x
      ∧ b.runOut env d = false := by
  unfold shadowed
  simp only [Option.any_eq_true, Option.bind_eq_some_iff, Bool.and_eq_true, decide_eq_true_eq,
    Bool.not_eq_true']
  constructor
  · rintro ⟨d, ⟨u, hu, hd⟩, hne, hr⟩
    exact ⟨u, d, hu, hd, hne, hr⟩
  · rintro ⟨u, d, hu, hd, hne, hr⟩
    exact ⟨d, ⟨u, hu, hd⟩, hne, hr⟩

theorem Sound.congr {b' : Books} (hs : b.Sound) (hi : b'.byUser = b.byUser)
    (hu : ∀ x, b'.user x = b.user x) : b'.Sound := by
  intro u c h
  rw [hi] at h
  rw [hu]
  exact hs u c h

theorem Current.congr {b' : Books} {latest : UserId → Option ConnId}
    (hc : b.Current latest) (hi : b'.byUser = b.byUser) (hu : ∀ x, b'.user x = b.user x) :
    b'.Current latest := by
  intro u c hl h
  rw [hu] at h
  rw [hi]
  exact hc u c hl h

-- ================================================================ an erasure

@[simp]
theorem user_erase (x y : ConnId) :
    (b.erase x).user y = if y = x then none else b.user y := by
  unfold user
  rw [badge_erase]
  split
  · rfl
  · rfl

theorem runOut_erase (x y : ConnId) :
    (b.erase x).runOut env y = if y = x then false else b.runOut env y := by
  unfold runOut
  rw [badge_erase]
  split
  · rfl
  · rfl

theorem byUser_erase (x : ConnId) (u : UserId) :
    (b.erase x).byUser.get? u = if b.user x = some u then none else b.byUser.get? u := by
  unfold erase user
  cases b.badge x with
  | none => rfl
  | some g =>
      simp only [Table.get?_del, Option.map_some, Option.some.injEq, eq_comm (a := u)]

theorem Sound.erase (hs : b.Sound) (x : ConnId) : (b.erase x).Sound := by
  intro u c h
  rw [byUser_erase] at h
  split at h
  · cases h
  · next hx =>
    have hc := hs u c h
    rw [user_erase, if_neg]
    · exact hc
    · rintro rfl
      exact hx hc

/-- An erasure shadows nobody. -/
theorem shadowed_of_erase (hs : b.Sound) {x y : ConnId}
    (h : (b.erase y).shadowed env x = true) : b.shadowed env x = true := by
  obtain ⟨u, d, hu, hd, hne, hr⟩ := shadowed_iff.mp h
  rw [user_erase] at hu
  rw [byUser_erase] at hd
  split at hu
  · cases hu
  · split at hd
    · cases hd
    · next hy =>
      refine shadowed_iff.mpr ⟨u, d, hu, hd, hne, ?_⟩
      rw [runOut_erase, if_neg] at hr
      · exact hr
      · rintro rfl
        exact hy (hs u d hd)

/-- What holds between two removals of a sweep. -/
structure Sweeping (env : Env) (latest : UserId → Option ConnId) (b : Books) : Prop where
  sound : b.Sound
  /-- nobody still to be swept is shadowed -/
  quiet : ∀ x, b.runOut env x = true → b.shadowed env x = false
  current : ∀ u c, latest u = some c → b.user c = some u → b.runOut env c = false →
    b.byUser.get? u = some c

theorem Sweeping.erase {latest : UserId → Option ConnId} (hs : b.Sweeping env latest)
    {x : ConnId} (hx : b.shadowed env x = false) : (b.erase x).Sweeping env latest where
  sound := hs.sound.erase x
  quiet y hy := by
    rw [runOut_erase] at hy
    split at hy
    · cases hy
    · rw [Bool.eq_false_iff]
      intro h
      have := shadowed_of_erase hs.sound h
      rw [hs.quiet y hy] at this
      cases this
  current u c hl hu hr := by
    rw [user_erase] at hu
    rw [runOut_erase] at hr
    split at hu
    · cases hu
    · next hcx =>
      rw [if_neg hcx] at hr
      have hc := hs.current u c hl hu hr
      rw [byUser_erase, if_neg]
      · exact hc
      · -- the erased one would be shadowed by this connection
        intro hux
        have : b.shadowed env x = true := shadowed_iff.mpr ⟨u, c, hux, hc, hcx, hr⟩
        rw [hx] at this
        cases this

/-- Nothing runs out any more: the sweep is over. -/
theorem Sweeping.done {latest : UserId → Option ConnId} (hs : b.Sweeping env latest)
    (hn : ∀ x, b.runOut env x = false) : b.Sound ∧ b.Current latest :=
  ⟨hs.sound, fun u c hl hu => hs.current u c hl hu (hn c)⟩

-- =================================================================== the writes

theorem user_charge (x y : ConnId) : (b.charge env x).user y = b.user y := by
  unfold user charge
  dsimp only
  split
  · rw [Option.map_map]
    rfl
  · rfl

theorem user_park (x : ConnId) (t : Instant) (y : ConnId) : (b.park x t).user y = b.user y := by
  unfold user park
  dsimp only
  split
  · rw [Option.map_map]
    rfl
  · rfl

theorem user_unpark (x y : ConnId) : (b.unpark x).user y = b.user y := by
  unfold user unpark
  dsimp only
  split
  · rw [Option.map_map]
    rfl
  · rfl

theorem user_admit (x y : ConnId) :
    (b.enroll x).user y = if y = x then some (b.sys.uuidText x) else b.user y := by
  unfold user enroll
  dsimp only
  split
  · rfl
  · rfl

theorem user_identify {x : ConnId} (hx : (b.badge x).isSome = true) (v : UserId)
    (y : ConnId) : (b.identify x v).user y = if y = x then some v else b.user y := by
  unfold user identify renamed
  dsimp only
  split
  · next hy =>
    obtain ⟨g, hg⟩ := Option.isSome_iff_exists.mp hx
    rw [hy, hg]
    rfl
  · rfl

theorem byUser_identify (x : ConnId) (v u : UserId) :
    (b.identify x v).byUser.get? u = if u = v then some x
      else if b.user x = some u then none else b.byUser.get? u := by
  unfold identify
  rw [Table.get?_set]
  split
  · rfl
  · next hu =>
    change (onSome ((b.user x).filter (· ≠ v)) b.byUser Table.del).get? u = _
    cases hx : b.user x with
    | none => rfl
    | some ou =>
        by_cases hv : ou = v
        · have : ¬ (some ou : Option UserId) = some u := by
            rintro ⟨⟩
            exact hu hv
          rw [if_neg this]
          simp [hv, onSome, Option.filter]
        · simp only [Option.filter_some, hv, ne_eq, not_false_eq_true, decide_true, if_true,
            onSome, Table.get?_del, Option.some.injEq, eq_comm (a := u)]

/-- A `Hello` keeps the index sound, and current when a renamed sender is not
shadowed. -/
theorem Sound.identify (hs : b.Sound) {x : ConnId} (hx : (b.badge x).isSome = true)
    (v : UserId) : (b.identify x v).Sound := by
  intro u c h
  rw [byUser_identify] at h
  rw [user_identify hx]
  split at h
  · next hu =>
    cases h
    rw [if_pos rfl, hu]
  · next hu =>
    split at h
    · cases h
    · next hxu =>
      have hc := hs u c h
      rw [if_neg]
      · exact hc
      · rintro rfl
        exact hxu hc

theorem Current.identify {latest : UserId → Option ConnId} (hc : b.Current latest)
    {x : ConnId} (hx : (b.badge x).isSome = true) {v : UserId}
    (hren : b.user x ≠ some v → ∀ u d, b.user x = some u → b.byUser.get? u = some d → d = x) :
    (b.identify x v).Current fun u => if u = v then some x else latest u := by
  intro u c hl hu
  rw [user_identify hx] at hu
  rw [byUser_identify]
  dsimp only at hl
  split at hl
  · next huv =>
    rw [if_pos huv]
    exact hl
  · next huv =>
    rw [if_neg huv]
    split at hu
    · cases hu
      exact absurd rfl huv
    · next hcx =>
      have hcu := hc u c hl hu
      rw [if_neg]
      · exact hcu
      · intro hxu
        refine hcx (hren (fun h => ?_) u c hxu hcu)
        rw [hxu] at h
        cases h
        exact huv rfl

end Books

namespace SimpleHub

variable {h : SimpleHub} {env : Env}

theorem runOut_books {x : ConnId} :
    h.books.runOut env x = true ↔ x ∈ h.expired env := by
  rw [mem_expired_books, Books.runOut, Option.any_eq_true]

theorem runOut_of_none (hn : h.expired env = ∅) (x : ConnId) :
    h.books.runOut env x = false := by
  rw [Bool.eq_false_iff, Ne, runOut_books, hn]
  exact Finset.notMem_empty x

/-- A kick keeps the index sound and current: it removes, parks or adopts the
connection the index points at. -/
theorem kickPrevious_index {n : Nat} {x : ConnId} {u : UserId} {k : SimpleHub}
    {latest : UserId → Option ConnId} (hn : h.expired env = ∅) (hs : h.books.Sound)
    (hc : h.books.Current latest)
    (hk : h.kickPrevious env (tryMatch env (n + 1)) x u = some k) :
    k.books.Sound ∧ k.books.Current latest ∧ k.books.sys = h.books.sys
      ∧ k.books.user x = h.books.user x
      ∧ (∀ v d, k.books.byUser.get? v = some d → h.books.byUser.get? v = some d)
      ∧ ∀ y, (k.books.user y).isSome = true → (h.books.user y).isSome = true := by
  obtain ⟨k', hk', -, hb⟩ := kickPrevious_returns (settles_tryMatch n) hn x u
  rw [hk] at hk'
  cases hk'
  rcases hb with hb | ⟨old, hold, hne, hb⟩
  · rw [hb]
    exact ⟨hs, hc, rfl, rfl, fun _ _ h => h, fun _ h => h⟩
  · -- the kicked one has the entry, so its erasure takes nobody else's
    have hq : h.books.shadowed env old = false := by
      rw [Bool.eq_false_iff]
      intro hsh
      obtain ⟨v, d, hv, hd, hdo, -⟩ := Books.shadowed_iff.mp hsh
      have hou := hs u old hold
      rw [hou] at hv
      cases hv
      have hold : h.books.byUser.get? u = some old := hold
      rw [hold] at hd
      cases hd
      exact hdo rfl
    have herase : ∀ b : Books, b.byUser = h.books.byUser → b.sys = h.books.sys →
        (∀ y, b.user y = h.books.user y) → (∀ y, b.runOut env y = false) →
        (b.erase old).Sound ∧ (b.erase old).Current latest
          ∧ (b.erase old).sys = h.books.sys ∧ (b.erase old).user x = h.books.user x
          ∧ (∀ v d, (b.erase old).byUser.get? v = some d →
            h.books.byUser.get? v = some d)
          ∧ ∀ y, ((b.erase old).user y).isSome = true → (h.books.user y).isSome = true := by
      intro b hi hsys hu hr
      have hsw : b.Sweeping env latest := ⟨hs.congr hi hu,
        (fun y hy => absurd hy (by rw [hr y]; decide)),
        fun v c hl hv _ => hc.congr hi hu v c hl hv⟩
      have hq' : b.shadowed env old = false := by
        rw [Bool.eq_false_iff]
        intro hsh
        obtain ⟨v, d, hv, hd, hdo, -⟩ := Books.shadowed_iff.mp hsh
        rw [hu] at hv
        rw [hi] at hd
        have : h.books.shadowed env old = true :=
          Books.shadowed_iff.mpr ⟨v, d, hv, hd, hdo, runOut_of_none hn d⟩
        rw [hq] at this
        cases this
      have hdone := (hsw.erase hq').done fun y => by
        rw [Books.runOut_erase, hr]
        split
        · rfl
        · rfl
      refine ⟨hdone.1, hdone.2, hsys, ?_, fun v d hd => ?_, fun y hy => ?_⟩
      · rw [Books.user_erase, if_neg (Ne.symm hne), hu]
      · rw [Books.byUser_erase] at hd
        split at hd
        · cases hd
        · rw [hi] at hd
          exact hd
      · rw [Books.user_erase] at hy
        split at hy
        · cases hy
        · rwa [hu] at hy
    rcases hb with hb | hb | hb
    · rw [hb]
      exact ⟨hs.congr rfl (Books.user_park old _), hc.congr rfl (Books.user_park old _), rfl,
        Books.user_park old _ x, fun _ _ h => h, fun y hy => by rwa [Books.user_park] at hy⟩
    · rw [hb]
      exact herase _ rfl rfl (fun _ => rfl) (runOut_of_none hn)
    · rw [hb]
      refine herase _ rfl rfl (Books.user_unpark x) fun y => ?_
      have := runOut_of_none hn y
      unfold Books.runOut at this ⊢
      rw [Books.badge_unpark]
      split
      · rw [Option.any_map]
        simp
      · exact this

variable (h env) in
/-- The event removes or renames a shadowed connection. -/
def Unindexes : Event → Prop
  | .connect _ _ => ∃ x, h.books.runOut env x = true ∧ h.books.shadowed env x = true
  | .frame y msg => (∃ x, h.books.runOut env x = true ∧ h.books.shadowed env x = true)
      ∨ ∃ m, msg = .hello m ∧ h.books.hears env y = true
        ∧ h.books.user y ≠ some (h.helloUserId y m.userId) ∧ h.books.shadowed env y = true
  | .close y => h.has y = true ∧ (h.shouldKeepWsHold env y).2 = false
      ∧ (h.books.shadowed env y = true
        ∨ ∃ x, h.books.runOut env x = true ∧ h.books.shadowed env x = true)
  | _ => False

/-- The user whose `Hello` the event got through, with its sender. -/
def greeting (h : SimpleHub) (env : Env) (h' : SimpleHub) : Event → Option (UserId × ConnId)
  | .frame x (.hello m) => if h.books.hears env x && h'.has x
      then some (h.helloUserId x m.userId, x) else none
  | _ => none

/-- Record a greeting: the latest sender for each user. -/
def noteGreeting (latest : UserId → Option ConnId) :
    Option (UserId × ConnId) → UserId → Option ConnId
  | some (v, x) => fun u => if u = v then some x else latest u
  | none => latest

/-- The sweep of an event that removes no shadowed connection. -/
theorem sweep_index {n : Nat} {k : SimpleHub} {latest : UserId → Option ConnId}
    {P : Books → Prop} (hP : ∀ b x, b.Sound → P b → P (b.erase x))
    (hs : h.books.Sound) (hc : h.books.Current latest)
    (hq : ∀ x, h.books.runOut env x = true → h.books.shadowed env x = false)
    (hp : P h.books) (hk : h.expireWsHolds env (tryMatch env n) = some k) :
    k.books.Sound ∧ k.books.Current latest ∧ P k.books ∧ k.expired env = ∅ ∧ k.Sheds h := by
  obtain ⟨⟨hsw, hpk⟩, hn, hsh⟩ := expireWsHolds_books
    (Q := fun b => b.Sweeping env latest ∧ P b)
    (fun b x ⟨hsw, hpb⟩ hx => ⟨hsw.erase (hsw.quiet x hx), hP b x hsw.sound hpb⟩)
    ⟨⟨hs, hq, fun u c hl hu _ => hc u c hl hu⟩, hp⟩ hk
  obtain ⟨hsk, hck⟩ := hsw.done (runOut_of_none hn)
  exact ⟨hsk, hck, hpk, hn, hsh⟩

end SimpleHub

open SimpleHub

/-- The index at a world, with the sender of the last `Hello` for each user. -/
structure Indexed (w : World) (latest : UserId → Option ConnId) : Prop where
  present : ∀ x, (w.hub.books.user x).isSome = true → x ∈ w.used
  heard : ∀ u c, latest u = some c → c ∈ w.used
  sound : w.hub.books.Sound
  current : w.hub.books.Current latest

namespace Indexed

variable {w : World} {latest : UserId → Option ConnId} {i : Input} {n : Nat}
  {h' : SimpleHub}

/-- The books after the event, and what the invariant needs of them. -/
theorem carry (hi : Indexed w latest) {env : Env} {e : Event}
    (hpresent : ∀ x, (h'.books.user x).isSome = true → (w.hub.books.user x).isSome = true)
    (hs : h'.books.Sound) (hc : h'.books.Current latest) :
    Indexed (w.after ⟨env, e⟩ h') latest where
  present x hx := by
    have := hi.present x (hpresent x hx)
    unfold World.after
    dsimp only
    split
    · exact Finset.mem_insert_of_mem this
    · exact this
  heard u c hl := by
    have := hi.heard u c hl
    unfold World.after
    dsimp only
    split
    · exact Finset.mem_insert_of_mem this
    · exact this
  sound := hs
  current := hc

/-- An event that changes nobody's user and no index entry. -/
theorem sameIds (hi : Indexed w latest) {env : Env} {e : Event} (hb : h'.SameIds w.hub) :
    Indexed (w.after ⟨env, e⟩ h') latest := by
  have hu : ∀ x, h'.books.user x = w.hub.books.user x := fun x => by
    exact hb.userId x
  exact hi.carry (fun x hx => by rwa [← hu]) (hi.sound.congr hb.byUser hu)
    (hi.current.congr hb.byUser hu)

omit i n h' in
/-- A swept hub goes by the users of the one before. -/
theorem user_of_sheds {h k : SimpleHub} (hsh : k.Sheds h) {y : ConnId} {v : UserId}
    (hy : k.books.user y = some v) : h.books.user y = some v := by
  obtain ⟨g, hg, hv⟩ := Option.map_eq_some_iff.mp hy
  rw [Books.user, hsh y g hg, Option.map_some, hv]

omit i n h' in
theorem present_of_sheds {h k : SimpleHub} (hsh : k.Sheds h) {y : ConnId}
    (hy : (k.books.user y).isSome = true) : (h.books.user y).isSome = true := by
  obtain ⟨v, hv⟩ := Option.isSome_iff_exists.mp hy
  rw [user_of_sheds hsh hv]
  rfl

theorem connect (hi : Indexed w latest) {env : Env} {x : ConnId} {ip : String}
    (hadm : w.Fresh x) (hno : ¬ w.hub.Unindexes env (.connect x ip))
    (hs : w.hub.step env n (.connect x ip) = some h') :
    Indexed (w.after ⟨env, .connect x ip⟩ h') latest := by
  obtain ⟨k, hk, hb⟩ := step_connect hs
  obtain ⟨hsk, hck, ⟨hfree, hsys⟩, -, hsh⟩ := sweep_index
    (P := fun b => b.byUser.get? (b.sys.uuidText x) = none ∧ b.sys = w.hub.sys)
    (fun b y _ ⟨hb, hsys⟩ => ⟨by
      rw [Books.byUser_erase]
      split
      · rfl
      · exact hb, hsys⟩)
    hi.sound hi.current
    (fun y hy => Bool.eq_false_iff.mpr fun hsh => hno ⟨y, hy, hsh⟩)
    ⟨hadm.2.1, rfl⟩ hk
  have hpresent := fun y => present_of_sheds hsh (y := y)
  have hxno : k.books.user x = none := by
    by_contra hne
    exact hadm.1 (hi.present x (hpresent x (Option.isSome_iff_ne_none.mpr hne)))
  rcases hb with hb | hb
  · rw [← hb] at hpresent hsk hck
    exact hi.carry hpresent hsk hck
  · refine ⟨fun y hy => ?_, fun u c hl => Finset.mem_insert_of_mem (hi.heard u c hl), ?_, ?_⟩
    · show y ∈ insert x w.used
      change (h'.books.user y).isSome = true at hy
      rw [hb, Books.user_admit] at hy
      split at hy
      · next hyx =>
        rw [hyx]
        exact Finset.mem_insert_self ..
      · exact Finset.mem_insert_of_mem (hi.present y (hpresent y hy))
    · intro u c h
      change h'.books.byUser.get? u = some c at h
      show h'.books.user c = some u
      rw [hb] at h ⊢
      rw [Books.user_admit]
      unfold Books.enroll at h
      dsimp only at h
      rw [Table.get?_set] at h
      split at h
      · next hu =>
        cases h
        rw [if_pos rfl, hu]
      · have hcu := hsk u c h
        rw [if_neg]
        · exact hcu
        · rintro rfl
          rw [hxno] at hcu
          cases hcu
    · intro u c hl h
      change h'.books.user c = some u at h
      show h'.books.byUser.get? u = some c
      rw [hb] at h ⊢
      rw [Books.user_admit] at h
      unfold Books.enroll
      dsimp only
      rw [Table.get?_set]
      split at h
      · next hcx =>
        -- a fresh connection has said no `Hello` yet
        rw [hcx] at hl
        exact absurd (hi.heard u x hl) hadm.1
      · have hcu := hck u c hl h
        rw [if_neg]
        · exact hcu
        · rintro rfl
          rw [hfree] at hcu
          cases hcu

/-- A `Hello` that reaches its handler on a hub without expired holds. -/
theorem hello (hi : Indexed w latest) {env : Env} {x : ConnId} {m : HelloIn}
    {r : SimpleHub} (hn : r.expired env = ∅) (hs : r.books.Sound)
    (hc : r.books.Current latest) (hsys : r.sys = w.hub.sys)
    (hx : (r.books.user x).isSome = true) (hhear : w.hub.books.hears env x = true)
    (hpresent : ∀ y, (r.books.user y).isSome = true → (w.hub.books.user y).isSome = true)
    (hren : r.books.user x ≠ some (w.hub.helloUserId x m.userId) →
      ∀ u d, r.books.user x = some u → r.books.byUser.get? u = some d → d = x)
    (hd : r.handleHello env (tryMatch env (n + 1)) x m = some h') :
    Indexed (w.after ⟨env, .frame x (.hello m)⟩ h')
      (noteGreeting latest (greeting w.hub env h' (.frame x (.hello m)))) := by
  have huser : r.helloUserId x m.userId = w.hub.helloUserId x m.userId := by
    unfold helloUserId
    rw [hsys]
  obtain ⟨k, hk, hh, -⟩ := handleHello_returns (settles_tryMatch n) hn x m
  rw [hd, huser] at hh
  rw [huser] at hk
  cases hh
  obtain ⟨hsk, hck, -, huk, hik, hpk⟩ := kickPrevious_index hn hs hc hk
  generalize hv : w.hub.helloUserId x m.userId = v at *
  have hxk : (k.books.badge x).isSome = true := by
    rw [← Option.isSome_map (f := fun g : Badge => g.userId)]
    change (k.books.user x).isSome = true
    rw [huk]
    exact hx
  have hbk := books_identify k env x v m
  have hthere : (k.identify env x v m).has x = true := by
    rw [has_books, ← Option.isSome_map (f := fun g : Badge => g.userId), hbk]
    change ((k.books.identify x v).user x).isSome = true
    rw [Books.user_identify hxk, if_pos rfl]
    rfl
  have hg : greeting w.hub env (k.identify env x v m) (.frame x (.hello m))
      = some (v, x) := by
    show (if w.hub.books.hears env x && (k.identify env x v m).has x
      then some (w.hub.helloUserId x m.userId, x) else none) = some (v, x)
    rw [hthere, hhear, hv]
    rfl
  rw [hg]
  have hxw : x ∈ w.used := hi.present x (hpresent x hx)
  refine ⟨fun y hy => ?_, fun u c hl => ?_, ?_, ?_⟩
  · change ((k.identify env x v m).books.user y).isSome = true at hy
    rw [hbk, Books.user_identify hxk] at hy
    split at hy
    · next hyx => rw [hyx]; exact hxw
    · exact hi.present y (hpresent y (hpk y hy))
  · change (if u = v then some x else latest u) = some c at hl
    split at hl
    · cases hl
      exact hxw
    · exact hi.heard u c hl
  · show (k.identify env x v m).books.Sound
    rw [hbk]
    exact hsk.identify hxk v
  · show (k.identify env x v m).books.Current _
    rw [hbk]
    refine hck.identify hxk fun hne u d hxu hud => ?_
    rw [huk] at hne hxu
    exact hren hne u d hxu (hik u d hud)

theorem frame (hi : Indexed w latest) {env : Env} {x : ConnId} {msg : ClientMsg}
    (hno : ¬ w.hub.Unindexes env (.frame x msg))
    (hs : w.hub.step env n (.frame x msg) = some h') :
    Indexed (w.after ⟨env, .frame x msg⟩ h')
      (noteGreeting latest (greeting w.hub env h' (.frame x msg))) := by
  obtain ⟨k, r, hk, hn, hsh, -, hb, hcase⟩ := step_frame hs
  obtain ⟨hsk, hck, ⟨hsub, hsys⟩, -, -⟩ := sweep_index
    (P := fun b => (∀ v d, b.byUser.get? v = some d → w.hub.books.byUser.get? v = some d)
      ∧ b.sys = w.hub.sys)
    (fun b y _ ⟨hb, hsys⟩ => ⟨fun v d hd => by
      rw [Books.byUser_erase] at hd
      split at hd
      · cases hd
      · exact hb v d hd, hsys⟩)
    hi.sound hi.current
    (fun y hy => Bool.eq_false_iff.mpr fun hsh => hno (Or.inl ⟨y, hy, hsh⟩))
    ⟨fun _ _ h => h, rfl⟩ hk
  have hru : ∀ y, r.books.user y = k.books.user y := fun y => by rw [hb, Books.user_charge]
  have hri : r.books.byUser = k.books.byUser := by rw [hb]; rfl
  have hsr : r.books.Sound := hsk.congr hri hru
  have hcr : r.books.Current latest := hck.congr hri hru
  have hnr : r.expired env = ∅ := expired_charge hn hb
  have hpresent : ∀ y, (r.books.user y).isSome = true → (w.hub.books.user y).isSome = true :=
    fun y hy => present_of_sheds hsh (by rwa [← hru])
  -- whoever is still there is heard now if it was before the sweep
  have hears : (k.books.user x).isSome = true →
      w.hub.books.hears env x = k.books.hears env x := by
    intro hx
    rw [Books.user, Option.isSome_map] at hx
    obtain ⟨g, hg⟩ := Option.isSome_iff_exists.mp hx
    unfold Books.hears
    rw [hg, hsh x g hg, hsys]
    rfl
  have hthere : ∀ {k' : SimpleHub}, k'.has x = (k'.books.user x).isSome := by
    intro k'
    rw [has_books, Books.user, Option.isSome_map]
  by_cases hm : ∃ m, msg = .hello m
  · obtain ⟨m, rfl⟩ := hm
    rcases hcase with ⟨hhear, rfl⟩ | ⟨hhear, hd⟩
    · have hg : greeting w.hub env h' (.frame x (.hello m)) = none := by
        show (if w.hub.books.hears env x && h'.has x
          then some (w.hub.helloUserId x m.userId, x) else none) = none
        rw [if_neg]
        intro hand
        rw [Bool.and_eq_true] at hand
        rw [hears (by rw [← hru, ← hthere]; exact hand.2), hhear] at hand
        cases hand.1
      rw [hg]
      exact hi.carry hpresent hsr hcr
    · have hxk : (k.books.user x).isSome = true := by
        unfold Books.hears at hhear
        obtain ⟨g, hg, -⟩ := (Option.any_eq_true _ _).mp hhear
        rw [Books.user, hg]
        rfl
      refine hi.hello hnr hsr hcr ((congrArg Books.sys hb).trans hsys) (by rwa [hru])
        (by rw [hears hxk, hhear]) hpresent ?_ hd
      intro hren u d hxu hud
      by_contra hdx
      rw [hru] at hxu hren
      rw [hri] at hud
      have hrun : w.hub.books.runOut env d = false := by
        obtain ⟨g, hg, -⟩ := Option.map_eq_some_iff.mp (hsk u d hud)
        have := runOut_of_none hn d
        unfold Books.runOut at this ⊢
        rw [hg] at this
        rw [hsh d g hg]
        exact this
      refine hno (Or.inr ⟨m, rfl, by rw [hears hxk, hhear], ?_, ?_⟩)
      · rw [user_of_sheds hsh hxu, ← hxu]
        exact hren
      · exact Books.shadowed_iff.mpr ⟨u, d, user_of_sheds hsh hxu, hsub u d hud, hdx, hrun⟩
  · have hg : greeting w.hub env h' (.frame x msg) = none := by
      cases msg with
      | hello m => exact absurd ⟨m, rfl⟩ hm
      | _ => rfl
    rw [hg]
    have hsame : h'.SameIds r := by
      rcases hcase with ⟨-, rfl⟩ | ⟨-, hd⟩
      · exact .of_books rfl
      · obtain ⟨h'', hd', hsame⟩ := dispatch_returns (settles_tryMatch n) hnr x
          fun m he => hm ⟨m, he⟩
        rw [hd] at hd'
        cases hd'
        exact hsame
    have hu : ∀ y, h'.books.user y = r.books.user y := fun y => by
      exact hsame.userId y
    exact hi.carry (fun y hy => hpresent y (by rwa [← hu]))
      (hsr.congr hsame.byUser hu) (hcr.congr hsame.byUser hu)

theorem close (hi : Indexed w latest) {env : Env} {x : ConnId}
    (hno : ¬ w.hub.Unindexes env (.close x))
    (hs : w.hub.step env n (.close x) = some h') :
    Indexed (w.after ⟨env, .close x⟩ h') latest := by
  change w.hub.removeClient env (tryMatch env (n + 1)) x = some h' at hs
  by_cases hx : w.hub.has x = true
  · by_cases hkept : (w.hub.shouldKeepWsHold env x).2 = true
    · have hh : h' = (w.hub.shouldKeepWsHold env x).1 := by
        unfold removeClient at hs
        generalize w.hub.shouldKeepWsHold env x = q at hs hkept ⊢
        obtain ⟨k, kept⟩ := q
        cases hkept
        cases hs
        rfl
      rcases @shouldKeepWsHold_cases w.hub env x with ⟨hk, -⟩ | ⟨hk, -⟩ | hk
      · rw [hk] at hh
        subst hh
        exact hi.sameIds (.of_books rfl)
      · rw [hk] at hh
        subst hh
        have hb := books_park (h := w.hub) x (env.now + secs wsHoldSecs)
        have hu := fun y => Books.user_park (b := w.hub.books) x
          (env.now + secs wsHoldSecs) y
        refine hi.carry (fun y hy => ?_) ?_ ?_
        · rw [hb, hu] at hy
          exact hy
        · rw [hb]
          exact hi.sound.congr rfl hu
        · rw [hb]
          exact hi.current.congr rfl hu
      · rw [hk] at hkept
        cases hkept
    · have hkept : (w.hub.shouldKeepWsHold env x).2 = false := Bool.eq_false_iff.mpr hkept
      have hquiet : ∀ y, w.hub.books.runOut env y = true →
          w.hub.books.shadowed env y = false := fun y hy =>
        Bool.eq_false_iff.mpr fun hsh => hno ⟨hx, hkept, Or.inr ⟨y, hy, hsh⟩⟩
      have hself : w.hub.books.shadowed env x = false :=
        Bool.eq_false_iff.mpr fun hsh => hno ⟨hx, hkept, Or.inl hsh⟩
      have hstill : ∀ (b : Books) (y : ConnId), b.Sound → b.shadowed env x = false →
          (b.erase y).shadowed env x = false := fun b y hb hbx =>
        Bool.eq_false_iff.mpr fun hsh => by
          rw [Books.shadowed_of_erase hb hsh] at hbx
          cases hbx
      rcases removeClient_books (Q := fun b => b.Sweeping env latest ∧ b.shadowed env x = false)
        (fun b y ⟨hsw, hbx⟩ hy => ⟨hsw.erase (hsw.quiet y hy), hstill b y hsw.sound hbx⟩)
        (fun b ⟨hsw, hbx⟩ => ⟨hsw.erase hbx, hstill b x hsw.sound hbx⟩)
        ⟨⟨hi.sound, hquiet, fun u c hl hu _ => hi.current u c hl hu⟩, hself⟩ hs with
        hk | ⟨-, ⟨hsw, -⟩, hsh, hgone⟩
      · rw [hk] at hkept
        cases hkept
      · obtain ⟨hsk, hck⟩ := hsw.done (runOut_of_none (hgone hx).2)
        exact hi.carry (fun y => present_of_sheds hsh) hsk hck
  · have hxn : w.hub.get x = none := by simpa [has] using hx
    rw [removeClient_absent hxn] at hs
    cases hs
    exact hi.sameIds (.of_books (books_withdraw x))

/-- Every event that removes and renames no shadowed connection. -/
theorem step (hi : Indexed w latest) (hadm : w.Admits i)
    (hno : ¬ w.hub.Unindexes i.env i.event)
    (hs : w.hub.step i.env n i.event = some h') :
    Indexed (w.after i h') (noteGreeting latest (greeting w.hub i.env h' i.event)) := by
  obtain ⟨env, e⟩ := i
  obtain ⟨-, hadm⟩ := hadm
  cases e with
  | connect x ip => exact hi.connect hadm hno hs
  | frame x msg => exact hi.frame hno hs
  | close x => exact hi.close hno hs
  | geo x code country city =>
      exact hi.sameIds (.of_books (Option.some.inj hs ▸ books_setClientGeo ..))
  | adminBan u s => exact hi.sameIds (.of_books (Option.some.inj hs ▸ books_adminBan ..))
  | adminUnban u => exact hi.sameIds (.of_books (Option.some.inj hs ▸ books_adminUnban ..))
  | adminUnbanIp ip =>
      exact hi.sameIds (.of_books (Option.some.inj hs ▸ books_adminUnbanIp ..))
  | claim r => exact hi.sameIds (.of_books (Option.some.inj hs ▸ books_federationClaim ..))
  | applyClaim x base r =>
      exact hi.sameIds (.of_books (Option.some.inj hs ▸ books_federationApplyClaim ..))

end Indexed

-- ======================================================================== runs

/-- The hub with the latest sender of a `Hello` for each user. -/
def helloMachine (sys : Sys) : Machine (World × (UserId → Option ConnId)) Input :=
  (hubMachine sys).watch (fun _ => none) fun latest w i w' =>
    noteGreeting latest (greeting w.hub i.env w'.hub i.event)

/-- The index at a hub: an entry points at a connection that goes by its
user, and the latest to say `Hello` for a user, while it is there and goes
by it, has the entry. -/
def IndexAgrees (h : SimpleHub) (latest : UserId → Option ConnId) : Prop :=
  (∀ u c, h.byUser.get? u = some c → (h.get c).map (·.userId) = some u)
    ∧ ∀ u c, latest u = some c → (h.get c).map (·.userId) = some u →
      h.byUser.get? u = some c

/-- In every run whose events remove and rename no shadowed connection, the
index agrees with the hellos. -/
theorem index_agrees {sys : Sys} {p : World × (UserId → Option ConnId)}
    (h : ((helloMachine sys).guard fun p i => ¬ p.1.hub.Unindexes i.env i.event).Reach p) :
    IndexAgrees p.1.hub p.2 := by
  have hi : Indexed p.1 p.2 := by
    refine h.invariant (I := fun p => Indexed p.1 p.2) ?_ ?_
    · rintro ⟨w, latest⟩ ⟨hw, hl⟩
      cases hw
      cases hl
      refine ⟨fun x hx => ?_, fun u c hc => ?_, fun u c hc => ?_, fun u c hc _ => ?_⟩
      · cases hx
      · cases hc
      · cases hc
      · cases hc
    · rintro ⟨w, latest⟩ i ⟨w', latest'⟩ - hi ⟨hno, ⟨hadm, n, hub, hs, hw⟩, hl⟩
      dsimp only at hw hl hi hno hadm hs ⊢
      subst hw
      subst hl
      exact hi.step hadm hno hs
  have huser : ∀ x, p.1.hub.books.user x = (p.1.hub.get x).map (·.userId) := fun x => by
    rw [Books.user, books, Option.map_map]
    rfl
  refine ⟨fun u c hc => ?_, fun u c hl hc => ?_⟩
  · rw [← huser]
    exact hi.sound u c hc
  · rw [← huser] at hc
    exact hi.current u c hl hc

/-- The `Hello` of a message. -/
def hello? : ClientMsg → Option SimpleHub.HelloIn
  | .hello m => some m
  | _ => none

theorem mem_hello? {msg : ClientMsg} {m : SimpleHub.HelloIn} :
    m ∈ hello? msg ↔ msg = .hello m := by
  cases msg <;> simp [hello?]

instance (h : SimpleHub) (env : Env) :
    Decidable (∃ x, h.books.runOut env x = true ∧ h.books.shadowed env x = true) :=
  decidable_of_iff (∃ x ∈ h.expired env, h.books.shadowed env x = true)
    (by simp only [SimpleHub.runOut_books])

instance (msg : ClientMsg) (P : SimpleHub.HelloIn → Prop) [DecidablePred P] :
    Decidable (∃ m, msg = .hello m ∧ P m) :=
  decidable_of_iff (∃ m ∈ hello? msg, P m) (by simp only [mem_hello?])

instance (h : SimpleHub) (env : Env) : DecidablePred (h.Unindexes env)
  | .connect _ _ => inferInstanceAs (Decidable (∃ _, _))
  | .frame _ _ => inferInstanceAs (Decidable ((∃ _, _) ∨ ∃ _, _))
  | .close _ => inferInstanceAs (Decidable (_ ∧ _ ∧ (_ ∨ ∃ _, _)))
  | .geo .. | .adminBan .. | .adminUnban _ | .adminUnbanIp _ | .claim _ | .applyClaim .. =>
      .isFalse id

/-- A second tab of `A` has the first removed and is matched with `B`; its line
breaks, a third takes over its hold, and `B` leaves for good. -/
def threeTabs : List Input := script
  [(0, .connect 1 ""), (0, .connect 2 ""),
    (1, .frame 1 (.hello ⟨"A", "", "", "", [], false, ""⟩)),
    (1, .frame 2 (.hello ⟨"B", "", "", "", [], false, ""⟩)),
    (2, .connect 3 ""), (2, .frame 3 (.hello ⟨"A", "", "", "", [], false, ""⟩)),
    (3, .frame 3 (.spin "")), (3, .frame 2 (.spin "")), (1000, .close 3), (2000, .connect 4 ""),
    (2001, .frame 4 (.hello ⟨"A", "", "", "", [], false, ""⟩)), (3000, .close 2),
    (50000, .frame 4 .ping)]

/-- The index goes from tab to tab, and `B` is out of it. -/
theorem index_agrees_connected : ∃ p,
    ((helloMachine plainSys).guard fun p i => ¬ p.1.hub.Unindexes i.env i.event).Reach p
      ∧ p.2 "A" = some 4 ∧ p.1.hub.byUser.get? "A" = some 4 ∧ p.2 "B" = some 2
      ∧ p.1.hub.byUser.get? "B" = none ∧ IndexAgrees p.1.hub p.2 := by
  have hrun : (Machine.follow (Machine.guardNext (fun p i => ¬ p.1.hub.Unindexes i.env i.event)
      (Machine.watchNext (World.advance 2) fun latest w i w' =>
        noteGreeting latest (greeting w.hub i.env w'.hub i.event)))
      (World.start plainSys, fun _ => none) threeTabs).any (fun p =>
        decide (p.2 "A" = some 4 ∧ p.2 "B" = some 2
          ∧ (p.1.hub.get 4).map (·.userId) = some "A" ∧ p.1.hub.byUser.get? "B" = none)) = true := by
    decide
  have hstart : ((helloMachine plainSys).guard fun p i =>
      ¬ p.1.hub.Unindexes i.env i.event).start (World.start plainSys, fun _ => none) := ⟨rfl, rfl⟩
  obtain ⟨p, hreach, htest⟩ := Machine.exists_reach
    (Machine.guardNext_step (Machine.watchNext_step advance_step)) hstart hrun
  obtain ⟨hA, hB, huser, hnone⟩ := of_decide_eq_true htest
  have hagrees := index_agrees hreach
  exact ⟨p, hreach, hA, hagrees.2 "A" 4 hA huser, hB, hnone, hagrees⟩

/-- A second tab takes over a user whose first tab is in a live match, and
the first tab's hold runs out. -/
def twoTabs : List Input := script
  [(0, .connect 1 ""), (0, .connect 2 ""),
    (1, .frame 1 (.hello ⟨"A", "", "", "", [], false, ""⟩)),
    (2, .frame 1 (.spin "")), (2, .frame 2 (.spin "")), (3000, .connect 3 ""),
    (3001, .frame 3 (.hello ⟨"A", "", "", "", [], false, ""⟩)), (50000, .frame 2 .ping)]

/-- The sweep took the second tab's index entry. -/
theorem second_tab_unindexed : ∃ p, (helloMachine plainSys).Reach p
    ∧ ¬ IndexAgrees p.1.hub p.2 := by
  obtain ⟨p, hp, ht⟩ := @reach_of_watched_replay _ plainSys 2 twoTabs
    (fun _ => none)
    (fun latest w i w' => noteGreeting latest (greeting w.hub i.env w'.hub i.event))
    (fun p => decide (p.2 "A" = some 3)
      && decide ((p.1.hub.get 3).map (·.userId) = some "A")
      && decide (p.1.hub.byUser.get? "A" = none)) (by decide)
  simp only [Bool.and_eq_true, decide_eq_true_eq] at ht
  obtain ⟨⟨hl, hu⟩, hnone⟩ := ht
  refine ⟨p, hp, fun h => ?_⟩
  rw [h.2 "A" 3 hl hu] at hnone
  cases hnone

end Ruletka
