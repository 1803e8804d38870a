/-
What the body of an offer says about the offer.

The fields of fixed size stand first, then the language as it is, then every
tag behind a byte that no text contains. So the body tells where the language
ends and the tags are, but nothing in it tells a missing language from an
empty one.
-/
import Ruletka.Contract.Identity
import Mathlib.Data.Nat.ModEq

namespace Ruletka.Contract

-- ============================================================== digits of a number

/-- A number below a power of the base is known by its digits. -/
theorem mod_pow_eq_of_digits {n m : Nat} (k : Nat)
    (h : ∀ i < k, n / 256 ^ i % 256 = m / 256 ^ i % 256) : n % 256 ^ k = m % 256 ^ k := by
  induction k with
  | zero => rw [pow_zero, Nat.mod_one, Nat.mod_one]
  | succ k ih =>
      have hlow := ih fun i hi => h i (Nat.lt_succ_of_lt hi)
      rw [Nat.mod_pow_succ, Nat.mod_pow_succ, hlow, h k (Nat.lt_succ_self k)]

theorem mod_of_ofNat {n m : Nat} (h : UInt8.ofNat n = UInt8.ofNat m) : n % 256 = m % 256 := by
  have h' := congrArg UInt8.toNat h
  rwa [UInt8.toNat_ofNat', UInt8.toNat_ofNat'] at h'

theorem leBytes_inj {n m : Nat} (hn : n < 2 ^ 64) (hm : m < 2 ^ 64)
    (h : leBytes n = leBytes m) : n = m := by
  have hdigits := mod_pow_eq_of_digits 8 fun i hi =>
    mod_of_ofNat (List.map_inj_left.mp h i (List.mem_range.mpr hi))
  rwa [Nat.mod_eq_of_lt (by simpa using hn), Nat.mod_eq_of_lt (by simpa using hm)] at hdigits

theorem bytes_inj {a b : Bytes32} (h : Bytes32.bytes a = Bytes32.bytes b) : a = b := by
  have hdigits := @mod_pow_eq_of_digits a.val b.val 32 fun i hi => by
    have hi' := mod_of_ofNat (List.map_inj_left.mp h (31 - i) (List.mem_range.mpr (by omega)))
    rwa [show 31 - (31 - i) = i by omega] at hi'
  have hpow : (256 : Nat) ^ 32 = 2 ^ 256 := by decide +kernel
  rw [hpow, Nat.mod_eq_of_lt a.isLt, Nat.mod_eq_of_lt b.isLt] at hdigits
  exact Fin.ext hdigits

@[simp]
theorem length_leBytes (n : Nat) : (leBytes n).length = 8 := rfl

@[simp]
theorem length_bytes (b : Bytes32) : (Bytes32.bytes b).length = 32 := rfl

-- =================================================================== texts and tags

theorem text_inj {s t : String} (h : text s = text t) : s = t :=
  String.toByteArray_inj.mp (ByteArray.ext (Array.toList_inj.mp h))

theorem text_eq (s : String) : text s = s.toList.flatMap String.utf8EncodeChar := by
  show s.toByteArray.data.toList = _
  rw [← String.utf8Encode_toList]
  exact List.toList_data_toByteArray

theorem tag_notMem_utf8EncodeChar (c : Char) : (0xff : UInt8) ∉ String.utf8EncodeChar c := by
  have hbyte : ∀ n, n < 0xff → (0xff : UInt8) ≠ UInt8.ofNat n := by
    intro n hn h
    have h' := mod_of_ofNat (show UInt8.ofNat 0xff = UInt8.ofNat n from h)
    omega
  unfold String.utf8EncodeChar
  dsimp only
  intro h
  split at h
  · simp only [List.mem_singleton] at h
    exact hbyte _ (by omega) h
  split at h
  · simp only [List.mem_cons, List.not_mem_nil, or_false] at h
    rcases h with h | h
    · exact hbyte _ (by omega) h
    · exact hbyte _ (by omega) h
  split at h
  · simp only [List.mem_cons, List.not_mem_nil, or_false] at h
    rcases h with h | h | h
    · exact hbyte _ (by omega) h
    · exact hbyte _ (by omega) h
    · exact hbyte _ (by omega) h
  · simp only [List.mem_cons, List.not_mem_nil, or_false] at h
    rcases h with h | h | h | h
    · exact hbyte _ (by omega) h
    · exact hbyte _ (by omega) h
    · exact hbyte _ (by omega) h
    · exact hbyte _ (by omega) h

/-- The byte in front of a tag is in no text. -/
theorem tag_notMem_text (s : String) : (0xff : UInt8) ∉ text s := by
  rw [text_eq, List.mem_flatMap]
  intro ⟨c, _, hc⟩
  exact tag_notMem_utf8EncodeChar c hc

/-- The end of a body. -/
def taggedTexts (tags : List String) : Bytes := tags.flatMap fun t => 0xff :: text t

/-- The text in front of the tags ends where the first tag begins. -/
theorem takeWhile_text_append (s : String) (tags : List String) :
    (text s ++ taggedTexts tags).takeWhile (· ≠ 0xff) = text s := by
  have htext : ∀ b ∈ text s, decide (b ≠ 0xff) = true := fun b hb =>
    decide_eq_true fun h => tag_notMem_text s (h ▸ hb)
  have hrest : (taggedTexts tags).takeWhile (· ≠ 0xff) = [] := by
    cases tags with
    | nil => rfl
    | cons t tags => exact List.takeWhile_cons_of_neg (by simp)
  rw [List.takeWhile_append_of_pos htext, hrest, List.append_nil]

/-- The text and the tags behind it are read off the bytes. -/
theorem text_append_inj {s t : String} {tags tags' : List String}
    (h : text s ++ taggedTexts tags = text t ++ taggedTexts tags') : s = t ∧ tags = tags' := by
  have hst : s = t := by
    apply text_inj
    rw [← takeWhile_text_append s tags, h, takeWhile_text_append]
  subst hst
  refine ⟨rfl, ?_⟩
  have hrest := List.append_cancel_left h
  clear h
  induction tags generalizing tags' with
  | nil =>
      cases tags' with
      | nil => rfl
      | cons t' tags' => cases hrest
  | cons u tags ih =>
      cases tags' with
      | nil => cases hrest
      | cons t' tags' =>
          have hcons : text u ++ taggedTexts tags = text t' ++ taggedTexts tags' :=
            List.tail_eq_of_cons_eq hrest
          have hut : u = t' := by
            apply text_inj
            rw [← takeWhile_text_append u tags, hcons, takeWhile_text_append]
          subst hut
          rw [ih (List.append_cancel_left hcons)]

-- ========================================================================= the body

/-- The key is one of the scheme, and the numbers fit eight bytes. -/
structure WaitingOffer.Fits (o : WaitingOffer) : Prop where
  key : o.verifyingKey.length = 32
  version : o.version < 2 ^ 64
  heartbeat : o.heartbeatMs < 2 ^ 64

/-- The same offer but for the signature. -/
def WaitingOffer.SameMeaning (a b : WaitingOffer) : Prop := { a with sig := b.sig } = b

theorem signingBody_eq (o : WaitingOffer) : o.signingBody
    = Bytes32.bytes o.peerId ++ (o.verifyingKey ++ (leBytes o.version ++ (leBytes o.heartbeatMs
      ++ (Bytes32.bytes o.sessionSeed
      ++ ([if o.prefs.wantsText then 1 else 0, if o.prefs.wantsVideo then 1 else 0]
      ++ (text (o.prefs.lang.getD "") ++ taggedTexts o.prefs.tags)))))) := by
  have hlang : (o.prefs.lang.map text).getD [] = text (o.prefs.lang.getD "") := by
    cases o.prefs.lang with
    | none => rfl
    | some l => rfl
  unfold WaitingOffer.signingBody taggedTexts
  simp only [List.append_assoc, hlang]

/-- Two bodies are the same when the offers are, an empty language counting
as none. -/
theorem signingBody_eq_iff {a b : WaitingOffer} (ha : a.Fits) (hb : b.Fits) :
    a.signingBody = b.signingBody ↔
      a.SameMeaning { b with prefs := { b.prefs with lang := a.prefs.lang } }
        ∧ a.prefs.lang.getD "" = b.prefs.lang.getD "" := by
  constructor
  · intro h
    rw [signingBody_eq, signingBody_eq] at h
    obtain ⟨hpeer, h⟩ := List.append_inj h (by simp)
    obtain ⟨hkey, h⟩ := List.append_inj h (ha.key.trans hb.key.symm)
    obtain ⟨hversion, h⟩ := List.append_inj h (by simp)
    obtain ⟨hheartbeat, h⟩ := List.append_inj h (by simp)
    obtain ⟨hseed, h⟩ := List.append_inj h (by simp)
    obtain ⟨hflags, h⟩ := List.append_inj h rfl
    obtain ⟨hlang, htags⟩ := text_append_inj h
    have hflag : ∀ x y : Bool, (if x then (1 : UInt8) else 0) = (if y then 1 else 0) → x = y := by
      decide
    have htext := hflag _ _ (List.head_eq_of_cons_eq hflags)
    have hvideo := hflag _ _ (List.head_eq_of_cons_eq (List.tail_eq_of_cons_eq hflags))
    refine ⟨?_, hlang⟩
    obtain ⟨peer, key, version, heartbeat, ⟨lang, tags, wantsText, wantsVideo⟩, seed, sig⟩ := a
    obtain ⟨peer', key', version', heartbeat', ⟨lang', tags', wantsText', wantsVideo'⟩, seed',
      sig'⟩ := b
    cases bytes_inj hpeer
    cases hkey
    cases leBytes_inj ha.version hb.version hversion
    cases leBytes_inj ha.heartbeat hb.heartbeat hheartbeat
    cases bytes_inj hseed
    cases htext
    cases hvideo
    cases htags
    rfl
  · intro ⟨hsame, hlang⟩
    obtain ⟨peer, key, version, heartbeat, ⟨lang, tags, wantsText, wantsVideo⟩, seed, sig⟩ := a
    obtain ⟨peer', key', version', heartbeat', ⟨lang', tags', wantsText', wantsVideo'⟩, seed',
      sig'⟩ := b
    cases hsame
    rw [signingBody_eq, signingBody_eq, hlang]

/-- **Signed meaning**: the body of an offer is that of no other offer,
whatever the signatures, when the offer names a language. -/
theorem signingBody_binds_iff {a : WaitingOffer} (ha : a.Fits) :
    (∀ b : WaitingOffer, b.Fits → a.signingBody = b.signingBody → a.SameMeaning b)
      ↔ ∃ l, a.prefs.lang = some l ∧ l ≠ "" := by
  constructor
  · intro h
    -- the offer with the other spelling of no language
    have hother : ∀ lang : Option String, a.prefs.lang.getD "" = lang.getD "" →
        a.prefs.lang = lang := by
      intro lang hlang
      let b : WaitingOffer := { a with prefs := { a.prefs with lang := lang } }
      have hb : b.Fits := ⟨ha.key, ha.version, ha.heartbeat⟩
      have hsame : a.SameMeaning b := h b hb ((signingBody_eq_iff ha hb).mpr ⟨rfl, hlang⟩)
      exact congrArg (·.prefs.lang) hsame
    cases hl : a.prefs.lang with
    | none =>
        have := hother (some "") (by rw [hl]; rfl)
        rw [hl] at this
        cases this
    | some l =>
        refine ⟨l, rfl, fun hempty => ?_⟩
        have := hother none (by rw [hl, hempty]; rfl)
        rw [hl] at this
        cases this
  · intro ⟨l, hl, hne⟩ b hb hbody
    obtain ⟨hsame, hlang⟩ := (signingBody_eq_iff ha hb).mp hbody
    have hlang' : b.prefs.lang = a.prefs.lang := by
      rw [hl, Option.getD_some] at hlang
      cases hb' : b.prefs.lang with
      | none =>
          rw [hb'] at hlang
          exact absurd hlang hne
      | some l' =>
          rw [hb', Option.getD_some] at hlang
          rw [hl, hlang]
    rw [← hlang'] at hsame
    exact hsame

/-- An offer for talk in any language. -/
def plainOffer : WaitingOffer :=
  ⟨1, List.replicate 32 7, 1, 1000, ⟨none, ["chess"], true, true⟩, 2, []⟩

/-- The same offer with this language. -/
def WaitingOffer.withLang (o : WaitingOffer) (lang : String) : WaitingOffer :=
  { o with prefs := { o.prefs with lang := some lang } }

/-- The empty language can be written in, and the signature goes on to hold. -/
theorem signed_language_changes : ∃ a b : WaitingOffer, a.Fits ∧ b.Fits
    ∧ a.signingBody = b.signingBody ∧ a.prefs.lang = none ∧ b.prefs.lang = some ""
    ∧ ∀ ed : Ed25519, ed.verifyOffer a = true → ed.verifyOffer b = true := by
  have hfits : plainOffer.Fits := ⟨rfl, by decide, by decide⟩
  have hbody : plainOffer.signingBody = (plainOffer.withLang "").signingBody := rfl
  refine ⟨plainOffer, plainOffer.withLang "", hfits,
    ⟨hfits.key, hfits.version, hfits.heartbeat⟩, hbody, rfl, rfl, ?_⟩
  intro ed h
  unfold Ed25519.verifyOffer at h ⊢
  rw [← hbody]
  exact h

/-- With a language, the signature of one tag is not one of its halves. -/
theorem signingBody_binds_english : (plainOffer.withLang "en").signingBody
    ≠ { plainOffer with prefs := ⟨some "en", ["che", "ss"], true, true⟩ }.signingBody := by
  intro h
  have hbinds := (signingBody_binds_iff (a := plainOffer.withLang "en")
    ⟨rfl, by decide, by decide⟩).mpr ⟨"en", rfl, by decide⟩
  have hsame := hbinds _ ⟨rfl, by decide, by decide⟩ h
  exact absurd (congrArg (·.prefs.tags) hsame) (by decide)

end Ruletka.Contract
