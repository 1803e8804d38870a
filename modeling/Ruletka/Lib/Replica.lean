/-
Replicas that keep the newest entries of what they have heard of.

All entries are said once and under different keys. A replica says something
by putting it at the end and dropping from the front, and hears of more by
merging. What it keeps is then a function of the set it has heard of, however
the entries came: the newest of them, if whatever a replica says is newer than
what it holds at that moment.
-/
import Ruletka.Lib.Recent

namespace Ruletka.Recent

variable {K V R : Type} {key : V → K} {rank : V → R}

/-- Every entry once, under its own key. -/
def Unrivalled (key : V → K) (said : List V) : Prop := said.Pairwise fun v w => key v ≠ key w

theorem Unrivalled.eq_of_key {said : List V} (hu : Unrivalled key said) {v w : V} (hv : v ∈ said)
    (hw : w ∈ said) (hkey : key v = key w) : v = w := by
  have : Std.Symm fun v w : V => key v ≠ key w := ⟨fun _ _ h => h.symm⟩
  by_contra hne
  exact hu.forall hv hw hne hkey

theorem Unrivalled.push {said : List V} (hu : Unrivalled key said) {v : V}
    (hkey : ∀ w ∈ said, key w ≠ key v) : Unrivalled key (said ++ [v]) := by
  refine List.pairwise_append.mpr ⟨hu, List.pairwise_singleton _ _, fun w hw x hx => ?_⟩
  cases List.mem_singleton.mp hx
  exact hkey w hw

variable [LinearOrder K] [LinearOrder R]

-- ================================================================== sorted logs

/-- A log in order, without two entries under one key, is what it keeps. -/
theorem ranked_of_sorted (hs : Separates key rank) {l : List V}
    (hsort : l.Pairwise fun v w => rank v < rank w) (hkeys : Unrivalled key l) :
    ranked rank (lastWins key l) = l := by
  have hmem : ∀ v, v ∈ ranked rank (lastWins key l) ↔ v ∈ l := by
    intro v
    rw [mem_ranked]
    refine ⟨fun h => (held_some h).2, fun hv => ?_⟩
    obtain ⟨w, hw⟩ : ∃ w, held key l (key v) = some w := held_isSome hv
    obtain ⟨hkey, hwl⟩ := held_some hw
    rw [hw, hkeys.eq_of_key hwl hv hkey]
  have hnd : l.Nodup := hkeys.imp fun h heq => h (congrArg key heq)
  have hnd' : (ranked rank (lastWins key l)).Nodup :=
    (List.mergeSort_perm _ _).nodup_iff.mpr (nodup_values l)
  refine ((List.perm_ext_iff_of_nodup hnd' hnd).mpr hmem).eq_of_pairwise
    (fun v w _ _ hvw hwv => absurd hvw hwv.asymm) (sorted_ranked hs l) hsort

/-- What is kept is in order. -/
theorem sorted_newest (hs : Separates key rank) (n : Nat) (l : List V) :
    (newest key rank n l).Pairwise fun v w => rank v < rank w :=
  (sorted_ranked hs l).sublist (List.drop_sublist _ _)

/-- What is kept has no two entries under one key. -/
theorem keys_newest (hs : Separates key rank) (n : Nat) (l : List V) :
    Unrivalled key (newest key rank n l) := by
  refine (sorted_newest hs n l).imp_of_mem fun {v w} hv hw hlt heq => ?_
  have hheld := ((mem_newest hs).mp hv).1
  rw [heq, ((mem_newest hs).mp hw).1] at hheld
  cases hheld
  exact absurd hlt (lt_irrefl _)

-- ===================================================================== replicas

namespace Unrivalled

variable {said l m : List V}

/-- Logs of what was said agree. -/
theorem agree (hu : Unrivalled key said) (hl : ∀ v ∈ l, v ∈ said) (hm : ∀ v ∈ m, v ∈ said) :
    Agree key l m := by
  intro k v hv w hw
  obtain ⟨hkey, hmem⟩ := held_some hv
  obtain ⟨hkey', hmem'⟩ := held_some hw
  exact hu.eq_of_key (hl v hmem) (hm w hmem') (hkey.trans hkey'.symm)

theorem holds_iff_mem (hu : Unrivalled key said) (hl : ∀ v ∈ l, v ∈ said) {v : V} :
    Holds key l v ↔ v ∈ l := by
  refine ⟨fun h => (held_some h).2, fun hv => ?_⟩
  obtain ⟨w, hw⟩ : ∃ w, held key l (key v) = some w := held_isSome hv
  obtain ⟨hkey, hmem⟩ := held_some hw
  rwa [hu.eq_of_key (hl w hmem) (hl v hv) hkey] at hw

/-- Dropping the oldest before a merge drops nothing that would stay. -/
theorem newest_join (hs : Separates key rank) (hu : Unrivalled key said)
    (hl : ∀ v ∈ l, v ∈ said) (hm : ∀ v ∈ m, v ∈ said) (n : Nat) :
    newest key rank n (newest key rank n l ++ newest key rank n m) = newest key rank n (l ++ m) := by
  have hnil : ∀ v ∈ ([] : List V), v ∈ said := fun _ hv => absurd hv List.not_mem_nil
  have hm' : ∀ v ∈ newest key rank n m, v ∈ said := fun v hv => hm v (mem_of_mem_newest hs hv)
  have hleft := (kept_of_agree (n := n) (hu.agree hnil hl) (hu.agree hnil hm')
    (hu.agree hl hm')).newest_left hs
  have hright := (kept_of_agree (n := n) (hu.agree hl hnil) (hu.agree hl hm)
    (hu.agree hnil hm)).newest_right hs
  rw [List.nil_append] at hleft hright
  rw [hleft, hright, List.append_nil]

end Unrivalled

/-- A replica keeps the newest `n` of what it has heard of, and that was said. -/
structure Tracks (key : V → K) (rank : V → R) (n : Nat) (said heard kept : List V) : Prop where
  kept : kept = newest key rank n heard
  said : ∀ v ∈ heard, v ∈ said

namespace Tracks

variable {n : Nat} {said heard heard' kept kept' : List V}

theorem nil (hs : Separates key rank) (hn : 0 < n) (said : List V) :
    Tracks key rank n said [] [] where
  kept := ((newest_eq_nil_iff hs hn).mpr rfl).symm
  said _ hv := absurd hv List.not_mem_nil

theorem grow (h : Tracks key rank n said heard kept) {said' : List V} (hsub : said ⊆ said') :
    Tracks key rank n said' heard kept where
  kept := h.kept
  said v hv := hsub (h.said v hv)

/-- Two replicas are merged. -/
theorem join (hs : Separates key rank) (hu : Unrivalled key said)
    (h : Tracks key rank n said heard kept) (h' : Tracks key rank n said heard' kept') :
    Tracks key rank n said (heard ++ heard') (newest key rank n (kept ++ kept')) where
  kept := by rw [h.kept, h'.kept, hu.newest_join hs h.said h'.said]
  said v hv := (List.mem_append.mp hv).elim (h.said v) (h'.said v)

/-- Something new is said, and it is newer than all that is kept. -/
theorem push (hs : Separates key rank) (hu : Unrivalled key said)
    (h : Tracks key rank n said heard kept) {v : V} (hkey : ∀ w ∈ said, key w ≠ key v)
    (hlast : ∀ w ∈ kept, rank w < rank v) :
    Tracks key rank n (said ++ [v]) (heard ++ [v]) (lastN n (kept ++ [v])) where
  kept := by
    have hsaid : ∀ w ∈ heard, w ∈ said ++ [v] := fun w hw => List.mem_append_left _ (h.said w hw)
    have hv : ∀ w ∈ [v], w ∈ said ++ [v] := fun w hw => List.mem_append_right _ hw
    have hnil : ∀ w ∈ ([] : List V), w ∈ said ++ [v] := fun _ hw => absurd hw List.not_mem_nil
    have hu' := hu.push hkey
    have hleft := (kept_of_agree (n := n) (hu'.agree hnil hsaid) (hu'.agree hnil hv)
      (hu'.agree hsaid hv)).newest_left hs
    rw [List.nil_append] at hleft
    have hsort : (kept ++ [v]).Pairwise fun w x => rank w < rank x := by
      refine List.pairwise_append.mpr ⟨?_, List.pairwise_singleton _ _, fun w hw x hx => ?_⟩
      · rw [h.kept]
        exact sorted_newest hs n heard
      · cases List.mem_singleton.mp hx
        exact hlast w hw
    have hkeys : Unrivalled key (kept ++ [v]) := by
      refine List.pairwise_append.mpr ⟨?_, List.pairwise_singleton _ _, fun w hw x hx => ?_⟩
      · rw [h.kept]
        exact keys_newest hs n heard
      · cases List.mem_singleton.mp hx
        rw [h.kept] at hw
        exact hkey w (h.said w (mem_of_mem_newest hs hw))
    rw [← hleft, ← h.kept, newest, ranked_of_sorted hs hsort hkeys]
  said w hw := by
    rcases List.mem_append.mp hw with hw | hw
    · exact List.mem_append_left [v] (h.said w hw)
    · exact List.mem_append_right said hw

/-- Replicas that have heard of the same entries keep the same. -/
theorem eq_of_mem_iff (hs : Separates key rank) (hu : Unrivalled key said)
    (h : Tracks key rank n said heard kept) (h' : Tracks key rank n said heard' kept')
    (hmem : ∀ v, v ∈ heard ↔ v ∈ heard') : kept = kept' := by
  have hholds : ∀ v, Holds key heard v ↔ Holds key heard' v := fun v => by
    rw [hu.holds_iff_mem h.said, hu.holds_iff_mem h'.said, hmem v]
  rw [h.kept, h'.kept]
  exact newest_eq_of hs (fun v hv hno => absurd ((hholds v).mp hv) hno)
    fun v hv hno => absurd ((hholds v).mpr hv) hno

end Tracks

end Ruletka.Recent
